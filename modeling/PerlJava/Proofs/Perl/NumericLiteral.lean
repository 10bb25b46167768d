import PerlJava.Proofs.Perl.FirstLexeme
import PerlJava.Proofs.Perl.SourcePlaces

/-!
# Numeric literals

What the scanner reads of a numeric literal of Perl. Integers and fractions are read as one token each.
Of an integer with an exponent this holds if the exponent has no sign and is itself an integer as the
scanner reads them; of a fraction with an exponent, and of hexadecimal and binary integers, it never
holds.
-/

namespace PerlJava.Perl

open Regex

/-! ### Literals -/

def digitChars {n : Nat} (digits : List (Fin n)) : List Char :=
  digits.map (·.val.digitChar)

/-- A decimal integer without a leading zero. -/
inductive Whole where
  | zero
  | digits (first : Fin 9) (others : List (Fin 10))

def Whole.text : Whole → List Char
  | zero => ['0']
  | digits first others => (first.val + 1).digitChar :: digitChars others

structure Fraction where
  whole : List (Fin 10)
  decimals : List (Fin 10)
  some_ : whole ≠ [] ∨ decimals ≠ []

def Fraction.text (f : Fraction) : List Char :=
  digitChars f.whole ++ '.' :: digitChars f.decimals

/-- The exponent of a literal: whether its mark is a capital letter, whether it has a sign and which,
and its digits. -/
structure Exponent where
  capital : Bool
  negative : Option Bool
  first : Fin 10
  others : List (Fin 10)

namespace Exponent

def mark (e : Exponent) : Char :=
  if e.capital then 'E' else 'e'

def sign (e : Exponent) : List Char :=
  (e.negative.map fun negative => if negative then '-' else '+').toList

def text (e : Exponent) : List Char :=
  e.mark :: e.sign ++ e.first.val.digitChar :: digitChars e.others

/-- How many digits behind the first one are read: after a zero, octal ones only. -/
def readable (e : Exponent) : List (Fin 10) :=
  if e.first = 0 then e.others.takeWhile (·.val < 8) else e.others

end Exponent

/-- A digit of a hexadecimal integer, perhaps a capital letter. -/
def hexChar (capital : Bool) (d : Fin 16) : Char :=
  if capital then d.val.digitChar.toUpper else d.val.digitChar

inductive Numeral where
  | whole (n : Whole)
  | octal (digits : List (Fin 8))
  | hexadecimal (capital : Bool) (digits : List (Bool × Fin 16))
  | binary (capital : Bool) (digits : List (Fin 2))
  | fraction (f : Fraction)
  | scaledWhole (n : Whole) (e : Exponent)
  | scaledFraction (f : Fraction) (e : Exponent)

namespace Numeral

def text : Numeral → List Char
  | whole n => n.text
  | octal digits => '0' :: digitChars digits
  | hexadecimal capital digits =>
    '0' :: (if capital then 'X' else 'x') :: digits.map fun (capital, d) => hexChar capital d
  | binary capital digits => '0' :: (if capital then 'B' else 'b') :: digitChars digits
  | fraction f => f.text
  | scaledWhole n e => n.text ++ e.text
  | scaledFraction f e => f.text ++ e.text

/-- Whether the scanner reads a literal as one token. -/
def isRead : Numeral → Bool
  | whole _ | octal _ | fraction _ => true
  | hexadecimal .. | binary .. | scaledFraction .. => false
  | scaledWhole _ e => e.negative.isNone && e.readable.length == e.others.length

end Numeral

/-! ### What the rules prefer -/

abbrev AllDigits (text : List Char) : Prop :=
  ∀ c ∈ text, Text.isDigit c = true

/-- A text does not begin with a digit. -/
def StopsDigits (rest : List Char) : Prop :=
  ∀ c ∈ rest.head?, Text.isDigit c = false

def octalSet : CharSet := { items := [.range '0' '7'] }

def nonzeroSet : CharSet := { items := [.range '1' '9'] }

theorem contains_digit (c : Char) : CharSet.contains { items := [.digit] } c = Text.isDigit c := by
  simp [CharSet.contains, ClassItem.contains]

theorem isDigit_of_range {low high c : Char} (from_ : '0' ≤ low) (upTo : high ≤ '9')
    (within : CharSet.contains { items := [.range low high] } c = true) : Text.isDigit c = true := by
  obtain ⟨above, below⟩ : low ≤ c ∧ c ≤ high := by
    simpa [CharSet.contains, ClassItem.contains] using within
  have bounded : c ≤ '9' := Char.le_trans below upTo
  have ascii : c.toNat < 128 := Nat.lt_of_le_of_lt bounded (by decide)
  simpa [Text.isDigit, Text.isAsciiDigit, ascii] using ⟨Char.le_trans from_ above, bounded⟩

theorem digit_facts : ∀ d : Fin 10, Text.isDigit d.val.digitChar = true
    ∧ octalSet.contains d.val.digitChar = decide (d.val < 8)
    ∧ nonzeroSet.contains d.val.digitChar = decide (d.val ≠ 0)
    ∧ (lit "+-").begins d.val.digitChar = false := by
  decide

section

variable {n : Nat} {digits : List (Fin n)} {c : Char}

theorem isDigit_of_mem (small : n ≤ 10) (member : c ∈ digitChars digits) : Text.isDigit c = true := by
  obtain ⟨d, -, rfl⟩ := List.mem_map.1 member
  exact (digit_facts (d.castLE small)).1

theorem octal_of_mem (small : n ≤ 10) (low : ∀ d ∈ digits, d.val < 8)
    (member : c ∈ digitChars digits) : octalSet.contains c = true := by
  obtain ⟨d, among, rfl⟩ := List.mem_map.1 member
  simpa [low d among] using (digit_facts (d.castLE small)).2.1

end

theorem Whole.isDigit (n : Whole) : AllDigits n.text := by
  cases n with
  | zero => exact List.forall_mem_singleton.2 (by decide)
  | digits first others =>
    exact List.forall_mem_cons.2 ⟨(digit_facts first.succ).1, fun _ => isDigit_of_mem (Nat.le_refl _)⟩

variable {rest : List Char}

theorem StopsDigits.octal (stops : StopsDigits rest) :
    ∀ c ∈ rest.head?, octalSet.contains c = false := by
  intro c first
  refine Bool.eq_false_iff.2 fun octal => ?_
  simpa [stops c first] using isDigit_of_range (by decide) (by decide) octal

theorem stopsDigits_cons {c : Char} (other : Text.isDigit c = false) : StopsDigits (c :: rest) := by
  simpa [StopsDigits] using other

/-- Digits end where the first other character stands. -/
theorem digits_unique {first second after : List Char} (one : AllDigits first)
    (two : AllDigits second) (stops : StopsDigits after) (halts : StopsDigits rest)
    (same : first ++ after = second ++ rest) : first = second ∧ after = rest := by
  have none {text : List Char} (stops : StopsDigits text) : text.takeWhile Text.isDigit = [] := by
    cases text with
    | nil => rfl
    | cons c text => simp [stops c rfl]
  have taken := congrArg (List.takeWhile Text.isDigit) same
  rw [List.takeWhile_append_of_pos one, List.takeWhile_append_of_pos two, none stops, none halts] at taken
  obtain rfl : first = second := by simpa using taken
  exact ⟨rfl, List.append_cancel_left same⟩

theorem prefers_digits {least : Nat} {digits : List Char} (all : AllDigits digits)
    (stops : StopsDigits rest) (enough : least ≤ digits.length) :
    (Regex.rep least none false (oneOf [.digit])).Prefers digits rest :=
  prefers_rep_one (by simpa [contains_digit] using all)
    (fun c first => (contains_digit c).trans (stops c first)) enough

theorem admits_digits {least : Nat} {digits : List Char}
    (admits : (Regex.rep least none false (oneOf [.digit])).Admits digits) :
    AllDigits digits := by
  intro c member
  cases admits with
  | rep all =>
    obtain ⟨t, among, here⟩ := List.mem_flatten.1 member
    obtain ⟨d, rfl, contains⟩ := (all t among).of_one
    obtain rfl := List.mem_singleton.1 here
    rwa [contains_digit] at contains

/-- After a zero, an integer goes as far as there are octal digits. -/
theorem prefers_octal {digits : List Char} (octal : ∀ c ∈ digits, octalSet.contains c = true)
    (stops : ∀ c ∈ rest.head?, octalSet.contains c = false) :
    Rule.integer.Prefers ('0' :: digits) rest := by
  refine .right (misses_of_begins (by decide) (by decide)) <|
    .right (misses_of_begins (by decide) (by decide)) <|
    .right (misses_of_begins (by decide) (by decide)) ?_
  exact (prefers_one rfl).seq (prefers_rep_one octal stops (Nat.zero_le _))

theorem prefers_nonzero {c : Char} {digits : List Char} (first : nonzeroSet.contains c = true)
    (all : AllDigits digits) (stops : StopsDigits rest) :
    Rule.integer.Prefers (c :: digits) rest :=
  .left ((prefers_one first).seq (prefers_digits all stops (Nat.zero_le _)))

theorem prefers_whole (n : Whole) (stops : StopsDigits rest) : Rule.integer.Prefers n.text rest := by
  cases n with
  | zero => exact prefers_octal (by simp) stops.octal
  | digits first others =>
    have nonzero := (digit_facts first.succ).2.2.1
    exact prefers_nonzero (by simpa using nonzero) (fun _ => isDigit_of_mem (Nat.le_refl _)) stops

/-- An integer that begins with a digit has no other characters. -/
theorem admits_integer {text : List Char} (admits : Rule.integer.Admits text) :
    (∃ others, text = 'o' :: others) ∨ AllDigits text := by
  obtain nonzero | admits := admits.of_orElse
  · obtain ⟨t, u, rfl, first, others⟩ := nonzero.of_append
    obtain ⟨c, rfl, within⟩ := first.of_one
    have isDigit := isDigit_of_range (by decide) (by decide) within
    exact .inr (List.forall_mem_append.2 ⟨List.forall_mem_singleton.2 isDigit, admits_digits others⟩)
  obtain lettered | admits := admits.of_orElse
  · obtain ⟨t, u, rfl, first, -⟩ := lettered.of_append
    obtain ⟨t, v, rfl, first, -⟩ := first.of_append
    exact .inl ⟨v ++ u, by simp [first.eq_of_char]⟩
  obtain lettered | admits := admits.of_orElse
  · obtain ⟨t, u, rfl, first, -⟩ := lettered.of_append
    obtain ⟨t, v, rfl, first, -⟩ := first.of_append
    exact .inl ⟨v ++ u, by simp [first.eq_of_char]⟩
  · obtain ⟨t, u, rfl, first, others⟩ := admits.of_append
    obtain rfl := first.eq_of_char
    refine .inr (List.forall_mem_cons.2 ⟨by decide, fun c member => ?_⟩)
    obtain ⟨ts, rfl, all⟩ := others.of_many
    obtain ⟨t, among, here⟩ := List.mem_flatten.1 member
    obtain ⟨d, rfl, within⟩ := (all t among).of_one
    obtain rfl := List.mem_singleton.1 here
    exact isDigit_of_range (by decide) (by decide) within

/-- A fraction without decimals is not taken for one that has some. -/
theorem misses_decimals {whole : List Char} (all : AllDigits whole) (stops : StopsDigits rest) :
    (many (oneOf [.digit]) ++ char '.' ++ Rule.digits).Misses (whole ++ '.' :: rest) := by
  rintro t admits ⟨after, same⟩
  obtain ⟨t, decimals, rfl, start, isDigits⟩ := admits.of_append
  obtain ⟨before, point, rfl, isWhole, isPoint⟩ := start.of_append
  obtain rfl := isPoint.eq_of_char
  obtain ⟨d, others, rfl⟩ : ∃ d others, decimals = d :: others :=
    List.exists_cons_of_ne_nil fun empty => absurd (isDigits.nullable empty) (by decide)
  obtain ⟨-, same⟩ : before = whole ∧ '.' :: d :: (others ++ after) = '.' :: rest :=
    digits_unique (admits_digits isWhole) all (stopsDigits_cons (by decide)) (stopsDigits_cons (by decide))
      (by simpa using same)
  obtain rfl := (List.cons.inj same).2
  simpa [stops d rfl] using admits_digits isDigits d List.mem_cons_self

theorem prefers_fraction (f : Fraction) (stops : StopsDigits rest) :
    Rule.fraction.Prefers f.text rest := by
  obtain ⟨whole, decimals, some_⟩ := f
  have digits {digits : List (Fin 10)} : AllDigits (digitChars digits) :=
    fun _ => isDigit_of_mem (Nat.le_refl _)
  have point (rest : List Char) : StopsDigits ('.' :: rest) := stopsDigits_cons (by decide)
  have split : Fraction.text ⟨whole, decimals, some_⟩ = (digitChars whole ++ ['.']) ++ digitChars decimals := by
    simp [Fraction.text]
  rw [split]
  cases decimals with
  | cons d decimals =>
    refine .left (.seq (.seq (prefers_digits digits (point _) (Nat.zero_le _)) (prefers_one rfl)) ?_)
    exact prefers_digits digits stops (by simp [digitChars])
  | nil =>
    have whole_ : 1 ≤ (digitChars whole).length := by
      simpa [digitChars, Nat.one_le_iff_ne_zero] using some_
    refine .right ?_ (.seq (.seq (prefers_digits digits (point _) whole_) (prefers_one rfl)) ?_)
    · simpa [digitChars] using misses_decimals digits stops
    · exact prefers_digits digits stops (Nat.zero_le _)

/-- An integer is only read with an exponent if one is behind it. -/
theorem misses_scientific {whole : List Char} (all : AllDigits whole)
    (some_ : whole ≠ []) (free : '.' ∉ rest) (stops : StopsDigits rest)
    (exponent : ∀ m tail, rest = m :: tail → m = 'e' ∨ m = 'E' →
      (opt (lit "+-") ++ Rule.integer).Misses tail) :
    Rule.scientific.Misses (whole ++ rest) := by
  rintro t admits ⟨after, same⟩
  obtain ⟨t, integer, rfl, start, isInteger⟩ := admits.of_append
  obtain ⟨t, sign, rfl, start, isSign⟩ := start.of_append
  obtain ⟨mantissa, mark, rfl, isMantissa, isMark⟩ := start.of_append
  obtain ⟨m, rfl, marks⟩ := isMark.of_one
  have marks : m = 'e' ∨ m = 'E' := by simpa [CharSet.contains, ClassItem.contains] using marks
  have same : mantissa ++ m :: (sign ++ integer ++ after) = whole ++ rest := by simpa using same
  have digits : AllDigits mantissa := by
    obtain whole | fraction := isMantissa.of_orElse
    · refine (admits_integer whole).resolve_left ?_
      rintro ⟨others, rfl⟩
      obtain ⟨d, more, rfl⟩ := List.exists_cons_of_ne_nil some_
      obtain ⟨rfl, -⟩ := List.cons.inj same
      exact absurd (all 'o' List.mem_cons_self) (by decide)
    · obtain ⟨c, point, member⟩ := fraction.requires ['.'] (by decide)
      obtain rfl := List.mem_singleton.1 point
      have there : '.' ∈ whole ++ rest := same ▸ List.mem_append_left _ member
      obtain digit | later := List.mem_append.1 there
      · exact absurd (all _ digit) (by decide)
      · exact absurd later free
  have notDigit : Text.isDigit m = false := by
    obtain rfl | rfl := marks <;> decide
  obtain ⟨-, same⟩ := digits_unique digits all (stopsDigits_cons notDigit) stops same
  exact exponent m _ same.symm marks _ (.seq isSign isInteger) ⟨after, rfl⟩

/-! ### Exponents -/

namespace Exponent

/-- The digits that are left where the reading of an exponent ends. -/
def unread (e : Exponent) : List (Fin 10) :=
  if e.first = 0 then e.others.dropWhile (·.val < 8) else []

theorem readable_append_unread (e : Exponent) : e.readable ++ e.unread = e.others := by
  unfold readable unread
  split
  · exact List.takeWhile_append_dropWhile
  · exact List.append_nil _

theorem unread_eq_nil_iff {e : Exponent} : e.unread = [] ↔ e.readable.length = e.others.length := by
  have lengths := congrArg List.length e.readable_append_unread
  rw [List.length_append] at lengths
  rw [← List.length_eq_zero_iff]
  omega

theorem text_of_unsigned {e : Exponent} (unsigned : e.negative = none) :
    e.text = (e.mark :: e.first.val.digitChar :: digitChars e.readable) ++ digitChars e.unread := by
  have others : digitChars e.readable ++ digitChars e.unread = digitChars e.others := by
    simp [digitChars, ← List.map_append, e.readable_append_unread]
  simp [text, sign, unsigned, others]

theorem prefers (e : Exponent) (stops : StopsDigits rest) :
    Rule.integer.Prefers (e.first.val.digitChar :: digitChars e.readable) (digitChars e.unread ++ rest) := by
  unfold readable unread
  split
  · next zero =>
    rw [zero]
    refine prefers_octal (fun c => octal_of_mem (Nat.le_refl _) fun d member => ?_) fun c first => ?_
    · simpa using List.all_eq_true.1 List.all_takeWhile d member
    · cases left : e.others.dropWhile (·.val < 8) with
      | nil => exact stops.octal c (by simpa [left, digitChars] using first)
      | cons d others =>
        have high : ¬d.val < 8 := by
          simpa [left] using List.head_dropWhile_not (fun d : Fin 10 => decide (d.val < 8)) (l := e.others) (by simp [left])
        obtain rfl : d.val.digitChar = c := by simpa [left, digitChars] using first
        simpa [high] using (digit_facts d).2.1
  · next nonzero =>
    have nonzero : nonzeroSet.contains e.first.val.digitChar = true := by
      simpa [Fin.ext_iff] using (digit_facts e.first).2.2.1.trans (decide_eq_true fun zero => nonzero (Fin.ext zero))
    exact prefers_nonzero nonzero (fun _ => isDigit_of_mem (Nat.le_refl _)) stops

end Exponent

theorem stopsDigits_exponent (e : Exponent) : StopsDigits (e.text ++ rest) := by
  refine stopsDigits_cons ?_
  unfold Exponent.mark
  split <;> decide

theorem prefers_scaled (n : Whole) (e : Exponent) (stops : StopsDigits rest) :
    Rule.scientific.Prefers (n.text ++ e.mark :: e.first.val.digitChar :: digitChars e.readable)
      (digitChars e.unread ++ rest) := by
  have split : n.text ++ e.mark :: e.first.val.digitChar :: digitChars e.readable
      = ((n.text ++ [e.mark]) ++ []) ++ e.first.val.digitChar :: digitChars e.readable := by
    simp
  have marks : CharSet.contains { items := [.char 'e', .char 'E'] } e.mark = true := by
    unfold Exponent.mark
    split <;> decide
  have notSign : (lit "+-").Misses (e.first.val.digitChar :: digitChars e.readable ++ (digitChars e.unread ++ rest)) :=
    misses_of_begins (by decide) (digit_facts e.first).2.2.2
  rw [split]
  refine .seq (.seq (.seq (.left (prefers_whole n ?_)) (prefers_one marks)) ?_) (e.prefers stops)
  · refine stopsDigits_cons ?_
    unfold Exponent.mark
    split <;> decide
  · exact prefers_opt (by rintro _ ⟨⟩) notSign

/-! ### The first token -/

/-- Where numbers begin; the rules before those of numbers pass these characters by. -/
def numberStarts : List Char :=
  ['.', '0', '1', '2', '3', '4', '5', '6', '7', '8', '9']

theorem numberStarts_pass : ∀ c ∈ numberStarts, Scanner.isSpace c = false
    ∧ ∀ r ∈ [Rule.newlines, Rule.packageUse], Scanner.passesBy c r = true := by
  simp only [numberStarts, List.forall_mem_cons, List.not_mem_nil, false_implies, implies_true]
  decide

theorem digit_starts : ∀ d : Fin 10, d.val.digitChar ∈ numberStarts := by
  decide

variable {s : Scanner} {text : List Char}

/-- The first token of a scanner has a kind and a text, and another text is left after it. -/
def Scanner.Starts (s : Scanner) (kind : String) (text rest : List Char) : Prop :=
  ∃ after, s.next false = ⟨[], some (s.tokenHere kind (String.ofList text)), { s with cursor := after }⟩
    ∧ Scanner.Ahead { s with cursor := after } rest ∧ after.position = s.cursor.position + text.length

theorem starts_float (ahead : s.Ahead (text ++ rest)) (first : ∃ c ∈ text.head?, c ∈ numberStarts)
    (free : '#' ∉ text ++ rest) (prefers : Rule.floatNumber.pattern.Prefers text rest) :
    s.Starts "FLOAT_NUMBER" text rest := by
  obtain ⟨c, head, first⟩ := first
  obtain ⟨text, rfl⟩ := List.head?_eq_some_iff.1 head
  obtain ⟨notSpace, passes⟩ := numberStarts_pass c first
  exact Scanner.next_of_rule [.newlines, .packageUse] ahead notSpace rfl
    (fun q member => Scanner.misses_of_passesBy (passes q member) free) prefers rfl fun _ => rfl

theorem starts_int (ahead : s.Ahead (text ++ rest)) (first : ∃ c ∈ text.head?, c ∈ numberStarts)
    (free : '#' ∉ text ++ rest) (missed : Rule.floatNumber.pattern.Misses (text ++ rest))
    (prefers : Rule.integer.Prefers text rest) : s.Starts "INT_NUMBER" text rest := by
  obtain ⟨c, head, first⟩ := first
  obtain ⟨text, rfl⟩ := List.head?_eq_some_iff.1 head
  obtain ⟨notSpace, passes⟩ := numberStarts_pass c first
  refine Scanner.next_of_rule [.newlines, .packageUse, .floatNumber] ahead notSpace rfl
    (fun q member => ?_) prefers rfl fun _ => rfl
  obtain member | member : q ∈ [Rule.newlines, Rule.packageUse] ∨ q = .floatNumber := by
    simpa [or_assoc] using member
  · exact Scanner.misses_of_passesBy (passes q member) free
  · exact member ▸ missed

theorem Whole.starts (n : Whole) : ∃ c ∈ n.text.head?, c ∈ numberStarts := by
  cases n with
  | zero => exact ⟨'0', rfl, by decide⟩
  | digits first => exact ⟨_, rfl, digit_starts first.succ⟩

theorem Fraction.starts (f : Fraction) : ∃ c ∈ f.text.head?, c ∈ numberStarts := by
  obtain ⟨whole, decimals, -⟩ := f
  cases whole with
  | nil => exact ⟨'.', rfl, by decide⟩
  | cons d whole => exact ⟨_, rfl, digit_starts d⟩

/-- Fractions and integers with an exponent are missed together. -/
theorem misses_float {input : List Char} (free : '.' ∉ input) (missed : Rule.scientific.Misses input) :
    Rule.floatNumber.pattern.Misses input := by
  intro t admits
  obtain fraction | scientific := admits.of_orElse
  · exact misses_of_requires ['.'] (by decide) (by simpa using free) t fraction
  · exact missed t scientific

/-! ### Literals without a point -/

/-- Neither the mark of a comment nor a point stands in a text. -/
def Plain (text : List Char) : Prop :=
  ∀ c ∈ text, c ≠ '#' ∧ c ≠ '.'

theorem Plain.free (plain : Plain text) : '#' ∉ text ∧ '.' ∉ text :=
  ⟨fun member => (plain _ member).1 rfl, fun member => (plain _ member).2 rfl⟩

theorem Plain.append (one : Plain text) (two : Plain rest) : Plain (text ++ rest) :=
  List.forall_mem_append.2 ⟨one, two⟩

theorem plain_digits (digits : AllDigits text) : Plain text := by
  refine fun c member => ⟨?_, ?_⟩ <;> rintro rfl <;> exact absurd (digits _ member) (by decide)

theorem plain_digitChars {n : Nat} {digits : List (Fin n)} (small : n ≤ 10) : Plain (digitChars digits) :=
  plain_digits fun _ => isDigit_of_mem small

theorem plain_semi : Plain [';'] := by
  simp [Plain]

theorem hexChar_plain : ∀ capital d, hexChar capital d ≠ '#' ∧ hexChar capital d ≠ '.' := by
  decide

theorem Exponent.plain (e : Exponent) : Plain e.text := by
  have start : Plain (e.mark :: e.sign) := by
    obtain ⟨capital, negative, -, -⟩ := e
    cases capital <;> rcases negative with _ | _ | _ <;> simp [Plain, Exponent.mark, Exponent.sign]
  have digits : Plain (digitChars (e.first :: e.others)) := plain_digitChars (Nat.le_refl _)
  exact start.append digits

theorem Fraction.free (f : Fraction) : '#' ∉ f.text := by
  simp [Fraction.text, (plain_digitChars (Nat.le_refl _)).free]

/-- An integer with no point and no exponent after it. -/
theorem starts_integer (ahead : s.Ahead (text ++ rest)) (first : ∃ c ∈ text.head?, c ∈ numberStarts)
    (digits : AllDigits text) (plain : Plain rest) (stops : StopsDigits rest)
    (exponent : ∀ m tail, rest = m :: tail → m = 'e' ∨ m = 'E' →
      (opt (lit "+-") ++ Rule.integer).Misses tail)
    (prefers : Rule.integer.Prefers text rest) : s.Starts "INT_NUMBER" text rest := by
  obtain ⟨noComment, noPoint⟩ := ((plain_digits digits).append plain).free
  refine starts_int ahead first noComment (misses_float noPoint ?_) prefers
  refine misses_scientific digits ?_ plain.free.2 stops exponent
  rintro rfl
  obtain ⟨c, none, -⟩ := first
  cases none

theorem letter_facts : ∀ letter ∈ ['x', 'X', 'b', 'B'],
    Text.isDigit letter = false ∧ letter ≠ 'e' ∧ letter ≠ 'E' ∧ letter ≠ '#' ∧ letter ≠ '.' := by
  simp only [List.forall_mem_cons, List.not_mem_nil, false_implies, implies_true]
  decide

/-- A letter after a zero is not read with it. -/
theorem starts_prefixed {letter : Char} (ahead : s.Ahead ('0' :: letter :: rest ++ [';']))
    (known : letter ∈ ['x', 'X', 'b', 'B']) (plain : Plain rest) :
    s.Starts "INT_NUMBER" ['0'] (letter :: rest ++ [';']) := by
  obtain ⟨notDigit, small, capital, letter_⟩ := letter_facts letter known
  have stops : StopsDigits (letter :: rest ++ [';']) := stopsDigits_cons notDigit
  have plain : Plain (letter :: rest ++ [';']) := .append (List.forall_mem_cons.2 ⟨letter_, plain⟩) plain_semi
  refine starts_integer ahead ⟨'0', rfl, by decide⟩ Whole.zero.isDigit plain stops ?_
    (prefers_whole .zero stops)
  rintro m tail same (rfl | rfl) <;> simp [small, capital] at same

theorem starts_scaled (n : Whole) {e : Exponent} (unsigned : e.negative = none)
    (ahead : s.Ahead (n.text ++ e.text ++ [';'])) :
    s.Starts "FLOAT_NUMBER" (n.text ++ e.mark :: e.first.val.digitChar :: digitChars e.readable)
      (digitChars e.unread ++ [';']) := by
  have split : n.text ++ e.text ++ [';']
      = (n.text ++ e.mark :: e.first.val.digitChar :: digitChars e.readable) ++ (digitChars e.unread ++ [';']) := by
    simp [e.text_of_unsigned unsigned]
  obtain ⟨noComment, noPoint⟩ := (((plain_digits n.isDigit).append e.plain).append plain_semi).free
  rw [split] at ahead noComment noPoint
  refine starts_float ahead ?_ noComment (.right ?_ (prefers_scaled n e (stopsDigits_cons (by decide))))
  · obtain ⟨c, first, known⟩ := n.starts
    exact ⟨c, by simp [Option.mem_def.1 first], known⟩
  · exact misses_of_requires ['.'] (by decide) (by simpa using noPoint)

/-- A sign is not taken for the two signs that the exponent of a number may have. -/
theorem misses_sign {digits : List Char} (negative : Bool) (all : AllDigits digits) :
    (opt (lit "+-") ++ Rule.integer).Misses ((if negative then '-' else '+') :: digits ++ [';']) := by
  refine misses_opt_append ?_ (misses_of_begins (by decide) (by cases negative <;> decide))
  cases negative with
  | true => exact misses_of_begins (by decide) (by decide)
  | false =>
    refine misses_of_requires ['-'] (by decide) ?_
    have noSign : '-' ∉ digits := fun member => absurd (all _ member) (by decide)
    simpa using noSign

/-- An exponent with a sign is not read with the integer before it. -/
theorem starts_signed (n : Whole) {e : Exponent} {negative : Bool} (signed : e.negative = some negative)
    (ahead : s.Ahead (n.text ++ e.text ++ [';'])) : s.Starts "INT_NUMBER" n.text (e.text ++ [';']) := by
  refine starts_integer (by simpa using ahead) n.starts n.isDigit (e.plain.append plain_semi)
    (stopsDigits_exponent e) ?_ (prefers_whole n (stopsDigits_exponent e))
  rintro m tail same -
  obtain ⟨-, rfl⟩ := List.cons.inj same
  have digits : ∀ c ∈ digitChars (e.first :: e.others), Text.isDigit c = true :=
    fun _ => isDigit_of_mem (Nat.le_refl _)
  simpa [Exponent.sign, signed, digitChars] using misses_sign negative digits

namespace Numeral

/-- A scanner reads a beginning of a literal first. -/
theorem starts (n : Numeral) (ahead : s.Ahead (n.text ++ [';'])) :
    ∃ kind ∈ ["INT_NUMBER", "FLOAT_NUMBER"], ∃ text rest, n.text = text ++ rest
      ∧ (rest = [] ↔ n.isRead = true) ∧ s.Starts kind text (rest ++ [';']) := by
  have semi : StopsDigits [';'] := stopsDigits_cons (by decide)
  cases n with
  | whole n =>
    refine ⟨"INT_NUMBER", by simp, n.text, [], (List.append_nil _).symm, by simp [isRead], ?_⟩
    exact starts_integer ahead n.starts n.isDigit plain_semi semi (by simp) (prefers_whole n semi)
  | octal digits =>
    refine ⟨"INT_NUMBER", by simp, '0' :: digitChars digits, [], (List.append_nil _).symm, by simp [isRead], ?_⟩
    refine starts_integer ahead ⟨'0', rfl, by decide⟩ ?_ plain_semi semi (by simp) (prefers_octal ?_ semi.octal)
    · exact List.forall_mem_cons.2 ⟨by decide, fun _ => isDigit_of_mem (by decide)⟩
    · exact fun _ => octal_of_mem (by decide) fun d _ => d.isLt
  | hexadecimal capital digits =>
    refine ⟨"INT_NUMBER", by simp, ['0'], _, rfl, by simp [isRead], ?_⟩
    refine starts_prefixed ahead (by cases capital <;> decide) fun c member => ?_
    obtain ⟨⟨upper, d⟩, -, rfl⟩ := List.mem_map.1 member
    exact hexChar_plain upper d
  | binary capital digits =>
    refine ⟨"INT_NUMBER", by simp, ['0'], _, rfl, by simp [isRead], ?_⟩
    exact starts_prefixed ahead (by cases capital <;> decide) (plain_digitChars (by decide))
  | fraction f =>
    refine ⟨"FLOAT_NUMBER", by simp, f.text, [], (List.append_nil _).symm, by simp [isRead], ?_⟩
    exact starts_float ahead f.starts (List.not_mem_append f.free (by decide)) (.left (prefers_fraction f semi))
  | scaledWhole n e =>
    cases sign : e.negative with
    | none =>
      refine ⟨"FLOAT_NUMBER", by simp, n.text ++ e.mark :: e.first.val.digitChar :: digitChars e.readable,
        digitChars e.unread, by simp [text, e.text_of_unsigned sign], ?_, ?_⟩
      · simpa [isRead, sign, digitChars] using e.unread_eq_nil_iff
      · exact starts_scaled n sign (by simpa [text] using ahead)
    | some negative =>
      refine ⟨"INT_NUMBER", by simp, n.text, e.text, rfl, by simp [isRead, sign, Exponent.text], ?_⟩
      exact starts_signed n sign (by simpa [text] using ahead)
  | scaledFraction f e =>
    refine ⟨"FLOAT_NUMBER", by simp, f.text, e.text, rfl, by simp [isRead, Exponent.text], ?_⟩
    refine starts_float (by simpa [text] using ahead) f.starts ?_ (.left (prefers_fraction f (stopsDigits_exponent e)))
    exact List.not_mem_append f.free (e.plain.append plain_semi).free.1

end Numeral

/-- A numeric literal that a semicolon follows is one token, and then comes the semicolon, if and only
if it is an integer in decimal or octal notation, a decimal fraction, or an integer with an exponent
that has no sign and no digit beyond what is readable of it. -/
theorem numeral_one_token_iff (n : Numeral) :
    (∃ kind ∈ ["INT_NUMBER", "FLOAT_NUMBER"],
      (Scanner.ofText (String.ofList (n.text ++ [';']))).delivered [false, false, false]
        = [⟨kind, String.ofList n.text, 1, 0⟩, ⟨"SEMI", ";", 1, n.text.length⟩]) ↔ n.isRead = true := by
  have ahead : (Scanner.ofText (String.ofList (n.text ++ [';']))).Ahead (n.text ++ [';']) := by
    simpa using Scanner.ahead_ofText (String.ofList (n.text ++ [';']))
  obtain ⟨kind, among, text, rest, split, read, after, next, left, position⟩ := n.starts ahead
  rw [← read]
  constructor
  · rintro ⟨kind, -, tokens⟩
    rw [Scanner.delivered, next] at tokens
    have value : text = n.text := by
      simpa [Scanner.tokenHere, String.ofList_inj] using congrArg Token.value (List.cons.inj tokens).1
    simpa [value] using split
  · rintro rfl
    obtain rfl : n.text = text := by simpa using split
    obtain ⟨semi, ended⟩ := @Scanner.next_of_operator _ false _ _ "SEMI" left (by decide)
      (by decide) (by decide) (fun _ _ => rfl) (by decide)
    refine ⟨kind, among, ?_⟩
    simp only [Scanner.delivered, next, semi, Scanner.next_at_end ended, Scanner.tokenHere, position]
    simp [Scanner.ofText, Cursor.ofText, Cursor.ofList]

/-- A hexadecimal integer is read as a zero and a name. -/
theorem hexadecimal_splits :
    (Scanner.ofText "0x1F;").delivered [false, false, false]
      = [⟨"INT_NUMBER", "0", 1, 0⟩, ⟨"ID", "x1F", 1, 1⟩, ⟨"SEMI", ";", 1, 4⟩] := by
  decide +kernel

end PerlJava.Perl
