import Mathlib.Algebra.Group.Nat.Defs
import Mathlib.Algebra.Group.Int.Defs
import PerlJava.Java.Cast
import PerlJava.Proofs.Perl.NumericLiteral

/-!
# Conversions of integer literals

An integer literal is converted to another type of numbers by a suffix, and to a truth value by its
spelling. Java reads an octal literal as octal only where the suffix leaves it an integer; a literal
of a fraction is decimal, whatever digit it begins with. So of the octal literals only those of one
digit, zeros in front apart, keep their number as fractions.
-/

namespace PerlJava.Java

open Regex
open Perl (digitChars digit_facts)

/-! ### What literals denote -/

/-- The number that digits stand for, the most significant one first. -/
def valueIn (base : Nat) (digits : List Nat) : Nat :=
  digits.foldl (fun n d => base * n + d) 0

def digit? (c : Char) : Option Nat :=
  if c.isDigit then some (c.toNat - '0'.toNat) else none

/-- The least number for which a type has no literal: the next one after the integers, and the least
fraction that is rounded to infinity. -/
def NumberType.bound : NumberType → Nat
  | integer => 2 ^ 31
  | long => 2 ^ 63
  | float => (2 ^ 25 - 1) * 2 ^ 103
  | double => (2 ^ 54 - 1) * (2 ^ 97) ^ 10

def decimal? (t : NumberType) (digits : List Nat) : Option (NumberType × Int) :=
  if valueIn 10 digits < t.bound then some (t, valueIn 10 digits) else none

/-- The number of an octal literal, whose digits give the bits of a long. -/
def octal? (digits : List Nat) : Option (NumberType × Int) :=
  let n := valueIn 8 digits
  if digits.all (· < 8) ∧ n < 2 ^ 64 then some (.long, if n < 2 ^ 63 then n else n - 2 ^ 64)
  else none

/-- The number of a literal with a suffix. -/
def numberOf? : (suffix : Char) → (digits : List Nat) → Option (NumberType × Int)
  | _, [] => none
  | 'l', 0 :: d :: others => octal? (d :: others)
  | 'l', digits => decimal? .long digits
  | 'f', digits => decimal? .float digits
  | 'd', digits => decimal? .double digits
  | _, _ => none

/-- What a literal with a suffix denotes in Java, before it is rounded. -/
def denoted? (literal : List Char) : Option (NumberType × Int) := do
  numberOf? (← literal.getLast?) (← literal.dropLast.mapM digit?)

/-- A decimal or octal integer literal of Perl. -/
inductive IntegerLiteral where
  | decimal (n : Perl.Whole)
  | octal (digits : List (Fin 8))

namespace IntegerLiteral

def numeral : IntegerLiteral → Perl.Numeral
  | decimal n => .whole n
  | octal digits => .octal digits

def code (n : IntegerLiteral) : Fragment :=
  { value := String.ofList n.numeral.text, shape := .scalar .integer }

def base : IntegerLiteral → Nat
  | decimal _ => 10
  | octal _ => 8

def digits : IntegerLiteral → List Nat
  | decimal .zero => [0]
  | decimal (.digits first others) => (first.val + 1) :: others.map (·.val)
  | octal digits => 0 :: digits.map (·.val)

/-- The number that Perl reads. -/
def value (n : IntegerLiteral) : Nat :=
  valueIn n.base n.digits

/-- The conversion to a type gives a literal of that type for the same number. -/
def KeptAs (n : IntegerLiteral) (t : NumberType) : Prop :=
  ∃ text, n.code.toNumberType t = .ok text ∧ denoted? text.toList = some (t, (n.value : Int))

end IntegerLiteral

/-! ### Numbers in two bases -/

theorem valueIn_append (base : Nat) (digits : List Nat) (d : Nat) :
    valueIn base (digits ++ [d]) = base * valueIn base digits + d := by
  simp [valueIn]

theorem valueIn_zero_cons (base : Nat) (digits : List Nat) :
    valueIn base (0 :: digits) = valueIn base digits := by
  simp [valueIn]

theorem octal_le_decimal (digits : List Nat) : valueIn 8 digits ≤ valueIn 10 digits
    ∧ (valueIn 8 digits = 0 → valueIn 10 digits = 0) := by
  induction digits using List.reverseRecOn with
  | nil => decide
  | append_singleton digits d ih =>
    simp only [valueIn_append]
    omega

/-- Digits mean the same as octal and as decimal ones if there is only one, zeros in front apart. -/
theorem octal_eq_decimal_iff {digits : List Nat} (octal : ∀ d ∈ digits, d < 8) :
    valueIn 10 digits = valueIn 8 digits ↔ valueIn 8 digits < 8 := by
  induction digits using List.reverseRecOn with
  | nil => decide
  | append_singleton digits d =>
    have small : d < 8 := octal d (by simp)
    have least := octal_le_decimal digits
    simp only [valueIn_append]
    omega

/-! ### Reading digits -/

theorem digit?_digitChar : ∀ d : Fin 10, digit? d.val.digitChar = some d.val := by
  decide

theorem mapM_digit? {digits : List Nat} (small : ∀ d ∈ digits, d < 10) :
    (digits.map Nat.digitChar).mapM digit? = some digits := by
  induction digits with
  | nil => rfl
  | cons d digits ih =>
    obtain ⟨first, others⟩ := List.forall_mem_cons.1 small
    rw [List.map_cons, List.mapM_cons, digit?_digitChar ⟨d, first⟩, ih others]
    rfl

theorem denoted?_append {digits : List Nat} (small : ∀ d ∈ digits, d < 10) (suffix : Char) :
    denoted? (digits.map Nat.digitChar ++ [suffix]) = numberOf? suffix digits := by
  simp [denoted?, mapM_digit? small]

theorem numberOf?_fraction {digits : List Nat} (some_ : digits ≠ []) :
    numberOf? 'f' digits = decimal? .float digits
      ∧ numberOf? 'd' digits = decimal? .double digits := by
  cases digits with
  | nil => exact absurd rfl some_
  | cons => simp [numberOf?]

theorem prefers_textEnd : (Regex.anchor .textEnd).Prefers [] [] := by
  refine ⟨fun {_ fuel p k after b} passes ahead long found => ?_⟩
  obtain rfl := passes.unique (.refl p.cursor)
  simpa [Regex.run, Anchor.holds, ahead] using found

/-- An expression that prefers a text is matched by it. -/
theorem matchesStart_of_prefers {r : Regex} {text : List Char} (prefers : r.Prefers text []) :
    r.matchesStart (String.ofList text) = true := by
  have all : (Cursor.ofList text).rest = text ++ [] := by simp [Cursor.ofList]
  obtain ⟨after, passes, ahead⟩ := Cursor.Passes.exists_of_rest all
  rw [matchesStart, matchText, Cursor.ofText, String.toList_ofList, matchAt,
    prefers.matchIn passes ahead (by simp [Cursor.ofList])]
  rfl

theorem digitsOnly_matches {text : List Char} (all : Perl.AllDigits text) :
    digitsOnly.matchesStart (String.ofList text) = true := by
  have digits : (many (oneOf [.digit])).Prefers text ([] ++ []) :=
    Perl.prefers_digits all (by simp [Perl.StopsDigits]) (Nat.zero_le _)
  have whole := digits.seq prefers_textEnd
  rw [List.append_nil] at whole
  exact matchesStart_of_prefers whole

theorem integerLiteral_matches {text : List Char} (some_ : text ≠ [])
    (all : Perl.AllDigits text) :
    integerLiteral.matchesStart (String.ofList text) = true := by
  have digits : (many1 (oneOf [.digit])).Prefers text ([] ++ []) :=
    Perl.prefers_digits all (by simp [Perl.StopsDigits]) (List.length_pos_iff.2 some_)
  have skipped : (opt (char '0' ++ oneOf [.char 'x', .char 'b', .char 'X', .char 'B'])).Prefers []
      (text ++ ([] ++ [])) := by
    refine prefers_opt (by simp [HAppend.hAppend, Append.append]) <|
      misses_of_requires ['x', 'b', 'X', 'B'] (by decide) fun c among here => ?_
    have digit : Text.isDigit c = true := all c (by simpa using here)
    have other : (!Text.isDigit c) = true := List.all_eq_true.1 (by decide :
      ['x', 'b', 'X', 'B'].all (!Text.isDigit ·) = true) c among
    simp [digit] at other
  have whole := (skipped.seq digits).seq prefers_textEnd
  rw [List.append_nil, List.nil_append] at whole
  exact matchesStart_of_prefers whole

namespace IntegerLiteral

variable (n : IntegerLiteral)

theorem text_eq : n.numeral.text = n.digits.map Nat.digitChar := by
  cases n with
  | decimal n => cases n <;> simp [numeral, digits, Perl.Numeral.text, Perl.Whole.text, digitChars]
  | octal ds => simp [numeral, digits, Perl.Numeral.text, digitChars]

theorem digits_small : ∀ d ∈ n.digits, d < 10 := by
  cases n with
  | decimal n =>
    cases n with
    | zero => simp [digits]
    | digits first others => simp [digits]; omega
  | octal ds => simp [digits]; omega

theorem digits_ne_nil : n.digits ≠ [] := by
  cases n with
  | decimal n => cases n <;> simp [digits]
  | octal ds => simp [digits]

theorem isDigit_text : ∀ c ∈ n.digits.map Nat.digitChar, Text.isDigit c = true := by
  intro c member
  obtain ⟨d, among, rfl⟩ := List.mem_map.1 member
  exact (digit_facts ⟨d, n.digits_small d among⟩).1

theorem toNumberType_code {t : NumberType} (other : t ≠ .integer) :
    n.code.toNumberType t = .ok (String.ofList (n.digits.map Nat.digitChar) ++ t.suffix) := by
  have literal : integerLiteral.matchesStart n.code.value = true := by
    rw [code, text_eq]
    exact integerLiteral_matches (by simp [n.digits_ne_nil]) n.isDigit_text
  rw [← text_eq]
  cases t with
  | integer => exact absurd rfl other
  | long | float | double =>
    change Except.ok (if integerLiteral.matchesStart n.code.value = true then _ else _) = _
    rw [if_pos literal]
    rfl

theorem keptAs_iff {t : NumberType} (other : t ≠ .integer) (suffix : Char)
    (is : t.suffix = String.singleton suffix) :
    n.KeptAs t ↔ numberOf? suffix n.digits = some (t, (n.value : Int)) := by
  simp [KeptAs, n.toNumberType_code other, is, denoted?_append n.digits_small]

/-- As a fraction a literal keeps its number if that is in range and, if the literal is octal, less
than eight. -/
theorem decimal?_iff {t : NumberType} :
    decimal? t n.digits = some (t, (n.value : Int))
      ↔ n.value < t.bound ∧ (n.base = 8 → n.value < 8) := by
  rw [decimal?]
  cases n with
  | decimal n => simp [value, base]
  | octal ds =>
    have same : valueIn 10 (ds.map (·.val)) = valueIn 8 (ds.map (·.val)) ↔ _ :=
      octal_eq_decimal_iff (by simp)
    simp only [value, base, digits, valueIn_zero_cons, true_imp_iff]
    split <;> simp <;> omega

theorem keptAs_long : n.KeptAs .long ↔ n.value < NumberType.long.bound := by
  rw [n.keptAs_iff (by decide) 'l' rfl]
  cases n with
  | decimal n =>
    cases n with
    | zero => decide
    | digits first others => simp [numberOf?, digits, value, base, decimal?]
  | octal ds =>
    cases ds with
    | nil => decide
    | cons d ds =>
      have octal : (d.val :: ds.map (·.val)).all (· < 8) = true := by simp
      simp only [numberOf?, digits, List.map_cons, octal?, octal, value, base, valueIn_zero_cons,
        NumberType.bound]
      generalize valueIn 8 (d.val :: ds.map (·.val)) = m
      by_cases small : m < 2 ^ 63
      · have below : m < 2 ^ 64 := by omega
        simp only [small, below, if_true, and_self]
      · simp only [small, if_false]
        split
        · refine iff_of_false (fun same => ?_) id
          have equal := (Prod.mk.inj (Option.some.inj same)).2
          omega
        · simp

theorem digits_eq_zero : n.numeral.text = ['0'] ↔ n.digits = [0] := by
  rw [text_eq]
  refine ⟨fun same => ?_, fun same => by rw [same]; rfl⟩
  have read := mapM_digit? n.digits_small
  rw [same] at read
  exact (Option.some.inj read).symm

theorem toBoolean_code :
    n.code.toBoolean = .ok (if n.numeral.text = ['0'] then "false" else "true") := by
  have digits : digitsOnly.matchesStart n.code.value = true := by
    rw [code, text_eq]
    exact digitsOnly_matches n.isDigit_text
  have zero : n.code.value == "0" ↔ n.numeral.text = ['0'] := by
    simp [code, ← String.toList_inj]
  change (if digitsOnly.matchesStart n.code.value = true then
    Except.ok (if n.code.value == "0" then "false" else "true") else _) = _
  rw [if_pos digits]
  simp only [zero]

/-- An integer literal keeps its number as a long wherever there is such a long. As a fraction it does
so, within the range of the type, if it is decimal or has only one octal digit, zeros in front apart;
and its truth is that of its number unless it is a zero written with several digits. -/
theorem conversions_keep_number_iff :
    (n.KeptAs .long ↔ n.value < NumberType.long.bound)
      ∧ (n.KeptAs .float ↔ n.value < NumberType.float.bound ∧ (n.base = 8 → n.value < 8))
      ∧ (n.KeptAs .double ↔ n.value < NumberType.double.bound ∧ (n.base = 8 → n.value < 8))
      ∧ (n.code.toBoolean = .ok (if n.value = 0 then "false" else "true")
        ↔ (n.value = 0 → n.numeral.text = ['0'])) := by
  refine ⟨n.keptAs_long, ?_, ?_, ?_⟩
  · rw [n.keptAs_iff (by decide) 'f' rfl, ← decimal?_iff, (numberOf?_fraction n.digits_ne_nil).1]
  · rw [n.keptAs_iff (by decide) 'd' rfl, ← decimal?_iff, (numberOf?_fraction n.digits_ne_nil).2]
  · rw [toBoolean_code]
    by_cases zero : n.numeral.text = ['0']
    · have value : n.value = 0 := by simp [value, n.digits_eq_zero.1 zero, valueIn]
      simp [zero, value]
    · simp [zero]

/-- An octal literal of two digits becomes a decimal fraction, and a zero of two digits becomes true. -/
theorem octal_becomes_decimal :
    (octal [1, 0]).value = 8 ∧ (octal [1, 0]).code.toNumberType .double = .ok "010d"
      ∧ denoted? "010d".toList = some (.double, 10)
      ∧ (octal [0]).value = 0 ∧ (octal [0]).code.toBoolean = .ok "true" := by
  refine ⟨by decide, ?_, by decide, by decide, ?_⟩
  · rw [toNumberType_code _ (by decide)]
    rfl
  · rw [toBoolean_code]
    rfl

end IntegerLiteral

end PerlJava.Java
