import PerlJava.Java.Literal

/-!
# The text of a literal

A Java expression that stands for a string is a literal, or literals with operands between them. The
text between its outer quotes is looked at as a list of parts: characters, escapes and operands.
Escapes are brought into Java's set and quotes are escaped part by part, so the order of the two
does not matter.
-/

namespace PerlJava.Java.Literal

/-- Whether a character may follow a backslash in a literal. -/
def isEscape (c : Char) : Bool :=
  c == '\\' || javaEscapes.contains c

/-- Whether a character stands for itself in a literal. -/
def isPlain (c : Char) : Bool :=
  c != '"' && c != '\\' && c != '\n'

/-- What may stand between the quotes of a literal. -/
inductive Body : List Char → Prop where
  | nil : Body []
  | char {c : Char} {text : List Char} : isPlain c = true → Body text → Body (c :: text)
  | escape {c : Char} {text : List Char} : isEscape c = true → Body text → Body ('\\' :: c :: text)

/-- In a literal, a backslash after plain characters starts an escape. -/
theorem Body.isEscape_of_append {body rest after : List Char} {c : Char} (is : Body body)
    (before : List Char) (plain : ∀ d ∈ before, isPlain d = true)
    (same : body ++ '"' :: rest = before ++ '\\' :: c :: after) : isEscape c = true := by
  induction before generalizing body with
  | nil =>
    cases is with
    | nil => simp at same
    | char valid =>
      obtain ⟨rfl, -⟩ := List.cons.inj same
      exact absurd valid (by decide)
    | escape valid =>
      obtain ⟨rfl, -⟩ := List.cons.inj (List.cons.inj same).2
      exact valid
  | cons d before ih =>
    obtain ⟨first, later⟩ := List.forall_mem_cons.1 plain
    cases is with
    | nil =>
      obtain ⟨rfl, -⟩ := List.cons.inj same
      exact absurd first (by decide)
    | char _ is => exact ih is later (List.cons.inj same).2
    | escape =>
      obtain ⟨rfl, -⟩ := List.cons.inj same
      exact absurd first (by decide)

/-- The names of variables. -/
def IsName : List Char → Prop
  | [] => False
  | c :: text =>
    (Text.isAsciiLetter c = true ∨ c = '_') ∧ ∀ d ∈ text, Text.isAsciiWord d = true

/-- What may stand between two literals. -/
inductive Operand : List Char → Prop where
  | name {text : List Char} : IsName text → Operand text
  | literal {body : List Char} : Body body → Operand ('"' :: (body ++ ['"']))

inductive Concatenation : List Char → Prop where
  | literal {body : List Char} : Body body → Concatenation ('"' :: (body ++ ['"']))
  | plus {body operand rest : List Char} : Body body → Operand operand → Concatenation rest →
    Concatenation ('"' :: (body ++ '"' :: '+' :: (operand ++ '+' :: rest)))

/-- A part of the text between the outer quotes. -/
inductive Part where
  | char (c : Char)
  | escape (c : Char)
  | operand (text : List Char)
deriving Repr, DecidableEq

namespace Part

/-- How a part is written. An operand ends a literal before it and begins another after it. -/
def text : Part → List Char
  | char c => [c]
  | escape c => ['\\', c]
  | operand text => '"' :: '+' :: (text ++ ['+', '"'])

/-- Whether a part may stand between the outer quotes. An operand is a name, or characters of names
between quotes. -/
def Fits : Part → Prop
  | char c => isPlain c = true
  | escape c => isEscape c = true
  | operand text =>
    IsName text ∨ ∃ body, text = '"' :: (body ++ ['"']) ∧ ∀ c ∈ body, Text.isAsciiWord c = true

end Part

def written (parts : List Part) : List Char :=
  parts.flatMap Part.text

@[simp] theorem written_nil : written [] = [] := rfl

@[simp] theorem written_cons (p : Part) (parts : List Part) :
    written (p :: parts) = p.text ++ written parts :=
  List.flatMap_cons

@[simp] theorem written_append (first second : List Part) :
    written (first ++ second) = written first ++ written second :=
  List.flatMap_append

theorem ne_of_isAsciiWord {c d : Char} (word : Text.isAsciiWord c = true)
    (other : Text.isAsciiWord d = false) : c ≠ d := by
  rintro rfl
  simp [other] at word

theorem isPlain_of_isAsciiWord {c : Char} (word : Text.isAsciiWord c = true) :
    isPlain c = true := by
  have quote := ne_of_isAsciiWord (d := '"') word (by decide)
  have backslash := ne_of_isAsciiWord (d := '\\') word (by decide)
  have newline := ne_of_isAsciiWord (d := '\n') word (by decide)
  simp [isPlain, quote, backslash, newline]

theorem IsName.isAsciiWord {text : List Char} (name : IsName text) :
    ∀ c ∈ text, Text.isAsciiWord c = true := by
  match text, name with
  | c :: text, ⟨first, others⟩ =>
    intro d member
    obtain rfl | member := List.mem_cons.1 member
    · obtain letter | rfl := first
      · simp [Text.isAsciiWord, letter]
      · decide
    · exact others d member

theorem body_of_isPlain {text : List Char} (plain : ∀ c ∈ text, isPlain c = true) : Body text := by
  induction text with
  | nil => exact .nil
  | cons c text ih =>
    simp only [List.forall_mem_cons] at plain
    exact .char plain.1 (ih plain.2)

namespace Part

variable {rest : List Char}

/-- A part that fits may be put in front of what follows the first quote. -/
theorem Fits.concatenation {p : Part} (fits : p.Fits) (after : Concatenation ('"' :: rest)) :
    Concatenation ('"' :: (p.text ++ rest)) := by
  cases p with
  | char c =>
    cases after with
    | literal body => exact .literal (.char fits body)
    | plus body operand others => exact .plus (.char fits body) operand others
  | escape c =>
    cases after with
    | literal body => exact .literal (.escape fits body)
    | plus body operand others => exact .plus (.escape fits body) operand others
  | operand text =>
    have operand : Operand text := by
      obtain name | ⟨body, rfl, word⟩ := fits
      · exact .name name
      · exact .literal (body_of_isPlain fun c member => isPlain_of_isAsciiWord (word c member))
    simpa [Part.text] using Concatenation.plus .nil operand after

end Part

theorem concatenation_of_fits {parts : List Part} (fits : ∀ p ∈ parts, p.Fits) :
    Concatenation ('"' :: (written parts ++ ['"'])) := by
  induction parts with
  | nil => exact .literal .nil
  | cons p parts ih =>
    simp only [List.forall_mem_cons] at fits
    rw [written_cons, List.append_assoc]
    exact fits.1.concatenation (ih fits.2)

theorem body_of_fits {parts : List Part} (fits : ∀ p ∈ parts, p.Fits)
    (noOperand : ∀ operand, .operand operand ∉ parts) : Body (written parts) := by
  induction parts with
  | nil => exact .nil
  | cons p parts ih =>
    simp only [List.forall_mem_cons] at fits
    have rest := ih fits.2 fun operand later => noOperand operand (List.mem_cons_of_mem _ later)
    cases p with
    | char c => exact .char fits.1 rest
    | escape c => exact .escape fits.1 rest
    | operand operand => exact absurd List.mem_cons_self (noOperand operand)

/-! ## Escapes -/

/-- What the escape of a character becomes, as parts. -/
def escapedParts (regex : Bool) (c : Char) : List Part :=
  if javaEscapes.contains c then [.escape c]
  else if regex && (regexEscapes.contains c || Text.isLetter c) then [.escape '\\', .char c]
  else if c == '\\' then if regex then [.escape '\\', .escape '\\'] else [.escape '\\']
  else [.char c]

theorem written_escapedParts (regex : Bool) (c : Char) :
    written (escapedParts regex c) = escaped regex c := by
  unfold escapedParts escaped
  repeat' split
  all_goals simp_all [Part.text]

theorem mem_escapedParts {regex : Bool} {c : Char} {p : Part}
    (member : p ∈ escapedParts regex c) :
    (c ≠ '\\' ∧ p = .char c) ∨ ∃ d, isEscape d = true ∧ p = .escape d := by
  have notRegex : (regexEscapes.contains '\\' || Text.isLetter '\\') = false := by decide
  unfold escapedParts at member
  split at member
  · next java =>
    refine .inr ⟨c, ?_, List.mem_singleton.1 member⟩
    rw [isEscape, java, Bool.or_true]
  · split at member
    · next special =>
      have notBackslash : c ≠ '\\' := by
        rintro rfl
        simp only [notRegex, Bool.and_false, Bool.false_eq_true] at special
      obtain rfl | rfl : p = .escape '\\' ∨ p = .char c := by simpa using member
      · exact .inr ⟨'\\', rfl, rfl⟩
      · exact .inl ⟨notBackslash, rfl⟩
    · split at member
      · refine .inr ⟨'\\', rfl, ?_⟩
        cases regex <;> simpa using member
      · next other => exact .inl ⟨by simpa using other, List.mem_singleton.1 member⟩

/-- The parts of a text whose escapes are changed. -/
def fixedParts (regex : Bool) : List Char → List Part
  | [] => []
  | ['\\'] => []
  | '\\' :: c :: text => escapedParts regex c ++ fixedParts regex text
  | c :: text => .char c :: fixedParts regex text

/-- The last case of `fixedParts` is about characters that begin no escape. -/
theorem ne_backslash {c : Char} {text : List Char} (notLast : c = '\\' → text = [] → False)
    (notEscape : ∀ d rest, c = '\\' → text = d :: rest → False) : c ≠ '\\' := by
  rintro rfl
  cases text with
  | nil => exact notLast rfl rfl
  | cons d rest => exact notEscape d rest rfl rfl

theorem written_fixedParts (regex : Bool) (text : List Char) :
    written (fixedParts regex text) = fixEscapesList regex text := by
  fun_induction fixedParts regex text with
  | case1 => rfl
  | case2 => rfl
  | case3 c text ih => simp [fixEscapesList, written_escapedParts, ih]
  | case4 c text notLast notEscape ih =>
    rw [fixEscapesList]
    · simp [Part.text, ih]
    · exact notLast
    · exact notEscape

theorem mem_fixedParts {regex : Bool} {text : List Char} {p : Part}
    (member : p ∈ fixedParts regex text) :
    (∃ c ∈ text, c ≠ '\\' ∧ p = .char c) ∨ ∃ c, isEscape c = true ∧ p = .escape c := by
  fun_induction fixedParts regex text with
  | case1 => cases member
  | case2 => cases member
  | case3 c text ih =>
    obtain here | later := List.mem_append.1 member
    · exact (mem_escapedParts here).imp_left fun found => ⟨c, by simp, found⟩
    · exact (ih later).imp_left fun ⟨d, found, rest⟩ => ⟨d, by simp [found], rest⟩
  | case4 c text notLast notEscape ih =>
    obtain rfl | later := List.mem_cons.1 member
    · exact .inl ⟨c, by simp, ne_backslash notLast notEscape, rfl⟩
    · exact (ih later).imp_left fun ⟨d, found, rest⟩ => ⟨d, by simp [found], rest⟩

/-- A quote that stands for itself is escaped. -/
def Part.quote : Part → Part
  | .char '"' => .escape '"'
  | p => p

/-- The parts of a text whose escapes are changed and whose quotes are escaped. -/
def quotedParts (regex : Bool) (text : List Char) : List Part :=
  (fixedParts regex text).map Part.quote

theorem map_quote_escapedParts (regex : Bool) (c : Char) :
    (escapedParts regex c).map Part.quote = escapedParts regex c := by
  have kept {c : Char} (other : javaEscapes.contains c = false) : (Part.char c).quote = .char c := by
    rw [Part.quote]
    rintro ⟨⟩
    cases other
  unfold escapedParts
  repeat' split
  all_goals simp_all [Part.quote]

/-- Whether a part is a character or an escape as a change of escapes gives it. -/
def Part.isSimple : Part → Bool
  | .char c => c != '\\'
  | .escape _ => true
  | .operand _ => false

theorem escapeCharsList_text {p : Part} (simple : p.isSimple = true) (rest : List Char) :
    escapeCharsList ['"'] false (p.text ++ rest)
      = p.quote.text ++ escapeCharsList ['"'] false rest := by
  cases p with
  | char c =>
    have plain : (c == '\\') = false := by simpa [Part.isSimple] using simple
    by_cases quote : c = '"'
    · subst quote
      rfl
    · simp [escapeCharsList, Part.text, Part.quote, plain, quote]
  | escape c => simp [escapeCharsList, Part.text, Part.quote]
  | operand text => cases simple

theorem escapeCharsList_fixEscapesList (regex : Bool) (text : List Char) :
    escapeCharsList ['"'] false (fixEscapesList regex text) = written (quotedParts regex text) := by
  rw [← written_fixedParts, quotedParts]
  have simple : ∀ p ∈ fixedParts regex text, p.isSimple = true := by
    intro p member
    obtain ⟨c, -, notBackslash, rfl⟩ | ⟨c, -, rfl⟩ := mem_fixedParts member
    · simp [Part.isSimple, notBackslash]
    · rfl
  generalize fixedParts regex text = parts at simple ⊢
  induction parts with
  | nil => rfl
  | cons p parts ih =>
    simp only [List.forall_mem_cons] at simple
    rw [written_cons, List.map_cons, written_cons, ← ih simple.2]
    exact escapeCharsList_text simple.1 _

theorem fixEscapesList_escapeCharsList (regex : Bool) (text : List Char) :
    fixEscapesList regex (escapeCharsList ['"'] false text) = written (quotedParts regex text) := by
  rw [quotedParts]
  fun_induction fixedParts regex text with
  | case1 => rfl
  | case2 => rfl
  | case3 c text ih =>
    rw [List.map_append, map_quote_escapedParts, written_append, written_escapedParts, ← ih]
    simp [escapeCharsList, fixEscapesList]
  | case4 c text notLast notEscape ih =>
    have plain := ne_backslash notLast notEscape
    have simple : (Part.char c).isSimple = true := by simpa [Part.isSimple] using plain
    rw [List.map_cons, written_cons, ← ih]
    change fixEscapesList regex (escapeCharsList ['"'] false ((Part.char c).text ++ text)) = _
    rw [escapeCharsList_text simple]
    by_cases quote : c = '"'
    · subst quote
      rfl
    · rw [show (Part.char c).quote = .char c by simp [Part.quote, quote]]
      simp only [Part.text, List.singleton_append]
      exact fixEscapesList.eq_4 _ _ _ (fun same => absurd same plain)
        (fun _ _ same => absurd same plain)

theorem fits_quotedParts {regex : Bool} {text : List Char} (oneLine : '\n' ∉ text) :
    ∀ p ∈ quotedParts regex text, p.Fits := by
  intro q member
  obtain ⟨p, fixed, rfl⟩ := List.mem_map.1 member
  obtain ⟨c, found, plain, rfl⟩ | ⟨c, escape, rfl⟩ := mem_fixedParts fixed
  · have newline : c ≠ '\n' := fun same => oneLine (same ▸ found)
    by_cases quote : c = '"'
    · subst quote
      exact (rfl : isEscape '"' = true)
    · rw [Part.quote]
      · simp [Part.Fits, isPlain, quote, plain, newline]
      · rintro ⟨⟩
        exact quote rfl
  · exact escape

theorem operand_notMem_quotedParts {regex : Bool} {text : List Char} (operand : List Char) :
    .operand operand ∉ quotedParts regex text := by
  intro member
  obtain ⟨p, fixed, same⟩ := List.mem_map.1 member
  obtain ⟨c, -, -, rfl⟩ | ⟨c, -, rfl⟩ := mem_fixedParts fixed
  · unfold Part.quote at same
    split at same <;> cases same
  · cases same

theorem body_quotedParts {regex : Bool} {text : List Char} (oneLine : '\n' ∉ text) :
    Body (written (quotedParts regex text)) :=
  body_of_fits (fits_quotedParts oneLine) operand_notMem_quotedParts

end PerlJava.Java.Literal
