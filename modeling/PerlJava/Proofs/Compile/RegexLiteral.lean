import PerlJava.Compile.Action.Expression
import PerlJava.Proofs.Java.Interpolation
import PerlJava.Proofs.Regex.PreferredMatch
import PerlJava.Proofs.Regex.Replacement

/-!
# Regular expressions in literals

Java reads the literal that a regular expression is written as, and hands the string it stands for to
the library. That string is the expression itself, up to escapes that stand for a character in both
languages, unless an escape means something to Java alone or loses its backslash.
-/

namespace PerlJava.Java.Literal

/-! ### What a literal stands for -/

/-- The character that an escape stands for in Java. -/
def escapeValue : Char → Char
  | 't' => '\t'
  | 'b' => Char.ofNat 8
  | 'n' => '\n'
  | 'r' => '\r'
  | 'f' => Char.ofNat 12
  | c => c

/-- The string that a text between the quotes of a literal stands for. -/
def denoted : List Char → Option (List Char)
  | [] => some []
  | ['\\'] => none
  | '\\' :: c :: text => if isEscape c then (denoted text).map (escapeValue c :: ·) else none
  | c :: text => if isPlain c then (denoted text).map (c :: ·) else none

def Part.value : Part → List Char
  | .char c => [c]
  | .escape c => [escapeValue c]
  | .operand _ => []

theorem denoted_written {parts : List Part} (fits : ∀ p ∈ parts, p.Fits)
    (noOperand : ∀ operand, .operand operand ∉ parts) :
    denoted (written parts) = some (parts.flatMap Part.value) := by
  induction parts with
  | nil => rfl
  | cons p parts ih =>
    simp only [List.forall_mem_cons] at fits
    have rest := ih fits.2 fun operand later => noOperand operand (List.mem_cons_of_mem _ later)
    cases p with
    | char c =>
      have plain : isPlain c = true := fits.1
      have notEscape : c ≠ '\\' := by
        rintro rfl
        exact absurd plain (by decide)
      rw [written_cons, Part.text, List.singleton_append, denoted.eq_4 _ _ (fun same => absurd same notEscape)
        (fun _ _ same => absurd same notEscape), if_pos plain, rest]
      rfl
    | escape c =>
      have escape : isEscape c = true := fits.1
      simp [Part.text, denoted, escape, rest, Part.value]
    | operand operand => exact absurd List.mem_cons_self (noOperand operand)

/-! ### What has to be kept -/

/-- A string is a regular expression, up to escapes for blanks and quotes that may have become what
they stand for. -/
inductive Retains : List Char → List Char → Prop where
  | nil : Retains [] []
  | char {c : Char} {text string : List Char} : c ≠ '\\' → Retains text string →
    Retains (c :: text) (c :: string)
  | escape {c : Char} {text string : List Char} : Retains text string →
    Retains ('\\' :: c :: text) ('\\' :: c :: string)
  | replaced {c : Char} {text string : List Char} : c ∈ ['t', 'n', 'r', 'f', '"'] →
    Retains text string → Retains ('\\' :: c :: text) (escapeValue c :: string)

/-- Whether the escape of a character in a regular expression means the same after it is written. -/
def isFaithful (c : Char) : Bool :=
  c != 'b' && (javaEscapes.contains c || regexEscapes.contains c || Text.isLetter c || c == '\\')

/-- Whether all escapes of a regular expression are faithful. -/
def areFaithful : List Char → Bool
  | [] => true
  | ['\\'] => false
  | '\\' :: c :: text => isFaithful c && areFaithful text
  | _ :: text => areFaithful text

section Retains

variable {c : Char} {text string : List Char}

theorem Retains.of_char (keeps : Retains (c :: text) string) (plain : c ≠ '\\') :
    ∃ rest, string = c :: rest ∧ Retains text rest := by
  cases keeps with
  | char _ keeps => exact ⟨_, rfl, keeps⟩
  | escape | replaced => exact absurd rfl plain

theorem Retains.of_escape (keeps : Retains ('\\' :: c :: text) string) :
    (∃ rest, string = '\\' :: c :: rest ∧ Retains text rest)
      ∨ c ∈ ['t', 'n', 'r', 'f', '"'] ∧ ∃ rest, string = escapeValue c :: rest ∧ Retains text rest := by
  cases keeps with
  | char plain => exact absurd rfl plain
  | escape keeps => exact .inl ⟨_, rfl, keeps⟩
  | replaced among keeps => exact .inr ⟨among, _, rfl, keeps⟩

theorem escapeValue_facts : ∀ c ∈ javaEscapes, escapeValue c ≠ '\\'
    ∧ (isFaithful c = true ↔ c ∈ ['t', 'n', 'r', 'f', '"']) := by
  simp only [javaEscapes, List.forall_mem_cons, List.not_mem_nil, false_implies, implies_true]
  decide

theorem mem_javaEscapes : ∀ c ∈ ['t', 'n', 'r', 'f', '"'], c ∈ javaEscapes := by
  simp [javaEscapes]

/-- An escape is kept if it is faithful, and not otherwise. -/
theorem retains_escaped : Retains ('\\' :: c :: text) ((escapedParts true c).flatMap Part.value ++ string)
    ↔ isFaithful c = true ∧ Retains text string := by
  by_cases java : c ∈ javaEscapes
  · obtain ⟨notBackslash, faithful⟩ := escapeValue_facts c java
    have parts : (escapedParts true c).flatMap Part.value = [escapeValue c] := by
      simp [escapedParts, java, Part.value]
    rw [parts, faithful]
    refine ⟨fun keeps => ?_, fun ⟨among, keeps⟩ => .replaced among keeps⟩
    obtain ⟨rest, same, -⟩ | ⟨among, rest, same, keeps⟩ := keeps.of_escape
    · exact absurd (List.cons.inj same).1 notBackslash
    · obtain ⟨-, rfl⟩ := List.cons.inj same
      exact ⟨among, keeps⟩
  have notReplaced : c ∉ ['t', 'n', 'r', 'f', '"'] := fun among => java (mem_javaEscapes c among)
  have other : c ≠ 'b' := by
    rintro rfl
    exact java (by decide)
  have faithful : isFaithful c = (regexEscapes.contains c || Text.isLetter c || c == '\\') := by
    simp [isFaithful, java, other]
  have parts : (escapedParts true c).flatMap Part.value = if isFaithful c then ['\\', c] else [c] := by
    rw [faithful, escapedParts, if_neg (by simpa using java)]
    by_cases backslash : c = '\\'
    · subst backslash
      decide
    · cases special : regexEscapes.contains c || Text.isLetter c <;> simp [backslash, Part.value, escapeValue]
  rw [parts]
  cases kept : isFaithful c with
  | true =>
    refine ⟨fun keeps => ⟨rfl, ?_⟩, fun ⟨_, keeps⟩ => .escape keeps⟩
    obtain ⟨rest, same, keeps⟩ | ⟨among, -⟩ := keeps.of_escape
    · obtain ⟨-, rfl⟩ := List.cons.inj (List.cons.inj same).2
      exact keeps
    · exact absurd among notReplaced
  | false =>
    refine ⟨fun keeps => ?_, fun ⟨never, _⟩ => nomatch never⟩
    obtain ⟨rest, same, -⟩ | ⟨among, -⟩ := keeps.of_escape
    · obtain ⟨rfl, -⟩ := List.cons.inj same
      exact absurd kept (by decide)
    · exact absurd among notReplaced

end Retains

theorem retains_fixedParts (text : List Char) :
    Retains text ((fixedParts true text).flatMap Part.value) ↔ areFaithful text = true := by
  fun_induction fixedParts true text with
  | case1 => exact ⟨fun _ => rfl, fun _ => .nil⟩
  | case2 =>
    refine ⟨fun keeps => ?_, fun faithful => ?_⟩
    · cases keeps
    · cases faithful
  | case3 c text ih =>
    rw [List.flatMap_append, retains_escaped, ih, areFaithful, Bool.and_eq_true]
  | case4 c text notLast notEscape ih =>
    have plain := ne_backslash notLast notEscape
    rw [List.flatMap_cons, areFaithful.eq_4 _ _ notLast notEscape, ← ih]
    refine ⟨fun keeps => ?_, .char plain⟩
    obtain ⟨rest, same, keeps⟩ := keeps.of_char plain
    obtain ⟨-, rfl⟩ := List.cons.inj same
    exact keeps

/-- Java reads what is written for a regular expression. -/
theorem denoted_quotedParts {text : List Char} (oneLine : '\n' ∉ text) :
    denoted (written (quotedParts true text)) = some ((fixedParts true text).flatMap Part.value) := by
  have same : (quotedParts true text).flatMap Part.value = (fixedParts true text).flatMap Part.value := by
    rw [quotedParts, List.flatMap_map]
    congr
    funext p
    unfold Part.quote
    split <;> rfl
  rw [denoted_written (fits_quotedParts oneLine) operand_notMem_quotedParts, same]

theorem dollar_notMem_quotedParts {text : List Char} (oneLine : '\n' ∉ text) (free : '$' ∉ text) :
    '$' ∉ written (quotedParts true text) := by
  intro member
  obtain ⟨p, among, here⟩ := List.mem_flatMap.1 member
  refine (fits_quotedParts oneLine p among).dollar_notMem ?_ here
  rintro rfl
  obtain ⟨p, fixed, same⟩ := List.mem_map.1 among
  obtain ⟨c, there, -, rfl⟩ | ⟨c, -, rfl⟩ := mem_fixedParts fixed
  · unfold Part.quote at same
    split at same
    · cases same
    · cases same
      exact free there
  · cases same

/-- A text without dollar signs has no variables to splice. -/
theorem interpolate_plain {text : String} (free : '$' ∉ text.toList) (typeOf? : String → Option Shape) :
    interpolate typeOf? text = .ok text := by
  have none {r : Regex} (needs : r.requires ['$'] = true) : occurrences r text = [] := by
    have missed {steps : Nat} : r.search steps (.ofText text) = .none :=
      Regex.search_eq_none (c := '$') (fun admits => by simpa using admits.requires _ needs) free
    rw [occurrences, Regex.matchesIn, Regex.findAll, missed]
    rfl
  rw [interpolate, none (by decide)]
  change (Except.ok text >>= _) = _
  simp only [bind, Except.bind, none (r := .lit "$\x7b" ++ nameRegex ++ .char '}') (by decide)]
  rfl

end PerlJava.Java.Literal

namespace PerlJava.Compile

open Java Literal

theorem run_interpolate {text : String} (free : '$' ∉ text.toList) (s : State) :
    (interpolate text).run s = .ok text s :=
  Plain.bind_eq_ok.2 ⟨s.veiled, s, rfl, Plain.lift_eq_ok.2 ⟨interpolate_plain free _, rfl⟩⟩

/-- Without dollar signs, a regular expression is handed to the library up to escapes for blanks and
quotes if and only if all its escapes are faithful: of letters other than `b`, of the special
characters of regular expressions, of quotes and of backslashes. -/
theorem regex_kept_iff {text : String} (oneLine : '\n' ∉ text.toList) (free : '$' ∉ text.toList)
    (s : State) : ∃ literal, (regexText text).run s = .ok literal s
      ∧ ((∃ string, denoted literal.toList = some string ∧ Retains text.toList string)
        ↔ areFaithful text.toList = true) := by
  have written_ : (escapeChars ['"'] (fixEscapes true text)).toList
      = written (quotedParts true text.toList) := by
    simp [escapeChars, fixEscapes, escapeCharsList_fixEscapesList]
  refine ⟨_, run_interpolate (written_ ▸ dollar_notMem_quotedParts oneLine free) s, ?_⟩
  rw [written_, denoted_quotedParts oneLine]
  simpa using retains_fixedParts text.toList

theorem regex_kept_word : ∃ literal, (regexText "m/\\w\\t\\./").run {} = .ok literal {}
    ∧ ((∃ string, denoted literal.toList = some string ∧ Retains "m/\\w\\t\\./".toList string)
      ↔ areFaithful "m/\\w\\t\\./".toList = true) :=
  regex_kept_iff (by decide) (by decide) {}

/-- The number of a group loses its backslash. -/
theorem group_number_lost : (regexText "s/(a)/\\1b/").run {} = .ok "s/(a)/1b/" {}
    ∧ denoted "s/(a)/1b/".toList = some "s/(a)/1b/".toList
    ∧ ¬Retains "s/(a)/\\1b/".toList "s/(a)/1b/".toList :=
  ⟨@run_interpolate "s/(a)/1b/" (by decide) {}, by decide,
    fun keeps => absurd ((retains_fixedParts "s/(a)/\\1b/".toList).1 keeps) (by decide)⟩

end PerlJava.Compile
