import PerlJava.Java.Edit
import PerlJava.Proofs.Data.ExceptFold
import PerlJava.Proofs.Regex.GreedyMatch

/-!
# Edited expressions

Dropping a new reference that is read at once, storing to an element and deleting it keep the text
of an expression fit for further edits.
-/

namespace PerlJava.Java

open Regex

/-! ### Element reads -/

theorem rest_of_textEnd {cursor : Cursor} (holds : Anchor.textEnd.holds cursor = true) :
    cursor.rest = [] ∨ cursor.rest = ['\n'] := by
  simpa [Anchor.holds] using holds

theorem groupText_eq {p : Progress} {n first last : Nat} {groups : List (Nat × Nat × Nat)}
    (closed : p.groups = (n, first, last) :: groups) :
    p.groupText n = spanText p.cursor first last := by
  simp [Progress.groupText, Progress.span?, closed]

section ElementRead

/-- What a call that reads an element begins with, after what stands before it. -/
def callStart (before : List Char) : List Char :=
  before ++ "get(".toList

variable {before : Regex} {w : List Char} {start : Cursor}

theorem dot_contains {c : Char} :
    CharSet.contains { items := [.char '\n'], negated := true } c = true ↔ c ≠ '\n' := by
  simp [CharSet.contains, ClassItem.contains]

/-- A list of different characters does not overlap with itself. -/
theorem infix_of_shifted {word more key key' : List Char} (distinct : word.Nodup)
    (some_ : more ≠ []) (same : more ++ (word ++ key) = word ++ key') : word <:+: key' := by
  obtain ⟨rest, rfl, tail⟩ | ⟨rest, rfl, tail⟩ := List.append_eq_append_iff.1 same
  · obtain ⟨c, more, rfl⟩ := List.exists_cons_of_ne_nil some_
    cases rest with
    | nil => exact ⟨[], key, by simpa using tail⟩
    | cons d rest =>
      -- The second occurrence would begin inside the first, with the same character.
      obtain ⟨rfl, -⟩ := List.cons.inj tail
      simp at distinct
  · exact ⟨rest, key, by rw [List.append_assoc, tail]⟩

theorem run_keyRead (spells : before.Spells w) {fuel : Nat} {p q : Progress}
    (found : run fuel (Edit.keyRead before) p some = some q) : ∃ key,
      p.cursor.Passes (callStart w ++ key ++ [')']) q.cursor ∧ '\n' ∉ key
        ∧ (q.cursor.rest = [] ∨ q.cursor.rest = ['\n'])
        ∧ q.groupText 2 = key ∧ q.span? 1 = p.span? 1 := by
  simp only [Edit.keyRead, HAppend.hAppend, Append.append, run] at found
  obtain ⟨one, opening, found⟩ := spells.1 found
  obtain ⟨two, call, found⟩ := (spells_lit "get(").1 found
  obtain ⟨key, three, inside, oneLine, found, -⟩ := run_many_one_farthest found
  obtain ⟨four, closing, found⟩ := (spells_char ')').1 found
  split at found
  · next atEnd =>
    cases found
    refine ⟨key, ((opening.trans call).trans inside).trans closing, fun line => ?_,
      rest_of_textEnd atEnd, ?_, rfl⟩
    · exact dot_contains.1 (oneLine _ line) rfl
    · rw [groupText_eq rfl]
      exact inside.spanText closing
  · cases found

/-- A call that ends the text can end the reading of an element. -/
theorem run_keyRead_isSome (spells : before.Spells w) {fuel : Nat} {p : Progress} {key : List Char}
    (here : p.cursor.rest = callStart w ++ key ++ [')']) (oneLine : '\n' ∉ key)
    (long : key.length ≤ fuel) : (run fuel (Edit.keyRead before) p some).isSome := by
  have here : p.cursor.rest = w ++ ("get(".toList ++ (key ++ ([')'] ++ []))) := by
    simpa [callStart] using here
  obtain ⟨one, opening, here⟩ := Cursor.Passes.exists_of_rest here
  obtain ⟨two, call, here⟩ := Cursor.Passes.exists_of_rest here
  obtain ⟨three, inside, here⟩ := Cursor.Passes.exists_of_rest here
  obtain ⟨four, closing, here⟩ := Cursor.Passes.exists_of_rest here
  simp only [Edit.keyRead, HAppend.hAppend, Append.append, run]
  rw [spells.run opening, Spells.run (spells_lit "get(") call]
  refine run_many_one_isSome inside (fun c member => ?_) long ?_
  · exact dot_contains.2 fun line => oneLine (line ▸ member)
  · rw [Spells.run (spells_char ')') closing]
    simp [Anchor.holds, here]

theorem mem_elementRead {text : List Char} (admits : (Edit.elementRead before).Admits text) :
    ')' ∈ text := by
  obtain ⟨_, _, rfl, -, admits⟩ := admits.of_append
  obtain ⟨_, _, rfl, admits, -⟩ := admits.of_append
  obtain ⟨_, _, rfl, -, admits⟩ := admits.of_append
  simp [admits.eq_of_char]

section Match

variable (spells : before.Spells w)
include spells

theorem matchAt_elementRead_isSome {front key : List Char}
    (here : start.rest = front ++ (callStart w ++ key ++ [')'])) (line : '\n' ∉ front)
    (oneLine : '\n' ∉ key) : ((Edit.elementRead before).matchAt start).isSome := by
  obtain ⟨place, passes, rest⟩ := Cursor.Passes.exists_of_rest here
  have long : start.rest.length = front.length + (callStart w ++ key ++ [')']).length := by
    rw [here, List.length_append]
  simp only [List.length_append] at long
  simp only [Edit.elementRead, Regex.matchAt, matchIn, HAppend.hAppend, Append.append, run]
  refine run_many_one_isSome passes (fun c member => ?_) (by rw [enough]; omega) ?_
  · exact dot_contains.2 fun same => line (same ▸ member)
  · exact run_keyRead_isSome spells rest oneLine (by rw [enough]; omega)

theorem matchAt_elementRead {p : Progress}
    (found : (Edit.elementRead before).matchAt start = some p) : ∃ front key,
      start.rest = front ++ (callStart w ++ key ++ [')'] ++ p.cursor.rest) ∧ '\n' ∉ key
        ∧ (p.cursor.rest = [] ∨ p.cursor.rest = ['\n'])
        ∧ p.groupText 1 = front ∧ p.groupText 2 = key
        ∧ ∀ {more later}, callStart w ++ key ++ [')'] ++ p.cursor.rest
            = more ++ (callStart w ++ later ++ [')']) →
          '\n' ∉ more → '\n' ∉ later → more = [] := by
  simp only [Edit.elementRead, Regex.matchAt, matchIn, HAppend.hAppend, Append.append, run] at found
  obtain ⟨front, place, passes, -, found, farthest⟩ := run_many_one_farthest found
  obtain ⟨key, passes', oneLine, rest, second, first⟩ := run_keyRead spells found
  have whole : start.rest = front ++ (callStart w ++ key ++ [')'] ++ p.cursor.rest) := by
    rw [passes.rest, passes'.rest]
  refine ⟨front, key, whole, oneLine, rest, ?_, second, ?_⟩
  · have span : p.span? 1 = some (start.position, place.position) := first
    rw [Progress.groupText, span]
    exact passes.spanText passes'
  · intro more later same line lineLater
    refine Decidable.byContradiction fun some_ => ?_
    obtain ⟨farther, passing, here⟩ :=
      Cursor.Passes.exists_of_rest (passes'.rest.trans same)
    have long : start.rest.length
        = front.length + (more.length + (callStart w ++ later ++ [')']).length) := by
      rw [whole, same, List.length_append, List.length_append]
    simp only [List.length_append] at long
    have fails := farthest passing (fun c member => dot_contains.2 fun same => line (same ▸ member))
      some_ (by rw [enough]; omega)
    refine absurd fails (Option.isSome_iff_ne_none.1 (run_keyRead_isSome spells here lineLater ?_))
    rw [enough]
    omega

theorem not_mem_rest_of_matchAt {p : Progress}
    (found : (Edit.elementRead before).matchAt start = some p) : ')' ∉ p.cursor.rest := by
  obtain ⟨_, _, -, -, rest, -⟩ := matchAt_elementRead spells found
  obtain rest | rest := rest
  · simp [rest]
  · simp [rest]

theorem split_elementRead (distinct : (callStart w).Nodup) (plain : '\n' ∉ callStart w)
    {skipped front key : List Char} {p : Progress} (oneLine : '\n' ∉ key)
    (last : ¬callStart w <:+: key) (found : (Edit.elementRead before).matchAt start = some p)
    (whole : front ++ (callStart w ++ key ++ [')']) = skipped ++ start.rest) :
    front = skipped ++ p.groupText 1 ∧ p.groupText 2 = key ∧ p.cursor.rest = [] := by
  obtain ⟨held, key', here, line, rest, rfl, rfl, later⟩ := matchAt_elementRead spells found
  have ended : p.cursor.rest = [] := by
    obtain rest | rest := rest
    · exact rest
    · rw [here, rest] at whole
      have ends := congrArg List.getLast? whole
      simp at ends
  rw [here, ended, List.append_nil, ← List.append_assoc skipped] at whole
  rw [ended, List.append_nil] at later
  obtain ⟨more, split, tail⟩ | ⟨more, split, tail⟩ := List.append_eq_append_iff.1 whole
  · -- A later call would be part of the key.
    obtain rfl : more = [] := Decidable.byContradiction fun some_ =>
      last (infix_of_shifted distinct some_ (List.append_cancel_right (by simpa using tail.symm)))
    exact ⟨by simpa using split.symm, by simpa using tail.symm, ended⟩
  · obtain rfl : more = [] := by
      refine later tail (fun newline => ?_) oneLine
      have within : '\n' ∈ callStart w ++ p.groupText 2 ++ [')'] :=
        tail ▸ List.mem_append_left _ newline
      simp [plain, line] at within
    exact ⟨by simpa using split, by simpa using tail, ended⟩

theorem replace_elementRead (distinct : (callStart w).Nodup) (plain : '\n' ∉ callStart w)
    (pieces : List Piece) {text : String} {front key : List Char}
    (whole : text.toList = front ++ (callStart w ++ key ++ [')'])) (oneLine : '\n' ∉ key)
    (last : ¬callStart w <:+: key) :
    ∃ skipped p, front = skipped ++ p.groupText 1 ∧ ('\n' ∉ front → skipped = [])
      ∧ p.groupText 2 = key ∧ ((Edit.elementRead before).replace pieces text).toList
        = skipped ++ (fill p pieces).toList := by
  obtain ⟨place, passes, rest⟩ : ∃ place, (Cursor.ofText text).Passes front place
      ∧ place.rest = callStart w ++ key ++ [')'] := Cursor.Passes.exists_of_rest whole
  have matched : ((Edit.elementRead before).matchAt place).isSome :=
    matchAt_elementRead_isSome spells (rest.trans (List.nil_append _).symm) (by simp) oneLine
  have short : front.length < text.toList.length + 1 := by
    rw [whole, List.length_append]
    omega
  obtain ⟨⟨start, p⟩, found⟩ := Option.isSome_iff_exists.1 (search_isSome passes matched short)
  obtain ⟨skipped, reached, made⟩ :=
    replace_of_search mem_elementRead (not_mem_rest_of_matchAt spells) pieces found
  have split : front ++ (callStart w ++ key ++ [')']) = skipped ++ start.rest :=
    whole.symm.trans reached.rest
  obtain ⟨front_eq, key_eq, ended⟩ := split_elementRead spells distinct plain oneLine last
    (passes_of_search found).2 split
  refine ⟨skipped, p, front_eq, fun line => ?_, key_eq, ?_⟩
  · -- The reading begins with the text.
    have matched : ((Edit.elementRead before).matchAt (.ofText text)).isSome :=
      matchAt_elementRead_isSome spells whole line oneLine
    obtain ⟨q, here⟩ := Option.isSome_iff_exists.1 matched
    rw [search_of_matchAt here] at found
    cases found
    exact List.length_eq_zero_iff.1 (by simpa using reached.position.symm)
  · rw [made, ended, List.append_nil]

end Match

/-- The call that stores to an element of a kind of collection, where that takes a call. -/
def storeCall (collection : Dim) : Option String :=
  match collection.name? with
  | some .hash => some "put"
  | some .list => some "set"
  | _ => none

theorem storeCall_cases {collection : Dim} {function : String}
    (call : storeCall collection = some function) :
    (collection.name? = some .hash ∧ function = "put")
      ∨ (collection.name? = some .list ∧ function = "set") := by
  unfold storeCall at call
  split at call
  · next named => exact .inl ⟨named, (Option.some.inj call).symm⟩
  · next named => exact .inr ⟨named, (Option.some.inj call).symm⟩
  · cases call

theorem storeCall_spelling {collection : Dim} {function : String}
    (call : storeCall collection = some function) : ∃ c name, function.toList = c :: name ∧ c ≠ 'g'
      ∧ Text.isAsciiDigit c = false ∧ '\\' ∉ function.toList := by
  obtain ⟨-, rfl⟩ | ⟨-, rfl⟩ := storeCall_cases call
  · exact ⟨'p', ['u', 't'], rfl, by decide, by decide, by decide⟩
  · exact ⟨'s', ['e', 't'], rfl, by decide, by decide, by decide⟩

/-- The calls differ in their first letters. -/
theorem storeCall_inj {collection collection' : Dim} {function function' : String}
    (call : storeCall collection = some function) (call' : storeCall collection' = some function')
    (same : function.toList.head? = function'.toList.head?) : function = function' := by
  obtain ⟨-, rfl⟩ | ⟨-, rfl⟩ := storeCall_cases call
  · obtain ⟨-, rfl⟩ | ⟨-, rfl⟩ := storeCall_cases call'
    · rfl
    · cases same
  · obtain ⟨-, rfl⟩ | ⟨-, rfl⟩ := storeCall_cases call'
    · cases same
    · rfl

theorem storeInto_assigns {collection : Dim} (call : storeCall collection = none)
    (text exp : String) : Edit.storeInto collection text exp = .ok (text ++ " = " ++ exp) := by
  unfold storeCall at call
  unfold Edit.storeInto
  cases kind : collection.name? with
  | none => rfl
  | some name =>
    rw [kind] at call
    cases name <;> first | rfl | cases call

def callTemplate (function exp : String) : String :=
  "\\1" ++ function ++ "(\\2," ++ exp ++ ")"

theorem storeInto_calls {collection : Dim} {function : String}
    (call : storeCall collection = some function) (text exp : String) :
    Edit.storeInto collection text exp
      = (Edit.elementRead .empty).substitute 2 (callTemplate function exp) text := by
  obtain ⟨named, rfl⟩ | ⟨named, rfl⟩ := storeCall_cases call
  · simp only [Edit.storeInto, named, callTemplate]
  · simp only [Edit.storeInto, named, callTemplate]

theorem renders_callTemplate {collection : Dim} {function exp : String}
    (call : storeCall collection = some function) (spells : spellsItself exp.toList = true) :
    Renders 2 (callTemplate function exp).toList fun p =>
      p.groupText 1 ++ (function.toList ++ '(' :: (p.groupText 2 ++ ',' :: (exp.toList ++ [')']))) := by
  obtain ⟨c, name, named, -, letter, plain⟩ := storeCall_spelling call
  have value : Renders 2 (',' :: (exp.toList ++ [')'])) fun _ => ',' :: (exp.toList ++ [')']) :=
    .char (by decide) (.itself spells (.char (by decide) .nil))
  have key := Renders.escaped (escapedPiece_group (by decide : Text.isAsciiDigit '2' = true)
    (by decide) (by decide) (by decide) _) (Nat.le_refl _) value
  have called := Renders.word plain (.char (by decide : '(' ≠ '\\') key)
  rw [named] at called
  have front := Renders.escaped (escapedPiece_group (by decide : Text.isAsciiDigit '1' = true)
    (by decide) letter (by decide) _) (Nat.le_refl _) called
  simpa [callTemplate, named, digit] using front

/-- The reading of an element becomes the call that stores to it. -/
theorem storeInto_eq {collection : Dim} {function text exp : String} {front key : List Char}
    (call : storeCall collection = some function)
    (whole : text.toList = front ++ "get(".toList ++ key ++ [')']) (oneLine : '\n' ∉ key)
    (last : ¬"get(".toList <:+: key) (spells : spellsItself exp.toList = true) :
    ∃ stored, Edit.storeInto collection text exp = .ok stored
      ∧ stored.toList = front ++ function.toList ++ "(".toList ++ key ++ ",".toList ++ exp.toList
        ++ [')'] := by
  obtain ⟨pieces, made, filled⟩ := renders_callTemplate call spells
  refine ⟨(Edit.elementRead .empty).replace pieces text, ?_, ?_⟩
  · rw [storeInto_calls call, substitute, Regex.pieces, made (Nat.le_refl _)]
    rfl
  · have ends : text.toList = front ++ (callStart [] ++ key ++ [')']) := by
      simpa [callStart] using whole
    obtain ⟨skipped, p, rfl, -, second, stored⟩ := replace_elementRead spells_empty
      (by decide) (by decide) pieces ends oneLine last
    rw [stored, filled]
    simp [second]

theorem eq_of_differ {u v r₁ r₂ r₃ r₄ : List Char} {c d e f : Char} (other : c ≠ d) (other' : e ≠ f)
    (one : u ++ c :: r₁ = v ++ e :: r₃) (two : u ++ d :: r₂ = v ++ f :: r₄) : u = v ∧ d = f := by
  induction u generalizing v with
  | nil =>
    cases v with
    | nil => exact ⟨rfl, (List.cons.inj two).1⟩
    | cons a v =>
      obtain ⟨rfl, -⟩ := List.cons.inj one
      exact absurd (List.cons.inj two).1.symm other
  | cons a u ih =>
    cases v with
    | nil =>
      obtain ⟨rfl, -⟩ := List.cons.inj one
      exact absurd (List.cons.inj two).1 other'
    | cons b v =>
      obtain ⟨rfl, one'⟩ := List.cons.inj one
      obtain ⟨rfl, same⟩ := ih one' (List.cons.inj two).2
      exact ⟨rfl, same⟩

theorem pieces_callTemplate {c : Char} {name : List Char} {function exp : String}
    {pieces : List Piece} (named : function.toList = c :: name) (letter : Text.isAsciiDigit c = false)
    (plain : '\\' ∉ function.toList)
    (made : Regex.pieces 2 (callTemplate function exp).toList = .ok pieces) :
    ∃ more, pieces = .group 1 :: .ofChar c :: more := by
  have spelt : (callTemplate function exp).toList
      = '\\' :: '1' :: c :: (name ++ "(\\2,".toList ++ exp.toList ++ [')']) := by
    simp [callTemplate, named]
  rw [spelt, Regex.pieces, List.length_cons, piecesWithin, escapedPiece_group (by decide) (by decide)
    letter (by decide)] at made
  obtain ⟨_, ⟨⟩, made⟩ := bind_eq_ok.1 made
  obtain ⟨later, rest, ⟨⟩⟩ := bind_eq_ok.1 made
  rw [List.length_cons, List.length_cons, piecesWithin] at rest
  · obtain ⟨more, -, ⟨⟩⟩ := bind_eq_ok.1 rest
    exact ⟨more, rfl⟩
  · rw [named, List.mem_cons, not_or] at plain
    exact fun same => plain.1 same.symm

/-- A call takes the place of a read, or nothing does. -/
theorem storeInto_cases {collection : Dim} {function text exp stored : String}
    (call : storeCall collection = some function)
    (made : Edit.storeInto collection text exp = .ok stored) :
    stored = text ∨ ∃ front c rest rest', function.toList.head? = some c ∧ c ≠ 'g'
      ∧ text.toList = front ++ 'g' :: rest ∧ stored.toList = front ++ c :: rest' := by
  obtain ⟨c, name, named, other, letter, plain⟩ := storeCall_spelling call
  rw [storeInto_calls call, substitute] at made
  obtain ⟨pieces, parsed, ⟨⟩⟩ := bind_eq_ok.1 made
  obtain ⟨more, rfl⟩ := pieces_callTemplate named letter plain parsed
  obtain same | ⟨skipped, start, p, passes, found, replaced⟩ := replace_cases mem_elementRead
    (not_mem_rest_of_matchAt spells_empty) (.group 1 :: .ofChar c :: more) text
  · exact .inl same
  · obtain ⟨front, key, here, -, -, first, -⟩ := matchAt_elementRead spells_empty found
    have whole : text.toList = skipped ++ start.rest := passes.rest
    refine .inr ⟨skipped ++ front, c, "et(".toList ++ key ++ [')'] ++ p.cursor.rest,
      (fill p more).toList ++ p.cursor.rest, by rw [named]; rfl, other, ?_, ?_⟩
    · simp [whole, here, callStart]
    · rw [replaced, fill_group, first, Piece.ofChar, fill_text]
      simp

/-- The reading of an element becomes its deletion. -/
theorem deletion_eq {text : String} {container key : List Char}
    (whole : text.toList = container ++ ".get(".toList ++ key ++ [')'])
    (line : '\n' ∉ container) (oneLine : '\n' ∉ key) (last : ¬".get(".toList <:+: key) :
    (Edit.deletion text).toList
      = "Perl.delete(".toList ++ container ++ ",".toList ++ key ++ [')'] := by
  have ends : text.toList = container ++ (callStart ['.'] ++ key ++ [')']) := by
    simpa [callStart] using whole
  obtain ⟨skipped, p, front, whole, second, made⟩ :=
    replace_elementRead (spells_char '.') (by decide) (by decide)
      [.text "Perl.delete(", .group 1, .text ",", .group 2, .text ")"] ends oneLine last
  obtain rfl := whole line
  rw [List.nil_append] at front
  rw [Edit.deletion, made]
  simp [second, front]

end ElementRead

end PerlJava.Java
