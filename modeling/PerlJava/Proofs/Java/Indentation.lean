import PerlJava.Java.Layout

/-!
# Indentation

Code is indented by blanks at the start of its lines, four for every block that is open there. Lines
end at every line boundary, not only at newlines, so blanks may also be put in where a literal holds
another boundary. The layout alone changes exactly if no line behind such a boundary is indented.
-/

namespace PerlJava.Java.Indentation

open Text (linesOf isLineEnd)

/-- A text in which blanks have been put in, but only directly behind newlines, or at the very start
if that is free. -/
inductive Spaced : (free : Bool) → List Char → List Char → Prop where
  | nil (free : Bool) : Spaced free [] []
  | blank {text spaced : List Char} : Spaced true text spaced → Spaced true text (' ' :: spaced)
  | keep (free : Bool) (c : Char) {text spaced : List Char} :
    Spaced (c == '\n') text spaced → Spaced free (c :: text) (c :: spaced)

def blanks (depth : Nat) : List Char :=
  List.replicate (4 * depth) ' '

/-! ### Depth -/

/-- How many blocks are open behind a line. A line that closes a block where none is open is passed
over. -/
def depthBehind (depth : Nat) (line : List Char) : Nat :=
  depth - (closesBlock line).toNat + (opensBlock line).toNat

/-- The lines, each with the number of blocks that are open there after all lines before it. -/
def placed (depth : Nat) (lines : List (List Char)) : List (Nat × List Char) :=
  (lines.scanl depthBehind depth).zipWith
    (fun behind line => (behind - (closesBlock line).toNat, line)) lines

/-- Every line that is indented stands behind a newline, or is the first one and free. -/
def Separated : (free : Bool) → List (Nat × List Char) → Prop
  | _, [] => True
  | free, (depth, line) :: lines =>
    (free = true ∨ depth = 0) ∧ Separated (line.getLast? == some '\n') lines

section Depth

variable (depth : Nat) (lines : List (List Char))

theorem indentLines_nil : indentLines depth [] = [] := rfl

theorem placed_nil : placed depth [] = [] := rfl

theorem placed_cons (line : List Char) : placed depth (line :: lines)
    = (depth - (closesBlock line).toNat, line) :: placed (depthBehind depth line) lines := by
  simp [placed]

theorem flatMap_placed : (placed depth lines).flatMap (·.2) = lines.flatten := by
  induction lines generalizing depth with
  | nil => rfl
  | cons line lines ih => rw [placed_cons, List.flatMap_cons, ih, List.flatten_cons]

theorem indentLines_cons (line : List Char) : indentLines depth (line :: lines)
    = blanks (depth - (closesBlock line).toNat)
      ++ (line ++ indentLines (depthBehind depth line) lines) := by
  rw [indentLines, depthBehind]
  cases closesBlock line <;> cases opensBlock line <;> simp [blanks]

theorem indentLines_eq : indentLines depth lines
    = (placed depth lines).flatMap fun place => blanks place.1 ++ place.2 := by
  induction lines generalizing depth with
  | nil => rfl
  | cons line lines ih =>
    rw [indentLines_cons, placed_cons, List.flatMap_cons, ← ih, List.append_assoc]

end Depth

/-! ### Lines -/

/-- Lines that end in line boundaries, but maybe for the last. -/
inductive Cut : List (List Char) → Prop where
  | nil : Cut []
  | last (line : List Char) : Cut [line]
  | line (content : List Char) {e : Char} {lines : List (List Char)} : isLineEnd e = true →
    Cut lines → Cut ((content ++ [e]) :: lines)

theorem flatten_linesOf (text : List Char) : (linesOf text).flatten = text := by
  fun_induction linesOf text <;> simp_all

theorem cut_linesOf (text : List Char) : Cut (linesOf text) := by
  fun_induction linesOf text with
  | case1 => exact .nil
  | case2 text ih => exact .line ['\r'] rfl ih
  | case3 c text _ ends ih => exact .line [] ends ih
  | case4 c text => exact .last [c]
  | case5 c text _ inside line lines found ih =>
    rw [found] at ih
    cases ih with
    | last => exact .last (c :: line)
    | line content ends rest => exact .line (c :: content) ends rest

/-! ### Blanks behind other boundaries -/

/-- Whether a character ends a line without being a newline. -/
def isOtherEnd (c : Char) : Bool :=
  isLineEnd c && c != '\n'

/-- How many blanks stand directly behind line boundaries that are not newlines. -/
def held : (behind : Bool) → List Char → Nat
  | _, [] => 0
  | behind, c :: text =>
    if c = ' ' then behind.toNat + held behind text else held (isOtherEnd c) text

section Held

variable {free behind : Bool} {text spaced rest : List Char} {e : Char}

theorem held_blanks (depth : Nat) :
    held behind (blanks depth ++ text) = 4 * depth * behind.toNat + held behind text := by
  unfold blanks
  induction 4 * depth with
  | zero => simp
  | succ n ih => simp [List.replicate_succ, held, ih, Nat.add_mul, Nat.add_assoc, Nat.add_left_comm]

theorem held_line (ends : isLineEnd e = true) (content : List Char) :
    held behind (content ++ e :: rest) = held behind (content ++ [e]) + held (isOtherEnd e) rest := by
  have solid : e ≠ ' ' := by
    rintro rfl
    cases ends
  induction content generalizing behind with
  | nil => simp [held, solid]
  | cons c content ih =>
    simp only [List.cons_append, held]
    split <;> rw [ih]
    rw [Nat.add_assoc]

/-- Blanks behind newlines are not among them. -/
theorem Spaced.held_eq (whole : Spaced free text spaced) (fresh : free = true → behind = false) :
    held behind spaced = held behind text := by
  induction whole generalizing behind with
  | nil => rfl
  | blank _ ih =>
    obtain rfl := fresh rfl
    simp [held, ih]
  | keep free c _ ih =>
    simp only [held]
    split
    · next same => rw [ih (by simp [same])]
    · exact ih (by simp +contextual [isOtherEnd])

theorem free_or_zero {depth n k : Nat} (same : 4 * depth * (!free).toNat + n = k) (le : k ≤ n) :
    free = true ∨ depth = 0 := by
  cases free with
  | true => exact .inl rfl
  | false =>
    simp only [Bool.not_false, Bool.toNat_true] at same
    omega

end Held

/-- Indenting holds no fewer blanks there, and as many only if no line is indented there. -/
theorem held_indentLines {lines : List (List Char)} (cut : Cut lines) (free : Bool) (depth : Nat) :
    held (!free) lines.flatten ≤ held (!free) (indentLines depth lines)
      ∧ (held (!free) (indentLines depth lines) = held (!free) lines.flatten →
        Separated free (placed depth lines)) := by
  induction cut generalizing free depth with
  | nil => exact ⟨Nat.le_refl _, fun _ => trivial⟩
  | last line =>
    simp only [indentLines_cons, indentLines_nil, placed_cons, placed_nil, List.append_nil,
      List.flatten_cons, List.flatten_nil, held_blanks, Separated]
    exact ⟨Nat.le_add_left _ _, fun same => ⟨free_or_zero same (Nat.le_refl _), trivial⟩⟩
  | @line content e lines ends _ ih =>
    have other : isOtherEnd e = !(e == '\n') := by simp [isOtherEnd, ends, bne]
    have parts (rest : List Char) : held (!free) (content ++ e :: rest)
        = held (!free) (content ++ [e]) + held (!(e == '\n')) rest := other ▸ held_line ends content
    obtain ⟨le, strict⟩ := ih (e == '\n') (depthBehind depth (content ++ [e]))
    simp only [indentLines_cons, placed_cons, List.flatten_cons, List.append_assoc,
      List.singleton_append, held_blanks, Separated, List.getLast?_concat]
    rw [parts lines.flatten, parts (indentLines _ _)]
    exact ⟨by omega, fun same => ⟨free_or_zero same (by omega), strict (by omega)⟩⟩

/-! ### Where blanks are put in -/

theorem Spaced.refl (free : Bool) (text : List Char) : Spaced free text text := by
  induction text generalizing free with
  | nil => exact .nil free
  | cons c text ih => exact .keep free c (ih _)

theorem Spaced.blanks {text spaced : List Char} (whole : Spaced true text spaced) (depth : Nat) :
    Spaced true text (blanks depth ++ spaced) := by
  unfold Indentation.blanks
  induction 4 * depth with
  | zero => exact whole
  | succ n ih => exact .blank ih

theorem Spaced.line {free : Bool} {e : Char} {text spaced : List Char}
    (behind : Spaced (e == '\n') text spaced) (content : List Char) :
    Spaced free (content ++ e :: text) (content ++ e :: spaced) := by
  induction content generalizing free with
  | nil => exact .keep free e behind
  | cons c content ih => exact .keep free c ih

theorem spaced_of_separated {lines : List (List Char)} (cut : Cut lines) {free : Bool} {depth : Nat}
    (separated : Separated free (placed depth lines)) :
    Spaced free lines.flatten (indentLines depth lines) := by
  induction cut generalizing free depth with
  | nil => exact .nil free
  | last line =>
    simp only [indentLines_cons, indentLines_nil, placed_cons, List.append_nil, List.flatten_cons,
      List.flatten_nil, Separated] at separated ⊢
    obtain ⟨rfl | here, -⟩ := separated
    · exact (Spaced.refl true line).blanks _
    · rw [here]
      exact .refl free line
  | @line content e lines ends _ ih =>
    simp only [indentLines_cons, placed_cons, List.flatten_cons, List.append_assoc,
      List.singleton_append, Separated, List.getLast?_concat] at separated ⊢
    obtain ⟨rfl | here, rest⟩ := separated
    · exact ((ih rest).line content).blanks _
    · rw [here]
      exact (ih rest).line content

/-- Indented code consists of the lines of the code, each behind four blanks for every block that is
open there. Nothing but the layout has changed exactly if every line that is indented stands behind a
newline. -/
theorem layout_only_iff (text : String) :
    let lines := placed 0 (linesOf text.toList)
    lines.flatMap (·.2) = text.toList
      ∧ (indent text).toList = lines.flatMap (fun place => blanks place.1 ++ place.2)
      ∧ (Spaced true text.toList (indent text).toList ↔ Separated true lines) := by
  intro lines
  have given := flatten_linesOf text.toList
  have cut := cut_linesOf text.toList
  have indented : (indent text).toList = indentLines 0 (linesOf text.toList) := String.toList_ofList
  refine ⟨(flatMap_placed 0 _).trans given, indented.trans (indentLines_eq 0 _), ?_⟩
  rw [indented]
  constructor
  · intro spaced
    refine (held_indentLines cut true 0).2 ?_
    rw [given]
    exact spaced.held_eq fun _ => rfl
  · intro separated
    have spaced := spaced_of_separated cut separated
    rwa [given] at spaced

/-- A form feed in a literal. -/
theorem literal_widened :
    let text := "\x7b\n\"a\x0cb\";\n\x7d"
    indent text = "\x7b\n    \"a\x0c    b\";\n\x7d"
      ∧ ¬Spaced true text.toList (indent text).toList := by
  intro text
  refine ⟨by decide, fun spaced => ?_⟩
  have same : held false (indent text).toList = held false text.toList := spaced.held_eq fun _ => rfl
  exact absurd same (by decide)

end PerlJava.Java.Indentation
