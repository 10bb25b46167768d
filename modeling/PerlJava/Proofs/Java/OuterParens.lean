import PerlJava.Java.Fragment

/-!
# Parentheses around an argument

An argument of a call is written without the parentheses around it. Only its first and its last
character are looked at: what is left is balanced if and only if these two match each other.
-/

namespace PerlJava.Java

/-- How many parentheses are open after a character, if none too many is closed. -/
def openParens (depth : Nat) (c : Char) : Option Nat :=
  if c = '(' then some (depth + 1)
  else if c = ')' then (if depth = 0 then none else some (depth - 1))
  else some depth

/-- A text closes every parenthesis that it opens, and no other. -/
def Balanced (text : String) : Prop :=
  text.toList.foldlM openParens 0 = some 0

instance (text : String) : Decidable (Balanced text) :=
  inferInstanceAs (Decidable (_ = _))

/-- Where a text begins and ends with a parenthesis, the first one stays open up to the last. -/
def EndsMatch (text : String) : Prop :=
  ∀ inner, text.toList = '(' :: (inner ++ [')']) → ∀ before rest, inner = before ++ rest →
    ∃ depth, before.foldlM openParens 1 = some (depth + 1)

section OpenParens

variable {depth after : Nat} {c : Char} {text : List Char}

/-- A parenthesis around a text matters only to what would close it. -/
theorem openParens_succ_iff :
    openParens (depth + 1) c = some (after + 1) ↔ openParens depth c = some after := by
  unfold openParens
  split
  · simp
  · split
    · cases depth <;> simp
    · simp

theorem foldlM_openParens_succ (opened : text.foldlM openParens depth = some after) :
    text.foldlM openParens (depth + 1) = some (after + 1) := by
  induction text generalizing depth with
  | nil => simpa using opened
  | cons c text ih =>
    rw [List.foldlM_cons] at opened ⊢
    obtain ⟨middle, step, opened⟩ := Option.bind_eq_some_iff.1 opened
    exact Option.bind_eq_some_iff.2 ⟨middle + 1, openParens_succ_iff.2 step, ih opened⟩

/-- What never closes the parenthesis around it closes none that is not open without it. -/
theorem exists_foldlM_openParens (inside : ∀ before rest, text = before ++ rest →
      ∃ after, before.foldlM openParens (depth + 1) = some (after + 1)) :
    ∃ after, text.foldlM openParens depth = some after := by
  induction text generalizing depth with
  | nil => exact ⟨depth, rfl⟩
  | cons c text ih =>
    obtain ⟨middle, first⟩ := inside [c] text rfl
    have step : openParens depth c = some middle := openParens_succ_iff.1 (by simpa using first)
    obtain ⟨after, opened⟩ := @ih middle fun before rest split => by
      obtain ⟨after, opened⟩ := inside (c :: before) rest (by rw [split]; rfl)
      rw [List.foldlM_cons, openParens_succ_iff.2 step] at opened
      exact ⟨after, opened⟩
    exact ⟨after, by rw [List.foldlM_cons, step]; exact opened⟩

end OpenParens

namespace Fragment

theorem slice_inner (inner : List Char) :
    Text.slice (String.ofList ('(' :: (inner ++ [')']))) 1 (-1) = String.ofList inner := by
  have start : Text.clampBound (inner.length + 2) 1 = 1 := by simp [Text.clampBound]
  have stop : Text.clampBound (inner.length + 2) (-1) = inner.length + 1 := by
    rw [Text.clampBound, if_pos (by decide)]
    omega
  simp [Text.slice, Text.sliceList, start, stop]

theorem stripParens_cases (c : Fragment) :
    (c.stripParens = c ∧ ∀ inner, c.value.toList ≠ '(' :: (inner ++ [')']))
      ∨ ∃ inner, c.value = String.ofList ('(' :: (inner ++ [')']))
        ∧ c.stripParens.value = String.ofList inner := by
  unfold stripParens
  split
  · next both =>
    obtain ⟨first, last⟩ := Bool.and_eq_true_iff.1 both
    obtain ⟨front, split⟩ := List.getLast?_eq_some_iff.1 (eq_of_beq last)
    rw [split] at first
    cases front with
    | nil => cases first
    | cons d inner =>
      obtain rfl : d = '(' := by simpa using first
      have same : c.value = String.ofList ('(' :: (inner ++ [')'])) := by
        rw [← String.ofList_toList (s := c.value), split, List.cons_append]
      exact .inr ⟨inner, same, by rw [same, slice_inner]⟩
  · next other =>
    refine .inl ⟨rfl, fun inner same => other ?_⟩
    rw [same, ← List.cons_append, List.getLast?_concat]
    rfl

/-- An argument stays balanced without the parentheses at its ends if and only if they match. -/
theorem balanced_stripParens_iff (c : Fragment) (balanced : Balanced c.value) :
    Balanced c.stripParens.value ↔ EndsMatch c.value := by
  obtain ⟨same, bare⟩ | ⟨inner, text, same⟩ := c.stripParens_cases
  · rw [same]
    exact ⟨fun _ inner text => absurd text (bare inner), fun _ => balanced⟩
  rw [text] at balanced ⊢
  rw [same]
  simp only [Balanced, EndsMatch, String.toList_ofList] at balanced ⊢
  constructor
  · intro stripped other same before rest split
    obtain rfl : inner = other := by simpa using same
    rw [split, List.foldlM_append] at stripped
    obtain ⟨depth, opened, -⟩ := Option.bind_eq_some_iff.1 stripped
    exact ⟨depth, foldlM_openParens_succ opened⟩
  · intro ends
    obtain ⟨depth, opened⟩ := exists_foldlM_openParens (ends inner rfl)
    -- The last parenthesis closes the first one, so nothing else is open before it.
    have all : (inner ++ [')']).foldlM openParens 1 = some 0 := balanced
    rw [List.foldlM_append, foldlM_openParens_succ opened] at all
    obtain rfl : depth = 0 := by simpa [openParens] using all
    exact opened

end Fragment

end PerlJava.Java
