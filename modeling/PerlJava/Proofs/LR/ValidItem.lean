import PerlJava.LR.Automaton

/-!
# Items that are valid for a word

A word is what the parser has read and not yet reduced, the last symbol first. An item is valid for
a word if the parser may be at its dot after that word: the automaton starts at the dot of the first
production, goes down into the productions of the symbol after a dot, and across that symbol. A
state of the automaton that is reached by reading a word holds nothing but items valid for it.
-/

namespace PerlJava.LR

/-- Productions by their numbers: what each of them is for and what it consists of. -/
abbrev Rules (σ : Type) := Array (σ × List σ)

def Rules.right {σ : Type} (rules : Rules σ) (n : Nat) : List σ :=
  (rules[n]?.map (·.2)).getD []

def Rules.spell {σ τ : Type} (text : σ → τ) (rules : Rules σ) : Rules τ :=
  rules.map (Prod.map text (List.map text))

def Item.nextIn {σ : Type} (rules : Rules σ) (i : Item) : Option σ :=
  (rules.right i.production)[i.dot]?

theorem Item.nextIn_eq_some {σ : Type} {rules : Rules σ} {i : Item} {s : σ} :
    i.nextIn rules = some s ↔
      ∃ rule, rules[i.production]? = some rule ∧ rule.2[i.dot]? = some s := by
  rw [nextIn, Rules.right]
  cases rules[i.production]? <;> simp

theorem Rules.right_spell {σ τ : Type} (text : σ → τ) (rules : Rules σ) (n : Nat) :
    (rules.spell text).right n = (rules.right n).map text := by
  simp only [right, spell, Array.getElem?_map, Option.map_map]
  cases rules[n]? <;> rfl

theorem Item.nextIn_spell {σ τ : Type} (text : σ → τ) (rules : Rules σ) (i : Item) :
    i.nextIn (rules.spell text) = (i.nextIn rules).map text := by
  rw [nextIn, nextIn, Rules.right_spell, List.getElem?_map]

inductive Valid {σ : Type} (rules : Rules σ) : List σ → Item → Prop where
  | start : Valid rules [] ⟨0, 0⟩
  | down {w : List σ} {i : Item} {n : Nat} {rule : σ × List σ} :
    Valid rules w i → rules[n]? = some rule → i.nextIn rules = some rule.1 → Valid rules w ⟨n, 0⟩
  | across {w : List σ} {i : Item} {s : σ} :
    Valid rules w i → i.nextIn rules = some s → Valid rules (s :: w) ⟨i.production, i.dot + 1⟩

namespace Valid

variable {σ τ : Type} {rules : Rules σ} {w : List σ} {i : Item} {n : Nat}

/-- What stands before the dot of a valid item has been read, and the production could start where
that began. -/
theorem split (valid : Valid rules w i) :
    ∃ base, w = ((rules.right i.production).take i.dot).reverse ++ base
      ∧ Valid rules base ⟨i.production, 0⟩ := by
  induction valid with
  | start => exact ⟨[], by simp, .start⟩
  | down valid found next => exact ⟨_, by simp, .down valid found next⟩
  | across valid next ih =>
    obtain ⟨base, rfl, first⟩ := ih
    refine ⟨base, ?_, first⟩
    rw [Item.nextIn] at next
    simp [List.take_add_one, next]

theorem split_of_complete (valid : Valid rules w i) (complete : i.nextIn rules = none) :
    ∃ base, w = (rules.right i.production).reverse ++ base
      ∧ Valid rules base ⟨i.production, 0⟩ := by
  obtain ⟨base, read, first⟩ := valid.split
  rw [Item.nextIn, List.getElem?_eq_none_iff] at complete
  exact ⟨base, by rwa [List.take_of_length_le complete] at read, first⟩

/-- A production starts where all begins, or where a valid item asks for its symbol. -/
theorem origin (valid : Valid rules w ⟨n, 0⟩) :
    (n = 0 ∧ w = []) ∨ ∃ j rule, Valid rules w j ∧ rules[n]? = some rule
      ∧ j.nextIn rules = some rule.1 := by
  cases valid with
  | start => exact .inl ⟨rfl, rfl⟩
  | down valid found next => exact .inr ⟨_, _, valid, found, next⟩

/-- A symbol on top of a word was read by an item that asked for it. -/
theorem exists_next {s : σ} (valid : Valid rules (s :: w) i) :
    ∃ j, Valid rules w j ∧ j.nextIn rules = some s := by
  generalize read : s :: w = u at valid
  induction valid with
  | start => cases read
  | down _ _ _ ih => exact ih read
  | across valid next => 
    cases read
    exact ⟨_, valid, next⟩

/-- The symbol before the dot of a valid item is on top of the word. -/
theorem head_eq {k : Nat} (valid : Valid rules w ⟨n, k + 1⟩) : w.head? = (rules.right n)[k]? := by
  cases valid with
  | across _ read => exact read.symm

/-- What holds of every symbol that a production starts with or puts above another holds of every
symbol that a valid item asks for and of the top of its word. -/
theorem next_induction {P : Option σ → σ → Prop}
    (start : ∀ rule x, rules[0]? = some rule → rule.2[0]? = some x → P none x)
    (first : ∀ (n : Nat) rule top x, rules[n]? = some rule → rule.2[0]? = some x →
      P top rule.1 → P top x)
    (later : ∀ (n k : Nat) rule y x, rules[n]? = some rule → rule.2[k]? = some y →
      rule.2[k + 1]? = some x → P (some y) x)
    (valid : Valid rules w i) {x : σ} (next : i.nextIn rules = some x) : P w.head? x := by
  induction valid generalizing x with
  | start =>
    obtain ⟨rule, found, next⟩ := Item.nextIn_eq_some.1 next
    exact start rule x found next
  | down _ found parent ih =>
    obtain ⟨rule, same, next⟩ := Item.nextIn_eq_some.1 next
    obtain rfl := Option.some.inj (found.symm.trans same)
    exact first _ _ _ x found next (ih parent)
  | across _ read =>
    obtain ⟨rule, found, next⟩ := Item.nextIn_eq_some.1 next
    obtain ⟨_, same, read⟩ := Item.nextIn_eq_some.1 read
    obtain rfl := Option.some.inj (found.symm.trans same)
    exact later _ _ _ _ x found read next

/-- Validity does not depend on how symbols are spelt. -/
theorem of_spell {text : σ → τ} (injective : ∀ a b, text a = text b → a = b) {w : List τ}
    (valid : Valid (rules.spell text) w i) : ∃ u, w = u.map text ∧ Valid rules u i := by
  induction valid with
  | start => exact ⟨[], rfl, .start⟩
  | down _ found next ih =>
    obtain ⟨u, rfl, valid⟩ := ih
    rw [Rules.spell, Array.getElem?_map, Option.map_eq_some_iff] at found
    obtain ⟨rule, found, rfl⟩ := found
    rw [Item.nextIn_spell, Option.map_eq_some_iff] at next
    obtain ⟨s, next, same⟩ := next
    rw [injective _ _ same] at next
    exact ⟨u, rfl, .down valid found next⟩
  | across _ next ih =>
    obtain ⟨u, rfl, valid⟩ := ih
    rw [Item.nextIn_spell, Option.map_eq_some_iff] at next
    obtain ⟨s, next, rfl⟩ := next
    exact ⟨s :: u, rfl, .across valid next⟩

end Valid

end PerlJava.LR
