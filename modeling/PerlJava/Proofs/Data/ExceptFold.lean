/-!
# Computations that may fail

What such a computation gives if it does not fail, and what a fold of such steps keeps.
-/

namespace PerlJava

variable {ε α β : Type}

theorem bind_eq_ok {x : Except ε α} {f : α → Except ε β} {b : β} :
    x >>= f = .ok b ↔ ∃ a, x = .ok a ∧ f a = .ok b := by
  cases x <;> simp [bind, Except.bind]

/-- What each step of a fold keeps holds at its end. -/
theorem foldlM_invariant {f : β → α → Except ε β} {P : β → Prop} {l : List α} {b b' : β}
    (start : P b) (step : ∀ b a b', a ∈ l → P b → f b a = .ok b' → P b')
    (done : l.foldlM f b = .ok b') : P b' := by
  induction l generalizing b with
  | nil =>
    cases done
    exact start
  | cons a l ih =>
    rw [List.foldlM_cons, bind_eq_ok] at done
    obtain ⟨c, first, rest⟩ := done
    exact ih (step b a c List.mem_cons_self start first)
      (fun b a b' member => step b a b' (List.mem_cons_of_mem _ member)) rest

/-- A fold over the first numbers, with an invariant that knows how far it has come. -/
theorem foldlM_range_invariant {f : β → Nat → Except ε β} {P : Nat → β → Prop} {n : Nat}
    {b b' : β} (start : P 0 b) (step : ∀ k b b', P k b → f b k = .ok b' → P (k + 1) b')
    (done : (List.range n).foldlM f b = .ok b') : P n b' := by
  induction n generalizing b' with
  | zero =>
    cases done
    exact start
  | succ n ih =>
    rw [List.range_succ, List.foldlM_append, bind_eq_ok] at done
    obtain ⟨c, first, last⟩ := done
    exact step n c b' (ih first) (by simpa using last)

theorem mapM_getElem? {f : α → Except ε β} {l : List α} {l' : List β} (done : l.mapM f = .ok l')
    {n : Nat} {b : β} (found : l'[n]? = some b) : ∃ a, l[n]? = some a ∧ f a = .ok b := by
  induction l generalizing l' n with
  | nil =>
    cases done
    simp at found
  | cons a l ih =>
    simp only [List.mapM_cons, bind_eq_ok] at done
    obtain ⟨b', first, rest, others, ⟨⟩⟩ := done
    cases n with
    | zero =>
      obtain rfl : b' = b := by simpa using found
      exact ⟨a, rfl, first⟩
    | succ n => simpa using ih others (by simpa using found)

def Agree {α' : Type} (R : α → α' → Prop) (x : Except ε α) (y : Except ε α') : Prop :=
  ∀ a b, x = .ok a → y = .ok b → R a b

namespace Agree

variable {α' β' : Type} {R : α → α' → Prop} {Q : β → β' → Prop}

protected theorem refl (x : Except ε α) : Agree Eq x x := by
  intro a b one two
  exact Except.ok.inj (one.symm.trans two)

protected theorem pure {a : α} {b : α'} (related : R a b) :
    Agree R (Pure.pure a : Except ε α) (Pure.pure b) := by
  rintro _ _ ⟨⟩ ⟨⟩
  exact related

theorem bind {x : Except ε α} {y : Except ε α'} {f : α → Except ε β} {g : α' → Except ε β'}
    (first : Agree R x y) (second : ∀ {a b}, R a b → Agree Q (f a) (g b)) :
    Agree Q (x >>= f) (y >>= g) := by
  intro a b one two
  obtain ⟨a', made, one⟩ := bind_eq_ok.1 one
  obtain ⟨b', made', two⟩ := bind_eq_ok.1 two
  exact second (first a' b' made made') a b one two

theorem after (x : Except ε α) {f : α → Except ε β} {g : α → Except ε β'}
    (second : ∀ a, Agree Q (f a) (g a)) : Agree Q (x >>= f) (x >>= g) := by
  refine bind (.refl x) ?_
  rintro a _ rfl
  exact second a

theorem ite {c : Prop} [Decidable c] {x x' : Except ε α} {y y' : Except ε α'}
    (pos : Agree R x y) (neg : Agree R x' y') :
    Agree R (if c then x else x') (if c then y else y') := by
  split
  · exact pos
  · exact neg

end Agree

end PerlJava
