import PerlJava.Compile.Report

/-!
# What is known of results

What holds of the result of a step whenever there is one, step by step and round by round.
-/

namespace PerlJava.Compile

variable {α β : Type}

/-- Whenever a step succeeds, its result and the state it leaves are as wanted. -/
def Post (wanted : α → State → Prop) (x : Plain α) : Prop :=
  ∀ s a s', x.run s = .ok a s' → wanted a s'

/-- Whenever a step succeeds, its result is as wanted. -/
abbrev Ensures (wanted : α → Prop) (x : Plain α) : Prop :=
  Post (fun a _ => wanted a) x

namespace Post

variable {known : α → Prop} {wanted : α → State → Prop} {other : β → State → Prop} {x y : Plain α}
  {f : α → Plain β}

theorem done {a : α} (is : ∀ s, wanted a s) : Post wanted (pure a) := by
  rintro s _ s' ⟨⟩
  exact is s

protected theorem pure {a : α} (is : known a) : Ensures known (pure a) :=
  .done fun _ => is

protected theorem bind (first : Ensures known x) (second : ∀ a, known a → Post other (f a)) :
    Post other (x >>= f) := by
  intro s b s' run
  obtain ⟨a, s₁, ran, run⟩ := Plain.cut run
  exact second a (first s a s₁ ran) s₁ b s' run

theorem after (second : ∀ a, Post other (f a)) : Post other (x >>= f) :=
  .bind (fun _ _ _ _ => trivial : Ensures (fun _ => True) x) fun a _ => second a

theorem either {c : Prop} [Decidable c] (pos : c → Post wanted x) (neg : ¬c → Post wanted y) :
    Post wanted (if c then x else y) := by
  split
  · next holds => exact pos holds
  · next fails => exact neg fails

theorem fail {fault : Fault} : Post wanted (Compile.fail fault) := by
  rintro s _ s' ⟨⟩

theorem lift {x : Except Fault α} (is : ∀ a, x = .ok a → known a) : Ensures known (liftM x) :=
  fun _ a _ run => is a (Plain.lift_eq_ok.1 run).1

theorem lift_bind {x : Except Fault α} {f : α → Plain β}
    (second : ∀ a, x = .ok a → Post other (f a)) : Post other (liftM x >>= f) :=
  .bind (.lift fun _ made => made) second

/-- A result after an error. -/
theorem reported {m : Message} {at_ : Option Position} {names : Diagnostic.Names} {a : α}
    (isError : m.isWarning = false) (is : ∀ s, s.codeError = true → wanted a s) :
    Post wanted (do report m at_ names; return a) := by
  intro s b s' run
  obtain ⟨_, s₁, ran, ⟨⟩⟩ := Plain.cut run
  exact is s' (report_failed isError ran)

/-- What each round of a loop carries on, counted by the rounds. -/
theorem rounds {f : β → α → Plain (ForInStep α)} {carried : Nat → α → Prop} {bs : List β} {n : Nat}
    {a : α} (start : carried n a) (each : ∀ b ∈ bs, ∀ n a, carried n a →
      Ensures (fun r => ∃ a', r = .yield a' ∧ carried (n + 1) a') (f b a)) :
    Ensures (carried (n + bs.length)) (forIn bs a f) := by
  induction bs generalizing n a with
  | nil => exact .pure start
  | cons b bs ih =>
    rw [List.forIn_cons, List.length_cons, Nat.add_comm bs.length, ← Nat.add_assoc]
    refine .bind (each b List.mem_cons_self n a start) ?_
    rintro _ ⟨a', rfl, next⟩
    exact ih next fun b member => each b (List.mem_cons_of_mem _ member)

end Post

end PerlJava.Compile
