import PerlJava.Compile.Convert
import PerlJava.Compile.Unit
import PerlJava.Proofs.Data.ExceptFold

/-!
# Reasoning about steps

A step is taken apart along its definition: what each part of it leaves as it was, the whole does.
-/

namespace PerlJava.Compile

open Java

variable {α β γ : Type}

/-- Whenever a step succeeds, some part of the state is as it was. -/
def Preserves (part : State → γ) (x : Plain α) : Prop :=
  ∀ s a s', x.run s = .ok a s' → part s' = part s

/-- What is known of a step that preserves some part of the state: it is found by its definition. -/
class Keeps (part : State → γ) (x : Plain α) : Prop where
  preserves : Preserves part x

/-- A part of the state that diagnostics leave alone. -/
class Untold (part : State → γ) : Prop where
  said (s : State) (p : Diagnostic.Printed) : part (s.saying p) = part s

/-- A part of the state that has nothing to do with declarations that are to be placed. -/
class Unplaced (part : State → γ) : Prop where
  settled (s : State) (pending : Array Pending) : part { s with pending } = part s

theorem Preserves.walk {part : State → γ} {x : Plain α} [keeps : Keeps part x] : Preserves part x :=
  keeps.preserves

namespace Keeps

variable {part : State → γ} {x y : Plain α} {f : α → Plain β}

instance pure {a : α} : Keeps part (Pure.pure a) := by
  refine ⟨?_⟩
  rintro s _ s' ⟨⟩
  rfl

theorem after (first : Keeps part x) (second : ∀ a, Keeps part (f a)) : Keeps part (x >>= f) := by
  refine ⟨fun s b s' run => ?_⟩
  obtain ⟨a, s₁, ran, run⟩ := Plain.cut run
  exact ((second a).preserves s₁ b s' run).trans (first.preserves s a s₁ ran)

theorem next [first : Keeps part x] (second : ∀ a, Keeps part (f a)) : Keeps part (x >>= f) :=
  .after first second

instance bind [first : Keeps part x] [second : ∀ a, Keeps part (f a)] : Keeps part (x >>= f) :=
  .after first second

instance lift {x : Except Fault α} : Keeps part (liftM x : Plain α) := by
  refine ⟨fun s a s' run => ?_⟩
  rw [(Plain.lift_eq_ok.1 run).2]

theorem lift_bind {x : Except Fault α} {f : α → Plain β}
    (second : ∀ a, x = .ok a → Keeps part (f a)) : Keeps part (liftM x >>= f) := by
  refine ⟨fun s b s' run => ?_⟩
  obtain ⟨a, s₁, lifted, run⟩ := Plain.cut run
  obtain ⟨made, rfl⟩ := Plain.lift_eq_ok.1 lifted
  exact (second a made).preserves _ _ _ run

instance read : Keeps part (MonadReader.read : Plain State) := by
  refine ⟨?_⟩
  rintro s _ s' ⟨⟩
  rfl

theorem either {c : Prop} [Decidable c] (pos : Keeps part x) (neg : Keeps part y) :
    Keeps part (if c then x else y) := by
  split
  · exact pos
  · exact neg

instance ite {c : Prop} [Decidable c] [pos : Keeps part x] [neg : Keeps part y] :
    Keeps part (if c then x else y) :=
  .either pos neg

instance forM {f : β → Plain PUnit} [each : ∀ b, Keeps part (f b)] {bs : List β} :
    Keeps part (bs.forM f) := by
  induction bs with
  | nil => exact .pure
  | cons b bs ih => exact .next fun _ => ih

/-- A step for each of some values, with something carried along. -/
theorem rounds {f : β → α → Plain (ForInStep α)} (each : ∀ b a, Keeps part (f b a)) {bs : List β}
    {a : α} : Keeps part (ForIn.forIn bs a f) := by
  induction bs generalizing a with
  | nil => exact .pure
  | cons b bs ih =>
    rw [List.forIn_cons]
    refine .after (each b a) fun step => ?_
    cases step with
    | done a => exact .pure
    | yield a => exact ih

instance forIn {f : β → α → Plain (ForInStep α)} [each : ∀ b a, Keeps part (f b a)] {bs : List β}
    {a : α} : Keeps part (ForIn.forIn bs a f) :=
  .rounds each

theorem update {f : State → State} {follows : ∀ s : State, s.context.Follows (f s).context}
    {types : ∀ s : State, s.types <+: (f s).types} {code : ∀ s : State, (f s).written = s.written}
    {silent : ∀ c s, f (s.cloaked c) = (f s).cloaked c} (same : ∀ s, part (f s) = part s) :
    Keeps part (Compile.update f follows types code silent) := by
  refine ⟨?_⟩
  rintro s _ s' ⟨⟩
  exact same s

instance say {p : Diagnostic.Printed} [untold : Untold part] : Keeps part (Compile.say p) := by
  refine ⟨fun s u s' run => ?_⟩
  have ended := endState_sayIn p s
  change sayIn p s = .ok u s' at run
  rw [run] at ended
  cases ended
  exact untold.said s p

/-- A diagnostic changes what was printed and whether there was an error. -/
instance report {m : Message} {at_ : Option Position} {names : Diagnostic.Names} [Untold part] :
    Keeps part (Compile.report m at_ names) := by
  unfold Compile.report
  infer_instance

instance notices {notices : List Perl.Notice} [Untold part] : Keeps part (reportNotices notices) := by
  refine @forM _ _ part _ (fun notice => ?_) notices
  cases notice <;> exact .report

instance variableOf {id : VarId} : Keeps part (Compile.variableOf id) := by
  unfold Compile.variableOf
  infer_instance

instance pendingOf {id : DeclId} : Keeps part (Compile.pendingOf id) := by
  unfold Compile.pendingOf
  infer_instance

instance isAssigned {assigned : Option String} : Keeps part (Compile.isAssigned assigned) := by
  unfold Compile.isAssigned
  infer_instance

end Keeps

/-! ### Steps without an error -/

/-- A step succeeds in a state with open levels, and no error has been reported by then. -/
structure Succeeds (x : M α) (s : State) (a : α) (s' : State) : Prop where
  levels : s.context.Balanced
  ran : x s = .ok a s'
  fine : s'.codeError = false

namespace Succeeds

variable {x : Plain α} {f : α → Plain β} {s s' : State} {a : α} {b : β}

/-- Errors are not taken back, so none has been reported between two steps either. -/
theorem bind (both : Succeeds (x >>= f).run s b s') :
    ∃ a s₁, Succeeds x.run s a s₁ ∧ Succeeds (f a).run s₁ b s' := by
  obtain ⟨a, s₁, first, second⟩ := Plain.cut both.ran
  have := x.plain
  have := (f a).plain
  have levels : s₁.context.Balanced := both.levels.of_follows (Does.follows both.levels first)
  have fine : s₁.codeError = false := by
    rw [← Bool.not_eq_true]
    intro failed
    have later : s'.codeError = true := (Does.follows levels second).failed failed
    rw [both.fine] at later
    cases later
  exact ⟨a, s₁, ⟨both.levels, first, fine⟩, ⟨levels, second, both.fine⟩⟩

theorem andThen {s₁ : State} (first : Succeeds x.run s a s₁) (second : Succeeds (f a).run s₁ b s') :
    Succeeds (x >>= f).run s b s' :=
  ⟨first.levels, Plain.bind_eq_ok.2 ⟨a, s₁, first.ran, second.ran⟩, second.fine⟩

theorem pure {made : α} (done : Succeeds (Pure.pure made : Plain α).run s a s') :
    made = a ∧ s = s' := by
  obtain ⟨⟩ := done.ran
  exact ⟨rfl, rfl⟩

theorem lift {x : Except Fault α} (done : Succeeds (liftM x : Plain α).run s a s') :
    x = .ok a ∧ s = s' := by
  obtain ⟨made, rfl⟩ := Plain.lift_eq_ok.1 done.ran
  exact ⟨made, rfl⟩

/-- The second of two tests is made where the first one holds. -/
theorem and {x y : Plain Bool} {b : Bool} (done : Succeeds (x <&&> y).run s b s') :
    ∃ first s₁, Succeeds x.run s first s₁
      ∧ (first = false ∧ b = false ∧ s₁ = s' ∨ first = true ∧ Succeeds y.run s₁ b s') := by
  obtain ⟨first, s₁, ran, done⟩ := done.bind
  refine ⟨first, s₁, ran, ?_⟩
  cases first with
  | false =>
    obtain ⟨rfl, rfl⟩ := done.pure
    exact .inl ⟨rfl, rfl, rfl⟩
  | true => exact .inr ⟨rfl, done⟩

theorem not_report {m : Message} {at_ : Option Position} {names : Diagnostic.Names} {u : Unit}
    (isError : m.isWarning = false) : ¬Succeeds (report m at_ names).run s u s' := by
  intro done
  have failed := report_failed isError done.ran
  rw [done.fine] at failed
  cases failed

/-- What is done after an error has been reported does not count. -/
theorem not_report_bind {m : Message} {at_ : Option Position} {names : Diagnostic.Names}
    {f : Unit → Plain β} (isError : m.isWarning = false) :
    ¬Succeeds (report m at_ names >>= f).run s b s' := by
  intro both
  obtain ⟨_, _, first, -⟩ := both.bind
  exact not_report isError first

/-- A check that reports nothing changes nothing. -/
theorem check {c : Fragment} {refs : Bool} {u : Unit}
    (done : Succeeds (Compile.check c refs).run s u s') : s = s' := by
  have references {s₁ : State} (done : Succeeds (do
      if refs then
        if (← c.head).is .ref then report .refOperation c.position [] : Plain Unit).run s₁ u s') :
      s₁ = s' := by
    split at done
    · obtain ⟨head, s₂, first, done⟩ := done.bind
      obtain ⟨-, rfl⟩ := first.lift
      split at done
      · exact absurd done (not_report rfl)
      · exact done.pure.2
    · exact done.pure.2
  unfold Compile.check at done
  obtain ⟨_, s₁, whole, done⟩ := done.bind
  obtain ⟨-, rfl⟩ := whole.lift
  dsimp only at done
  split at done
  · obtain ⟨v, s₂, ⟨-, ⟨⟩, -⟩, done⟩ := done.bind
    obtain ⟨assigned, s₃, ⟨-, ⟨⟩, -⟩, done⟩ := done.bind
    split at done
    · exact references done
    · exact absurd done (not_report_bind rfl)
  · exact references done

end Succeeds

/-! ### Two steps side by side -/

/-- Where two steps both succeed in one state, they end in one state, with related results. -/
def Matched (R : α → β → Prop) (x : M α) (y : M β) : Prop :=
  ∀ (s s₁ s₂ : State) (a : α) (b : β), Succeeds x s a s₁ → Succeeds y s b s₂ → s₁ = s₂ ∧ R a b

namespace Matched

variable {α' β' : Type} {R : α → β → Prop} {Q : α' → β' → Prop} {x : Plain α} {y : Plain β}
  {f : α → Plain α'} {g : β → Plain β'}

protected theorem refl (x : M α) : Matched Eq x x := by
  intro s s₁ s₂ a b one two
  obtain ⟨⟩ := one.ran.symm.trans two.ran
  exact ⟨rfl, rfl⟩

protected theorem pure {a : α} {b : β} (related : R a b) :
    Matched R (Pure.pure a : Plain α).run (Pure.pure b : Plain β).run := by
  intro s s₁ s₂ a' b' one two
  obtain ⟨rfl, rfl⟩ := one.pure
  obtain ⟨rfl, rfl⟩ := two.pure
  exact ⟨rfl, related⟩

theorem lift {x : Except Fault α} {y : Except Fault β} (agree : Agree R x y) :
    Matched R (liftM x : Plain α).run (liftM y : Plain β).run := by
  intro s s₁ s₂ a b one two
  obtain ⟨made, rfl⟩ := one.lift
  obtain ⟨made', rfl⟩ := two.lift
  exact ⟨rfl, agree a b made made'⟩

theorem bind (first : Matched R x.run y.run)
    (second : ∀ {a b}, R a b → Matched Q (f a).run (g b).run) :
    Matched Q (x >>= f).run (y >>= g).run := by
  intro s s₁ s₂ a b one two
  obtain ⟨a, s₃, ran, one⟩ := one.bind
  obtain ⟨b, s₄, ran', two⟩ := two.bind
  obtain ⟨rfl, related⟩ := first _ _ _ _ _ ran ran'
  exact second related _ _ _ _ _ one two

/-- Both begin with a computation of which it is known what it gives. -/
theorem known {x : Except Fault α} {a : α} (made : x = .ok a) {f : α → Plain α'} {g : α → Plain β'}
    (second : Matched Q (f a).run (g a).run) :
    Matched Q (liftM x >>= f).run (liftM x >>= g).run := by
  refine bind (R := fun b b' => b = a ∧ b' = a) (.lift fun b b' one two => ?_) ?_
  · rw [made] at one two
    exact ⟨(Except.ok.inj one).symm, (Except.ok.inj two).symm⟩
  · rintro _ _ ⟨rfl, rfl⟩
    exact second

theorem after (x : Plain α) {f : α → Plain α'} {g : α → Plain β'}
    (second : ∀ a, Matched Q (f a).run (g a).run) : Matched Q (x >>= f).run (x >>= g).run := by
  refine bind (.refl x.run) ?_
  rintro a _ rfl
  exact second a

theorem ite {c : Prop} [Decidable c] {x' : Plain α} {y' : Plain β} (pos : Matched R x.run y.run)
    (neg : Matched R x'.run y'.run) :
    Matched R (if c then x else x').run (if c then y else y').run := by
  split
  · exact pos
  · exact neg

/-- What is done after an error has been reported does not count. -/
theorem report {m : Message} {at_ : Option Position} {names : Diagnostic.Names} {f : Unit → Plain α}
    {y : M β} (isError : m.isWarning = false) :
    Matched R (Compile.report m at_ names >>= f).run y := by
  intro s s₁ s₂ a b one
  exact absurd one (Succeeds.not_report_bind isError)

theorem check (c c' : Fragment) (refs : Bool) :
    Matched (fun _ _ => True) (Compile.check c refs).run (Compile.check c' refs).run := by
  intro s s₁ s₂ _ _ one two
  obtain rfl := one.check
  obtain rfl := two.check
  exact ⟨rfl, trivial⟩

end Matched

/-! ### Checks and conversions -/

theorem join_eq_ok {a b code : Fragment} (joined : a.join b = .ok code) : code = {
    declares := a.declares ++ b.declares
    flags := Flag.union a.flags b.flags
    position := if a.position.offset > b.position.offset then a.position else b.position } := by
  unfold Fragment.join at joined
  split at joined
  · cases joined
  · split at joined <;> cases joined
    rfl

theorem slot_toList {c d : Fragment} (made : c.toList = .ok d) : d.slot = c.slot := by
  unfold Fragment.toList at made
  obtain ⟨head, -, made⟩ := bind_eq_ok.1 made
  split at made
  · obtain ⟨_, -, made⟩ := bind_eq_ok.1 made
    obtain ⟨_, -, ⟨⟩⟩ := bind_eq_ok.1 made
    rfl
  · cases made
    rfl

theorem slot_toArray {c d : Fragment} (made : c.toArray = .ok d) : d.slot = c.slot := by
  unfold Fragment.toArray at made
  obtain ⟨head, -, made⟩ := bind_eq_ok.1 made
  split at made
  · obtain ⟨_, -, made⟩ := bind_eq_ok.1 made
    obtain ⟨_, -, made⟩ := bind_eq_ok.1 made
    obtain ⟨_, -, ⟨⟩⟩ := bind_eq_ok.1 made
    rfl
  · cases made
    rfl

namespace Keeps

variable {part : State → γ} [untold : Untold part]

/-- A check does nothing but to report. -/
instance check {c : Fragment} {refs : Bool} : Keeps part (Compile.check c refs) := by
  unfold Compile.check
  refine .next fun _ => ?_
  dsimp only
  split <;> infer_instance

theorem convert_of (target : Shape) {c : Fragment}
    (synced : ∀ d : Fragment, d.slot = c.slot → Keeps part (Compile.sync d)) :
    Keeps part (Compile.convert target c) := by
  have agreed (asReference : Bool) (c : Fragment) : Keeps part (Compile.agreed target asReference c) := by
    unfold Compile.agreed
    infer_instance
  unfold Compile.convert
  refine .next fun head => .next fun size => ?_
  split
  · split <;> infer_instance
  · split
    · exact .lift_bind fun d made => .after (synced d (slot_toList made)) inferInstance
    · exact .lift_bind fun d made => .after (synced d (slot_toArray made)) inferInstance
    · infer_instance

variable [unplaced : Unplaced part]

omit untold in
instance sync {c : Fragment} : Keeps part (Compile.sync c) := by
  unfold Compile.sync
  split
  · exact .after (.update fun s => unplaced.settled s _) fun _ => .pure
  · exact .pure

instance convert {target : Shape} {c : Fragment} : Keeps part (Compile.convert target c) :=
  .convert_of target fun _ _ => .sync

omit untold unplaced in
theorem publishIfPackage (published : ∀ (s : State) packages, part { s with packages } = part s) :
    Keeps part Compile.publishIfPackage := by
  have : Keeps part publishPackage :=
    .next fun s => .next fun _ => .update fun s => published s _
  unfold Compile.publishIfPackage
  infer_instance

instance converted {target : Shape} {c : Fragment} : Keeps part (Compile.converted target c) := by
  unfold Compile.converted
  infer_instance

end Keeps

end PerlJava.Compile
