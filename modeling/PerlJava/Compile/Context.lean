import PerlJava.Compile.Visibility

/-!
# The context of a step

The context is the part of the state that one statement could leave changed for the next: how many
levels of scope are open, the two switches for declarations, whether labels wait, and whether an
error has been reported. A step `Does` an effect if it changes the context in that way and finds
every level it needs. Beyond that, only steps with the effect `retypes` give other types to variables
that exist, only those with the effects `writes` and `endsJob` touch the code that the class has so
far, only those with the effect `tidies` can tell whether code is optimised, and all are candid. A
step that `Enacts` an effect has nothing to do with the reader and the trace either, as is the case
for what productions do. The steps of type `Plain` do so and leave the context alone, by
construction.
-/

namespace PerlJava.Compile

/-- What a statement could leave changed for the next. -/
structure Context where
  /-- How many levels declare variables. -/
  declared : Nat
  /-- How many levels assign names. -/
  assigned : Nat
  initVar : Bool
  inForeach : Bool
  /-- Whether labels wait for their statement. -/
  labelled : Bool
  /-- Whether an error has been reported. -/
  failed : Bool
deriving Repr, DecidableEq, Inhabited

def State.context (s : State) : Context where
  declared := s.declared.length
  assigned := s.assigned.length
  initVar := s.initVar
  inForeach := s.inForeach
  labelled := s.lineType.isSome || s.lineSizes.isSome
  failed := s.codeError

namespace Context

/-- As many levels declare as assign, and at least one is open. -/
structure Balanced (c : Context) : Prop where
  same : c.declared = c.assigned
  open_ : 1 ≤ c.declared

instance (c : Context) : Decidable c.Balanced :=
  decidable_of_iff (c.declared = c.assigned ∧ 1 ≤ c.declared)
    ⟨fun ⟨same, open_⟩ => ⟨same, open_⟩, fun ⟨same, open_⟩ => ⟨same, open_⟩⟩

/-- Labels may have been dropped and errors reported; all else is as before. -/
structure Follows (before after : Context) : Prop where
  declared : after.declared = before.declared
  assigned : after.assigned = before.assigned
  initVar : after.initVar = before.initVar
  inForeach : after.inForeach = before.inForeach
  labelled : after.labelled = true → before.labelled = true
  failed : before.failed = true → after.failed = true

theorem Follows.refl (c : Context) : c.Follows c :=
  ⟨rfl, rfl, rfl, rfl, id, id⟩

theorem Follows.trans {a b c : Context} (first : a.Follows b) (second : b.Follows c) :
    a.Follows c where
  declared := second.declared.trans first.declared
  assigned := second.assigned.trans first.assigned
  initVar := second.initVar.trans first.initVar
  inForeach := second.inForeach.trans first.inForeach
  labelled := first.labelled ∘ second.labelled
  failed := second.failed ∘ first.failed

theorem Balanced.of_follows {a b : Context} (balanced : a.Balanced) (follows : a.Follows b) :
    b.Balanced := by
  obtain ⟨same, open_⟩ := balanced
  exact ⟨by rw [follows.declared, follows.assigned, same], by rwa [follows.declared]⟩

end Context

/-- What a step does to the context. -/
inductive Effect where
  | plain
  | opensLevel
  | closesLevel
  /-- Closes a level, or reports an error and leaves it open. -/
  | mayCloseLevel
  | togglesInit
  | entersForeach
  | leavesForeach
  | setsLabels
  | dropsLabels
  /-- Leaves the context alone, but may give another type to a variable. -/
  | retypes
  /-- Leaves the context alone, but may look at whether code is optimised. -/
  | tidies
  /-- Leaves the context alone, but may write code of the class. -/
  | writes
  /-- Closes a level and writes the method of a job, or reports an error and leaves it open. -/
  | endsJob
deriving Repr, DecidableEq, Inhabited

namespace Effect

def apply (c : Context) : Effect → Context
  | plain | retypes | tidies | writes => c
  | opensLevel => { c with declared := c.declared + 1, assigned := c.assigned + 1 }
  | closesLevel | mayCloseLevel | endsJob =>
    { c with declared := c.declared - 1, assigned := c.assigned - 1 }
  | togglesInit => { c with initVar := !c.initVar }
  | entersForeach => { c with inForeach := true }
  | leavesForeach => { c with inForeach := false }
  | setsLabels => { c with labelled := true }
  | dropsLabels => { c with labelled := false }

def needs : Effect → Nat
  | closesLevel | mayCloseLevel | endsJob => 2
  | _ => 1

def mayStay : Effect → Bool
  | mayCloseLevel | endsJob => true
  | _ => false

def writesCode : Effect → Bool
  | writes | endsJob => true
  | _ => false

def Allows (e : Effect) (before after : Context) : Prop :=
  (e.apply before).Follows after
    ∨ (e.mayStay = true ∧ after.failed = true ∧ before.Follows after)

def Reaches (e : Effect) (before after : Context) : Prop :=
  before.Follows after ∨ (e.apply before).Follows after

variable {c a b : Context} {e : Effect}

theorem declared_apply_of_mayStay (may : e.mayStay = true) :
    (e.apply c).declared = c.declared - 1 := by
  cases e with
  | mayCloseLevel | endsJob => rfl
  | _ => cases may

theorem apply_follows (e : Effect) (follows : a.Follows b) :
    (e.apply a).Follows (e.apply b) := by
  obtain ⟨declared, assigned, initVar, inForeach, labelled, failed⟩ := follows
  cases e <;> constructor <;> simp_all [apply]

theorem needs_le_of_follows (follows : a.Follows b)
    (enough : e.needs ≤ a.declared) : e.needs ≤ b.declared := by
  rwa [follows.declared]

theorem Allows.of_follows (follows : a.Follows b) (allows : e.Allows b c) : e.Allows a c := by
  obtain done | ⟨may, failed, kept⟩ := allows
  · exact .inl ((e.apply_follows follows).trans done)
  · exact .inr ⟨may, failed, follows.trans kept⟩

theorem Allows.follows (allows : e.Allows a b) (follows : b.Follows c) : e.Allows a c := by
  obtain done | ⟨may, failed, kept⟩ := allows
  · exact .inl (done.trans follows)
  · exact .inr ⟨may, follows.failed failed, kept.trans follows⟩

theorem Reaches.of_follows (follows : a.Follows b) (reaches : e.Reaches b c) : e.Reaches a c :=
  reaches.imp follows.trans (e.apply_follows follows).trans

theorem Allows.reaches (allows : e.Allows a b) : e.Reaches a b :=
  allows.elim .inr fun ⟨_, _, kept⟩ => .inl kept

theorem Allows.of_plain (allows : plain.Allows a b) : a.Follows b :=
  allows.elim id fun ⟨may, _⟩ => nomatch may

theorem Reaches.follows (reaches : e.Reaches a b) (follows : b.Follows c) : e.Reaches a c :=
  reaches.imp (·.trans follows) (·.trans follows)

theorem balanced_apply (balanced : c.Balanced)
    (enough : e.needs ≤ c.declared) : (e.apply c).Balanced := by
  obtain ⟨same, open_⟩ := balanced
  cases e <;> simp only [needs] at enough <;> constructor <;> simp only [apply] <;> omega

theorem Reaches.balanced (reaches : e.Reaches a b)
    (balanced : a.Balanced) (enough : e.needs ≤ a.declared) : b.Balanced :=
  reaches.elim balanced.of_follows (balanced_apply balanced enough).of_follows

/-- An error that has been reported stays so. -/
theorem Reaches.failed (reaches : e.Reaches a b) (failed : a.failed = true) : b.failed = true := by
  have kept : (e.apply a).failed = a.failed := by cases e <;> rfl
  exact reaches.elim (·.failed failed) (·.failed (kept ▸ failed))

end Effect

section Types

variable {α β : Type}

def KeepsTypes (x : M α) : Prop :=
  ∀ s, s.types <+: (endState (x s)).types

variable {x : M α} {f : α → M β}

theorem KeepsTypes.bind (first : KeepsTypes x)
    (second : ∀ a, KeepsTypes (f a)) : KeepsTypes (x >>= f) := by
  intro s
  have kept := first s
  rw [M.bind_apply]
  cases run : x s with
  | error stop s₁ =>
    rw [run] at kept
    exact kept
  | ok a s₁ =>
    rw [run] at kept
    exact kept.trans (second a s₁)

/-- The code that the class has so far, outside and inside functions. -/
def State.written (s : State) : String × String :=
  (s.globalCode, s.functionsCode)

def KeepsCode (x : M α) : Prop :=
  ∀ s, (endState (x s)).written = s.written

theorem KeepsCode.bind (first : KeepsCode x)
    (second : ∀ a, KeepsCode (f a)) : KeepsCode (x >>= f) := by
  intro s
  have kept := first s
  rw [M.bind_apply]
  cases run : x s with
  | error stop s₁ =>
    rw [run] at kept
    exact kept
  | ok a s₁ =>
    rw [run] at kept
    exact (second a s₁).trans kept

/-- A step that leaves the types of variables and the code of the class alone, cannot tell whether
code is optimised, and is candid. -/
structure Discreet (x : M α) : Prop where
  types : KeepsTypes x
  code : KeepsCode x
  blind (s : State) : BlindAt x s
  candid : Candid x

/-- A silent step that leaves the types of variables and the code of the class alone. -/
structure Unnoticed (x : M α) : Prop where
  types : KeepsTypes x
  code : KeepsCode x
  silent : Silent x

theorem Unnoticed.pure (a : α) : Unnoticed (Pure.pure a : M α) :=
  ⟨fun _ => List.prefix_rfl, fun _ => rfl, .pure a⟩

theorem Unnoticed.bind (first : Unnoticed x)
    (second : ∀ a, Unnoticed (f a)) : Unnoticed (x >>= f) where
  types := first.types.bind fun a => (second a).types
  code := first.code.bind fun a => (second a).code
  silent := first.silent.bind fun a => (second a).silent

theorem Unnoticed.discreet (unnoticed : Unnoticed x) : Discreet x where
  types := unnoticed.types
  code := unnoticed.code
  blind := unnoticed.silent.blind
  candid := unnoticed.silent.candid

end Types

/-- A step that changes the context by an effect, and finds the levels it needs. -/
class Does {α : Type} (e : Effect) (x : M α) : Prop where
  ok {s s' : State} {a : α} : s.context.Balanced → e.needs ≤ s.context.declared →
    x s = .ok a s' → e.Allows s.context s'.context
  error {s s' : State} {stop : Stop} : s.context.Balanced → e.needs ≤ s.context.declared →
    x s = .error stop s' → stop ≠ .noLevel ∧ e.Reaches s.context s'.context
  types : e ≠ .retypes → KeepsTypes x
  code : e.writesCode = false → KeepsCode x
  blind : e ≠ .tidies → ∀ s, BlindAt x s
  candid : Candid x

namespace Does

variable {α β : Type} {e : Effect}

variable {x : M α}

/-- A step that always succeeds has an effect if its result shows it. -/
theorem of_total (total : ∀ s, s.context.Balanced → e.needs ≤ s.context.declared →
    ∃ a s', x s = .ok a s' ∧ (e.apply s.context).Follows s'.context) (discreet : Discreet x) :
    Does e x where
  ok {s s' a} balanced enough run := by
    obtain ⟨b, s₁, done, follows⟩ := total s balanced enough
    obtain ⟨rfl, rfl⟩ : b = a ∧ s₁ = s' := by simpa [done] using run
    exact .inl follows
  error {s s' stop} balanced enough run := by
    obtain ⟨b, s₁, done, follows⟩ := total s balanced enough
    simp [done] at run
  types _ := discreet.types
  code _ := discreet.code
  blind _ := discreet.blind
  candid := discreet.candid

instance pure (a : α) : Does .plain (Pure.pure a : M α) :=
  of_total (fun s _ _ => ⟨a, s, rfl, .refl _⟩) (Unnoticed.pure a).discreet

instance throw (f : Fault) : Does e (MonadExcept.throw f : M α) where
  ok := by rintro s s' _ - - ⟨⟩
  error := by
    rintro s s' _ - - ⟨⟩
    exact ⟨Stop.noConfusion, .inl (.refl _)⟩
  types _ _ := List.prefix_rfl
  code _ _ := rfl
  blind _ := (Silent.throw f).blind
  candid := (Silent.throw f).candid

theorem follows [Does .plain x] {s s' : State} {a : α} (balanced : s.context.Balanced)
    (run : x s = .ok a s') : s.context.Follows s'.context :=
  (ok (e := .plain) balanced balanced.open_ run).elim id fun h => h.2.2

theorem error_follows [Does .plain x] {s s' : State} {stop : Stop}
    (balanced : s.context.Balanced) (run : x s = .error stop s') :
    stop ≠ .noLevel ∧ s.context.Follows s'.context :=
  (error (e := .plain) balanced balanced.open_ run).imp_right (·.elim id id)

theorem discreet [Does .plain x] : Discreet x where
  types := types (e := .plain) nofun
  code := code (e := .plain) rfl
  blind := blind (e := .plain) nofun
  candid := candid .plain

/-- A plain step may come before one with an effect. -/
instance bind_of_plain (x : M α) (f : α → M β) [Does .plain x] [∀ a, Does e (f a)] :
    Does e (x >>= f) where
  ok {s s' b} balanced enough run := by
    obtain ⟨a, s₁, first, second⟩ := M.cut run
    have follows := follows balanced first
    exact (ok (balanced.of_follows follows) (e.needs_le_of_follows follows enough) second).of_follows
      follows
  error {s s' stop} balanced enough run := by
    obtain first | ⟨a, s₁, first, second⟩ := M.bind_eq_error.1 run
    · exact (error_follows balanced first).imp_right .inl
    · have follows := follows balanced first
      exact (error (balanced.of_follows follows) (e.needs_le_of_follows follows enough)
        second).imp_right (·.of_follows follows)
  types keeps := (discreet (x := x)).types.bind fun _ => types keeps
  code keeps := (discreet (x := x)).code.bind fun _ => code keeps
  blind calm s := (discreet.blind s).bind fun {_ s'} _ => blind calm s'
  candid := (candid .plain).bind fun _ => candid e

/-- A plain step may come after one with an effect. -/
instance (priority := low) bind_plain (x : M α) (f : α → M β) [Does e x] [∀ a, Does .plain (f a)] :
    Does e (x >>= f) where
  ok {s s' b} balanced enough run := by
    obtain ⟨a, s₁, first, second⟩ := M.cut run
    have allows := ok balanced enough first
    exact allows.follows (follows (allows.reaches.balanced balanced enough) second)
  error {s s' stop} balanced enough run := by
    obtain first | ⟨a, s₁, first, second⟩ := M.bind_eq_error.1 run
    · exact error balanced enough first
    · have reaches := (ok balanced enough first).reaches
      exact (error_follows (reaches.balanced balanced enough) second).imp_right reaches.follows
  types keeps := (types keeps).bind fun _ => discreet.types
  code keeps := (code keeps).bind fun _ => discreet.code
  blind calm s := (blind calm s).bind fun {_ s'} _ => discreet.blind s'
  candid := (candid e).bind fun _ => candid .plain

/-- A step that writes code of the class may come before one that closes a level. -/
instance (priority := low) bind_endsJob (x : M α) (f : α → M β) [Does .writes x]
    [∀ a, Does .closesLevel (f a)] : Does .endsJob (x >>= f) where
  ok {s s' b} balanced enough run := by
    obtain ⟨a, s₁, first, second⟩ := M.cut run
    have follows := (ok (e := .writes) balanced balanced.open_ first).elim id nofun
    have enough := Effect.closesLevel.needs_le_of_follows follows enough
    have closed := (ok (e := .closesLevel) (balanced.of_follows follows) enough second).elim id nofun
    exact .inl ((Effect.closesLevel.apply_follows follows).trans closed)
  error {s s' stop} balanced enough run := by
    obtain first | ⟨a, s₁, first, second⟩ := M.bind_eq_error.1 run
    · obtain ⟨levels, reaches⟩ := error (e := .writes) balanced balanced.open_ first
      exact ⟨levels, .inl (reaches.elim id id)⟩
    · have follows := (ok (e := .writes) balanced balanced.open_ first).elim id nofun
      have enough := Effect.closesLevel.needs_le_of_follows follows enough
      obtain ⟨levels, reaches⟩ :=
        error (e := .closesLevel) (balanced.of_follows follows) enough second
      exact ⟨levels, reaches.of_follows follows⟩
  types _ := (types (e := .writes) nofun).bind fun _ => types (e := .closesLevel) nofun
  code := nofun
  blind _ s := (blind (e := .writes) nofun s).bind fun {_ s'} _ => blind (e := .closesLevel) nofun s'
  candid := (candid .writes).bind fun _ => candid .closesLevel

theorem of_failed [Does .plain x] (stays : e.mayStay = true)
    (failed : ∀ {s a s'}, x s = .ok a s' → s'.codeError = true) : Does e x where
  ok balanced _ run := .inr ⟨stays, failed run, follows balanced run⟩
  error balanced _ run := (error_follows balanced run).imp_right .inl
  types _ := (discreet (x := x)).types
  code _ := (discreet (x := x)).code
  blind _ := discreet.blind
  candid := candid .plain

theorem mayClose (closes : Does .closesLevel x) : Does .mayCloseLevel x where
  ok balanced enough run := by
    obtain done | ⟨may, -⟩ := closes.ok balanced enough run
    · exact .inl done
    · cases may
  error balanced enough run := closes.error balanced enough run
  types _ := closes.types nofun
  code _ := closes.code rfl
  blind _ := closes.blind nofun
  candid := closes.candid

/-- A plain step may be taken for one that gives another type to a variable. -/
theorem retypes_of_plain [Does .plain x] : Does .retypes x where
  ok balanced _ run := .inl (follows balanced run)
  error balanced _ run := (error_follows balanced run).imp_right .inl
  types retypes := absurd rfl retypes
  code _ := (discreet (x := x)).code
  blind _ := discreet.blind
  candid := candid .plain

end Does

/-- A step that changes the context by an effect, whatever the reader and the trace are. -/
class Enacts {α : Type} (e : Effect) (x : M α) : Prop extends Does e x where
  detached : Detached x

namespace Enacts

variable {α β : Type} {e : Effect}

/-- A step that always succeeds has an effect if its result shows it. -/
theorem of_total {x : M α} (total : ∀ s, s.context.Balanced → e.needs ≤ s.context.declared →
    ∃ a s', x s = .ok a s' ∧ (e.apply s.context).Follows s'.context)
    (unnoticed : Unnoticed x := by
      exact ⟨fun _ => State.types_prefix rfl, fun _ => rfl, fun _ _ => rfl⟩) :
    Enacts e x where
  toDoes := .of_total total unnoticed.discreet
  detached := unnoticed.silent.detached

instance pure (a : α) : Enacts .plain (Pure.pure a : M α) where
  detached := (Silent.pure a).detached

instance throw (f : Fault) : Enacts e (MonadExcept.throw f : M α) where
  detached := (Silent.throw f).detached

instance bind_of_plain (x : M α) (f : α → M β) [Enacts .plain x] [∀ a, Enacts e (f a)] :
    Enacts e (x >>= f) where
  detached := (detached .plain).bind fun _ => detached e

instance (priority := low) bind_plain (x : M α) (f : α → M β) [Enacts e x] [∀ a, Enacts .plain (f a)] :
    Enacts e (x >>= f) where
  toDoes := .bind_plain x f
  detached := (detached e).bind fun _ => detached .plain

instance (priority := low) bind_endsJob (x : M α) (f : α → M β) [Enacts .writes x]
    [∀ a, Enacts .closesLevel (f a)] : Enacts .endsJob (x >>= f) where
  detached := (detached .writes).bind fun _ => detached .closesLevel

theorem of_failed {x : M α} [Enacts .plain x] (stays : e.mayStay = true)
    (failed : ∀ {s a s'}, x s = .ok a s' → s'.codeError = true) : Enacts e x where
  toDoes := .of_failed stays failed
  detached := detached .plain

theorem mayClose {x : M α} (closes : Enacts .closesLevel x) : Enacts .mayCloseLevel x where
  toDoes := .mayClose closes.toDoes
  detached := closes.detached

theorem retypes_of_plain {x : M α} [Enacts .plain x] : Enacts .retypes x where
  toDoes := .retypes_of_plain
  detached := detached .plain

end Enacts

/-- Steps that leave the context alone. -/
structure Plain (α : Type) where
  run : M α
  plain : Enacts .plain run

namespace Plain

variable {α : Type}

instance : Monad Plain where
  pure a := ⟨pure a, inferInstance⟩
  bind x f := ⟨x.run >>= fun a => (f a).run,
    have := x.plain
    have := fun a => (f a).plain
    inferInstance⟩

instance : MonadReaderOf State Plain where
  read := ⟨fun s => .ok s.veiled s, .of_total fun s _ _ => ⟨s.veiled, s, rfl, .refl _⟩⟩

instance : MonadLift (Except Fault) Plain where
  monadLift
    | .ok a => pure a
    | .error f => ⟨throw f, inferInstance⟩

instance : MonadLift Plain M := ⟨run⟩

@[simp] theorem run_pure (a : α) : (pure a : Plain α).run = pure a := rfl

variable {β : Type} {s s' : State}

@[simp] theorem run_bind (x : Plain α) (f : α → Plain β) :
    (x >>= f).run = x.run >>= fun a => (f a).run := rfl

@[simp] theorem liftM_eq_run (x : Plain α) : (liftM x : M α) = x.run := rfl

theorem bind_eq_ok {x : Plain α} {f : α → Plain β} {b : β} :
    (x >>= f).run s = .ok b s' ↔ ∃ a s₁, x.run s = .ok a s₁ ∧ (f a).run s₁ = .ok b s' :=
  M.bind_eq_ok

theorem cut {x : Plain α} {f : α → Plain β} {b : β} (run : (x >>= f).run s = .ok b s') :
    ∃ a s₁, x.run s = .ok a s₁ ∧ (f a).run s₁ = .ok b s' :=
  bind_eq_ok.1 run

theorem lift_eq_ok {x : Except Fault α} {a : α} :
    (liftM x : Plain α).run s = .ok a s' ↔ x = .ok a ∧ s = s' := by
  cases x with
  | error f => exact ⟨fun run => (by cases run), fun ⟨made, _⟩ => (by cases made)⟩
  | ok b =>
    change EStateM.Result.ok b s = .ok a s' ↔ _
    simp

/-- A step that is made on a condition before the rest. -/
theorem join_eq_ok {c : Prop} [Decidable c] {x : Plain Unit} {rest : Unit → Plain β}
    {b : β} : (if c then x >>= rest else rest ()).run s = .ok b s'
      ↔ ∃ s₁, (if c then x else pure ()).run s = .ok () s₁ ∧ (rest ()).run s₁ = .ok b s' := by
  split
  · rw [bind_eq_ok]
    exact ⟨fun ⟨_, run⟩ => run, fun run => ⟨(), run⟩⟩
  · simp

end Plain

instance Enacts.monadLift {m : Type → Type} {α : Type} [MonadLiftT m Plain] (x : m α) :
    Enacts .plain (MonadLiftT.monadLift x : M α) :=
  (MonadLiftT.monadLift x : Plain α).plain

def fail {α : Type} (f : Fault) : Plain α := ⟨throw f, inferInstance⟩

/-- Changes the state, but neither the context nor the types of the variables that exist nor the code
of the class, and without looking at what most steps cannot see. -/
def update (f : State → State)
    (follows : ∀ s : State, s.context.Follows (f s).context := by
      unfold State.context; exact fun _ => Context.Follows.refl _)
    (types : ∀ s : State, s.types <+: (f s).types := by exact fun _ => State.types_prefix rfl)
    (code : ∀ s : State, (f s).written = s.written := by exact fun _ => rfl)
    (silent : ∀ c s, f (s.cloaked c) = (f s).cloaked c := by exact fun _ _ => rfl) : Plain Unit :=
  ⟨modify f, .of_total (fun s _ _ => ⟨(), f s, rfl, follows s⟩)
    ⟨types, code, fun c s => congrArg (EStateM.Result.ok ()) (silent c s)⟩⟩

/-- A change of the state that may write code of the class. -/
theorem Enacts.of_writing {f : State → State}
    (follows : ∀ s : State, s.context.Follows (f s).context)
    (types : ∀ s : State, s.types <+: (f s).types)
    (silent : ∀ c s, f (s.cloaked c) = (f s).cloaked c) : Enacts .writes (modify f : M Unit) :=
  have silent : Silent (modify f : M Unit) := fun c s => congrArg (EStateM.Result.ok ()) (silent c s)
  { ok := by
      rintro s _ _ - - ⟨⟩
      exact .inl (follows s)
    error := by rintro s _ _ - - ⟨⟩
    types := fun _ => types
    code := nofun
    blind := fun _ => silent.blind
    candid := silent.candid
    detached := silent.detached }

end PerlJava.Compile
