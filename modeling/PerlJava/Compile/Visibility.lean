import PerlJava.Compile.State

/-!
# What a step can see

A step is silent if it neither sees nor changes the switches for optimised code, for comments, for
errors and for the trace, nor the reader, the trace and what was printed. A step that prints cannot
be silent, but it may be candid: it only adds to what was printed, an error is noted as it is
printed, and where the first error ends the work, the step is cut short there and does the same up to
that point.
-/

namespace PerlJava.Compile

open Diagnostic (Printed)

variable {α β : Type}

theorem mapState_congr {f g : State → State} {result : EStateM.Result Stop State α}
    (same : f (endState result) = g (endState result)) : mapState f result = mapState g result := by
  cases result with
  | ok a s => exact congrArg (EStateM.Result.ok a) same
  | error stop s => exact congrArg (EStateM.Result.error stop) same

@[simp] theorem endState_mapState (f : State → State) (result : EStateM.Result Stop State α) :
    endState (mapState f result) = f (endState result) := by
  cases result <;> rfl

/-- Steps that do what others do, up to a change of the state, still do so one after the other. -/
theorem M.bind_mapState {f : State → State} {x y : M α} {g h : α → M β} {s : State}
    (first : y (f s) = mapState f (x s))
    (second : ∀ {a s'}, x s = .ok a s' → h a (f s') = mapState f (g a s')) :
    (y >>= h) (f s) = mapState f ((x >>= g) s) := by
  rw [M.bind_apply, M.bind_apply, first]
  cases run : x s with
  | error stop s₁ => rfl
  | ok a s₁ => exact second run

def BlindAt (x : M α) (s : State) : Prop :=
  ∀ optimize, x (s.optimizing optimize) = mapState (·.optimizing optimize) (x s)

theorem BlindAt.bind {x : M α} {f : α → M β} {s : State} (first : BlindAt x s)
    (second : ∀ {a s'}, x s = .ok a s' → BlindAt (f a) s') : BlindAt (x >>= f) s :=
  fun optimize => M.bind_mapState (first optimize) fun run => second run optimize

/-- A step that does the same whatever the reader and the trace are, and leaves them alone. -/
def Detached (x : M α) : Prop :=
  ∀ b s, x (s.against b) = mapState (·.against b) (x s)

theorem Detached.bind {x : M α} {f : α → M β} (first : Detached x)
    (second : ∀ a, Detached (f a)) : Detached (x >>= f) :=
  fun b s => M.bind_mapState (first b s) fun {a s'} _ => second a b s'

/-- A step that is detached from the reader and the trace leaves them as they are. -/
theorem Detached.backdrop {x : M α} (detached : Detached x) (s : State) :
    (endState (x s)).backdrop = s.backdrop := by
  have same : x s = mapState (·.against s.backdrop) (x s) := detached s.backdrop s
  rw [same]
  cases x s <;> rfl

/-- A step that is detached from the reader and the trace commutes with every change of them. -/
theorem Detached.reframed {x : M α} (detached : Detached x) (g : Backdrop → Backdrop) (s : State) :
    x (s.reframed g) = mapState (·.reframed g) (x s) := by
  have kept := detached.backdrop s
  rw [State.reframed, detached]
  apply mapState_congr
  rw [State.reframed, kept]

/-- A step that does the same whatever most steps cannot see, and leaves that alone. -/
def Silent (x : M α) : Prop :=
  ∀ c s, x (s.cloaked c) = mapState (·.cloaked c) (x s)

namespace Silent

theorem pure (a : α) : Silent (Pure.pure a : M α) :=
  fun _ _ => rfl

theorem throw (f : Fault) : Silent (MonadExcept.throw f : M α) :=
  fun _ _ => rfl

theorem ofExcept (x : Except Fault α) : Silent (MonadExcept.ofExcept x : M α) := by
  cases x <;> exact fun _ _ => rfl

theorem bind {x : M α} {f : α → M β} (first : Silent x) (second : ∀ a, Silent (f a)) :
    Silent (x >>= f) :=
  fun c s => M.bind_mapState (first c s) fun {a s'} _ => second a c s'

variable {x : M α} (silent : Silent x)

include silent

theorem cloak_endState (s : State) : (endState (x s)).cloak = s.cloak := by
  have same : x s = mapState (·.cloaked s.cloak) (x s) := silent s.cloak s
  rw [same]
  cases x s <;> rfl

theorem commutes {f : State → State} {g : Cloak → Cloak}
    (exchanges : ∀ t, f t = t.cloaked (g t.cloak)) (s : State) : x (f s) = mapState f (x s) := by
  rw [exchanges, silent]
  apply mapState_congr
  rw [exchanges, silent.cloak_endState]

theorem blind (s : State) : BlindAt x s := fun optimize =>
  silent.commutes (g := fun c => { c with optimizeCode := optimize }) (fun _ => rfl) s

theorem detached : Detached x := fun b =>
  silent.commutes (g := fun c => { c with
    readComments := b.readComments, tracing := b.tracing, reader := b.reader, trace := b.trace })
    fun _ => rfl

end Silent

/-! ### What a step prints -/

def upToError : List Printed → List Printed
  | [] => []
  | p :: rest => if p.isError then [p] else p :: upToError rest

def anyError (printed : List Printed) : Bool :=
  printed.any (·.isError)

theorem anyError_append (first second : List Printed) :
    anyError (first ++ second) = (anyError first || anyError second) :=
  List.any_append

theorem upToError_of_any {printed : List Printed} (any : anyError printed = true) :
    ∃ before error after, printed = before ++ error :: after ∧ anyError before = false
      ∧ error.isError = true ∧ upToError printed = before ++ [error] := by
  induction printed with
  | nil => cases any
  | cons p rest ih =>
    cases first : p.isError with
    | true => exact ⟨[], p, rest, rfl, rfl, first, by rw [upToError, if_pos first]; rfl⟩
    | false =>
      have others : anyError rest = true := by simpa [anyError, first] using any
      obtain ⟨before, error, after, rfl, none, isError, same⟩ := ih others
      refine ⟨p :: before, error, after, rfl, ?_, isError, ?_⟩
      · simpa [anyError, first] using none
      · rw [upToError, first, same]
        rfl

theorem upToError_append_of_any {first : List Printed} (any : anyError first = true)
    (second : List Printed) : upToError (first ++ second) = upToError first := by
  induction first with
  | nil => cases any
  | cons p rest ih =>
    rw [List.cons_append, upToError, upToError]
    split
    · rfl
    · next fine =>
      have others : anyError rest = true := by simpa [anyError, fine] using any
      rw [ih others]

theorem upToError_append_of_none {first : List Printed} (none : anyError first = false)
    (second : List Printed) : upToError (first ++ second) = first ++ upToError second := by
  induction first with
  | nil => rfl
  | cons p rest ih =>
    obtain ⟨fine, others⟩ : p.isError = false ∧ anyError rest = false := by
      simpa [anyError] using none
    rw [List.cons_append, upToError, fine, ih others]
    rfl

/-- From one state to another some entries have been printed, and errors have been noted. -/
structure Printing (new : List Printed) (before after : State) : Prop where
  printed : after.printed = before.printed ++ new
  failed : after.codeError = (before.codeError || anyError new)
  abort : after.options.errorAbort = before.options.errorAbort

namespace Printing

variable {s s₁ s₂ : State} {new more : List Printed}

theorem of_same (printed : s₁.printed = s.printed) (failed : s₁.codeError = s.codeError)
    (abort : s₁.options.errorAbort = s.options.errorAbort) : Printing [] s s₁ :=
  ⟨by simp [printed], by simp [failed, anyError], abort⟩

theorem trans (first : Printing new s s₁) (second : Printing more s₁ s₂) :
    Printing (new ++ more) s s₂ where
  printed := by
    apply Array.toList_inj.1
    simp [second.printed, first.printed]
  failed := by rw [second.failed, first.failed, anyError_append, Bool.or_assoc]
  abort := second.abort.trans first.abort

/-- Whether errors end the work is not seen by what is printed. -/
theorem aborting (printing : Printing new s s₁) (abort : Bool) :
    Printing new (s.aborting abort) (s₁.aborting abort) :=
  ⟨printing.printed, printing.failed, rfl⟩

end Printing

/-- How work that starts in a state and ends in some way ends where the first error ends it: in the
same way if it reports none, else once it has reported one. -/
inductive Cut (s : State) (off : EStateM.Result Stop State α) :
    EStateM.Result Stop State α → Prop where
  | same {new : List Printed} : Printing new s (endState off) → anyError new = false →
    Cut s off (mapState (·.aborting true) off)
  | stopped {new : List Printed} {s' : State} : Printing new s (endState off) →
    anyError new = true → Printing (upToError new) (s.aborting true) s' →
    Cut s off (.error (.fault .stopped) s')

/-- A step that prints, notes errors, and is cut short by the first one where that is wished. -/
def Candid (x : M α) : Prop :=
  ∀ s, s.options.errorAbort = false → Cut s (x s) (x (s.aborting true))

theorem Cut.printing {s : State} {off on : EStateM.Result Stop State α} (cut : Cut s off on) :
    ∃ new, Printing new s (endState off) := by
  cases cut with
  | same printing _ => exact ⟨_, printing⟩
  | stopped printing _ _ => exact ⟨_, printing⟩

/-- What is cut short may be followed by more that is. -/
theorem Cut.bind {x : M α} {f : α → M β} {s : State} (first : Cut s (x s) (x (s.aborting true)))
    (second : ∀ {a s₁}, x s = .ok a s₁ → Cut s₁ (f a s₁) (f a (s₁.aborting true))) :
    Cut s ((x >>= f) s) ((x >>= f) (s.aborting true)) := by
  rw [M.bind_apply, M.bind_apply]
  generalize onEq : x (s.aborting true) = on at first
  cases run : x s with
  | error stop s₁ =>
    rw [run] at first
    cases first with
    | same printing fine => exact .same printing fine
    | stopped printing error cut => exact .stopped printing error cut
  | ok a s₁ =>
    rw [run] at first
    have later := second run
    cases first with
    | @same new printing fine =>
      change Cut s (f a s₁) (f a (s₁.aborting true))
      generalize f a (s₁.aborting true) = on at later ⊢
      cases later with
      | same more fine' =>
        exact .same (printing.trans more) (by rw [anyError_append, fine, fine']; rfl)
      | stopped more error cut =>
        refine .stopped (printing.trans more) (by rw [anyError_append, error, Bool.or_true]) ?_
        rw [upToError_append_of_none fine]
        exact (printing.aborting true).trans cut
    | @stopped new s' printing error cut =>
      obtain ⟨more, later⟩ := later.printing
      refine .stopped (printing.trans later) (by rw [anyError_append, error, Bool.true_or]) ?_
      rwa [upToError_append_of_any error]

namespace Candid

theorem bind {x : M α} {f : α → M β} (first : Candid x) (second : ∀ a, Candid (f a)) :
    Candid (x >>= f) := fun s off =>
  (first s off).bind fun {a s₁} run => by
    obtain ⟨new, printing⟩ := (first s off).printing
    rw [run] at printing
    exact second a s₁ (printing.abort.trans off)

/-- A step that prints nothing, and does the same whether errors end the work or not. -/
theorem of_unprinted {x : M α} (commutes : ∀ s, x (s.aborting true) = mapState (·.aborting true) (x s))
    (kept : ∀ s, Printing [] s (endState (x s))) : Candid x := fun s _ => by
  rw [commutes]
  exact .same (kept s) rfl

/-- Along a step some entries are printed, wherever it ends. -/
theorem printing {x : M α} (candid : Candid x) (s : State) :
    ∃ new, Printing new s (endState (x s)) := by
  cases abort : s.options.errorAbort with
  | false => exact (candid s abort).printing
  | true =>
    have cut := candid (s.aborting false) rfl
    have still : (s.aborting false).aborting true = s := by
      rw [State.aborting, State.aborting, ← abort]
    rw [still] at cut
    generalize x s = on at cut
    cases cut with
    | @same new printing _ =>
      have printing := printing.aborting true
      rw [still] at printing
      exact ⟨new, by rwa [endState_mapState]⟩
    | @stopped new s' _ _ printing =>
      rw [still] at printing
      exact ⟨_, printing⟩

end Candid

theorem Silent.candid {x : M α} (silent : Silent x) : Candid x := by
  refine .of_unprinted (silent.commutes (g := fun c => { c with errorAbort := true }) fun _ => rfl)
    fun s => ?_
  have kept := silent.cloak_endState s
  exact .of_same (congrArg Cloak.printed kept) (congrArg Cloak.codeError kept)
    (congrArg Cloak.errorAbort kept)

end PerlJava.Compile
