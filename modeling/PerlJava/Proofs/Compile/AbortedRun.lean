import PerlJava.Proofs.Compile.Lockstep

/-!
# Compiling until the first error

Where the first error ends the work, a compilation goes through the same moments as it would without
that wish, up to the report of the first error, and stops there. All steps are candid, so none of them
can keep an error back, print it twice or go on after it.
-/

namespace PerlJava.Compile

open Diagnostic (Printed)

variable {p : Parser} {tracing : Option Tracing}

/-- From one state to another something has been printed, with an error in it or not. -/
def Said (error : Bool) (before after : State) : Prop :=
  ∃ new, Printing new before after ∧ anyError new = error

theorem Said.refl (s : State) : Said false s s :=
  ⟨[], .of_same rfl rfl rfl, rfl⟩

/-- What has been printed without an error before does not matter. -/
theorem Said.after {error : Bool} {s s₁ s₂ : State} (first : Said false s s₁)
    (second : Said error s₁ s₂) : Said error s s₂ := by
  obtain ⟨new, printing, fine⟩ := first
  obtain ⟨more, further, same⟩ := second
  exact ⟨new ++ more, printing.trans further, by rw [anyError_append, fine, same, Bool.false_or]⟩

theorem Said.andThen {new : List Printed} {s s₁ s₂ : State} (first : Said true s s₁)
    (second : Printing new s₁ s₂) : Said true s s₂ := by
  obtain ⟨old, printing, error⟩ := first
  exact ⟨old ++ new, printing.trans second, by rw [anyError_append, error, Bool.true_or]⟩

/-- What a history becomes where the first error ends the work: it is the same if there is no error, and
else it stops at the first one. -/
inductive Shortened {α : Type} (s : State) (off on : History α) : Prop where
  | same {new : List Printed} : Printing new s (endState off.result) → anyError new = false →
    on = off.map (·.aborting true) → Shortened s off on
  | stopped {new : List Printed} {s' : State} (shared later : List Moment) :
    Printing new s (endState off.result) → anyError new = true →
    on.result = .error (.fault .stopped) s' → Printing (upToError new) (s.aborting true) s' →
    off.moments = shared ++ later → on.moments = shared.map (·.map (·.aborting true)) →
    (∀ m ∈ shared, Said false s m.state) → (∀ m ∈ later, Said true s m.state) → Shortened s off on

namespace Shortened

variable {α : Type} {s s₁ : State} {off on : History α}

/-- What has been printed without an error before does not matter. -/
theorem after {new : List Printed} (printing : Printing new s s₁) (fine : anyError new = false)
    (shortened : Shortened s₁ off on) : Shortened s off on := by
  have said : Said false s s₁ := ⟨new, printing, fine⟩
  cases shortened with
  | same more fine' same =>
    exact .same (printing.trans more) (by rw [anyError_append, fine, fine']; rfl) same
  | stopped shared later more error ended cut moments moments' before behind =>
    refine .stopped shared later (printing.trans more)
      (by rw [anyError_append, error, Bool.or_true]) ended ?_ moments moments'
      (fun m member => said.after (before m member)) fun m member => said.after (behind m member)
    rw [upToError_append_of_none fine]
    exact (printing.aborting true).trans cut

/-- A moment without an error may come before. -/
theorem cons {m : Moment} (said : Said false s m.state) (shortened : Shortened s off on) :
    Shortened s (off.cons m) (on.cons (m.map (·.aborting true))) := by
  cases shortened with
  | same printing fine same => exact .same printing fine (congrArg (History.cons _) same)
  | stopped shared later printing error ended cut moments moments' before behind =>
    refine .stopped (m :: shared) later printing error ended cut (congrArg (m :: ·) moments)
      (congrArg (m.map (·.aborting true) :: ·) moments') (fun m' member => ?_) behind
    obtain rfl | member := List.mem_cons.1 member
    · exact said
    · exact before m' member

theorem compiled {off on : History (Option Value)} (shortened : Shortened s off on) :
    Shortened s off.compiled on.compiled := by
  have kept : endState off.compiled.result = endState off.result := endState_classResult _
  cases shortened with
  | same printing fine same =>
    refine .same (by rwa [kept]) fine ?_
    rw [same, History.compiled_map]
  | stopped shared later printing error ended cut moments moments' before behind =>
    exact .stopped shared later (by rwa [kept]) error (congrArg classResult ended) cut moments moments'
      before behind

end Shortened

/-! ### Runs -/

theorem candid_makeMove (tracing : Option Tracing) (p : Parser) (c : LR.Config Token Value) :
    Candid (makeMove tracing p c) := by
  unfold makeMove
  refine (Does.candid .plain).bind fun chosen => ?_
  exact (Does.candid (moveEffect chosen.1)).bind fun _ => (Silent.pure _).candid

theorem runHistory_printing (tracing : Option Tracing) (p : Parser) (limit : Nat) (m : Moment) :
    (∃ new, Printing new m.state (endState (runHistory tracing p limit m).result))
      ∧ (runHistory tracing p limit m).Always fun now => ∃ new, Printing new m.state now.state := by
  have here : ∃ new, Printing new m.state m.state := ⟨[], .of_same rfl rfl rfl⟩
  induction limit generalizing m with
  | zero => exact ⟨here, by rintro _ (_ | ⟨_, ⟨⟩⟩); exact here⟩
  | succ limit ih =>
    have single : ∀ now ∈ [m], ∃ new, Printing new m.state now.state := by
      rintro now member
      obtain rfl := List.mem_singleton.1 member
      exact here
    rw [runHistory_succ]
    obtain ⟨new, printing⟩ := (candid_makeMove tracing p m.config).printing m.state
    cases made : makeMove tracing p m.config m.state with
    | error stop s =>
      rw [made] at printing
      exact ⟨⟨new, printing⟩, single⟩
    | ok moved s =>
      rw [made] at printing
      obtain ⟨move, out⟩ := moved
      cases out with
      | done value => exact ⟨⟨new, printing⟩, single⟩
      | running c =>
        obtain ⟨⟨more, ended⟩, always⟩ := ih (m.after c s move) ⟨[], .of_same rfl rfl rfl⟩
        refine ⟨⟨new ++ more, printing.trans ended⟩, fun now member => ?_⟩
        obtain rfl | later := List.mem_cons.1 member
        · exact here
        · obtain ⟨more, further⟩ := always now later
          exact ⟨new ++ more, printing.trans further⟩

/-- Along a compilation something is printed. -/
theorem history_printing (p : Parser) (text : String) (limit : Nat) (s : State) :
    ∃ new, Printing new s (endState (history p text limit s).result) := by
  have candid : Candid (prepare s.options.tracing text) := Does.candid .plain
  obtain ⟨new, printing⟩ := candid.printing s
  rw [history]
  cases prepared : prepare s.options.tracing text s with
  | error stop s₁ =>
    rw [prepared] at printing
    exact ⟨new, printing⟩
  | ok u s₁ =>
    rw [prepared] at printing
    obtain ⟨⟨more, ended⟩, -⟩ :=
      runHistory_printing s.options.tracing p limit { state := s₁ }
    rw [← endState_classResult] at ended
    exact ⟨new ++ more, printing.trans ended⟩

section FirstMove

variable {limit : Nat} {m : Moment} {new : List Printed}
variable {made : EStateM.Result Stop State (LR.Move Token Value × LR.Outcome Token Value)}

theorem runAfter_same (printing : Printing new m.state (endState made)) (fine : anyError new = false)
    (rest : ∀ {move c s}, made = .ok (move, .running c) s →
      Shortened s (runHistory tracing p limit (m.after c s move))
        (runHistory tracing p limit ((m.after c s move).map (·.aborting true)))) :
    Shortened m.state (runAfter tracing p limit m made)
      (runAfter tracing p limit (m.map (·.aborting true)) (mapState (·.aborting true) made)) := by
  cases made with
  | error stop s => exact .same printing fine rfl
  | ok moved s =>
    obtain ⟨move, out⟩ := moved
    cases out with
    | done value => exact .same printing fine rfl
    | running c => exact ((rest rfl).after printing fine).cons (.refl m.state)

theorem runAfter_stopped {s' : State} (printing : Printing new m.state (endState made))
    (error : anyError new = true) (cut : Printing (upToError new) (m.state.aborting true) s') :
    Shortened m.state (runAfter tracing p limit m made)
      ⟨[m.map (·.aborting true)], .error (.fault .stopped) s'⟩ := by
  have before : ∀ now ∈ [m], Said false m.state now.state := by
    simpa using Said.refl m.state
  cases made with
  | error stop s => exact .stopped _ [] printing error rfl cut (List.append_nil _).symm rfl before (by simp)
  | ok moved s =>
    obtain ⟨move, out⟩ := moved
    cases out with
    | done value =>
      exact .stopped _ [] printing error rfl cut (List.append_nil _).symm rfl before (by simp)
    | running c =>
      -- The run without the wish goes on, and the error is still there at its end.
      obtain ⟨⟨more, ended⟩, always⟩ :=
        runHistory_printing tracing p limit (m.after c s move)
      refine .stopped [m] _ (printing.trans ended) (by rw [anyError_append, error, Bool.true_or]) rfl ?_
        rfl rfl before fun now member => ?_
      · rwa [upToError_append_of_any error]
      · obtain ⟨more, further⟩ := always now member
        exact Said.andThen ⟨new, printing, error⟩ further

end FirstMove

theorem runHistory_shortened (tracing : Option Tracing) (p : Parser) (limit : Nat) (m : Moment)
    (off : m.state.options.errorAbort = false) :
    Shortened m.state (runHistory tracing p limit m)
      (runHistory tracing p limit (m.map (·.aborting true))) := by
  induction limit generalizing m with
  | zero => exact .same (.of_same rfl rfl rfl) rfl rfl
  | succ limit ih =>
    have cut := candid_makeMove tracing p m.config m.state off
    rw [runHistory_succ, runHistory_succ]
    change Shortened m.state _ (runAfter tracing p limit (m.map (·.aborting true))
      (makeMove tracing p m.config (m.state.aborting true)))
    generalize makeMove tracing p m.config (m.state.aborting true) = on at cut ⊢
    cases cut with
    | same printing fine =>
      refine runAfter_same printing fine fun {move c s} made => ih (m.after c s move) ?_
      rw [made] at printing
      exact printing.abort.trans off
    | stopped printing error cut => exact runAfter_stopped printing error cut

/-- So is a compilation. -/
theorem history_shortened (text : String) (limit : Nat) (s : State)
    (off : s.options.errorAbort = false) :
    Shortened s (history p text limit s) (history p text limit (s.aborting true)) := by
  have cut : Cut s (prepare s.options.tracing text s)
      (prepare s.options.tracing text (s.aborting true)) := Does.candid .plain s off
  rw [history, history]
  change Shortened s _ (historyAfter s.options.tracing p limit
    (prepare s.options.tracing text (s.aborting true)))
  generalize prepare s.options.tracing text (s.aborting true) = on at cut ⊢
  cases prepared : prepare s.options.tracing text s with
  | error stop s₁ =>
    rw [prepared] at cut
    cases cut with
    | same printing fine => exact .same printing fine rfl
    | stopped printing error cut =>
      exact .stopped [] [] printing error rfl cut rfl rfl (by simp) (by simp)
  | ok u s₁ =>
    rw [prepared] at cut
    cases cut with
    | same printing fine =>
      have run := runHistory_shortened s.options.tracing p limit { state := s₁ }
        (printing.abort.trans off)
      exact (run.after printing fine).compiled
    | stopped printing error cut =>
      obtain ⟨⟨more, ended⟩, always⟩ :=
        runHistory_printing s.options.tracing p limit { state := s₁ }
      rw [← endState_classResult] at ended
      refine .stopped [] _ (printing.trans ended)
        (by rw [anyError_append, error, Bool.true_or]) rfl ?_ rfl rfl (by simp) fun now member => ?_
      · rwa [upToError_append_of_any error]
      · obtain ⟨more, further⟩ := always now member
        exact Said.andThen ⟨_, printing, error⟩ further

/-! ### The first error of a file -/

theorem Printing.printed_ofFile {session : Session} {options : Options} {name : String}
    {new : List Printed} {s : State} (printing : Printing new (State.ofFile session options name) s) :
    s.printed.toList = new := by
  rw [printing.printed]
  simp [State.ofFile]

theorem Said.anyError_ofFile {session : Session} {options : Options} {name : String} {error : Bool}
    {s : State} (said : Said error (State.ofFile session options name) s) :
    anyError s.printed.toList = error := by
  obtain ⟨new, printing, same⟩ := said
  rw [printing.printed_ofFile, same]

theorem codeError_compile (p : Parser) (session : Session) (options : Options) (name text : String) :
    let ended := endState (compile p text (State.ofFile session options name))
    ended.codeError = anyError ended.printed.toList := by
  intro ended
  obtain ⟨new, printing⟩ :=
    history_printing p text (moveLimit text) (State.ofFile session options name)
  rw [history_result, ← compile] at printing
  rw [printing.printed_ofFile, printing.failed]
  rfl

/-- The wish that the first error ends the work only cuts a compilation short. If no error is printed
without that wish, the compilation goes through the same moments and ends in the same way with it. Else
it is stopped, and has printed what is printed without the wish up to and with the first error. It went
through the moments before that error, and through no other: no later action has run. -/
theorem abort_only_truncates (p : Parser) (session : Session) (options : Options)
    (name text : String) (limit : Nat) :
    let off := State.ofFile session { options with errorAbort := false } name
    let on := State.ofFile session { options with errorAbort := true } name
    let long := history p text limit off
    let short := history p text limit on
    let last := endState long.result
    ((anyError last.printed.toList = false ∧ short = long.map (·.aborting true))
      ∨ ∃ before error after ended shared later,
        last.printed.toList = before ++ error :: after ∧ anyError before = false
          ∧ error.isError = true ∧ short.result = .error (.fault .stopped) ended
          ∧ ended.printed.toList = before ++ [error]
          ∧ last.log = ended.log ++ String.join (after.map (·.text))
          ∧ long.moments = shared ++ later ∧ short.moments = shared.map (·.map (·.aborting true))
          ∧ (∀ m ∈ shared, anyError m.state.printed.toList = false)
          ∧ ∀ m ∈ later, anyError m.state.printed.toList = true)
      ∧ (history p text (moveLimit text) off).result = compile p text off
      ∧ (history p text (moveLimit text) on).result = compile p text on := by
  intro off on long short last
  refine ⟨?_, history_result p text _ off, history_result p text _ on⟩
  have shortened : Shortened off long short := history_shortened text limit off rfl
  cases shortened with
  | same printing fine same =>
    have printed : last.printed.toList = _ := printing.printed_ofFile
    exact .inl ⟨by rw [printed, fine], same⟩
  | @stopped new ended shared later printing error stopped cut moments moments' before behind =>
    have printed : last.printed.toList = new := printing.printed_ofFile
    have printed' : ended.printed.toList = upToError new :=
      @Printing.printed_ofFile session { options with errorAbort := true } name _ _ cut
    obtain ⟨first, e, after, rfl, none, isError, upTo⟩ := upToError_of_any error
    rw [upTo] at printed'
    refine .inr ⟨first, e, after, ended, shared, later, printed, none, isError, stopped, printed', ?_,
      moments, moments', fun m member => (before m member).anyError_ofFile,
      fun m member => (behind m member).anyError_ofFile⟩
    rw [State.log, State.log, printed, printed', ← String.join_append, ← List.map_append,
      List.append_assoc, List.singleton_append]

end PerlJava.Compile
