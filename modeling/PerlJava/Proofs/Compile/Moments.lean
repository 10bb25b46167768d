import PerlJava.Proofs.Compile.ParserStack

/-!
# The moments of a compilation

A moment lies between two moves of the parser. The moments of a compilation are listed along with
its end, which is that of `compile`; an invariant that every move keeps holds at all of them.
-/

namespace PerlJava.Compile

/-- A moment between two moves of the parser. -/
structure Moment where
  /-- The productions by which has been reduced so far, the last first. -/
  reductions : List Nat := []
  config : LR.Config Token Value := LR.start
  state : State

def reductionOf? : LR.Move Token Value → Option Nat
  | .reduce n => some n
  | _ => none

def Moment.after (m : Moment) (config : LR.Config Token Value) (state : State)
    (move : LR.Move Token Value) : Moment where
  reductions := (reductionOf? move).toList ++ m.reductions
  config
  state

/-- The moments of some work and how it ended. -/
structure History (α : Type) where
  moments : List Moment
  result : EStateM.Result Stop State α

def History.Always {α : Type} (h : History α) (P : Moment → Prop) : Prop :=
  ∀ m ∈ h.moments, P m

/-- The moments of a run of the parser, from one on, and its end after so many moves at most. -/
def runHistory (tracing : Option Tracing) (p : Parser) :
    (limit : Nat) → Moment → History (Option Value)
  | 0, m => ⟨[m], .error (.fault .exhausted) m.state⟩
  | limit + 1, m =>
    match (host tracing).choose p.table p.defaults m.config m.state with
    | .error stop s => ⟨[m], .error stop s⟩
    | .ok (move, c) s =>
      match (host tracing).perform p.table c move s with
      | .error stop s => ⟨[m], .error stop s⟩
      | .ok (.done value) s => ⟨[m], .ok value s⟩
      | .ok (.running c) s =>
        let rest := runHistory tracing p limit (m.after c s move)
        { rest with moments := m :: rest.moments }

section Run

variable {tracing : Option Tracing} {p : Parser}

theorem runHistory_result (limit : Nat) (m : Moment) : (runHistory tracing p limit m).result
    = (host tracing).run p.table p.defaults limit m.config m.state := by
  induction limit generalizing m with
  | zero => rfl
  | succ limit ih =>
    rw [runHistory, LR.Host.run, LR.Host.step, bind_assoc, M.bind_apply]
    cases (host tracing).choose p.table p.defaults m.config m.state with
    | error stop s => rfl
    | ok chosen s =>
      simp only [M.bind_apply]
      cases (host tracing).perform p.table chosen.2 chosen.1 s with
      | error stop s => rfl
      | ok out s =>
        cases out with
        | done value => rfl
        | running c => exact ih (m.after c s chosen.1)

def Moves (tracing : Option Tracing) (p : Parser) (m next : Moment) : Prop :=
  ∃ move c s c' s', (host tracing).choose p.table p.defaults m.config m.state = .ok (move, c) s
    ∧ (host tracing).perform p.table c move s = .ok (.running c') s' ∧ next = m.after c' s' move

/-- How a run may end at a moment. -/
inductive Ended (tracing : Option Tracing) (p : Parser) (m : Moment) :
    EStateM.Result Stop State (Option Value) → Prop where
  | exhausted : Ended tracing p m (.error (.fault .exhausted) m.state)
  | stopped {stop : Stop} {s : State} :
    (host tracing).choose p.table p.defaults m.config m.state = .error stop s →
    Ended tracing p m (.error stop s)
  | stoppedIn {move : LR.Move Token Value} {c : LR.Config Token Value} {s s' : State} {stop : Stop} :
    (host tracing).choose p.table p.defaults m.config m.state = .ok (move, c) s →
    (host tracing).perform p.table c move s = .error stop s' → Ended tracing p m (.error stop s')
  | done {move : LR.Move Token Value} {c : LR.Config Token Value} {s s' : State}
      {value : Option Value} :
    (host tracing).choose p.table p.defaults m.config m.state = .ok (move, c) s →
    (host tracing).perform p.table c move s = .ok (.done value) s' → Ended tracing p m (.ok value s')

/-- A run ends where it starts, or makes a move and goes on. -/
theorem runHistory_cases (limit : Nat) (m : Moment) :
    ((runHistory tracing p limit m).moments = [m]
        ∧ Ended tracing p m (runHistory tracing p limit m).result)
      ∨ ∃ before next, limit = before + 1 ∧ Moves tracing p m next
        ∧ (runHistory tracing p limit m).moments = m :: (runHistory tracing p before next).moments
        ∧ (runHistory tracing p limit m).result = (runHistory tracing p before next).result := by
  cases limit with
  | zero => exact .inl ⟨rfl, .exhausted⟩
  | succ before =>
    rw [runHistory]
    cases chosen : (host tracing).choose p.table p.defaults m.config m.state with
    | error stop s => exact .inl ⟨rfl, .stopped chosen⟩
    | ok move s =>
      simp only
      cases performed : (host tracing).perform p.table move.2 move.1 s with
      | error stop s => exact .inl ⟨rfl, .stoppedIn chosen performed⟩
      | ok out s =>
        cases out with
        | done value => exact .inl ⟨rfl, .done chosen performed⟩
        | running c =>
          exact .inr ⟨before, _, rfl, ⟨_, _, _, _, _, chosen, performed, rfl⟩, rfl, rfl⟩

theorem runHistory_keeps {Inv : List Moment → Moment → Prop}
    (keep : ∀ {earlier m next}, Inv earlier m → Moves tracing p m next → Inv (earlier ++ [m]) next)
    (limit : Nat) {earlier : List Moment} {m : Moment} (start : Inv earlier m)
    {before after : List Moment} {now : Moment}
    (moments : (runHistory tracing p limit m).moments = before ++ now :: after) :
    Inv (earlier ++ before) now := by
  induction limit generalizing earlier m before with
  | zero =>
    obtain ⟨rfl, rfl, -⟩ : before = [] ∧ m = now ∧ after = [] := by
      cases before <;> simp_all [runHistory]
    simpa using start
  | succ limit ih =>
    obtain ⟨single, -⟩ | ⟨_, next, ⟨⟩, moves, more, -⟩ := runHistory_cases (limit + 1) m
    · rw [single] at moments
      obtain ⟨rfl, rfl, -⟩ : before = [] ∧ m = now ∧ after = [] := by
        cases before <;> simp_all
      simpa using start
    · rw [more] at moments
      cases before with
      | nil =>
        obtain ⟨rfl, -⟩ := List.cons.inj moments
        simpa using start
      | cons first before =>
        obtain ⟨rfl, rest⟩ := List.cons.inj moments
        simpa using ih (keep start moves) rest

theorem runHistory_always {Inv : Moment → Prop}
    (keep : ∀ {m next}, Inv m → Moves tracing p m next → Inv next) (limit : Nat) {m : Moment}
    (start : Inv m) : (runHistory tracing p limit m).Always Inv := by
  intro now member
  obtain ⟨before, after, moments⟩ := List.append_of_mem member
  exact @runHistory_keeps tracing p (fun _ => Inv) keep limit [] m start before after now moments

theorem runHistory_ended (limit : Nat) (m : Moment) :
    ∃ last, (runHistory tracing p limit m).moments.getLast? = some last
      ∧ Ended tracing p last (runHistory tracing p limit m).result := by
  induction limit generalizing m with
  | zero => exact ⟨m, rfl, .exhausted⟩
  | succ limit ih =>
    obtain ⟨moments, ended⟩ | ⟨_, next, ⟨⟩, -, moments, result⟩ := runHistory_cases (limit + 1) m
    · exact ⟨m, by rw [moments]; rfl, ended⟩
    · obtain ⟨last, found, ended⟩ := ih next
      exact ⟨last, by rw [moments, List.getLast?_cons, found]; rfl, result ▸ ended⟩

theorem mem_runHistory (limit : Nat) (m : Moment) :
    m ∈ (runHistory tracing p limit m).moments := by
  obtain ⟨moments, -⟩ | ⟨_, _, -, -, moments, -⟩ := runHistory_cases limit m
  · exact moments ▸ List.mem_cons_self
  · exact moments ▸ List.mem_cons_self

/-- What no move undoes still holds at the last moment. -/
theorem runHistory_persists {Inv Sticks : Moment → Prop}
    (keep : ∀ {m next}, Inv m → Moves tracing p m next → Inv next)
    (stick : ∀ {m next}, Inv m → Sticks m → Moves tracing p m next → Sticks next) (limit : Nat)
    {m now last : Moment} (start : Inv m) (member : now ∈ (runHistory tracing p limit m).moments)
    (holds : Sticks now) (found : (runHistory tracing p limit m).moments.getLast? = some last) :
    Sticks last := by
  induction limit generalizing m now with
  | zero =>
    obtain rfl := List.mem_singleton.1 member
    cases found
    exact holds
  | succ limit ih =>
    obtain ⟨moments, -⟩ | ⟨_, next, ⟨⟩, moves, moments, -⟩ := runHistory_cases (limit + 1) m
    · rw [moments] at member found
      obtain rfl := List.mem_singleton.1 member
      cases found
      exact holds
    · obtain ⟨end_, ending, -⟩ := runHistory_ended limit next
      rw [moments] at member found
      rw [List.getLast?_cons, ending] at found
      cases found
      obtain rfl | later := List.mem_cons.1 member
      · exact ih (keep start moves) (mem_runHistory limit next) (stick start holds moves) ending
      · exact ih (keep start moves) later holds ending

/-- A run that has come to its end goes through the same moments if it may make more moves. -/
theorem runHistory_more {limit : Nat} {m : Moment} (more : Nat)
    (ends : ∀ s, (runHistory tracing p limit m).result ≠ .error (.fault .exhausted) s) :
    runHistory tracing p (limit + more) m = runHistory tracing p limit m := by
  induction limit generalizing m with
  | zero => exact absurd rfl (ends m.state)
  | succ limit ih =>
    rw [Nat.add_right_comm, runHistory, runHistory]
    rw [runHistory] at ends
    cases chosen : (host tracing).choose p.table p.defaults m.config m.state with
    | error stop s => rfl
    | ok move s =>
      rw [chosen] at ends
      simp only at ends ⊢
      cases performed : (host tracing).perform p.table move.2 move.1 s with
      | error stop s => rfl
      | ok out s =>
        rw [performed] at ends
        cases out with
        | done value => rfl
        | running c => simp only [ih ends]

end Run

def prepare (tracing : Option Tracing) (text : String) : M Unit := do
  (host tracing).log .info fun _ => "PLY: PARSE DEBUG START"
  startReading text

instance (tracing : Option Tracing) (text : String) : Does .plain (prepare tracing text) := by
  unfold prepare
  infer_instance

/-- The end of a compilation, by that of the run of its parser. -/
def classResult : EStateM.Result Stop State (Option Value) → EStateM.Result Stop State (Option String)
  | .ok value s => .ok (classText? value) s
  | .error stop s => .error stop s

theorem endState_classResult (result : EStateM.Result Stop State (Option Value)) :
    endState (classResult result) = endState result := by
  cases result <;> rfl

theorem ok_of_classResult {result : EStateM.Result Stop State (Option Value)} {out : Option String}
    {s : State} (done : classResult result = .ok out s) :
    ∃ value, result = .ok value s ∧ out = classText? value := by
  cases result with
  | ok value s => cases done; exact ⟨value, rfl, rfl⟩
  | error stop s => cases done

/-- The history of a compilation, by that of its parser. -/
def History.compiled (run : History (Option Value)) : History (Option String) :=
  ⟨run.moments, classResult run.result⟩

/-- What follows the start of a compilation. -/
@[simp]
def historyAfter (tracing : Option Tracing) (p : Parser) (limit : Nat) :
    EStateM.Result Stop State Unit → History (Option String)
  | .error stop s => ⟨[], .error stop s⟩
  | .ok _ s => (runHistory tracing p limit { state := s }).compiled

/-- The moments of a compilation and its end after so many moves at most. -/
def history (p : Parser) (text : String) (limit : Nat) (s : State) : History (Option String) :=
  historyAfter s.options.tracing p limit (prepare s.options.tracing text s)

/-- What every move keeps, and holds where the first one is made, holds at every moment. -/
theorem history_always {p : Parser} {text : String} {s : State} {Inv : Moment → Prop}
    (keep : ∀ {m next}, Inv m → Moves s.options.tracing p m next → Inv next)
    (start : ∀ {u s₁}, prepare s.options.tracing text s = .ok u s₁ → Inv { state := s₁ })
    (limit : Nat) : (history p text limit s).Always Inv := by
  rw [history]
  cases prepared : prepare s.options.tracing text s with
  | error stop s₁ => exact fun _ => (absurd · List.not_mem_nil)
  | ok u s₁ => exact runHistory_always keep limit (start prepared)

theorem history_result (p : Parser) (text : String) (limit : Nat) (s : State) :
    (history p text limit s).result = compileWithin limit p text s := by
  have parse : (host s.options.tracing).parse p.table p.defaults limit (startReading text) = (do
      prepare s.options.tracing text
      (host s.options.tracing).run p.table p.defaults limit LR.start) := by
    rw [LR.Host.parse, prepare, bind_assoc]
  rw [history, compileWithin, M.bind_apply]
  change _ = (do
    return classText? (← (host s.options.tracing).parse p.table p.defaults limit
      (startReading text)) : M (Option String)) s
  rw [parse, bind_assoc, M.bind_apply]
  cases prepare s.options.tracing text s with
  | error stop s => rfl
  | ok _ s₁ =>
    simp only [historyAfter, History.compiled, runHistory_result, M.bind_apply]
    cases (host s.options.tracing).run p.table p.defaults limit LR.start s₁ <;> rfl

/-- More moves make no difference to a compilation that ends within fewer. -/
theorem compileWithin_more {p : Parser} {text : String} {limit : Nat} {s : State} (more : Nat)
    (ends : ∀ s', compileWithin limit p text s ≠ .error (.fault .exhausted) s') :
    compileWithin (limit + more) p text s = compileWithin limit p text s := by
  rw [← history_result] at ends
  rw [← history_result, ← history_result, history, history]
  rw [history] at ends
  cases prepared : prepare s.options.tracing text s with
  | error stop s₁ => rfl
  | ok u s₁ =>
    rw [prepared] at ends
    have run := @runHistory_more s.options.tracing p limit { state := s₁ } more fun s' cut =>
      ends s' (congrArg classResult cut)
    exact congrArg (fun run => run.compiled.result) run

/-- A compilation that comes to its end has been prepared, and its parser has come to an end. -/
theorem compileWithin_eq_ok {p : Parser} {text : String} {limit : Nat} {start s : State}
    {out : Option String} (done : compileWithin limit p text start = .ok out s) :
    ∃ s₀ value, prepare start.options.tracing text start = .ok () s₀ ∧ out = classText? value
      ∧ (runHistory start.options.tracing p limit { state := s₀ }).result = .ok value s := by
  rw [← history_result, history] at done
  cases prepared : prepare start.options.tracing text start with
  | error stop s₀ =>
    rw [prepared] at done
    cases done
  | ok u s₀ =>
    rw [prepared] at done
    obtain ⟨value, result, same⟩ := ok_of_classResult done
    exact ⟨s₀, value, rfl, same, result⟩

end PerlJava.Compile
