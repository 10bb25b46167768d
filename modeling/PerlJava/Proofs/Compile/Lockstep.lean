import PerlJava.Proofs.Compile.Moments

/-!
# Runs in step

A run may be watched through a change of its reader and trace. If that change commutes with reading and
with tracing, what is seen is again a run, of the same parser or of one that does not trace: all else
that a move does has nothing to do with them. A reduction is traced with the state that comes after
it, so it matters that there always is one.
-/

namespace PerlJava.Compile

open Perl (Symbol rules)

def Moment.map (f : State → State) (m : Moment) : Moment :=
  { m with state := f m.state }

def History.map {α : Type} (f : State → State) (h : History α) : History α where
  moments := h.moments.map (·.map f)
  result := mapState f h.result

def History.cons {α : Type} (m : Moment) (h : History α) : History α :=
  { h with moments := m :: h.moments }

theorem History.compiled_map (f : State → State) (run : History (Option Value)) :
    (run.map f).compiled = run.compiled.map f := by
  obtain ⟨moments, result⟩ := run
  cases result <;> rfl

/-! ### Moves -/

def makeMove (tracing : Option Tracing) (p : Parser) (c : LR.Config Token Value) :
    M (LR.Move Token Value × LR.Outcome Token Value) := do
  let (move, c) ← (host tracing).choose p.table p.defaults c
  return (move, ← (host tracing).perform p.table c move)

def runAfter (tracing : Option Tracing) (p : Parser) (limit : Nat) (m : Moment) :
    EStateM.Result Stop State (LR.Move Token Value × LR.Outcome Token Value) →
      History (Option Value)
  | .error stop s => ⟨[m], .error stop s⟩
  | .ok (_, .done value) s => ⟨[m], .ok value s⟩
  | .ok (move, .running c) s => (runHistory tracing p limit (m.after c s move)).cons m

section

variable {tracing : Option Tracing} {p : Parser}

theorem makeMove_eq_ok {c : LR.Config Token Value} {move : LR.Move Token Value}
    {out : LR.Outcome Token Value} {s s' : State} :
    makeMove tracing p c s = .ok (move, out) s' ↔ ∃ c' s₁,
      (host tracing).choose p.table p.defaults c s = .ok (move, c') s₁
        ∧ (host tracing).perform p.table c' move s₁ = .ok out s' := by
  unfold makeMove
  constructor
  · intro run
    obtain ⟨⟨move', c'⟩, s₁, chosen, run⟩ := M.cut run
    obtain ⟨out', s₂, performed, ⟨⟩⟩ := M.cut run
    exact ⟨c', s₁, chosen, performed⟩
  · rintro ⟨c', s₁, chosen, performed⟩
    exact M.bind_eq_ok.2 ⟨_, _, chosen, M.bind_eq_ok.2 ⟨_, _, performed, rfl⟩⟩

theorem runHistory_succ (limit : Nat) (m : Moment) : runHistory tracing p (limit + 1) m
    = runAfter tracing p limit m (makeMove tracing p m.config m.state) := by
  rw [runHistory, makeMove, M.bind_apply]
  cases (host tracing).choose p.table p.defaults m.config m.state with
  | error stop s => rfl
  | ok chosen s =>
    simp only [M.bind_apply]
    cases (host tracing).perform p.table chosen.2 chosen.1 s with
    | error stop s => rfl
    | ok out s => cases out <;> rfl

end

section Resume

variable {p : Parser} {leads : List Symbol → Nat → Prop} {tracing : Option Tracing}
variable {c c' : LR.Config Token Value} {s s' : State} {w : List Symbol} {production : Nat}

/-- A reduction is chosen because the table says so, by default or for the symbol that comes next. -/
theorem choose_reduce {top : LR.Frame Token Value} {rest : List (LR.Frame Token Value)}
    (frames : c.frames = top :: rest)
    (run : (host tracing).choose p.table p.defaults c s = .ok (.reduce production, c') s') :
    p.defaults.getD top.state none = some production
      ∨ ∃ kind, p.table.action? top.state kind = some (.reduce production) := by
  obtain ⟨_, _, _, same, -, ⟨_, byDefault, ⟨⟩, -⟩ | ⟨next, _, -, moves, -⟩⟩ := choose_cases run
    <;> cases frames.symm.trans same
  · exact .inl byDefault
  · refine .inr ⟨next.kind, ?_⟩
    unfold LR.Table.moveOn at moves
    split at moves <;> cases moves
    assumption

/-- A reduction that is chosen finds the state that comes after it. -/
theorem choose_resumes (drives : p.Drives leads)
    (tracks : Tracks leads w c.frames)
    (run : (host tracing).choose p.table p.defaults c s = .ok (.reduce production, c') s') :
    ∃ target, p.table.goto
      (((framesBelow p.table c' production).head?.map (·.state)).getD 0)
      (p.table.rules.getD production default).name = .ok target := by
  obtain ⟨top, rest, frames, led⟩ := tracks.top
  have reduces := choose_reduce frames run
  obtain ⟨i, valid, rfl, complete⟩ := drives.reduce led reduces
  obtain ⟨rule, base, found, word, -⟩ := exists_rule valid complete
  have below : Tracks leads base (c.frames.drop rule.2.length) := by
    rw [← List.length_reverse]
    exact (word ▸ tracks).drop
  obtain ⟨frame, under, uncovered, led'⟩ := below.top
  have kept : framesBelow p.table c' i.production = frame :: under := by
    rw [framesBelow, (choose_ok drives tracks run).1.frames, drives.length found, uncovered]
  have right : rules.right i.production = rule.2 := by simp [LR.Rules.right, found]
  rw [kept]
  exact drives.resume led reduces (right ▸ word) led'

theorem tracks_step (drives : p.Drives leads) {m next : Moment}
    (tracked : ∃ w, Tracks leads w m.config.frames) (moves : Moves tracing p m next) :
    ∃ w, Tracks leads w next.config.frames := by
  obtain ⟨w, tracks⟩ := tracked
  obtain ⟨move, c, s, c', s', chosen, performed, rfl⟩ := moves
  obtain ⟨fetched, choice⟩ := choose_ok drives tracks chosen
  obtain ⟨w', -, tracks⟩ := perform_running drives (fetched.frames ▸ tracks) choice performed
  exact ⟨w', tracks⟩

end Resume

/-! ### Watching a move -/

/-- The next token is the same where the reader gives the same, and may be moved on. -/
theorem nextToken_reframed {g : Backdrop → Backdrop} {s : State}
    (moves : ∀ reader, { s.reframed g with reader } = State.reframed g { s with reader })
    (same : (s.reframed g).reader.next (s.reframed g).readingRules
      = s.reader.next s.readingRules) :
    nextToken (s.reframed g) = mapState (·.reframed g) (nextToken s) := by
  refine M.bind_mapState ?_ fun {reading s₁} _ => ?_
  · unfold advance
    rw [same]
    cases s.reader.next s.readingRules with
    | none => rfl
    | some reading => exact congrArg _ (moves reading.reader)
  · exact M.bind_mapState ((tell _ _).plain.detached.reframed _ s₁) fun _ => rfl

/-- A change of the reader and the trace that tracing and the start of reading commute with, seen by a
parser that traces as before or not at all. -/
structure Mirror (t t' : Option Tracing) (g : Backdrop → Backdrop) : Prop where
  traces : t' = t ∨ t' = none
  log (level : LR.Level) (text : Unit → String) (s : State) :
    (host t').log level text (s.reframed g) = mapState (·.reframed g) ((host t).log level text s)
  open_ (text : String) (reader : Perl.Reader) (s : State) :
    openText text reader (s.reframed g) = mapState (·.reframed g) (openText text reader s)

namespace Mirror

variable {t t' : Option Tracing} {g : Backdrop → Backdrop} {p : Parser}
variable {c : LR.Config Token Value} {s : State}

/-- It does not matter what would be traced by a parser that does not. -/
theorem log_of (mirror : Mirror t t' g) {level : LR.Level} {text text' : Unit → String}
    (same : t' = t → text' = text) (s : State) :
    (host t').log level text' (s.reframed g)
      = mapState (·.reframed g) ((host t).log level text s) := by
  rw [← mirror.log]
  obtain rfl | rfl := mirror.traces
  · rw [same rfl]
  · rfl

theorem fetch (reads : nextToken (s.reframed g) = mapState (·.reframed g) (nextToken s)) :
    (host t').fetch c (s.reframed g) = mapState (·.reframed g) ((host t).fetch c s) := by
  obtain ⟨frames, lookahead, pushed, errorCount, errorOk⟩ := c
  cases lookahead with
  | some next => rfl
  | none =>
    cases pushed with
    | cons first rest => rfl
    | nil => exact M.bind_mapState reads fun _ => rfl

theorem choose (mirror : Mirror t t' g) (reads : ∀ s', s'.reader = s.reader →
      nextToken (s'.reframed g) = mapState (·.reframed g) (nextToken s')) :
    (host t').choose p.table p.defaults c (s.reframed g)
      = mapState (·.reframed g) ((host t).choose p.table p.defaults c s) := by
  obtain ⟨frames, lookahead, pushed, errorCount, errorOk⟩ := c
  cases frames with
  | nil => rfl
  | cons top rest =>
    unfold LR.Host.choose
    refine M.bind_mapState (mirror.log_of (fun _ => rfl) s) fun {_ s₁} first => ?_
    refine M.bind_mapState (mirror.log_of (fun _ => rfl) s₁) fun {_ s₂} second => ?_
    have reader : s₂.reader = s.reader := (traces_log second).reader.trans (traces_log first).reader
    cases p.defaults.getD top.state none with
    | some production =>
      refine M.bind_mapState (mirror.log_of (fun _ => rfl) s₂) fun {_ s₃} _ => ?_
      exact M.bind_mapState (mirror.log_of (by rintro rfl; rfl) s₃) fun _ => rfl
    | none =>
      refine M.bind_mapState (fetch (reads s₂ reader)) fun {_ s₃} _ => ?_
      refine M.bind_mapState ((Silent.ofExcept _).detached.reframed g s₃) fun {_ s₄} _ => ?_
      exact M.bind_mapState (mirror.log_of (by rintro rfl; rfl) s₄) fun _ => rfl

/-- The value of a reduction has nothing to do with the reader and the trace. -/
theorem detached_reduce (r : LR.Reduction Token Value) : Detached (reduce actionTable r) := by
  unfold reduce
  split
  · next action _ => exact (action.does _).detached.bind fun _ => (Silent.pure _).detached
  · exact (Silent.throw _).detached

variable (mirror : Mirror t t' g)

include mirror

theorem fail (next : LR.Symbol Token Value) :
    (host t').fail c next (s.reframed g) = mapState (·.reframed g) ((host t).fail c next s) := by
  rw [fail_eq, fail_eq]
  refine M.bind_mapState (mirror.log_of (by rintro rfl; rfl) s) fun {_ s₁} _ => ?_
  split
  · refine M.bind_mapState ((reportSyntaxError _).plain.detached.reframed g s₁) fun {_ s₂} _ => ?_
    exact (Silent.ofExcept _).detached.reframed g s₂
  · exact (Silent.ofExcept _).detached.reframed g s₁

/-- What a reduction traces before its action needs the state that comes after it. -/
theorem logReduction {table : LR.Table} {rule : LR.Rule}
    {children : List (LR.Symbol Token Value)} {state target : Nat}
    (resumes : table.goto state rule.name = .ok target) :
    (host t').logReduction table rule children state (s.reframed g)
      = mapState (·.reframed g) ((host t).logReduction table rule children state s) := by
  have traced (t : Option Tracing) : (host t).logReduction table rule children state
      = (host t).log .info fun _ => "Action : Reduce rule [" ++ rule.text ++ "] with ["
        ++ ",".intercalate (children.map fun s => (host t).showEntry s.value)
        ++ "] and goto state " ++ toString target := by
    unfold LR.Host.logReduction
    cases t with
    | none => rfl
    | some t =>
      rw [resumes]
      rfl
  rw [traced, traced]
  exact mirror.log_of (by rintro rfl; rfl) s

theorem doReduce {table : LR.Table} {production target : Nat}
    (resumes : table.goto (((framesBelow table c production).head?.map (·.state)).getD 0)
      (table.rules.getD production default).name = .ok target) :
    (host t').doReduce table c production (s.reframed g)
      = mapState (·.reframed g) ((host t).doReduce table c production s) := by
  unfold LR.Host.doReduce
  refine M.bind_mapState (mirror.logReduction resumes) fun {_ s₁} _ => ?_
  refine M.bind_mapState rfl fun {_ s₂} _ => ?_
  rw [host_reduce, host_reduce]
  refine M.bind_mapState ((detached_reduce _).reframed g s₂) fun {reduced s₃} _ => ?_
  refine M.bind_mapState ?_ fun {_ s₄} _ => (Silent.ofExcept _).detached.reframed g s₄
  cases reduced with
  | refused => rfl
  | value a line =>
    rw [LR.Host.logReduced, LR.Host.logReduced]
    exact mirror.log_of (by rintro rfl; rfl) s₃

theorem perform {table : LR.Table} {move : LR.Move Token Value}
    (resumes : ∀ production, move = .reduce production → ∃ target,
      table.goto (((framesBelow table c production).head?.map (·.state)).getD 0)
        (table.rules.getD production default).name = .ok target) :
    (host t').perform table c move (s.reframed g)
      = mapState (·.reframed g) ((host t).perform table c move s) := by
  cases move with
  | shift state next => exact M.bind_mapState (mirror.log_of (fun _ => rfl) s) fun _ => rfl
  | reduce production =>
    obtain ⟨target, resumes⟩ := resumes production rfl
    exact mirror.doReduce resumes
  | accept =>
    refine M.bind_mapState (mirror.log_of (by rintro rfl; rfl) s) fun {_ s₁} _ => ?_
    exact M.bind_mapState (mirror.log_of (fun _ => rfl) s₁) fun _ => rfl
  | fail next => exact mirror.fail next

/-- The first move of a run looks the same. -/
theorem makeMove {leads : List Symbol → Nat → Prop} (drives : p.Drives leads) {w : List Symbol}
    (tracks : Tracks leads w c.frames) (reads : ∀ s', s'.reader = s.reader →
      nextToken (s'.reframed g) = mapState (·.reframed g) (nextToken s')) :
    makeMove t' p c (s.reframed g) = mapState (·.reframed g) (Compile.makeMove t p c s) := by
  refine M.bind_mapState (mirror.choose reads) fun {chosen s₁} run => ?_
  refine M.bind_mapState (mirror.perform fun production reduces => ?_) fun _ => rfl
  obtain ⟨move, c'⟩ := chosen
  obtain rfl : move = .reduce production := reduces
  exact choose_resumes drives tracks run

theorem runHistory {leads : List Symbol → Nat → Prop}
    (drives : p.Drives leads) {Inv : Moment → Prop}
    (keep : ∀ {m next}, Inv m → Moves t p m next → Inv next)
    (reads : ∀ {m}, Inv m → ∀ s, s.reader = m.state.reader →
      nextToken (s.reframed g) = mapState (·.reframed g) (nextToken s))
    (limit : Nat) {m : Moment} (tracked : ∃ w, Tracks leads w m.config.frames) (start : Inv m) :
    runHistory t' p limit (m.map (·.reframed g))
      = (Compile.runHistory t p limit m).map (·.reframed g) := by
  induction limit generalizing m with
  | zero => rfl
  | succ limit ih =>
    obtain ⟨w, tracks⟩ := tracked
    have same : Compile.makeMove t' p m.config (m.state.reframed g)
        = mapState (·.reframed g) (Compile.makeMove t p m.config m.state) :=
      mirror.makeMove drives tracks (reads start)
    rw [runHistory_succ, runHistory_succ]
    change runAfter t' p limit _ (Compile.makeMove t' p m.config (m.state.reframed g)) = _
    rw [same]
    cases made : Compile.makeMove t p m.config m.state with
    | error stop s => rfl
    | ok moved s =>
      obtain ⟨move, out⟩ := moved
      cases out with
      | done value => rfl
      | running c =>
        obtain ⟨c', s₁, chosen, performed⟩ := makeMove_eq_ok.1 made
        have moves : Moves t p m (m.after c s move) := ⟨_, _, _, _, _, chosen, performed, rfl⟩
        have rest := ih (tracks_step drives ⟨w, tracks⟩ moves) (keep start moves)
        exact congrArg (History.cons (m.map (·.reframed g))) rest

theorem prepare (text : String) (s : State) :
    prepare t' text (s.reframed g) = mapState (·.reframed g) (Compile.prepare t text s) := by
  unfold Compile.prepare startReading
  refine M.bind_mapState (mirror.log .info _ s) fun {_ s₁} _ => ?_
  refine M.bind_mapState (mirror.open_ text _ s₁) fun {_ s₂} _ => ?_
  exact (reportNotices _).plain.detached.reframed g s₂

/-- A compilation that is watched is a compilation. -/
theorem history (Inv : Moment → Prop) (keep : ∀ {m next}, Inv m → Moves t p m next → Inv next)
    (reads : ∀ {m}, Inv m → ∀ s, s.reader = m.state.reader →
      nextToken (s.reframed g) = mapState (·.reframed g) (nextToken s))
    (text : String) (limit : Nat) {s : State} (traced : s.options.tracing = t)
    (traced' : (s.reframed g).options.tracing = t')
    (start : ∀ {u s₁}, Compile.prepare t text s = .ok u s₁ → Inv { state := s₁ }) :
    history p text limit (s.reframed g) = (Compile.history p text limit s).map (·.reframed g) := by
  obtain ⟨leads, drives⟩ := Perl.drives p
  rw [Compile.history, Compile.history, traced, traced', mirror.prepare]
  cases prepared : Compile.prepare t text s with
  | error stop s₁ => rfl
  | ok u s₁ =>
    have run := mirror.runHistory drives keep reads limit ⟨[], .bottom rfl drives.start⟩ (start prepared)
    exact (congrArg History.compiled run).trans (History.compiled_map _ _)

end Mirror

end PerlJava.Compile
