import PerlJava.Proofs.Compile.MachineEffect

/-!
# The stack of the parser

The symbols on the stack of the parser always are a word that leads to its state. What a move does
to that word is said once here: a shift adds a terminal, a reduction replaces what its production
consists of, and recovery drops symbols from the top.
-/

namespace PerlJava.Compile

open Perl (Symbol rules)
open LR (Valid)

/-- The symbols on a stack, top first, lead to its states. -/
inductive Tracks (leads : List Symbol → Nat → Prop) :
    List Symbol → List (LR.Frame Token Value) → Prop where
  | bottom {frame : LR.Frame Token Value} : frame.symbol.kind = "$end" → leads [] frame.state →
    Tracks leads [] [frame]
  | push {w : List Symbol} {frames : List (LR.Frame Token Value)} {x : Symbol}
      {frame : LR.Frame Token Value} : Tracks leads w frames → frame.symbol.kind = x.text →
    leads (x :: w) frame.state → Tracks leads (x :: w) (frame :: frames)

namespace Tracks

variable {leads : List Symbol → Nat → Prop} {w : List Symbol}
variable {frames : List (LR.Frame Token Value)}

theorem top (tracks : Tracks leads w frames) :
    ∃ frame rest, frames = frame :: rest ∧ leads w frame.state := by
  cases tracks with
  | bottom _ led => exact ⟨_, _, rfl, led⟩
  | push _ _ led => exact ⟨_, _, rfl, led⟩

theorem drop {read base : List Symbol} (tracks : Tracks leads (read ++ base) frames) :
    Tracks leads base (frames.drop read.length) := by
  induction read generalizing frames with
  | nil => exact tracks
  | cons x read ih =>
    cases tracks with
    | push below _ _ => exact ih below

theorem kinds (tracks : Tracks leads w frames) :
    frames.map (·.symbol.kind) = w.map (·.text) ++ ["$end"] := by
  induction tracks with
  | bottom kind _ => simp [kind]
  | push _ kind _ ih => simp [ih, kind]

theorem word_unique {u : List Symbol} (tracks : Tracks leads w frames)
    (other : Tracks leads u frames) : w = u := by
  have same := List.append_cancel_right (tracks.kinds.symm.trans other.kinds)
  exact (List.map_inj_right Perl.Symbol.text_injective).1 same

end Tracks

/-- From one state to another nothing is done but to write the trace. -/
inductive Traces : State → State → Prop where
  | nothing {s : State} : Traces s s
  | text {s s₁ s' : State} {text : String} : addTrace text s = .ok () s₁ → Traces s₁ s' → Traces s s'

theorem Traces.trans {s s₁ s' : State} (first : Traces s s₁) (second : Traces s₁ s') :
    Traces s s' := by
  induction first with
  | nothing => exact second
  | text written _ ih => exact .text written (ih second)

theorem Traces.reader {s s' : State} (traces : Traces s s') : s'.reader = s.reader := by
  induction traces with
  | nothing => rfl
  | text written _ ih =>
    cases written
    exact ih

/-- A configuration in which the symbol that comes next may have been fetched. -/
structure Fetched (c c' : LR.Config Token Value) : Prop where
  frames : c'.frames = c.frames
  errorOk : c'.errorOk = c.errorOk
  lookahead {s : LR.Symbol Token Value} : c.lookahead = some s → c'.lookahead = some s

/-- The moves that may be chosen when a word is on the stack. -/
inductive Chosen (leads : List Symbol → Nat → Prop) (w : List Symbol)
    (c : LR.Config Token Value) : LR.Move Token Value → Prop where
  | shift {x : Symbol} {state : Nat} {s : LR.Symbol Token Value} : c.lookahead = some s →
    s.kind = x.text → leads (x :: w) state → (∀ n rule, rules[n + 1]? = some rule → rule.1 ≠ x) →
    Chosen leads w c (.shift state s)
  | reduce {i : LR.Item} : Valid rules w i → i.nextIn rules = none →
    Chosen leads w c (.reduce i.production)
  | accept {i : LR.Item} {s : LR.Symbol Token Value} : Valid rules w i → i.production = 0 →
    i.nextIn rules = none → c.lookahead = some s → s.kind = "$end" → Chosen leads w c .accept
  | fail {s : LR.Symbol Token Value} : c.lookahead = some s → Chosen leads w c (.fail s)

section Choose

variable {p : Parser} {leads : List Symbol → Nat → Prop}
variable {tracing : Option Tracing} {c c' : LR.Config Token Value} {s s' : State}
variable {w : List Symbol}

theorem ofExcept_eq_ok {α : Type} {x : Except Fault α} {a : α} :
    (ofExcept x : M α) s = .ok a s' ↔ x = .ok a ∧ s = s' := by
  cases x with
  | error e => exact ⟨nofun, nofun⟩
  | ok b =>
    change EStateM.Result.ok b s = .ok a s' ↔ _
    simp

theorem traces_log {level : LR.Level} {text : Unit → String} {u : Unit}
    (run : (host tracing).log level text s = .ok u s') : Traces s s' := by
  cases tracing with
  | none =>
    cases run
    exact .nothing
  | some tracing => exact .text run .nothing

theorem fetch_ok {next : LR.Symbol Token Value}
    (run : (host tracing).fetch c s = .ok (next, c') s') :
    Fetched c c' ∧ c'.lookahead = some next := by
  unfold LR.Host.fetch at run
  cases found : c.lookahead with
  | some next =>
    simp only [found] at run
    cases run
    exact ⟨⟨rfl, rfl, id⟩, found⟩
  | none =>
    cases waiting : c.pushed with
    | cons pushed rest =>
      simp only [found, waiting] at run
      cases run
      exact ⟨⟨rfl, rfl, by simp [found]⟩, rfl⟩
    | nil =>
      simp only [found, waiting] at run
      obtain ⟨_, _, -, ⟨⟩⟩ := M.cut run
      exact ⟨⟨rfl, rfl, by simp [found]⟩, rfl⟩

/-- A move is chosen by default, or for the symbol that comes next. -/
theorem choose_cases {move : LR.Move Token Value}
    (run : (host tracing).choose p.table p.defaults c s = .ok (move, c') s') :
    ∃ top rest s₁, c.frames = top :: rest ∧ Traces s s₁
      ∧ ((∃ n, p.defaults.getD top.state none = some n ∧ move = .reduce n ∧ c' = c ∧ Traces s₁ s')
        ∨ ∃ next s₂, (host tracing).fetch c s₁ = .ok (next, c') s₂
          ∧ move = p.table.moveOn top.state next ∧ Traces s₂ s') := by
  unfold LR.Host.choose at run
  cases frames : c.frames with
  | nil =>
    simp only [frames] at run
    cases run
  | cons top rest =>
    simp only [frames] at run
    obtain ⟨_, _, first, run⟩ := M.cut run
    obtain ⟨_, s₁, second, run⟩ := M.cut run
    refine ⟨top, rest, s₁, rfl, (traces_log first).trans (traces_log second), ?_⟩
    cases byDefault : p.defaults.getD top.state none with
    | some n =>
      simp only [byDefault] at run
      obtain ⟨_, _, third, run⟩ := M.cut run
      obtain ⟨_, _, fourth, ⟨⟩⟩ := M.cut run
      exact .inl ⟨n, rfl, rfl, rfl, (traces_log third).trans (traces_log fourth)⟩
    | none =>
      simp only [byDefault] at run
      obtain ⟨⟨next, _⟩, s₂, fetched, run⟩ := M.cut run
      obtain ⟨_, _, checked, run⟩ := M.cut run
      obtain ⟨_, _, last, ⟨⟩⟩ := M.cut run
      obtain ⟨-, rfl⟩ := ofExcept_eq_ok.1 checked
      exact .inr ⟨next, s₂, fetched, rfl, traces_log last⟩

/-- What is chosen fits the word on the stack. -/
theorem choose_ok (drives : p.Drives leads) {move : LR.Move Token Value}
    (tracks : Tracks leads w c.frames)
    (run : (host tracing).choose p.table p.defaults c s = .ok (move, c') s') :
    Fetched c c' ∧ Chosen leads w c' move := by
  obtain ⟨top, rest, frames, led⟩ := tracks.top
  obtain ⟨_, _, _, same, -, ⟨n, byDefault, rfl, rfl, -⟩ | ⟨next, _, fetched, rfl, -⟩⟩ :=
    choose_cases run <;> cases frames.symm.trans same
  · obtain ⟨i, valid, rfl, complete⟩ := drives.reduce led (.inl byDefault)
    exact ⟨⟨rfl, rfl, id⟩, .reduce valid complete⟩
  · obtain ⟨fetched, lookahead⟩ := fetch_ok fetched
    refine ⟨fetched, ?_⟩
    unfold LR.Table.moveOn
    split
    · next shifts =>
      obtain ⟨x, spelt, led, terminal⟩ := drives.shift led shifts
      exact .shift lookahead spelt.symm led terminal
    · next reduces =>
      obtain ⟨i, valid, rfl, complete⟩ := drives.reduce led (.inr ⟨_, reduces⟩)
      exact .reduce valid complete
    · next accepts =>
      obtain ⟨isEnd, i, valid, first, complete⟩ := drives.accept led accepts
      exact .accept valid first complete lookahead isEnd
    · exact .fail lookahead

end Choose

/-- What a move can make of the word on the stack and of the configuration. -/
inductive Performed (w : List Symbol) (c : LR.Config Token Value) :
    LR.Move Token Value → List Symbol → LR.Config Token Value → Prop where
  | shift {x : Symbol} {state : Nat} {s : LR.Symbol Token Value} {c' : LR.Config Token Value} :
    c.lookahead = some s → s.kind = x.text →
    (∀ n rule, rules[n + 1]? = some rule → rule.1 ≠ x) → c'.frames.tail = c.frames →
    c'.errorOk = c.errorOk → Performed w c (.shift state s) (x :: w) c'
  | reduce {i : LR.Item} {rule : Symbol × List Symbol} {action : Action} {base : List Symbol}
      {c' : LR.Config Token Value} : Valid rules w i → i.nextIn rules = none →
    rules[i.production]? = some rule → actionTable.getD i.production none = some action →
    w = rule.2.reverse ++ base → Valid rules base ⟨i.production, 0⟩ →
    c'.frames.tail = c.frames.drop rule.2.length → c'.errorOk = c.errorOk →
    Performed w c (.reduce i.production) (rule.1 :: base) c'
  | restart {s : LR.Symbol Token Value} {c' : LR.Config Token Value} :
    Performed w c (.fail s) [] c'
  | keep {s : LR.Symbol Token Value} {c' : LR.Config Token Value} : s.kind ≠ "error" →
    Performed w c (.fail s) w c'
  | drop {s : LR.Symbol Token Value} {x : Symbol} {rest : List Symbol}
      {c' : LR.Config Token Value} : w = x :: rest → s.kind = "error" → c'.lookahead = some s →
    Performed w c (.fail s) rest c'

section Perform

variable {p : Parser} {leads : List Symbol → Nat → Prop}
variable {tracing : Option Tracing} {c c' : LR.Config Token Value} {s s' : State}
variable {w : List Symbol}

theorem traces_beforeAction {production : Nat} {u : Unit}
    (run : beforeAction tracing p.table c production s = .ok u s') : Traces s s' := by
  unfold beforeAction LR.Host.logReduction at run
  split at run
  · obtain ⟨_, s₁, found, run⟩ := M.cut run
    obtain ⟨-, rfl⟩ := ofExcept_eq_ok.1 found
    exact traces_log run
  · cases run
    exact .nothing

/-- The value of a reduction is put onto the stack. -/
theorem afterAction_ok {production : Nat} {v : Value} {out : LR.Outcome Token Value}
    (run : afterAction tracing p.table c production v s = .ok out s') :
    Traces s s' ∧ ∃ target, p.table.goto
        (((framesBelow p.table c production).head?.map (·.state)).getD 0)
        (p.table.rules.getD production default).name = .ok target
      ∧ out = .running { c with
        frames := ⟨target, { kind := (p.table.rules.getD production default).name, value := some v }⟩
          :: framesBelow p.table c production } := by
  obtain ⟨_, s₁, logged, run⟩ := M.cut run
  obtain ⟨after, rfl⟩ := ofExcept_eq_ok.1 run
  obtain ⟨target, goto, ⟨⟩⟩ := bind_eq_ok.1 after
  have logged : (host tracing).log .info
      (fun _ => "Result : " ++ (host tracing).showResult (some v)) s = .ok () s₁ := logged
  exact ⟨traces_log logged, target, goto, rfl⟩

theorem doReduce_parts {production : Nat} {out : LR.Outcome Token Value}
    (run : (host tracing).doReduce p.table c production s = .ok out s') :
    ∃ action s₁ s₂ v, actionTable.getD production none = some action
      ∧ beforeAction tracing p.table c production s = .ok () s₁
      ∧ action.run (argsAt p.table c production) s₁ = .ok v s₂
      ∧ afterAction tracing p.table c production v s₂ = .ok out s' := by
  cases acts : actionTable.getD production none with
  | none =>
    unfold LR.Host.doReduce at run
    obtain ⟨_, _, -, run⟩ := M.cut run
    obtain ⟨span, _, -, run⟩ := M.cut run
    obtain ⟨reduced, _, made, -⟩ := M.cut run
    rw [host_reduce] at made
    unfold reduce at made
    simp only [acts] at made
    cases made
  | some action =>
    rw [doReduce_eq tracing p.table c acts] at run
    obtain ⟨_, s₁, before, run⟩ := M.cut run
    obtain ⟨v, s₂, acted, after⟩ := M.cut run
    exact ⟨action, s₁, s₂, v, rfl, before, acted, after⟩

theorem exists_rule {i : LR.Item} (valid : Valid rules w i) (complete : i.nextIn rules = none) :
    ∃ rule base, rules[i.production]? = some rule ∧ w = rule.2.reverse ++ base
      ∧ Valid rules base ⟨i.production, 0⟩ := by
  obtain ⟨base, read, first⟩ := valid.split_of_complete complete
  obtain ⟨rule, found⟩ : ∃ rule, rules[i.production]? = some rule := by
    obtain ⟨zero, -⟩ | ⟨_, rule, -, found, -⟩ := first.origin
    · exact ⟨_, zero ▸ Perl.rules_zero⟩
    · exact ⟨rule, found⟩
  have right : rules.right i.production = rule.2 := by simp [LR.Rules.right, found]
  exact ⟨rule, base, found, right ▸ read, first⟩

/-- A reduction replaces what its production consists of by its name. -/
theorem doReduce_ok (drives : p.Drives leads)
    (tracks : Tracks leads w c.frames) {i : LR.Item} (valid : Valid rules w i)
    (complete : i.nextIn rules = none) {out : LR.Outcome Token Value}
    (run : (host tracing).doReduce p.table c i.production s = .ok out s') :
    ∃ c' w', out = .running c' ∧ Performed w c (.reduce i.production) w' c'
      ∧ Tracks leads w' c'.frames := by
  obtain ⟨rule, base, found, rfl, first⟩ := exists_rule valid complete
  have length := drives.length found
  have below : Tracks leads base (c.frames.drop rule.2.length) := by
    rw [← List.length_reverse]
    exact tracks.drop
  obtain ⟨action, _, _, v, acts, -, -, finished⟩ := doReduce_parts run
  obtain ⟨-, target, goto, rfl⟩ := afterAction_ok finished
  rw [framesBelow, length] at goto
  refine ⟨_, _, rfl, .reduce valid complete found acts rfl first (by rw [framesBelow, length]; rfl) rfl,
    .push (by rwa [framesBelow, length]) (drives.name found) ?_⟩
  obtain ⟨frame, rest, frames, led⟩ := below.top
  rw [frames] at goto
  exact drives.goto led found goto

/-- Recovery starts anew, leaves the stack as it is, or drops its top for an `error`. -/
theorem recover_ok (drives : p.Drives leads)
    {next : LR.Symbol Token Value} (run : (host tracing).recover c next s = .ok (.running c') s')
    (tracks : Tracks leads w c.frames) (before : LR.Config Token Value) :
    ∃ w', Performed w before (.fail next) w' c' ∧ Tracks leads w' c'.frames := by
  obtain ⟨run, -⟩ := ofExcept_eq_ok.1 run
  unfold LR.Host.recovered at run
  split at run
  · cases run
  · split at run
    · cases run
      exact ⟨[], .restart, .bottom rfl drives.start⟩
    · next more =>
      split at run
      · cases run
      · next top rest frames =>
        rw [frames] at tracks more
        split at run
        · next isError =>
          obtain ⟨_, ⟨⟩, ⟨⟩⟩ := bind_eq_ok.1 run
          cases tracks with
          | bottom => simp at more
          | push below _ _ => exact ⟨_, .drop rfl (by simpa using isError) rfl, below⟩
        · next noError =>
          have noError : next.kind ≠ "error" := by simpa using noError
          split at run
          · obtain ⟨_, ⟨⟩, ⟨⟩⟩ := bind_eq_ok.1 run
            exact ⟨w, .keep noError, tracks⟩
          · cases run
            exact ⟨w, .keep noError, frames ▸ tracks⟩

/-- A syntax error that is met while all was well is reported. -/
theorem fail_failed {next : LR.Symbol Token Value} {out : LR.Outcome Token Value}
    (run : (host tracing).fail c next s = .ok out s') (wasOk : c.errorOk = true) :
    s'.codeError = true := by
  rw [fail_eq] at run
  obtain ⟨_, _, -, run⟩ := M.cut run
  rw [if_pos (by simp [wasOk])] at run
  obtain ⟨_, s₁, reported, run⟩ := M.cut run
  obtain ⟨-, rfl⟩ := ofExcept_eq_ok.1 run
  unfold reportSyntaxError at reported
  split at reported
  · exact report_failed rfl reported
  · exact report_failed rfl reported

/-- What a move makes of the word on the stack is on the stack afterwards. -/
theorem perform_running (drives : p.Drives leads)
    (tracks : Tracks leads w c.frames) {move : LR.Move Token Value} (chosen : Chosen leads w c move)
    (run : (host tracing).perform p.table c move s = .ok (.running c') s') :
    ∃ w', Performed w c move w' c' ∧ Tracks leads w' c'.frames := by
  cases chosen with
  | shift lookahead kind led terminal =>
    obtain ⟨_, _, -, ⟨⟩⟩ := M.cut run
    exact ⟨_, .shift lookahead kind terminal rfl rfl, .push tracks kind led⟩
  | reduce valid complete =>
    obtain ⟨c'', w', ⟨⟩, performed, tracks⟩ := doReduce_ok drives tracks valid complete run
    exact ⟨w', performed, tracks⟩
  | accept =>
    obtain ⟨_, _, -, run⟩ := M.cut run
    obtain ⟨_, _, -, ⟨⟩⟩ := M.cut run
  | fail lookahead =>
    rw [LR.Host.perform, fail_eq] at run
    obtain ⟨_, _, -, run⟩ := M.cut run
    split at run
    · obtain ⟨_, _, -, run⟩ := M.cut run
      exact recover_ok drives run tracks c
    · exact recover_ok drives run tracks c

end Perform

end PerlJava.Compile
