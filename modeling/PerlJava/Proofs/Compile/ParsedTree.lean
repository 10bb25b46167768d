import PerlJava.Proofs.Compile.CommentOption
import PerlJava.Proofs.Compile.StatementContext

/-!
# The tree of a compilation

A compilation that reports no error forms a parse tree: the tokens of the tree are those that the
reader delivers, in their order, and the values of its nodes are made by the actions of their
productions, from left to right and from the leaves upwards. Between two actions only tokens are
read. The symbols on the stack of the parser are the roots of the trees that have been formed so
far.
-/

namespace PerlJava.Compile

open Perl (Symbol rules)

/-- A parse tree with the values that the actions of its nodes have made. -/
inductive Built where
  | token (t : Token)
  | node (production : Perl.Production) (children : List Built) (value : Value)

namespace Built

def kind : Built → String
  | token t => t.kind
  | node production _ _ => production.name.text

def value : Built → Value
  | token t => .text t.value
  | node _ _ v => v

def place : Built → Position
  | token t => t.position
  | node .. => {}

mutual

def tokens : Built → List Token
  | token t => [t]
  | node _ children _ => allTokens children

def allTokens : List Built → List Token
  | [] => []
  | t :: ts => t.tokens ++ allTokens ts

end

def symbol : Built → LR.Symbol Token Value
  | token t => (host none).symbol t
  | node production _ v => { kind := production.name.text, value := some v }

def args (ts : List Built) : Args :=
  ⟨(ts.map fun t => (t.value, t.place)).toArray⟩

@[simp] theorem kind_symbol (t : Built) : t.symbol.kind = t.kind := by
  cases t <;> rfl

theorem value_symbol (t : Built) : t.symbol.value = some t.value := by
  cases t <;> rfl

theorem entry_symbol (t : Built) :
    (t.symbol.value.getD .nothing, t.symbol.token.elim {} (·.position)) = (t.value, t.place) := by
  cases t <;> rfl

theorem allTokens_append (ts us : List Built) :
    allTokens (ts ++ us) = allTokens ts ++ allTokens us := by
  induction ts with
  | nil => rfl
  | cons t ts ih => rw [List.cons_append, allTokens, allTokens, ih, List.append_assoc]

theorem allTokens_singleton (t : Built) : allTokens [t] = t.tokens := by
  rw [allTokens, allTokens, List.append_nil]

end Built

def Terminal (kind : String) : Prop :=
  ∀ n rule, rules[n + 1]? = some rule → rule.1.text ≠ kind

/-- From one state to another nothing is done but to read tokens and to write the trace. -/
inductive Reads : State → List Token → State → Prop where
  | nothing {s : State} : Reads s [] s
  | token {s s₁ s' : State} {next : Option Token} {tokens : List Token} :
    nextToken s = .ok next s₁ → Reads s₁ tokens s' → Reads s (next.toList ++ tokens) s'
  | trace {s s₁ s' : State} {text : String} {tokens : List Token} :
    addTrace text s = .ok () s₁ → Reads s₁ tokens s' → Reads s tokens s'

inductive Forms : List Built → State → List Token → State → Prop where
  | nothing {s s' : State} {read : List Token} : Reads s read s' → Forms [] s read s'
  | token {t : Token} {ts : List Built} {s s' : State} {read : List Token} : Terminal t.kind →
    Forms ts s read s' → Forms (.token t :: ts) s read s'
  | node {production : Perl.Production} {action : Action} {children ts : List Built} {v : Value}
      {s s₁ s₂ s' : State} {read more : List Token} :
    Forms children s read s₁ → children.map (·.kind) = production.symbols.map (·.text) →
    allActions.lookup production = some action → action.run (Built.args children) s₁ = .ok v s₂ →
    Forms ts s₂ more s' → Forms (.node production children v :: ts) s (read ++ more) s'

theorem Reads.trans {s s₁ s₂ : State} {read more : List Token} (first : Reads s read s₁)
    (second : Reads s₁ more s₂) : Reads s (read ++ more) s₂ := by
  induction first with
  | nothing => exact second
  | token next _ ih =>
    rw [List.append_assoc]
    exact .token next (ih second)
  | trace written _ ih => exact .trace written (ih second)

namespace Forms

variable {ts us : List Built} {s s₁ s' : State} {read more : List Token}

theorem after_reads (first : Reads s read s₁) (second : Forms ts s₁ more s') :
    Forms ts s (read ++ more) s' := by
  induction second generalizing read s with
  | nothing reads => exact .nothing (first.trans reads)
  | token terminal _ ih => exact .token terminal (ih first)
  | node _ kinds found acts rest ih =>
    rw [← List.append_assoc]
    exact .node (ih first) kinds found acts rest

theorem append (first : Forms ts s read s₁) (second : Forms us s₁ more s') :
    Forms (ts ++ us) s (read ++ more) s' := by
  induction first with
  | nothing reads => exact second.after_reads reads
  | token terminal _ ih => exact .token terminal (ih second)
  | node children kinds found acts _ _ ih =>
    rw [List.append_assoc]
    exact .node children kinds found acts (ih second)

theorem split (both : Forms (ts ++ us) s read s') :
    ∃ first second s₁, read = first ++ second ∧ Forms ts s first s₁
      ∧ Forms us s₁ second s' := by
  induction ts generalizing s read with
  | nil => exact ⟨[], read, s, rfl, .nothing .nothing, both⟩
  | cons t ts ih =>
    cases both with
    | token terminal rest =>
      obtain ⟨first, second, s₁, rfl, earlier, later⟩ := ih rest
      exact ⟨first, second, s₁, rfl, .token terminal earlier, later⟩
    | @node _ _ _ _ _ _ _ _ _ below _ children kinds found acts rest =>
      obtain ⟨first, second, s₁, rfl, earlier, later⟩ := ih rest
      exact ⟨below ++ first, second, s₁, (List.append_assoc ..).symm,
        .node children kinds found acts earlier, later⟩

theorem reads (trees : Forms ts s read s₁) (after : Reads s₁ more s') :
    Forms ts s (read ++ more) s' := by
  have both := trees.append (.nothing after)
  rwa [List.append_nil] at both

end Forms

/-! ### What is read while the parser moves -/

/-- The tokens that have been read and are not on the stack yet. -/
inductive Ahead : Option (LR.Symbol Token Value) → List Token → Prop where
  | nothing : Ahead none []
  | token {t : Token} : Perl.Readable t → Ahead (some (Built.token t).symbol) [t]
  | finished : Ahead (some LR.endSymbol) []

section Moves

variable {p : Parser} {tracing : Option Tracing} {c c' : LR.Config Token Value} {s s' : State}
variable {tokens : List Token}

theorem Traces.reads (traces : Traces s s') : Reads s [] s' := by
  induction traces with
  | nothing => exact .nothing
  | text written _ ih => exact .trace written ih

theorem reads_fetch {next : LR.Symbol Token Value} (clear : s.reader.Clear) (empty : c.pushed = [])
    (ahead : Ahead c.lookahead tokens) (run : (host tracing).fetch c s = .ok (next, c') s') :
    ∃ more, Reads s more s' ∧ Ahead c'.lookahead (tokens ++ more) ∧ c'.pushed = [] := by
  unfold LR.Host.fetch at run
  cases found : c.lookahead with
  | some next =>
    simp only [found] at run
    cases run
    exact ⟨[], .nothing, by rwa [List.append_nil], empty⟩
  | none =>
    rw [found] at ahead
    cases ahead
    simp only [found, empty] at run
    obtain ⟨token, s₁, delivered, ⟨⟩⟩ := M.cut run
    refine ⟨token.toList, ?_, ?_, rfl⟩
    · rw [← List.append_nil token.toList]
      exact .token delivered .nothing
    · cases token with
      | none => exact .finished
      | some t => exact .token ((nextToken_ok clear delivered).2 t rfl)

theorem reads_choose {move : LR.Move Token Value} (clear : s.reader.Clear) (empty : c.pushed = [])
    (ahead : Ahead c.lookahead tokens)
    (run : (host tracing).choose p.table p.defaults c s = .ok (move, c') s') :
    ∃ more, Reads s more s' ∧ Ahead c'.lookahead (tokens ++ more) ∧ c'.pushed = [] := by
  obtain ⟨_, _, s₁, -, before, ⟨_, -, -, rfl, after⟩ | ⟨next, s₂, fetched, -, after⟩⟩ :=
    choose_cases run
  · exact ⟨[], (before.trans after).reads, by rwa [List.append_nil], empty⟩
  · obtain ⟨more, reads, ahead, empty⟩ := reads_fetch (before.reader ▸ clear) empty ahead fetched
    refine ⟨more, ?_, ahead, empty⟩
    have all := before.reads.trans (reads.trans after.reads)
    rwa [List.nil_append, List.append_nil] at all

variable {out : LR.Outcome Token Value}

theorem perform_shift {state : Nat} {next : LR.Symbol Token Value}
    (run : (host tracing).perform p.table c (.shift state next) s = .ok out s') :
    Reads s [] s' ∧ out = .running { c with
      frames := ⟨state, next⟩ :: c.frames
      lookahead := none
      errorCount := c.errorCount - 1 } := by
  obtain ⟨_, s₁, logged, ⟨⟩⟩ := M.cut run
  exact ⟨(traces_log logged).reads, rfl⟩

theorem perform_accept (run : (host tracing).perform p.table c .accept s = .ok out s') :
    Reads s [] s' ∧ out = .done (c.frames.head?.bind (·.symbol.value)) := by
  obtain ⟨_, s₁, first, run⟩ := M.cut run
  obtain ⟨_, s₂, second, ⟨⟩⟩ := M.cut run
  exact ⟨((traces_log first).trans (traces_log second)).reads, rfl⟩

end Moves

/-! ### The trees on the stack -/

/-- The trees on the stack of the parser, top first, have been formed from the start. Nothing has
been read but their tokens and maybe the symbol that comes next. -/
structure Stacked (start : State) (trees : List Built) (m : Moment) : Prop where
  errorOk : m.config.errorOk = true
  pushed : m.config.pushed = []
  frames : m.config.frames.map (·.symbol) = trees.map (·.symbol) ++ [LR.endSymbol]
  forms : ∃ ahead, Ahead m.config.lookahead ahead
    ∧ Forms trees.reverse start (Built.allTokens trees.reverse ++ ahead) m.state

section Step

variable {p : Parser} {leads : List Symbol → Nat → Prop} {tracing : Option Tracing}
variable {w : List Symbol} {m next : Moment} {start : State} {trees : List Built}
variable {c c' : LR.Config Token Value} {s s' : State} {move : LR.Move Token Value}

theorem Stacked.kinds (stacked : Stacked start trees m) (tracks : Tracks leads w m.config.frames) :
    trees.map (·.kind) = w.map (·.text) := by
  have kinds := congrArg (List.map (·.kind)) stacked.frames
  rw [List.map_map, List.map_append, List.map_map] at kinds
  have spelt := tracks.kinds
  suffices same : trees.map (·.kind) ++ ["$end"] = w.map (·.text) ++ ["$end"] from
    List.append_cancel_right same
  rw [← spelt]
  refine Eq.trans ?_ kinds.symm
  refine congrArg (· ++ ["$end"]) (List.map_congr_left fun t _ => ?_)
  exact t.kind_symbol.symm

theorem Stacked.choose (drives : p.Drives leads)
    (stacked : Stacked start trees m) (free : CommentFree leads m)
    (tracks : Tracks leads w m.config.frames)
    (run : (host tracing).choose p.table p.defaults m.config m.state = .ok (move, c) s) :
    Stacked start trees { m with config := c, state := s } := by
  obtain ⟨ahead, comes, forms⟩ := stacked.forms
  obtain ⟨more, reads, comes, empty⟩ := reads_choose free.clear stacked.pushed comes run
  obtain ⟨fetched, -⟩ := choose_ok drives tracks run
  refine ⟨fetched.errorOk.trans stacked.errorOk, empty, fetched.frames ▸ stacked.frames,
    ahead ++ more, comes, ?_⟩
  rw [← List.append_assoc]
  exact forms.reads reads

theorem text_ne_end (x : Symbol) : x.text ≠ "$end" := by
  intro same
  obtain ⟨first, rest, letters, large⟩ := x.head_text
  rw [same] at letters
  obtain ⟨rfl, -⟩ : '$' = first ∧ _ := List.cons.inj letters
  exact absurd large (by decide)

theorem Stacked.shift {x : Symbol} {state : Nat} {next : LR.Symbol Token Value}
    (stacked : Stacked start trees { m with config := c, state := s })
    (lookahead : c.lookahead = some next) (kind : next.kind = x.text)
    (terminal : ∀ n rule, rules[n + 1]? = some rule → rule.1 ≠ x)
    (run : (host tracing).perform p.table c (.shift state next) s = .ok (.running c') s') :
    ∃ t, Stacked start (.token t :: trees) (m.after c' s' (.shift state next)) := by
  obtain ⟨ahead, comes, forms⟩ := stacked.forms
  obtain ⟨reads, ⟨⟩⟩ := perform_shift run
  simp only at comes
  rw [lookahead] at comes
  cases comes with
  | finished => exact absurd kind.symm (text_ne_end x)
  | @token t _ =>
    have isTerminal : Terminal t.kind := fun n rule found same =>
      terminal n rule found (Perl.Symbol.text_injective _ _ (same.trans kind))
    refine ⟨t, stacked.errorOk, stacked.pushed, ?_, [], .nothing, ?_⟩
    · exact congrArg (_ :: ·) stacked.frames
    · rw [List.reverse_cons, Built.allTokens_append, Built.allTokens_singleton]
      exact forms.append (.token isTerminal (.nothing reads))

theorem Stacked.reduce (drives : p.Drives leads)
    (stacked : Stacked start trees { m with config := c, state := s })
    (tracks : Tracks leads w c.frames) {production : Nat} {rule : Symbol × List Symbol}
    {base : List Symbol} (found : rules[production]? = some rule) (word : w = rule.2.reverse ++ base)
    (run : (host tracing).perform p.table c (.reduce production) s = .ok (.running c') s') :
    ∃ trees, Stacked start trees (m.after c' s' (.reduce production)) := by
  obtain ⟨ahead, comes, forms⟩ := stacked.forms
  obtain ⟨action, s₁, s₂, v, acts, started, acted, finished⟩ := doReduce_parts run
  have before := (traces_beforeAction started).reads
  obtain ⟨after, target, -, ⟨⟩⟩ := afterAction_ok finished
  have length := drives.length found
  have kinds := stacked.kinds tracks
  rw [word, List.map_append] at kinds
  obtain ⟨top, below, rfl, topKinds, -⟩ := List.map_eq_append_iff.1 kinds
  have size : top.length = rule.2.length := by
    simpa using congrArg List.length topKinds
  have frames := stacked.frames
  simp only [List.map_append, List.append_assoc] at frames
  have children : childrenAt p.table c production = top.reverse.map (·.symbol) := by
    rw [childrenAt, length, ← List.map_reverse, List.map_reverse, ← size, List.map_take, frames,
      List.take_left' (by simp), List.map_reverse]
  have args : argsAt p.table c production = Built.args top.reverse := by
    rw [argsAt, children, Built.args, List.map_map]
    exact congrArg (fun l => Args.mk l.toArray) (List.map_congr_left fun t _ => Built.entry_symbol t)
  have childKinds : top.reverse.map (·.kind) = rule.2.map (·.text) := by
    rw [List.map_reverse, topKinds, List.map_reverse, List.reverse_reverse]
  rw [List.reverse_append] at forms
  obtain ⟨first, second, s₀, read, earlier, later⟩ := forms.split
  have node := Forms.node (later.reads before) childKinds (lookup_of_acts found acts)
    (args ▸ acted) (.nothing after.reads)
  refine ⟨.node ⟨rule.1, rule.2⟩ top.reverse v :: below, stacked.errorOk, stacked.pushed, ?_, ahead,
    comes, ?_⟩
  · change _ :: List.map _ (framesBelow p.table c production) = _ :: _
    rw [drives.name found, framesBelow, length, ← size, List.map_drop, frames,
      List.drop_left' (by simp)]
    rfl
  · have all := earlier.append node
    rw [List.append_nil, List.append_nil, ← read] at all
    rw [List.reverse_cons, Built.allTokens_append, Built.allTokens_singleton, Built.tokens]
    rwa [Built.allTokens_append] at all

/-- While no error has been reported, the trees on the stack have been formed. -/
structure BuiltAt (leads : List Symbol → Nat → Prop) (start : State) (w : List Symbol) (m : Moment) :
    Prop extends LeveledAt leads w m where
  free : CommentFree leads m
  stacked : m.state.codeError = false → ∃ trees, Stacked start trees m

/-- A move forms trees, or reports an error. -/
theorem BuiltAt.step (drives : p.Drives leads)
    (built : BuiltAt leads start w m) (moves : Moves tracing p m next) :
    ∃ w', BuiltAt leads start w' next := by
  have sticks := fun failed => built.failed drives failed moves
  have free := built.free.step drives moves
  obtain ⟨move, c, s, c', s', chosen, run, rfl⟩ := moves
  obtain ⟨w', performed, -, leveled⟩ := built.perform drives chosen run
  obtain ⟨tracks, -⟩ := built.choose drives chosen
  refine ⟨w', leveled, free, fun unspoilt => ?_⟩
  have fine : ¬s'.codeError = true := Bool.eq_false_iff.1 unspoilt
  obtain ⟨trees, stacked⟩ := built.stacked (Bool.eq_false_iff.2 fun failed => fine (sticks failed))
  have stacked := stacked.choose drives built.free built.tracks chosen
  cases performed with
  | shift lookahead kind terminal =>
    obtain ⟨t, stacked⟩ := stacked.shift lookahead kind terminal run
    exact ⟨_, stacked⟩
  | reduce _ _ found _ word => exact stacked.reduce drives tracks found word run
  | restart => exact absurd (fail_failed run stacked.errorOk) fine
  | keep => exact absurd (fail_failed run stacked.errorOk) fine
  | drop => exact absurd (fail_failed run stacked.errorOk) fine

/-- A run that is done without an error has formed the tree of a file, and read its tokens. -/
theorem BuiltAt.done (drives : p.Drives leads)
    (built : BuiltAt leads start w m) {value : Option Value}
    (ended : Ended tracing p m (.ok value s)) (fine : s.codeError = false) :
    ∃ t : Built, t.kind = Symbol.file.text ∧ value = some t.value
      ∧ Forms [t] start t.tokens s := by
  obtain ⟨trees, stacked⟩ := built.stacked (built.fine_of_ended drives ended fine)
  cases ended with
  | @done move c s₁ _ _ chosen run =>
    have stacked := stacked.choose drives built.free built.tracks chosen
    obtain ⟨tracks, choice, -⟩ := built.choose drives chosen
    obtain ⟨rfl, rfl, _, lookahead, isEnd⟩ := perform_done drives tracks choice run stacked.errorOk fine
    obtain ⟨t, rest, rfl, kind, none⟩ := List.map_eq_cons_iff.1 (stacked.kinds tracks)
    obtain rfl := List.map_eq_nil_iff.1 none
    obtain ⟨reads, accepted⟩ := perform_accept run
    obtain ⟨ahead, comes, forms⟩ := stacked.forms
    simp only at comes
    rw [lookahead] at comes
    have nothing : ahead = [] := by
      cases comes with
      | finished => rfl
      | token readable => exact absurd isEnd readable.notEnd
    have forms := forms.reads reads
    rw [nothing, List.append_nil, List.append_nil] at forms
    refine ⟨t, kind, ?_, by rwa [← Built.allTokens_singleton]⟩
    obtain ⟨frame, _, frames, same, -⟩ := List.map_eq_cons_iff.1 stacked.frames
    simp only at frames
    obtain ⟨⟩ := accepted
    rw [frames, List.head?_cons, Option.bind_some, same, t.value_symbol]

end Step

theorem BuiltAt.start {p : Parser} {leads : List Symbol → Nat → Prop} {tracing : Option Tracing}
    {text : String} {s s₀ : State} {u : Unit} (drives : p.Drives leads)
    (balanced : s.context.Balanced) (prepared : prepare tracing text s = .ok u s₀) :
    BuiltAt leads s₀ [] { state := s₀ } := by
  have balanced := balanced.of_follows (Does.follows balanced prepared)
  exact ⟨⟨.bottom rfl drives.start, balanced, .all balanced.open_⟩, CommentFree.start drives prepared,
    fun _ => ⟨[], rfl, rfl, rfl, [], .nothing, .nothing .nothing⟩⟩

theorem compileWithin_forms {p : Parser} {text : String} {limit : Nat} {start s : State}
    {out : Option String} (balanced : start.context.Balanced)
    (done : compileWithin limit p text start = .ok out s) (fine : s.codeError = false) :
    ∃ s₀ t, prepare start.options.tracing text start = .ok () s₀ ∧ t.kind = Symbol.file.text
      ∧ out = classText? (some t.value) ∧ Forms [t] s₀ t.tokens s := by
  obtain ⟨leads, drives⟩ := Perl.drives p
  obtain ⟨s₀, value, prepared, rfl, result⟩ := compileWithin_eq_ok done
  have first := BuiltAt.start drives balanced prepared
  have always : (runHistory start.options.tracing p limit { state := s₀ }).Always
      fun m => ∃ w, BuiltAt leads s₀ w m :=
    runHistory_always (fun ⟨_, built⟩ moves => built.step drives moves) _ ⟨[], first⟩
  obtain ⟨last, found, ended⟩ :=
    @runHistory_ended start.options.tracing p limit { state := s₀ }
  obtain ⟨w, built⟩ := always last (List.mem_of_getLast? found)
  rw [result] at ended
  obtain ⟨t, kind, rfl, forms⟩ := built.done drives ended fine
  exact ⟨s₀, t, prepared, kind, rfl, forms⟩

end PerlJava.Compile
