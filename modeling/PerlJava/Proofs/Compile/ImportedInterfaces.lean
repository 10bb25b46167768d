import PerlJava.Proofs.Compile.SourceOrder
import PerlJava.Proofs.Compile.SpeltActions

/-!
# The interfaces that a class imports

The actions print types by the names that the interfaces of collections have. Where a file compiles
without an error, it may be compiled with other names for the interfaces that its class does not
import: the parser makes the same moves, all values on its stack and all states are the same, and so
is the text of the class. So the class does not use an interface without importing it. This holds
apart from the productions that bring in an interface and do not import it.
-/

namespace PerlJava.Compile

open Java
open Perl (Symbol Production rules)

variable {σ : Spelling}

/-! ### Reductions -/

theorem exists_agree {production : Production} {action : Action}
    (listed : allActions.lookup production = some action) :
    ∃ other, (@allActions σ.names).lookup production = some other
      ∧ Agree σ (production, other) (production, action) := by
  have all : AllAgree σ (@allActions σ.names) allActions := agree_all
  generalize @allActions σ.names = others at all
  generalize allActions = actions at all listed
  induction all with
  | nil => cases listed
  | @cons a b as bs agree _ ih =>
    obtain ⟨first, other⟩ := a
    obtain ⟨second, action'⟩ := b
    obtain rfl : first = second := agree.production
    rw [List.lookup_cons] at listed
    rw [List.lookup_cons]
    split at listed
    · next here =>
      obtain rfl := eq_of_beq here
      cases listed
      exact ⟨other, rfl, agree⟩
    · exact ih listed

/-- An action that succeeds with sound symbols makes a sound value, and drops no import. If the
interfaces that it brings in have Java's names, it does the same by other names. -/
theorem run_spelt {production : Production} {action : Action} {args : Args} {s s' : State} {v : Value}
    (listed : allActions.lookup production = some action) (sound : args.Sound σ production.symbols)
    (spelt : s.Spelt σ) (run : action.run args s = .ok v s')
    (imported : ∀ name ∈ s'.imports, σ.Keeps name)
    (omitted : ∀ name ∈ production.omits, σ.Keeps name) :
    (∃ other, (@allActions σ.names).lookup production = some other ∧ other.run args s = .ok v s')
      ∧ s'.Spelt σ ∧ s.ImportedIn s' ∧ v.Sound σ production.name := by
  obtain ⟨other, found, agree⟩ := @exists_agree σ _ _ listed
  have keeps : ∀ name ∈ production.imports ++ production.omits, σ.Keeps name := by
    intro name member
    obtain brought | member := List.mem_append.1 member
    · exact imported name (mem_imports_of_run listed sound run brought)
    · exact omitted name member
  obtain ⟨same, after⟩ := agree.concur keeps args sound true s spelt
  exact ⟨⟨other, found, same.trans run⟩, after v s' run⟩

def SoundSymbol (σ : Spelling) (s : LR.Symbol Token Value) : Prop :=
  ∀ x : Symbol, s.kind = x.text → (s.value.getD .nothing).Sound σ x

/-- Symbols that spell the right side of a production are sound as arguments of its action. -/
theorem sound_args {children : List (LR.Symbol Token Value)} {symbols : List Symbol}
    (kinds : children.map (·.kind) = symbols.map (·.text)) (sound : ∀ s ∈ children, SoundSymbol σ s) :
    Args.Sound σ symbols ⟨(children.map fun s =>
      (s.value.getD .nothing, s.token.elim {} (·.position))).toArray⟩ := by
  intro i
  unfold Args.value
  rw [Array.getD_eq_getD_getElem?, List.getElem?_toArray, List.getElem?_map]
  cases found : children[i - 1]? with
  | none => exact .inl rfl
  | some s =>
    have kind := congrArg (·[i - 1]?) kinds
    simp only [List.getElem?_map, found, Option.map_some] at kind
    obtain ⟨x, there, same⟩ := Option.map_eq_some_iff.1 kind.symm
    exact .inr ⟨x, there, sound s (List.mem_of_getElem? found) x same.symm⟩

theorem soundSymbol_ahead {s : LR.Symbol Token Value} {tokens : List Token}
    (comes : Ahead (some s) tokens) : SoundSymbol σ s := by
  cases comes with
  | @token t readable =>
    intro x kind keys
    have kind : t.kind = "KEYS" := kind.trans (congrArg Symbol.text keys)
    exact (readable.native (by rw [kind]; decide)).trans (kind ▸ by decide +kernel)
  | finished => exact fun x kind => absurd kind.symm (text_ne_end x)

/-! ### Moves -/

/-- All types that are on the stack or that the state knows are spelt the same. -/
structure Moment.Sound (σ : Spelling) (m : Moment) : Prop where
  stack : ∀ frame ∈ m.config.frames, SoundSymbol σ frame.symbol
  state : m.state.Spelt σ

/-- The interfaces that productions bring in by which has been reduced, and which they do not import. -/
def Moment.omitted (m : Moment) : List String :=
  m.reductions.flatMap fun n =>
    rules[n]?.elim [] fun rule => (⟨rule.1, rule.2⟩ : Production).omits

/-- The interfaces that are imported have Java's names, and so have those that should be. -/
structure Moment.Keeps (σ : Spelling) (m : Moment) : Prop where
  imported : ∀ name ∈ m.state.imports, σ.Keeps name
  omitted : ∀ name ∈ m.omitted, σ.Keeps name

theorem Reads.spelt {s s' : State} {read : List Token} (reads : Reads s read s') (spelt : s.Spelt σ) :
    s'.Spelt σ :=
  spelt.of_typing (reads.same State.typing fun _ => rfl)

theorem Reads.importedIn {s s' : State} {read : List Token} (reads : Reads s read s') :
    s.ImportedIn s' :=
  .of_same (reads.same State.importing fun _ => rfl)

section Moves

variable {p : Parser} {leads : List Symbol → Nat → Prop} {tracing : Option Tracing}
variable {w : List Symbol} {m next : Moment} {c : LR.Config Token Value}

theorem Tracks.childrenAt_kinds (drives : p.Drives leads)
    (tracks : Tracks leads w c.frames) {production : Nat} {rule : Symbol × List Symbol}
    {base : List Symbol} (found : rules[production]? = some rule)
    (word : w = rule.2.reverse ++ base) :
    (childrenAt p.table c production).map (·.kind) = rule.2.map (·.text) := by
  have kinds := tracks.kinds
  rw [word, List.map_append, List.append_assoc] at kinds
  rw [childrenAt, drives.length found, List.map_reverse, List.map_map, List.map_take]
  have all : c.frames.map ((·.kind) ∘ (·.symbol)) = c.frames.map (·.symbol.kind) := rfl
  rw [all, kinds, List.take_left' (by simp), List.map_reverse, List.reverse_reverse]

theorem mem_frames_of_children {production : Nat} {s : LR.Symbol Token Value}
    (member : s ∈ childrenAt p.table c production) : ∃ frame ∈ c.frames, frame.symbol = s := by
  rw [childrenAt, List.mem_reverse, List.mem_map] at member
  obtain ⟨frame, among, same⟩ := member
  exact ⟨frame, List.mem_of_mem_take among, same⟩

theorem step_with {actions : Array (Option Action)} {move : LR.Move Token Value}
    {out : LR.Outcome Token Value} {s s' : State}
    (chosen : (host tracing).choose p.table p.defaults m.config m.state = .ok (move, c) s)
    (performed : (hostWith actions tracing).perform p.table c move s = .ok out s') :
    (hostWith actions tracing).step p.table p.defaults m.config m.state = .ok out s' := by
  unfold LR.Host.step
  rw [hostWith_choose]
  exact M.bind_eq_ok.2 ⟨(move, c), s, chosen, performed⟩

/-- A move without an error leads to a sound moment, and drops no import. By other names the same
move is made. -/
theorem Moment.Sound.step (drives : p.Drives leads) {start : State}
    (sound : m.Sound σ) (built : BuiltAt leads start w m) (moves : Moves tracing p m next)
    (fine : next.state.codeError = false) (keeps : next.Keeps σ) :
    next.Sound σ ∧ m.state.ImportedIn next.state
      ∧ (hostWith (@actionTable σ.names) tracing).step p.table p.defaults m.config m.state
        = .ok (.running next.config) next.state := by
  have sticks := fun failed => built.failed drives failed moves
  obtain ⟨trees, stacked⟩ := built.stacked
    (Bool.eq_false_iff.2 fun failed => Bool.eq_false_iff.1 fine (sticks failed))
  obtain ⟨move, c, s, c', s', chosen, run, rfl⟩ := moves
  obtain ⟨w', performed, -⟩ := built.perform drives chosen run
  obtain ⟨tracks, -⟩ := built.choose drives chosen
  obtain ⟨fetched, -⟩ := choose_ok drives built.tracks chosen
  obtain ⟨_, comes, -⟩ := stacked.forms
  obtain ⟨_, reads, comes, -⟩ := reads_choose built.free.clear stacked.pushed comes chosen
  have stacked := stacked.choose drives built.free built.tracks chosen
  have spelt := reads.spelt sound.state
  have stack : ∀ frame ∈ c.frames, SoundSymbol σ frame.symbol := fetched.frames ▸ sound.stack
  have failing (next : LR.Symbol Token Value)
      (run : (host tracing).perform p.table c (.fail next) s = .ok (.running c') s') : False :=
    absurd (fail_failed run stacked.errorOk) (Bool.eq_false_iff.1 fine)
  cases performed with
  | shift lookahead kind =>
    obtain ⟨logged, ⟨⟩⟩ := perform_shift run
    refine ⟨⟨List.forall_mem_cons.2 ⟨?_, stack⟩, logged.spelt spelt⟩,
      reads.importedIn.trans logged.importedIn, step_with chosen ?_⟩
    · exact soundSymbol_ahead (lookahead ▸ comes)
    · refine Eq.trans (congrFun (hostWith_perform _ _ _ _ fun n same => ?_) s) run
      cases same
  | @reduce i rule action base _ _ _ found acts word =>
    obtain ⟨_, s₁, s₂, v, found', started, acted, finished⟩ := doReduce_parts run
    cases acts.symm.trans found'
    have before := (traces_beforeAction started).reads
    obtain ⟨after, target, -, ⟨⟩⟩ := afterAction_ok finished
    have after := after.reads
    have args : Args.Sound σ rule.2 (argsAt p.table c i.production) := by
      refine sound_args (tracks.childrenAt_kinds drives found word) fun s member => ?_
      obtain ⟨frame, among, rfl⟩ := mem_frames_of_children member
      exact stack frame among
    have omitted : ∀ name ∈ (⟨rule.1, rule.2⟩ : Production).omits, σ.Keeps name :=
      fun name member => keeps.omitted name (List.mem_flatMap.2
        ⟨i.production, List.mem_cons_self, by rwa [found]⟩)
    obtain ⟨⟨other, listed, same⟩, spelt, imported, is⟩ := run_spelt (lookup_of_acts found acts) args
      (before.spelt spelt) acted (fun name member => keeps.imported name (after.importedIn.imports member))
      omitted
    refine ⟨⟨List.forall_mem_cons.2 ⟨fun x kind => ?_, fun frame below => ?_⟩, after.spelt spelt⟩,
      reads.importedIn.trans (before.importedIn.trans (imported.trans after.importedIn)),
      step_with chosen ?_⟩
    · rw [drives.name found] at kind
      rw [← Perl.Symbol.text_injective _ _ kind]
      exact is
    · exact stack frame (List.mem_of_mem_drop below)
    · have acts : (@actionTable σ.names).getD i.production none = some other := by
        obtain ⟨n, isSucc⟩ := exists_succ_of_acts acts
        rw [isSucc] at found ⊢
        exact (@actionTable_getD σ.names n rule found).trans listed
      change (hostWith (@actionTable σ.names) tracing).doReduce p.table c i.production s = _
      rw [doReduce_with tracing p.table c acts]
      exact M.bind_eq_ok.2 ⟨(), s₁, started, M.bind_eq_ok.2 ⟨v, s₂, same, finished⟩⟩
  | restart => exact (failing _ run).elim
  | keep => exact (failing _ run).elim
  | drop => exact (failing _ run).elim

end Moves

/-! ### Runs -/

theorem Moment.Keeps.java (m : Moment) : m.Keeps .java :=
  ⟨fun _ _ => .java _, fun _ _ => .java _⟩

/-- While no error has been reported, all that a run meets is sound by names that are kept so far. -/
structure SoundRun (leads : List Symbol → Nat → Prop) (start : State) (m : Moment) : Prop where
  built : ∃ w, BuiltAt leads start w m
  sound : m.state.codeError = false → ∀ σ : Spelling, start.Spelt σ → m.Keeps σ → m.Sound σ
  paths : m.state.codeError = false → m.state.importPaths = start.importPaths

section Runs

variable {p : Parser} {leads : List Symbol → Nat → Prop} {tracing : Option Tracing}
variable {start s : State} {m next : Moment} {value : Option Value}

/-- What a move leads to without an error, and what it would by other names. -/
theorem SoundRun.moved (drives : p.Drives leads)
    (run : SoundRun leads start m) (moves : Moves tracing p m next)
    (fine : next.state.codeError = false) :
    m.state.codeError = false ∧ m.state.ImportedIn next.state
      ∧ ∀ σ : Spelling, start.Spelt σ → next.Keeps σ → next.Sound σ
        ∧ (hostWith (@actionTable σ.names) tracing).step p.table p.defaults m.config m.state
          = .ok (.running next.config) next.state := by
  obtain ⟨w, built⟩ := run.built
  have wasFine : m.state.codeError = false :=
    Bool.eq_false_iff.2 fun failed =>
      Bool.eq_false_iff.1 fine (built.failed drives failed moves)
  have java := run.sound wasFine .java (.java _) (.java m)
  obtain ⟨-, imported, -⟩ := java.step drives built moves fine (.java next)
  refine ⟨wasFine, imported, fun σ spelt keeps => ?_⟩
  have kept : m.Keeps σ := by
    refine ⟨fun name member => keeps.imported name (imported.imports member), fun name member => ?_⟩
    obtain ⟨move, c, s, c', s', -, -, rfl⟩ := moves
    refine keeps.omitted name ?_
    unfold Moment.omitted Moment.after
    rw [List.flatMap_append]
    exact List.mem_append_right _ member
  obtain ⟨sound, -, same⟩ := (run.sound wasFine σ spelt kept).step drives built moves fine keeps
  exact ⟨sound, same⟩

theorem SoundRun.step (drives : p.Drives leads)
    (run : SoundRun leads start m) (moves : Moves tracing p m next) : SoundRun leads start next := by
  obtain ⟨w, built⟩ := run.built
  refine ⟨built.step drives moves, fun fine σ spelt keeps => ?_, fun fine => ?_⟩
  · obtain ⟨-, -, after⟩ := run.moved drives moves fine
    exact (after σ spelt keeps).1
  · obtain ⟨wasFine, imported, -⟩ := run.moved drives moves fine
    exact imported.paths.trans (run.paths wasFine)

theorem BuiltAt.accepts {w : List Symbol} (drives : p.Drives leads)
    (built : BuiltAt leads start w m) (ended : Ended tracing p m (.ok value s))
    (fine : s.codeError = false) (actions : Array (Option Action)) :
    m.state.codeError = false ∧ m.state.ImportedIn s
      ∧ (hostWith actions tracing).step p.table p.defaults m.config m.state
        = .ok (.done value) s := by
  have wasFine := built.fine_of_ended drives ended fine
  obtain ⟨trees, stacked⟩ := built.stacked wasFine
  obtain ⟨_, comes, -⟩ := stacked.forms
  cases ended with
  | @done move c s₁ _ _ chosen run =>
    obtain ⟨_, reads, -⟩ := reads_choose built.free.clear stacked.pushed comes chosen
    have stacked := stacked.choose drives built.free built.tracks chosen
    obtain ⟨tracks, choice, -⟩ := built.choose drives chosen
    obtain ⟨rfl, -⟩ := perform_done drives tracks choice run stacked.errorOk fine
    obtain ⟨logged, -⟩ := perform_accept run
    refine ⟨wasFine, reads.importedIn.trans logged.importedIn, step_with chosen ?_⟩
    refine Eq.trans (congrFun (hostWith_perform _ _ _ _ fun n same => ?_) s₁) run
    cases same

/-- A parser that makes the same moves ends in the same way. -/
theorem run_eq_of_steps {other : LR.Host M Token Value} (limit : Nat) {m : Moment}
    (result : (runHistory tracing p limit m).result = .ok value s)
    (moves : ∀ {now next}, next ∈ (runHistory tracing p limit m).moments →
      now ∈ (runHistory tracing p limit m).moments → Moves tracing p now next →
      other.step p.table p.defaults now.config now.state = .ok (.running next.config) next.state)
    (ends : ∀ {now}, now ∈ (runHistory tracing p limit m).moments →
      Ended tracing p now (.ok value s) →
      other.step p.table p.defaults now.config now.state = .ok (.done value) s) :
    other.run p.table p.defaults limit m.config m.state = .ok value s := by
  induction limit generalizing m with
  | zero => cases result
  | succ limit ih =>
    rw [LR.Host.run, M.bind_apply]
    obtain ⟨-, ended⟩ | ⟨_, next, ⟨⟩, move, moments, same⟩ := runHistory_cases (limit + 1) m
    · rw [ends (mem_runHistory _ m) (result ▸ ended)]
      rfl
    · rw [moments] at moves ends
      rw [moves (List.mem_cons_of_mem m (mem_runHistory limit next)) List.mem_cons_self move]
      exact ih (same ▸ result)
        (fun after before => moves (List.mem_cons_of_mem m after) (List.mem_cons_of_mem m before))
        fun among => ends (List.mem_cons_of_mem m among)

/-- In a run that ends without an error none was reported at any moment, and what was imported at
any moment is so in the end. -/
theorem SoundRun.persists (drives : p.Drives leads)
    (first : SoundRun leads start m) (limit : Nat)
    (result : (runHistory tracing p limit m).result = .ok value s) (fine : s.codeError = false) :
    s.importPaths = start.importPaths ∧ (runHistory tracing p limit m).Always fun now =>
      SoundRun leads start now ∧ now.state.codeError = false ∧ now.state.imports ⊆ s.imports := by
  have keep {m next : Moment} (run : SoundRun leads start m) (moves : Moves tracing p m next) :
      SoundRun leads start next := run.step drives moves
  have always := runHistory_always keep limit first
  obtain ⟨last, found, ended⟩ := @runHistory_ended tracing p limit m
  rw [result] at ended
  have atLast := always last (List.mem_of_getLast? found)
  obtain ⟨w, built⟩ := atLast.built
  obtain ⟨lastFine, imported, -⟩ := built.accepts drives ended fine #[]
  refine ⟨imported.paths.trans (atLast.paths lastFine), fun now member => ⟨always now member, ?_, ?_⟩⟩
  · refine Bool.eq_false_iff.2 fun failed => Bool.eq_false_iff.1 lastFine ?_
    refine @runHistory_persists tracing p _ (fun m => m.state.codeError = true) keep
      (fun run failed moves => ?_) limit m now last first member failed found
    obtain ⟨w, built⟩ := run.built
    exact built.failed drives failed moves
  · intro name known
    -- An import stays as long as no error is reported.
    have stays := @runHistory_persists tracing p _
      (fun m => m.state.codeError = true ∨ name ∈ m.state.imports) keep
      (fun {m next} run holds moves => by
        cases fine : next.state.codeError with
        | true => exact .inl rfl
        | false =>
          obtain ⟨wasFine, grown, -⟩ := run.moved drives moves fine
          exact .inr (grown.imports (holds.resolve_left (Bool.eq_false_iff.1 wasFine))))
      limit m now last first member (.inr known) found
    exact imported.imports (stays.resolve_left (Bool.eq_false_iff.1 lastFine))

/-- A run that ends without an error ends in the same way by names that are kept. -/
theorem SoundRun.run_spelt (drives : p.Drives leads)
    (first : SoundRun leads start m) (limit : Nat)
    (result : (runHistory tracing p limit m).result = .ok value s) (fine : s.codeError = false)
    (spelt : start.Spelt σ) (imported : ∀ name ∈ s.imports, σ.Keeps name)
    (omitted : (runHistory tracing p limit m).Always fun m => ∀ name ∈ m.omitted, σ.Keeps name) :
    (hostWith (@actionTable σ.names) tracing).run p.table p.defaults limit m.config m.state
      = .ok value s := by
  obtain ⟨-, always⟩ := first.persists drives limit result fine
  refine run_eq_of_steps limit result (fun {now next} later earlier moves => ?_)
    fun {now} among ended => ?_
  · obtain ⟨run, -⟩ := always now earlier
    obtain ⟨-, nextFine, imports⟩ := always next later
    obtain ⟨-, -, after⟩ := run.moved drives moves nextFine
    have keeps : next.Keeps σ :=
      ⟨fun name member => imported name (imports member), omitted next later⟩
    exact (after σ spelt keeps).2
  · obtain ⟨run, -⟩ := always now among
    obtain ⟨w, built⟩ := run.built
    exact (built.accepts drives ended fine _).2.2

end Runs

/-! ### Compilations -/

/-- The parser by other names is the one whose actions are by other names. -/
theorem host_spelt (tracing : Option Tracing) :
    @host σ.names tracing = hostWith (@actionTable σ.names) tracing := by
  simp only [hostWith, host]

theorem hostWith_parse {actions : Array (Option Action)} {tracing : Option Tracing} {p : Parser}
    {text : String} {limit : Nat} {s s₀ s' : State} {value : Option Value}
    (prepared : prepare tracing text s = .ok () s₀)
    (run : (hostWith actions tracing).run p.table p.defaults limit LR.start s₀ = .ok value s') :
    (hostWith actions tracing).parse p.table p.defaults limit (startReading text) s
      = .ok value s' := by
  obtain ⟨_, s₁, logged, started⟩ := M.cut prepared
  have log : (hostWith actions tracing).log = (host tracing).log := by
    unfold hostWith
    generalize host tracing = h
    rfl
  unfold LR.Host.parse
  rw [log]
  exact M.bind_eq_ok.2 ⟨(), s₁, logged, M.bind_eq_ok.2 ⟨(), s₀, started, run⟩⟩

/-- The start of a compilation has nothing to do with types and imports. -/
theorem prepare_same {tracing : Option Tracing} {text : String} {s s₀ : State} {u : Unit}
    (prepared : prepare tracing text s = .ok u s₀) :
    s₀.typing = s.typing ∧ s₀.importing = s.importing := by
  obtain ⟨_, s₁, logged, started⟩ := M.cut prepared
  obtain ⟨_, _, ⟨⟩, notified⟩ := M.cut started
  have view : Preserves (fun s => (s.typing, s.importing))
      (reportNotices (Perl.Reader.ofText text).1) := .walk
  have same := view _ _ _ notified
  have logged := (traces_log logged).reads.same (fun s => (s.typing, s.importing)) fun _ => rfl
  exact Prod.mk.inj (same.trans logged)

/-- A compilation without an error comes out the same by names that are kept, and the paths of its
imports are those that there were. -/
theorem compileWithin_spelt {p : Parser} {text : String} {limit : Nat} {start s : State}
    {out : Option String} (balanced : start.context.Balanced)
    (done : compileWithin limit p text start = .ok out s) (fine : s.codeError = false) :
    s.importPaths = start.importPaths ∧ ∀ σ : Spelling, start.Spelt σ →
      (∀ name ∈ s.imports, σ.Keeps name) →
      (history p text limit start).Always (fun m => ∀ name ∈ m.omitted, σ.Keeps name) →
      @compileWithin σ.names limit p text start = .ok out s := by
  obtain ⟨leads, drives⟩ := Perl.drives p
  obtain ⟨s₀, value, prepared, rfl, result⟩ := compileWithin_eq_ok done
  rw [history, prepared]
  obtain ⟨typing, importing⟩ := prepare_same prepared
  have first : SoundRun leads s₀ { state := s₀ } := by
    refine ⟨⟨[], .start drives balanced prepared⟩, fun _ σ spelt _ => ⟨?_, spelt⟩, fun _ => rfl⟩
    exact List.forall_mem_singleton.2 (soundSymbol_ahead .finished)
  obtain ⟨paths, -⟩ := first.persists drives _ result fine
  refine ⟨paths.trans (congrArg Prod.snd importing), fun σ spelt imported omitted => ?_⟩
  have run := first.run_spelt drives _ result fine (spelt.of_typing typing) imported omitted
  have parsed := hostWith_parse prepared run
  rw [← host_spelt] at parsed
  exact M.bind_eq_ok.2 ⟨start, start, rfl, M.bind_eq_ok.2 ⟨value, s, parsed, rfl⟩⟩

/-! ### Interfaces -/

/-- The interfaces of collections. -/
inductive Interface where
  | list
  | map
  | iterator
deriving DecidableEq

namespace Interface

def name : Interface → String
  | list => "List"
  | map => "Map"
  | iterator => "Iterator"

def path (i : Interface) : String :=
  "java.util." ++ i.name

def renamed (i : Interface) (name : String) : Spelling :=
  match i with
  | list => ⟨{ Interfaces.java with list := name }⟩
  | map => ⟨{ Interfaces.java with map := name }⟩
  | iterator => ⟨{ Interfaces.java with iterator := name }⟩

/-- A session that has the standard imports knows the paths of the interfaces. -/
theorem get?_standardImports (i : Interface) : standardImports.get? i.name = some i.path := by
  cases i <;> decide

/-- All interfaces but the one that is renamed have Java's names. -/
theorem renamed_keeps {i : Interface} {other : String} (ne : other ≠ i.name) (name : String) :
    (i.renamed name).Keeps other := by
  cases i <;> constructor <;> first | exact fun _ => rfl | exact fun same => absurd same ne

end Interface

/-- A file that is started knows the types that the session knows. -/
theorem State.Spelt.ofFile {session : Session} (spelt : session.Spelt σ) (options : Options)
    (name : String) : (State.ofFile session options name).Spelt σ := by
  refine { spelt with
    declaredTypes := fun _ => (nomatch ·)
    lineType := fun _ => (nomatch ·)
    functions := fun _ => (nomatch ·)
    currentFunction := fun _ => (nomatch ·)
    job := ⟨fun type member => ?_, fun _ => (nomatch ·), fun _ => (nomatch ·)⟩ }
  obtain rfl : type = .string := by simpa [State.ofFile] using member
  exact Shape.spelt_scalar rfl

/-- A compilation comes out differently by another name of the interface. -/
def Uses (p : Parser) (text : String) (limit : Nat) (start : State) (i : Interface) : Prop :=
  ∃ name, @compileWithin (i.renamed name).names limit p text start ≠ compileWithin limit p text start

/-- The text of a class imports something from a path before the class starts. -/
def State.HeadImports (s : State) (text path : String) : Prop :=
  ∃ (paths : List String) (rest : String), path ∈ paths ∧ text = s.packageCode
    ++ ("import perldoop.*;\n" ++ String.join (paths.map ("import " ++ · ++ ";\n")) ++ "\n")
    ++ "\n\npublic class " ++ rest

theorem mem_of_mapM {α β : Type} {f : α → Option β} {xs : List α} {ys : List β} {x : α} {y : β}
    (all : xs.mapM f = some ys) (member : x ∈ xs) (found : f x = some y) : y ∈ ys := by
  induction xs generalizing ys with
  | nil => cases member
  | cons z xs ih =>
    rw [List.mapM_cons] at all
    obtain ⟨first, here, all⟩ := Option.bind_eq_some_iff.1 all
    obtain ⟨rest, there, ⟨⟩⟩ := Option.bind_eq_some_iff.1 all
    obtain rfl | later := List.mem_cons.1 member
    · cases here.symm.trans found
      exact List.mem_cons_self
    · exact List.mem_cons_of_mem _ (ih there later)

theorem State.IsClassText.headImports {s : State} {functions code text name path : String}
    (isClass : s.IsClassText functions code text) (imported : name ∈ s.imports)
    (found : s.importPaths.get? name = some path) : s.HeadImports text path := by
  obtain ⟨paths, all, rfl⟩ := isClass
  refine ⟨paths, s.className ++ ((if s.superclass = "" then "" else " extends " ++ s.superclass)
    ++ ("\x7b\n" ++ (s.attributes ++ ("\n\n" ++ (functions
      ++ (startMember s.options.mainClass code ++ "\x7d")))))), mem_of_mapM all imported found, ?_⟩
  simp only [String.append_assoc]

/-- A file that compiles without an error imports the interfaces it uses: all but those that it knows
from other files, and those that values and anonymous hashes bring in. -/
def ImportsUsed (p : Parser) (text : String) (limit : Nat) (session : Session) (options : Options)
    (name : String) : Prop :=
  match compileWithin limit p text (State.ofFile session options name) with
  | .ok (some out) s => s.codeError = false → ∀ i : Interface,
    session.importPaths.get? i.name = some i.path →
      Uses p text limit (State.ofFile session options name) i →
      (∀ other, session.Spelt (i.renamed other)) →
      (history p text limit (State.ofFile session options name)).Always (fun m => i.name ∉ m.omitted) →
      s.HeadImports out i.path
  | _ => True

theorem used_interfaces_imported (p : Parser) (text : String) (limit : Nat) (session : Session)
    (options : Options) (name : String) : ImportsUsed p text limit session options name := by
  have balanced := balanced_ofFile session options name
  unfold ImportsUsed
  split
  · next out s done =>
    rintro fine i path ⟨other, differs⟩ known omitted
    obtain ⟨paths, spelt⟩ := compileWithin_spelt balanced done fine
    have imported : i.name ∈ s.imports := by
      by_contra missing
      refine differs ((spelt (i.renamed other) (.ofFile (known other) options name)
        (fun name member => ?_) fun m member name there => ?_).trans done.symm)
      · exact i.renamed_keeps (fun same => missing (same ▸ member)) other
      · exact i.renamed_keeps (fun same => omitted m member (same ▸ there)) other
    obtain ⟨s₀, t, -, kind, same, forms⟩ := compileWithin_forms balanced done fine
    obtain ⟨text, value, isClass⟩ := file_isClassText kind forms
    rw [value] at same
    cases same
    exact isClass.headImports imported (paths ▸ path)
  · trivial

/-- The values of a hash are a list: where they are kept, its interface is named and not imported. -/
theorem values_name_unimported_list : ∃ source s,
    (do keepSource (← NativeCall.keysOrValues
      ⟨"values", {}, [{ value := "h", shape := .ofNames [.hash, .string] }], {}⟩)).run {}
        = .ok ([rawStatement "\x7b\nList<String> pd_me=Perl.values(h)"], source) s
      ∧ s.imports = [] :=
  ⟨_, _, rfl, rfl⟩

end PerlJava.Compile
