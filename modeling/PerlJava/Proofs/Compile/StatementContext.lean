import PerlJava.Proofs.Compile.ScopeLevels
import PerlJava.Proofs.Perl.StatementWord

/-!
# The context of a statement

While no error has been reported, what a statement finds in the context it leaves there: declarations
are switched on, no loop waits for its variable, no labels wait, and the same levels of scope are
open. The blocks of reducers are the exception, each of which leaves a level open.

The context follows the word on the stack: each header opens a level, each `change_init` switches
declarations off or on, each `for_type` starts a loop variable, and labels wait from `labels_line`
on. When a statement starts and when it ends, none of these is pending.
-/

namespace PerlJava.Compile

open Perl (Symbol rules scope loopVariable)
open LR (Valid)

/-- The productions of reducers, which open two levels and close one. -/
def reducerRules : List (Symbol × List Symbol) :=
  [(.block, [.REDUCER_OP, .block_header, .LBRACE, .statements, .RBRACE]),
    (.block, [.REDUCER_CHANGE, .LBRACE, .block_header, .statements, .RBRACE]),
    (.block, [.reducer_init, .LBRACE, .block_header, .REDUCER_VAR, .statements, .REDUCER_VAR,
      .statements, .RBRACE])]

def isReducer (rule : Symbol × List Symbol) : Bool :=
  reducerRules.contains rule

/-- Whether an effect keeps exact count of the levels that the symbols of a production have
opened, but for one in a reducer. -/
def countFits (e : Effect) (name : Symbol) (right : List Symbol) : Bool :=
  let opened := scope.pending right.reverse
  let extra := if isReducer (name, right) then 1 else 0
  match e with
  | .opensLevel => opened == 0 && extra == 0
  | .closesLevel | .mayCloseLevel | .endsJob => opened == extra + (if scope.closes name then 0 else 1)
  | _ => opened == 0 && extra == 0

/-- Whether an effect switches declarations as the symbols of a production do. -/
def initFits (e : Effect) (name : Symbol) (right : List Symbol) : Bool :=
  (right.count .change_init + (if name == .change_init then 1 else 0)) % 2
    == if e == .togglesInit then 1 else 0

/-- Whether an effect starts and ends a loop variable as the symbols of a production do. -/
def loopFits (e : Effect) (name : Symbol) (right : List Symbol) : Bool :=
  loopVariable.pending right.reverse == 0 && !right.head?.any loopVariable.closes
    && (!loopVariable.closes name || e == .leavesForeach)
    && (e != .entersForeach || loopVariable.opens name)

def labelsFit (e : Effect) (name : Symbol) (right : List Symbol) : Bool :=
  (!right.contains .labels_line || e == .dropsLabels) && (e != .setsLabels || name == .labels_line)

/-- Whether an effect keeps the context in line with the symbols of a production. -/
def contextFits (e : Effect) (name : Symbol) (right : List Symbol) : Bool :=
  levelsFit e name right && countFits e name right && initFits e name right
    && loopFits e name right && labelsFit e name right

theorem all_contextFits : allActions.all
    (fun (rule, action) => contextFits action.effect rule.name rule.symbols) = true := by
  decide +kernel

/-- The context is in line with the word on the stack after so many reductions of reducers. -/
structure Tidy (w : List Symbol) (reducers : Nat) (k : Context) : Prop where
  levels : k.declared = 1 + scope.pending w + reducers
  initVar : k.initVar = (w.count .change_init % 2 == 0)
  inForeach : k.inForeach = true → 1 ≤ loopVariable.pending w
  labelled : k.labelled = true → .labels_line ∈ w

namespace Tidy

variable {e : Effect} {name : Symbol} {right base w : List Symbol} {k k' : Context}
variable {reducers : Nat}

theorem of_follows (tidy : Tidy w reducers k) (follows : k.Follows k') : Tidy w reducers k' where
  levels := follows.declared.trans tidy.levels
  initVar := follows.initVar.trans tidy.initVar
  inForeach entered := tidy.inForeach (follows.inForeach ▸ entered)
  labelled waits := tidy.labelled (follows.labelled waits)

/-- Where no statement is being read, the context is settled. -/
theorem settled (tidy : Tidy w reducers k) (settled : Perl.settled w = true) :
    k.initVar = true ∧ k.inForeach = false ∧ k.labelled = false := by
  obtain ⟨label, loop, even⟩ := Perl.settled_iff.1 settled
  refine ⟨by simp [tidy.initVar, even], Bool.eq_false_iff.2 fun entered => ?_,
    Bool.eq_false_iff.2 fun waits => label (tidy.labelled waits)⟩
  have pending := tidy.inForeach entered
  rw [Perl.Bracket.pending, Perl.pending_loopVariable false loop] at pending
  omega

end Tidy

section Reduce

variable {e : Effect} {name : Symbol} {right base : List Symbol} {k : Context} {reducers : Nat}

theorem countFits_spec (fits : levelsFit e name right = true) (counts : countFits e name right = true)
    (header : scope.closes name = true → base.head? = some .block_header)
    (levels : k.declared = 1 + scope.pending (right.reverse ++ base) + reducers) :
    (e.apply k).declared = 1 + scope.pending (name :: base)
      + (reducers + if isReducer (name, right) then 1 else 0) := by
  rw [Perl.Bracket.pending_reverse_append] at levels
  rw [Perl.Bracket.pending_cons]
  cases e with
  | opensLevel =>
    simp only [levelsFit, Bool.and_eq_true, beq_iff_eq, Bool.not_eq_true'] at fits
    simp only [countFits, Bool.and_eq_true, beq_iff_eq] at counts
    obtain ⟨⟨⟨none, opens⟩, keeps⟩, open_⟩ := fits
    simp only [open_] at levels
    simp only [opens, keeps, counts, Effect.apply, if_true]
    omega
  | closesLevel | mayCloseLevel | endsJob =>
    simp only [levelsFit, Bool.and_eq_true, Bool.not_eq_true'] at fits
    simp only [countFits, beq_iff_eq] at counts
    obtain ⟨⟨opensNot, open_⟩, -⟩ := fits
    simp only [open_] at levels
    simp only [opensNot, Effect.apply, Bool.false_eq_true, if_false]
    cases below : scope.closes name with
    | true =>
      have counted := pendingUnder_of_header (header below)
      simp only [below, if_true] at counts
      omega
    | false =>
      simp only [below, Bool.false_eq_true, if_false] at counts
      omega
  | _ =>
    simp only [levelsFit, Bool.and_eq_true, beq_iff_eq, Bool.not_eq_true'] at fits
    simp only [countFits, Bool.and_eq_true, beq_iff_eq] at counts
    obtain ⟨opensNot, same⟩ := fits
    simp only [opensNot, same, counts, Effect.apply, Bool.false_eq_true, if_false]
    omega

theorem initFits_spec (fits : initFits e name right = true)
    (initVar : k.initVar = ((right.reverse ++ base).count .change_init % 2 == 0)) :
    (e.apply k).initVar = ((name :: base).count .change_init % 2 == 0) := by
  have switches : (e.apply k).initVar = if e = .togglesInit then !k.initVar else k.initVar := by
    cases e <;> rfl
  simp only [initFits, beq_iff_eq] at fits
  rw [switches, initVar, List.count_append, List.count_reverse, List.count_cons, Bool.eq_iff_iff]
  by_cases toggles : e = .togglesInit
  · simp only [if_pos toggles, Bool.not_eq_true', beq_iff_eq, beq_eq_false_iff_ne] at fits ⊢
    omega
  · simp only [if_neg toggles, beq_iff_eq] at fits ⊢
    omega

theorem loopFits_spec (fits : loopFits e name right = true)
    (inForeach : k.inForeach = true → 1 ≤ loopVariable.pending (right.reverse ++ base))
    (entered : (e.apply k).inForeach = true) : 1 ≤ loopVariable.pending (name :: base) := by
  simp only [loopFits, Bool.and_eq_true, Bool.or_eq_true, beq_iff_eq, bne_iff_ne,
    Bool.not_eq_true'] at fits
  obtain ⟨⟨⟨none, first⟩, leaves⟩, enters⟩ := fits
  rw [Perl.Bracket.pending_cons]
  rw [Perl.Bracket.pending_reverse_append, none, first, Nat.zero_add] at inForeach
  by_cases opens : e = .entersForeach
  · rw [if_pos (enters.resolve_left (· opens))]
    omega
  · obtain ⟨before, stays⟩ : k.inForeach = true ∧ e ≠ .leavesForeach := by
      cases e <;> simp_all [Effect.apply]
    rw [leaves.resolve_right stays]
    exact Nat.le_add_left_of_le (inForeach before)

theorem labelsFit_spec (fits : labelsFit e name right = true)
    (labelled : k.labelled = true → .labels_line ∈ right.reverse ++ base)
    (waits : (e.apply k).labelled = true) : .labels_line ∈ name :: base := by
  simp only [labelsFit, Bool.and_eq_true, Bool.or_eq_true, beq_iff_eq, bne_iff_ne,
    Bool.not_eq_true', List.contains_eq_mem, decide_eq_false_iff_not] at fits
  obtain ⟨drops, sets⟩ := fits
  by_cases opens : e = .setsLabels
  · simp [sets.resolve_left (· opens)]
  · obtain ⟨before, stays⟩ : k.labelled = true ∧ e ≠ .dropsLabels := by
      cases e <;> simp_all [Effect.apply]
    obtain read | below := List.mem_append.1 (labelled before)
    · exact absurd (List.mem_reverse.1 read) (drops.resolve_right stays)
    · exact List.mem_cons_of_mem _ below

theorem Tidy.reduce (fits : contextFits e name right = true)
    (header : scope.closes name = true → base.head? = some .block_header)
    (tidy : Tidy (right.reverse ++ base) reducers k) :
    Tidy (name :: base) (reducers + if isReducer (name, right) then 1 else 0) (e.apply k) := by
  simp only [contextFits, Bool.and_eq_true] at fits
  obtain ⟨⟨⟨⟨levels, counts⟩, init⟩, loop⟩, labels⟩ := fits
  exact ⟨countFits_spec levels counts header tidy.levels, initFits_spec init tidy.initVar,
    loopFits_spec loop tidy.inForeach, labelsFit_spec labels tidy.labelled⟩

end Reduce

theorem Tidy.shift {w : List Symbol} {x : Symbol} {k : Context} {reducers : Nat}
    (terminal : ∀ n rule, rules[n + 1]? = some rule → rule.1 ≠ x) (tidy : Tidy w reducers k) :
    Tidy (x :: w) reducers k := by
  have header : scope.opens x = false := by
    simpa [scope] using Perl.not_mem_of_terminal Perl.headers_named terminal
  have other := Perl.not_mem_of_terminal Perl.contextual_named terminal
  have block : scope.closes x = false :=
    Bool.eq_false_iff.2 fun closes => other (Perl.contextual_of_closes closes)
  simp only [Perl.contextual, List.mem_cons, not_or] at other
  obtain ⟨-, -, -, init, loop, variable_, -⟩ := other
  constructor
  · rw [scope.pending_cons_of_other header block, tidy.levels]
  · simp [init, tidy.initVar]
  · rw [loopVariable.pending_cons_of_other (by simp [loopVariable, loop])
      (by simp [loopVariable, variable_])]
    exact tidy.inForeach
  · exact fun waits => List.mem_cons_of_mem x (tidy.labelled waits)

/-- How often has been reduced by a production of a reducer. -/
def Moment.reducers (m : Moment) : Nat :=
  m.reductions.countP fun n => rules[n]?.any isReducer

theorem Moment.reducers_reduce (m : Moment) (c : LR.Config Token Value) (s : State) {n : Nat}
    {rule : Symbol × List Symbol} (found : rules[n]? = some rule) :
    (m.after c s (.reduce n)).reducers = m.reducers + if isReducer rule then 1 else 0 := by
  simp [reducers, Moment.after, reductionOf?, List.countP_cons, found]

/-- What is below the top of a stack was the whole stack once. -/
def Grown (earlier : List Moment) (frames : List (LR.Frame Token Value)) : Prop :=
  ∀ rest, rest ≠ [] → rest <:+ frames.tail → ∃ m ∈ earlier, m.config.frames = rest

theorem Grown.step {earlier : List Moment} {m : Moment} {frames : List (LR.Frame Token Value)}
    (grown : Grown earlier m.config.frames) (below : frames.tail <:+ m.config.frames) :
    Grown (earlier ++ [m]) frames := by
  intro rest some_ suffix
  have suffix := suffix.trans below
  obtain same | further : rest = m.config.frames ∨ rest <:+ m.config.frames.tail := by
    cases frames : m.config.frames with
    | nil => exact absurd (List.suffix_nil.1 (frames ▸ suffix)) some_
    | cons top below => exact List.suffix_cons_iff.1 (frames ▸ suffix)
  · exact ⟨m, by simp, same.symm⟩
  · obtain ⟨a, member, found⟩ := grown rest some_ further
    exact ⟨a, List.mem_append_left _ member, found⟩

section Step

variable {p : Parser} {leads : List Symbol → Nat → Prop} {tracing : Option Tracing}
variable {w : List Symbol} {m next : Moment} {earlier : List Moment}

/-- The context is in line with the word on the stack, and no error has been met. -/
structure InOrder (w : List Symbol) (earlier : List Moment) (m : Moment) : Prop where
  errorOk : m.config.errorOk = true
  tidy : Tidy w m.reducers m.state.context
  grown : Grown earlier m.config.frames

/-- While no error has been reported, all is in order. -/
structure OrderlyAt (leads : List Symbol → Nat → Prop) (w : List Symbol) (earlier : List Moment)
    (m : Moment) : Prop extends LeveledAt leads w m where
  inOrder : m.state.codeError = false → InOrder w earlier m

section

variable (drives : p.Drives leads)

include drives

/-- A move keeps all in order, or reports an error. -/
theorem OrderlyAt.step (orderly : OrderlyAt leads w earlier m) (moves : Moves tracing p m next) :
    ∃ w', OrderlyAt leads w' (earlier ++ [m]) next := by
  obtain ⟨move, c, s, c', s', chosen, run, rfl⟩ := moves
  have follows := Does.follows orderly.balanced chosen
  obtain ⟨fetched, -⟩ := choose_ok drives orderly.tracks chosen
  obtain ⟨w', performed, allows, leveled⟩ := orderly.perform drives chosen run
  refine ⟨w', leveled, fun unspoilt => ?_⟩
  have fine : ¬ s'.codeError = true := Bool.eq_false_iff.1 unspoilt
  obtain ⟨errorOk, tidy, grown⟩ := orderly.inOrder
    (Bool.eq_false_iff.2 fun failed => fine (allows.reaches.failed (follows.failed failed)))
  have tidy := tidy.of_follows follows
  have errorOk := fetched.errorOk.trans errorOk
  cases performed with
  | shift _ _ terminal below same =>
    rw [fetched.frames] at below
    exact ⟨same.trans errorOk, (tidy.shift terminal).of_follows allows.of_plain,
      grown.step (below ▸ List.suffix_refl _)⟩
  | reduce valid complete found acts word first below same =>
    rw [fetched.frames] at below
    refine ⟨same.trans errorOk, ?_, grown.step (below ▸ List.drop_suffix _ _)⟩
    rw [moveEffect, effectOf_eq acts] at allows
    obtain done | ⟨-, failed, -⟩ := allows
    · subst word
      rw [m.reducers_reduce c' s' found]
      exact (tidy.reduce (check_action all_contextFits found acts)
        (header_below first found)).of_follows done
    · exact absurd failed fine
  | restart => exact absurd (fail_failed run errorOk) fine
  | keep => exact absurd (fail_failed run errorOk) fine
  | drop => exact absurd (fail_failed run errorOk) fine

theorem LeveledAt.failed (leveled : LeveledAt leads w m) (failed : m.state.codeError = true)
    (moves : Moves tracing p m next) : next.state.codeError = true := by
  obtain ⟨move, c, s, c', s', chosen, run, rfl⟩ := moves
  obtain ⟨-, -, allows, -⟩ := leveled.perform drives chosen run
  exact allows.reaches.failed ((Does.follows leveled.balanced chosen).failed failed)

/-- A run that is done without an error has accepted a file. -/
theorem perform_done {c : LR.Config Token Value} {move : LR.Move Token Value} {value : Option Value}
    {s s' : State} (tracks : Tracks leads w c.frames) (chosen : Chosen leads w c move)
    (run : (host tracing).perform p.table c move s = .ok (.done value) s') (wasOk : c.errorOk = true)
    (fine : s'.codeError = false) :
    move = .accept ∧ w = [.file] ∧ ∃ next, c.lookahead = some next ∧ next.kind = "$end" := by
  cases chosen with
  | shift => obtain ⟨_, _, -, ⟨⟩⟩ := M.cut run
  | reduce valid complete =>
    obtain ⟨_, _, ⟨⟩, -⟩ := doReduce_ok drives tracks valid complete run
  | accept valid first complete lookahead isEnd =>
    obtain ⟨rule, base, found, rfl, started⟩ := exists_rule valid complete
    rw [first] at found started
    obtain rfl := Option.some.inj (Perl.rules_zero.symm.trans found)
    obtain rfl := Perl.eq_nil_of_start started
    exact ⟨rfl, rfl, _, lookahead, isEnd⟩
  | fail => exact absurd (fail_failed run wasOk) (Bool.eq_false_iff.1 fine)

/-- A run that is done without an error has left only the levels of reducers open. -/
theorem OrderlyAt.done (orderly : OrderlyAt leads w earlier m) {value : Option Value} {s : State}
    (ended : Ended tracing p m (.ok value s)) (fine : s.codeError = false) :
    s.declared.length = 1 + m.reducers := by
  obtain ⟨errorOk, tidy, -⟩ := orderly.inOrder (orderly.fine_of_ended drives ended fine)
  cases ended with
  | @done move c s₁ _ _ chosen run =>
    have follows := Does.follows orderly.balanced chosen
    obtain ⟨fetched, -⟩ := choose_ok drives orderly.tracks chosen
    obtain ⟨tracks, choice, balanced, -, enough⟩ := orderly.choose drives chosen
    obtain ⟨rfl, rfl, -⟩ := perform_done drives tracks choice run (fetched.errorOk.trans errorOk) fine
    have allows := Does.ok balanced enough run
    calc s.declared.length = s₁.declared.length := allows.of_plain.declared
      _ = m.state.declared.length := follows.declared
      _ = 1 + m.reducers := tidy.levels

end

/-- Declarations are switched on, and no loop variable and no labels are waited for. -/
structure State.Settled (s : State) : Prop where
  initVar : s.initVar = true
  inForeach : s.inForeach = false
  lineType : s.lineType = none
  lineSizes : s.lineSizes = none

theorem InOrder.settled (inOrder : InOrder w earlier m) (settled : Perl.settled w = true) :
    m.state.Settled := by
  obtain ⟨initVar, inForeach, labelled⟩ := inOrder.tidy.settled settled
  simp only [State.context, Bool.or_eq_false_iff, Option.isSome_eq_false_iff,
    Option.isNone_iff_eq_none] at labelled
  exact ⟨initVar, inForeach, labelled.1, labelled.2⟩

def Moment.EndsStatement (m : Moment) : Prop :=
  m.config.frames.head?.map (·.symbol.kind) = some (Symbol.text .statement_type)

/-- The statement that has just been put together leaves the context as it was when the parser had
read what comes before the statement, and all levels but those of reducers. -/
structure LeavesContext (earlier : List Moment) (m : Moment) : Prop where
  settled : m.state.Settled
  began : ∃ a ∈ earlier, a.config.frames = m.config.frames.tail
  unchanged : ∀ a ∈ earlier, a.config.frames = m.config.frames.tail → a.state.Settled
    ∧ m.state.declared.length + a.reducers = a.state.declared.length + m.reducers

theorem OrderlyAt.leavesContext (drives : p.Drives leads)
    (orderly : OrderlyAt leads w earlier m) (fine : m.state.codeError = false)
    (before : ∀ a ∈ earlier, ∃ u e, OrderlyAt leads u e a ∧ a.state.codeError = false)
    (ends : m.EndsStatement) : LeavesContext earlier m := by
  have inOrder := orderly.inOrder fine
  have tracks := orderly.tracks
  have grown := inOrder.grown
  rw [Moment.EndsStatement] at ends
  generalize stack : m.config.frames = frames at tracks ends grown
  cases tracks with
  | bottom kind _ => simp [kind, Symbol.text] at ends
  | @push rest below x top tracks kind led =>
    obtain rfl : x = .statement_type :=
      Perl.Symbol.text_injective _ _ (kind.symm.trans (Option.some.inj ends))
    obtain ⟨_, valid⟩ := drives.nonempty led
    obtain ⟨_, asks, next⟩ := valid.exists_next
    obtain ⟨frame, _, nonempty, -⟩ := tracks.top
    refine ⟨inOrder.settled (Perl.settled_of_top valid (by decide)), ?_, ?_⟩
    · rw [stack]
      exact grown below (by simp [nonempty]) (List.suffix_refl _)
    · intro a member same
      rw [stack, List.tail_cons] at same
      obtain ⟨u, e, wasOrderly, wasFine⟩ := before a member
      obtain rfl := tracks.word_unique (same ▸ wasOrderly.tracks)
      have wasInOrder := wasOrderly.inOrder wasFine
      refine ⟨wasInOrder.settled (Perl.settled_of_next asks next (by decide)), ?_⟩
      have levels : m.state.declared.length = 1 + scope.pending rest + m.reducers := by
        rw [← scope.pending_cons_of_other (x := .statement_type) rfl rfl rest]
        exact inOrder.tidy.levels
      have wasLevels : a.state.declared.length = 1 + scope.pending rest + a.reducers :=
        wasInOrder.tidy.levels
      omega

/-- Every statement leaves the context as it has found it, and at the end only the levels of reducers
are left open. -/
structure StatementsSettle {α : Type} (h : History α) : Prop where
  statement {earlier later : List Moment} {m : Moment} :
    h.moments = earlier ++ m :: later → m.EndsStatement → LeavesContext earlier m
  levels {value : α} {s : State} : h.result = .ok value s →
    ∃ last, h.moments.getLast? = some last ∧ s.declared.length = 1 + last.reducers

theorem runHistory_fine (drives : p.Drives leads) (limit : Nat)
    (leveled : Leveled leads m)
    (fine : (endState (runHistory tracing p limit m).result).codeError = false) :
    (runHistory tracing p limit m).Always (·.state.codeError = false) := by
  intro now member
  refine Bool.eq_false_iff.2 fun failed => ?_
  obtain ⟨last, found, ended⟩ := runHistory_ended limit m
  obtain ⟨w, lastLeveled⟩ := runHistory_always (fun leveled => leveled.step drives) limit leveled
    last (List.mem_of_getLast? found)
  have failed : last.state.codeError = true :=
    runHistory_persists (fun leveled => leveled.step drives)
      (fun ⟨_, leveled⟩ failed moves => leveled.failed drives failed moves) limit leveled member
      failed found
  simp [lastLeveled.fine_of_ended drives ended fine] at failed

theorem runHistory_settles (drives : p.Drives leads) (limit : Nat)
    (orderly : OrderlyAt leads w [] m)
    (fine : (endState (runHistory tracing p limit m).result).codeError = false) :
    StatementsSettle (runHistory tracing p limit m) := by
  have unspoilt := runHistory_fine drives limit ⟨w, orderly.toLeveledAt⟩ fine
  have keeps {earlier later : List Moment} {now : Moment}
      (moments : (runHistory tracing p limit m).moments = earlier ++ now :: later) :
      ∃ w, OrderlyAt leads w earlier now :=
    @runHistory_keeps tracing p (fun earlier m => ∃ w, OrderlyAt leads w earlier m)
      (fun ⟨_, orderly⟩ moves => orderly.step drives moves) limit [] m ⟨w, orderly⟩ earlier later now
      moments
  constructor
  · intro earlier later now moments ends
    obtain ⟨_, orderly⟩ := keeps moments
    refine orderly.leavesContext drives (unspoilt now (by simp [moments])) ?_ ends
    intro a member
    obtain ⟨before, after, rfl⟩ := List.append_of_mem member
    obtain ⟨u, orderly⟩ : ∃ u, OrderlyAt leads u before a := keeps (by simpa using moments)
    exact ⟨u, before, orderly, unspoilt a (by simp [moments])⟩
  · intro value s result
    obtain ⟨last, found, ended⟩ := runHistory_ended limit m
    obtain ⟨before, after, moments⟩ := List.append_of_mem (List.mem_of_getLast? found)
    obtain ⟨_, orderly⟩ := keeps moments
    rw [result] at ended fine
    exact ⟨last, found, orderly.done drives ended fine⟩

end Step

/-- In the compilation of any text that reports no error, every statement leaves the context as it
has found it. -/
theorem statement_context_restored (p : Parser) (session : Session) (options : Options)
    (name text : String) (limit : Nat) :
    let start := State.ofFile session options name
    let h := history p text limit start
    ((endState h.result).codeError = true ∨ StatementsSettle h)
      ∧ (history p text (moveLimit text) start).result = compile p text start := by
  intro start
  obtain ⟨leads, drives⟩ := Perl.drives p
  refine ⟨?_, history_result p text _ start⟩
  have balanced : start.context.Balanced := balanced_ofFile session options name
  have tidy : Tidy [] 0 start.context := ⟨rfl, rfl, by rintro ⟨⟩, by rintro ⟨⟩⟩
  rw [history]
  cases prepared : prepare start.options.tracing text start with
  | error stop s => exact .inr ⟨by simp, by rintro _ _ ⟨⟩⟩
  | ok _ s =>
    have follows := Does.follows balanced prepared
    have balanced := balanced.of_follows follows
    have orderly : OrderlyAt leads [] [] { state := s } :=
      ⟨⟨.bottom rfl drives.start, balanced, .all balanced.open_⟩,
        fun _ => ⟨rfl, tidy.of_follows follows, by simp [Grown, LR.start, LR.startFrames]⟩⟩
    have settles := @runHistory_settles p leads start.options.tracing _ _ drives limit orderly
    cases fine : (endState (runHistory start.options.tracing p limit { state := s }).result).codeError with
    | true => exact .inl ((congrArg State.codeError (endState_classResult _)).trans fine)
    | false =>
      refine .inr ⟨(settles fine).statement, fun ended => ?_⟩
      obtain ⟨value, result, -⟩ := ok_of_classResult ended
      exact (settles fine).levels result

end PerlJava.Compile
