import PerlJava.Proofs.Compile.Moments
import PerlJava.Proofs.Perl.BlockWord

/-!
# Levels of scope

At every moment of a compilation as many levels declare variables as assign names, at least one is
open, and no action misses a level. Levels are opened by the headers on the stack of the parser and
closed by the blocks above them, so what is open exceeds what the stack has opened. Recovery from a
syntax error may drop a block and leave its header, whose level is closed: until the header is
dropped too, nothing else can happen.
-/

namespace PerlJava.Compile

open Perl (Symbol rules scope)
open LR (Valid)

/-- Whether an effect keeps count of the levels that the symbols of a production have opened. -/
def levelsFit (e : Effect) (name : Symbol) (right : List Symbol) : Bool :=
  let opened := scope.pending right.reverse
  let closes := right.head?.any scope.closes
  match e with
  | .opensLevel => opened == 0 && scope.opens name && !scope.closes name && !closes
  | .closesLevel | .mayCloseLevel | .endsJob =>
    !scope.opens name && !closes && (scope.closes name || decide (1 ≤ opened))
  | _ => !scope.opens name && scope.closes name == closes

theorem all_levelsFit : allActions.all
    (fun (rule, action) => levelsFit action.effect rule.name rule.symbols) = true := by
  decide +kernel

inductive Covered (w : List Symbol) (lookahead : Option (LR.Symbol Token Value)) (levels : Nat) :
    Prop where
  /-- All levels that the word has opened and not closed are open, and one more. -/
  | all : 1 + scope.pending w ≤ levels → Covered w lookahead levels
  /-- The level of the header on top has been closed by a block that recovery has dropped. -/
  | rest {below : List Symbol} {s : LR.Symbol Token Value} : w = .block_header :: below →
    below.head?.any Perl.belowHeader.contains = true → lookahead = some s → s.kind = "error" →
    1 + scope.pending below ≤ levels → Covered w lookahead levels

section Reduce

variable {e : Effect} {name : Symbol} {right base : List Symbol} {before after : Context}

theorem pendingUnder_closed_header (below : List Symbol) :
    scope.pendingUnder true (.block_header :: below) = scope.pending below := by
  rw [Perl.Bracket.pendingUnder, Bool.not_true, Bool.and_false, if_neg Bool.false_ne_true,
    Nat.zero_add]
  rfl

/-- The level of a header counts unless a block above it has closed it. -/
theorem pendingUnder_of_header (header : base.head? = some .block_header) :
    scope.pendingUnder false base = 1 + scope.pendingUnder true base := by
  obtain ⟨below, rfl⟩ := List.head?_eq_some_iff.1 header
  rw [pendingUnder_closed_header]
  rfl

/-- Where the levels that a word has opened are open, a reduction finds those it needs, and leaves
those of the new word open. -/
theorem levelsFit_spec (fits : levelsFit e name right = true)
    (header : scope.closes name = true → base.head? = some .block_header)
    (enough : 1 + scope.pending (right.reverse ++ base) ≤ before.declared) :
    e.needs ≤ before.declared ∧ 1 + scope.pending (name :: base) ≤ (e.apply before).declared := by
  rw [Perl.Bracket.pending_reverse_append] at enough
  rw [Perl.Bracket.pending_cons]
  cases e with
  | opensLevel =>
    simp only [levelsFit, Bool.and_eq_true, beq_iff_eq, Bool.not_eq_true'] at fits
    obtain ⟨⟨⟨none, opens⟩, keeps⟩, open_⟩ := fits
    simp only [open_] at enough
    simp only [opens, keeps, Effect.needs, Effect.apply, if_true]
    omega
  | closesLevel | mayCloseLevel | endsJob =>
    simp only [levelsFit, Bool.and_eq_true, Bool.or_eq_true, decide_eq_true_eq,
      Bool.not_eq_true'] at fits
    obtain ⟨⟨opensNot, open_⟩, closes⟩ := fits
    simp only [open_] at enough
    simp only [opensNot, Effect.needs, Effect.apply, Bool.false_eq_true, if_false]
    cases below : scope.closes name with
    | true =>
      have counted := pendingUnder_of_header (header below)
      omega
    | false =>
      have opened : 1 ≤ scope.pending right.reverse := by simpa [below] using closes
      omega
  | _ =>
    simp only [levelsFit, Bool.and_eq_true, beq_iff_eq, Bool.not_eq_true'] at fits
    obtain ⟨opensNot, same⟩ := fits
    simp only [opensNot, same, Effect.needs, Effect.apply, Bool.false_eq_true, if_false]
    omega

end Reduce

section Moves

variable {p : Parser} {leads : List Symbol → Nat → Prop}
variable {w : List Symbol} {c c' : LR.Config Token Value} {move : LR.Move Token Value}

variable {levels : Nat} {lookahead : Option (LR.Symbol Token Value)} {i : LR.Item}

theorem Covered.fetched (covered : Covered w c.lookahead levels)
    (fetched : Fetched c c') : Covered w c'.lookahead levels := by
  cases covered with
  | all enough => exact .all enough
  | rest word below lookahead isError enough =>
    exact .rest word below (fetched.lookahead lookahead) isError enough

theorem header_below {n : Nat} {rule : Symbol × List Symbol} (valid : Valid rules w ⟨n, 0⟩)
    (found : rules[n]? = some rule) (closes : scope.closes rule.1 = true) :
    w.head? = some .block_header := by
  obtain ⟨y, member, top⟩ := Perl.head_below_name valid found (eq_of_beq closes)
  rwa [List.mem_singleton.1 member] at top

/-- Nothing can be reduced while recovery still has to drop a header. -/
theorem Covered.all_of_complete (covered : Covered w lookahead levels) (valid : Valid rules w i)
    (complete : i.nextIn rules = none) : 1 + scope.pending w ≤ levels := by
  cases covered with
  | all enough => exact enough
  | rest word below =>
    subst word
    obtain ⟨x, -, next⟩ := Perl.next_after_header valid below
    rw [complete] at next
    cases next

theorem needs_le {s : State} (chosen : Chosen leads w c move) (balanced : s.context.Balanced)
    (covered : Covered w c.lookahead s.context.declared) :
    (moveEffect move).needs ≤ s.context.declared := by
  cases chosen with
  | reduce valid complete =>
    have enough := covered.all_of_complete valid complete
    obtain ⟨rule, base, found, rfl, first⟩ := exists_rule valid complete
    rw [moveEffect, effectOf]
    cases acts : actionTable.getD _ none with
    | none => exact balanced.open_
    | some action =>
      exact (levelsFit_spec (check_action all_levelsFit found acts) (header_below first found)
        enough).1
  | _ => exact balanced.open_

/-- Nothing can be shifted while recovery still has to drop a header. -/
theorem Covered.all_of_next {next : LR.Symbol Token Value} (covered : Covered w lookahead levels)
    (comes : lookahead = some next) {x : Symbol} (kind : next.kind = x.text)
    (valid : Valid rules w i) (asked : i.nextIn rules = some x) : 1 + scope.pending w ≤ levels := by
  cases covered with
  | all enough => exact enough
  | rest word below same isError =>
    subst word
    obtain rfl := Option.some.inj (comes.symm.trans same)
    obtain rfl : x = .error := Perl.Symbol.text_injective _ _ (kind.symm.trans isError)
    obtain ⟨y, after, next⟩ := Perl.next_after_header valid below
    obtain rfl := Option.some.inj (asked.symm.trans next)
    exact absurd after (by decide)

/-- When recovery drops the top, enough levels are open for the rest or for what is below it. -/
theorem Covered.drop {next : LR.Symbol Token Value} {x : Symbol}
    (covered : Covered (x :: w) lookahead levels) (valid : Valid rules w i)
    (asked : i.nextIn rules = some x) (isError : next.kind = "error") :
    Covered w (some next) levels := by
  cases covered with
  | rest word below _ _ enough =>
    obtain ⟨-, rfl⟩ := List.cons.inj word
    exact .all enough
  | all enough =>
    rw [Perl.Bracket.pending_cons] at enough
    cases closes : scope.closes x with
    | false =>
      rw [closes] at enough
      exact .all (by rw [Perl.Bracket.pending]; omega)
    | true =>
      obtain ⟨y, member, top⟩ := Perl.head_below valid asked (eq_of_beq closes)
      rw [List.mem_singleton.1 member] at top
      obtain ⟨below, rfl⟩ := List.head?_eq_some_iff.1 top
      refine .rest rfl (Perl.head_below_header valid asked closes) rfl isError ?_
      rw [closes, pendingUnder_closed_header] at enough
      omega

/-- A move leaves enough levels open. -/
theorem Covered.perform {before after : Context}
    (drives : p.Drives leads)
    (tracks : Tracks leads w c.frames) (chosen : Chosen leads w c move)
    (covered : Covered w c.lookahead before.declared) {w' : List Symbol}
    (performed : Performed w c move w' c') (tracks' : Tracks leads w' c'.frames)
    (allows : (moveEffect move).Allows before after) (balanced : after.Balanced) :
    Covered w' c'.lookahead after.declared := by
  cases performed with
  | @shift x _ _ _ lookahead kind terminal =>
    have same := allows.of_plain.declared
    obtain ⟨frame, rest, -, led⟩ := tracks'.top
    obtain ⟨_, valid⟩ := drives.nonempty led
    obtain ⟨i, valid, asked⟩ := valid.exists_next
    have enough := covered.all_of_next lookahead kind valid asked
    have opensNot : scope.opens x = false := by
      simpa [scope] using Perl.not_mem_of_terminal Perl.headers_named terminal
    have counted := scope.pendingUnder_le (scope.closes x) w
    refine .all ?_
    rw [Perl.Bracket.pending_cons, opensNot, same]
    simp only [Bool.false_eq_true, if_false]
    omega
  | reduce valid complete found acts word first =>
    have enough := covered.all_of_complete valid complete
    rw [word] at enough
    have kept := (levelsFit_spec (check_action all_levelsFit found acts)
      (header_below first found) enough).2
    rw [moveEffect, effectOf_eq acts] at allows
    obtain done | ⟨may, -, unchanged⟩ := allows
    · exact .all (by rwa [done.declared])
    · rw [Effect.declared_apply_of_mayStay may] at kept
      exact .all (by rw [unchanged.declared]; omega)
  | restart => exact .all balanced.open_
  | keep noError =>
    rw [allows.of_plain.declared]
    cases chosen with
    | fail comes =>
      cases covered with
      | all enough => exact .all enough
      | rest _ _ same isError =>
        obtain rfl := Option.some.inj (comes.symm.trans same)
        exact absurd isError noError
  | drop word isError lookahead =>
    subst word
    obtain ⟨frame, rest, -, led⟩ := tracks.top
    obtain ⟨_, valid⟩ := drives.nonempty led
    obtain ⟨i, valid, asked⟩ := valid.exists_next
    rw [allows.of_plain.declared, lookahead]
    exact covered.drop valid asked isError

/-- The levels at a moment with a word on the stack: as many declare as assign, and enough are open
for the word. -/
structure LeveledAt (leads : List Symbol → Nat → Prop) (w : List Symbol) (m : Moment) : Prop where
  tracks : Tracks leads w m.config.frames
  balanced : m.state.context.Balanced
  covered : Covered w m.config.lookahead m.state.context.declared

def Leveled (leads : List Symbol → Nat → Prop) (m : Moment) : Prop :=
  ∃ w, LeveledAt leads w m

section Step

variable {tracing : Option Tracing} {m : Moment} {s s' : State}

theorem LeveledAt.choose (drives : p.Drives leads)
    (leveled : LeveledAt leads w m)
    (run : (host tracing).choose p.table p.defaults m.config m.state = .ok (move, c) s) :
    Tracks leads w c.frames ∧ Chosen leads w c move ∧ s.context.Balanced
      ∧ Covered w c.lookahead s.context.declared
      ∧ (moveEffect move).needs ≤ s.context.declared := by
  have follows := Does.follows leveled.balanced run
  obtain ⟨fetched, chosen⟩ := choose_ok drives leveled.tracks run
  have balanced := leveled.balanced.of_follows follows
  have covered : Covered w c.lookahead s.context.declared := by
    rw [follows.declared]
    exact leveled.covered.fetched fetched
  exact ⟨fetched.frames ▸ leveled.tracks, chosen, balanced, covered,
    needs_le chosen balanced covered⟩

/-- A move keeps the levels, and changes the context by its effect. -/
theorem LeveledAt.perform (drives : p.Drives leads)
    (leveled : LeveledAt leads w m)
    (chosen : (host tracing).choose p.table p.defaults m.config m.state = .ok (move, c) s)
    (performed : (host tracing).perform p.table c move s = .ok (.running c') s') :
    ∃ w', Performed w c move w' c' ∧ (moveEffect move).Allows s.context s'.context
      ∧ LeveledAt leads w' (m.after c' s' move) := by
  obtain ⟨tracks, chosen, balanced, covered, enough⟩ := leveled.choose drives chosen
  have allows := Does.ok balanced enough performed
  obtain ⟨w', performed, tracks'⟩ := perform_running drives tracks chosen performed
  have balanced := allows.reaches.balanced balanced enough
  exact ⟨w', performed, allows, tracks', balanced,
    covered.perform drives tracks chosen performed tracks' allows balanced⟩

theorem Leveled.step (drives : p.Drives leads) {next : Moment}
    (leveled : Leveled leads m) (moves : Moves tracing p m next) : Leveled leads next := by
  obtain ⟨w, leveled⟩ := leveled
  obtain ⟨move, c, s, c', s', chosen, performed, rfl⟩ := moves
  obtain ⟨w', -, -, leveled⟩ := leveled.perform drives chosen performed
  exact ⟨w', leveled⟩

/-- Work has ended with its levels in balance, and not because one was missing. -/
def EndsBalanced {α : Type} : EStateM.Result Stop State α → Prop
  | .ok _ s => s.context.Balanced
  | .error stop s => stop ≠ .noLevel ∧ s.context.Balanced

theorem EndsBalanced.classResult {result : EStateM.Result Stop State (Option Value)}
    (ends : EndsBalanced result) : EndsBalanced (classResult result) := by
  cases result <;> exact ends

/-- The end keeps the levels in balance, and takes no error back. -/
theorem LeveledAt.ended (drives : p.Drives leads)
    (leveled : LeveledAt leads w m) {result : EStateM.Result Stop State (Option Value)}
    (ended : Ended tracing p m result) : EndsBalanced result
      ∧ (m.state.codeError = true → (endState result).codeError = true) := by
  cases ended with
  | exhausted => exact ⟨⟨Stop.noConfusion, leveled.balanced⟩, id⟩
  | stopped run =>
    obtain ⟨noLevel, follows⟩ := Does.error_follows leveled.balanced run
    exact ⟨⟨noLevel, leveled.balanced.of_follows follows⟩, follows.failed⟩
  | stoppedIn chosen run =>
    have follows := Does.follows leveled.balanced chosen
    obtain ⟨-, -, balanced, -, enough⟩ := leveled.choose drives chosen
    obtain ⟨noLevel, reaches⟩ := Does.error balanced enough run
    exact ⟨⟨noLevel, reaches.balanced balanced enough⟩, reaches.failed ∘ follows.failed⟩
  | done chosen run =>
    have follows := Does.follows leveled.balanced chosen
    obtain ⟨-, -, balanced, -, enough⟩ := leveled.choose drives chosen
    have reaches := (Does.ok balanced enough run).reaches
    exact ⟨reaches.balanced balanced enough, reaches.failed ∘ follows.failed⟩

theorem LeveledAt.fine_of_ended (drives : p.Drives leads)
    (leveled : LeveledAt leads w m) {result : EStateM.Result Stop State (Option Value)}
    (ended : Ended tracing p m result) (fine : (endState result).codeError = false) :
    m.state.codeError = false :=
  Bool.eq_false_iff.2 fun failed => Bool.eq_false_iff.1 fine ((leveled.ended drives ended).2 failed)

end Step

end Moves

theorem balanced_ofFile (session : Session) (options : Options) (name : String) :
    (State.ofFile session options name).context.Balanced :=
  ⟨rfl, Nat.le_refl 1⟩

/-- In the compilation of any text, whatever its errors and however it ends, as many levels declare
variables as assign names at every moment, at least one is open, and no action misses a level. -/
theorem scope_levels_balanced (p : Parser) (session : Session) (options : Options)
    (name text : String) (limit : Nat) :
    let start := State.ofFile session options name
    (history p text limit start).Always (·.state.context.Balanced)
      ∧ EndsBalanced (history p text limit start).result
      ∧ (history p text (moveLimit text) start).result = compile p text start := by
  intro start
  obtain ⟨leads, drives⟩ := Perl.drives p
  refine and_assoc.1 ⟨?_, history_result p text _ start⟩
  have balanced : start.context.Balanced := balanced_ofFile session options name
  rw [history]
  cases prepared : prepare start.options.tracing text start with
  | error stop s =>
    refine ⟨by simp [History.Always], ?_⟩
    exact (Does.error_follows balanced prepared).imp_right balanced.of_follows
  | ok _ s =>
    have balanced := balanced.of_follows (Does.follows balanced prepared)
    have leveled : Leveled leads { state := s } :=
      ⟨[], .bottom rfl drives.start, balanced, .all balanced.open_⟩
    have always : (runHistory start.options.tracing p limit { state := s }).Always
        (Leveled leads) :=
      runHistory_always (fun leveled => leveled.step drives) limit leveled
    constructor
    · intro m member
      obtain ⟨w, leveled⟩ := always m member
      exact leveled.balanced
    · obtain ⟨last, found, ended⟩ := runHistory_ended limit { state := s }
      obtain ⟨w, leveled⟩ := always last (List.mem_of_getLast? found)
      exact (leveled.ended drives ended).1.classResult

end PerlJava.Compile
