import PerlJava.Proofs.Compile.Lockstep
import PerlJava.Proofs.Perl.CommentFree

/-!
# Compiling with and without comments

Whether comments are to be kept makes no difference: the reader never keeps any, so the tokens are the
same, and everything that is made of them. No comment comes into the hands of the parser.
-/

namespace PerlJava.Compile

open Perl (Symbol rules isComment)

def Backdrop.heeding (keep : Bool) (b : Backdrop) : Backdrop :=
  { b with readComments := keep }

def State.heeding (keep : Bool) (s : State) : State :=
  { s with options := { s.options with readComments := keep } }

/-- The next tokens for the grammar, so many as are asked for. -/
def readTokens : Nat → M (List (Option Token))
  | 0 => return []
  | n + 1 => do
    let token ← nextToken
    return token :: (← readTokens n)

def tokensOf (text : String) (n : Nat) : M (List (Option Token)) := do
  startReading text
  readTokens n

theorem Detached.reader {α : Type} {x : M α} (detached : Detached x) {s s' : State} {a : α}
    (run : x s = .ok a s') : s'.reader = s.reader := by
  have kept := detached.backdrop s
  rw [run] at kept
  exact congrArg Backdrop.reader kept

/-! ### Reading -/

section Reading

variable {s s' : State} {token : Option Token}

theorem addsCode_readingRules (s : State) : Perl.Reader.AddsCode s.readingRules := by
  intro tokens out free put
  unfold State.readingRules at put
  dsimp only at put
  split at put
  · exact Perl.Parens.allReadable_insert free put
  · cases put
    exact free

theorem nextToken_ok (clear : s.reader.Clear) (run : nextToken s = .ok token s') :
    s'.reader.Clear ∧ ∀ t, token = some t → Perl.Readable t := by
  obtain ⟨reading, s₁, advanced, run⟩ := M.cut run
  obtain ⟨_, s₂, told, ⟨⟩⟩ := M.cut run
  unfold advance at advanced
  split at advanced
  · cases advanced
  · next reading' found =>
    cases advanced
    have read := clear.next (addsCode_readingRules s) found
    have kept := (tell reading.notices reading.token).plain.detached.reader told
    exact ⟨kept ▸ read.reader, read.token⟩

/-- The next token does not depend on whether comments are to be kept. -/
theorem nextToken_heeding (keep : Bool) (clear : s.reader.Clear) :
    nextToken (s.reframed (Backdrop.heeding keep))
      = mapState (·.reframed (Backdrop.heeding keep)) (nextToken s) :=
  nextToken_reframed (fun _ => rfl) (clear.next_eq keep s.options.readComments)

theorem clear_startReading {text : String} {u : Unit} (run : startReading text s = .ok u s') :
    s'.reader.Clear := by
  obtain ⟨_, s₁, ⟨⟩, told⟩ := M.cut run
  rw [(reportNotices _).plain.detached.reader told]
  exact Perl.Reader.clear_ofText text

theorem readTokens_heeding (keep : Bool) (n : Nat) (clear : s.reader.Clear) :
    readTokens n (s.reframed (Backdrop.heeding keep))
      = mapState (·.reframed (Backdrop.heeding keep)) (readTokens n s) := by
  induction n generalizing s with
  | zero => rfl
  | succ n ih =>
    refine M.bind_mapState (nextToken_heeding keep clear) fun {token s₁} run => ?_
    exact M.bind_mapState (ih (nextToken_ok clear run).1) fun _ => rfl

theorem tokensOf_heeding (text : String) (n : Nat) (keep : Bool) (s : State) :
    tokensOf text n (s.reframed (Backdrop.heeding keep))
      = mapState (·.reframed (Backdrop.heeding keep)) (tokensOf text n s) := by
  refine M.bind_mapState ?_ fun started => readTokens_heeding keep n (clear_startReading started)
  refine M.bind_mapState rfl fun {_ s₁} _ => ?_
  exact (reportNotices _).plain.detached.reframed (Backdrop.heeding keep) s₁

theorem readTokens_ok {n : Nat} {tokens : List (Option Token)} (clear : s.reader.Clear)
    (run : readTokens n s = .ok tokens s') {t : Token} (member : some t ∈ tokens) :
    isComment t.kind = false := by
  induction n generalizing s tokens with
  | zero =>
    cases run
    exact absurd member List.not_mem_nil
  | succ n ih =>
    obtain ⟨token, s₁, first, run⟩ := M.cut run
    obtain ⟨more, s₂, rest, ⟨⟩⟩ := M.cut run
    obtain ⟨clear, noComment⟩ := nextToken_ok clear first
    obtain here | later := List.mem_cons.1 member
    · exact (noComment t here.symm).noComment
    · exact ih clear rest later

end Reading

/-! ### Moves -/

/-- No comment is in the hands of the parser. -/
structure Uncommented (c : LR.Config Token Value) : Prop where
  frames : ∀ frame ∈ c.frames, isComment frame.symbol.kind = false
  lookahead : ∀ next, c.lookahead = some next → isComment next.kind = false
  pushed : ∀ next, some next ∈ c.pushed → isComment next.kind = false

theorem isComment_rule {n : Nat} {rule : Symbol × List Symbol} (found : rules[n]? = some rule) :
    isComment rule.1.text = false := by
  have names : Perl.ruleList.all (fun rule => !isComment rule.1.text) = true := by
    decide +kernel
  simpa using @Perl.check_rule (fun name _ => !isComment name.text) names n rule found

theorem isComment_startFrames {frame : LR.Frame Token Value} (member : frame ∈ LR.startFrames) :
    isComment frame.symbol.kind = false := by
  obtain rfl := List.mem_singleton.1 member
  rfl

section Moves

variable {p : Parser} {leads : List Symbol → Nat → Prop} {tracing : Option Tracing}
variable {c c' : LR.Config Token Value} {s s' : State} {w : List Symbol}

section

variable (uncommented : Uncommented c)

include uncommented

theorem Uncommented.fetch {next : LR.Symbol Token Value}
    (clear : s.reader.Clear) (run : (host tracing).fetch c s = .ok (next, c') s') :
    Uncommented c' ∧ s'.reader.Clear := by
  obtain ⟨ofFrames, ofLookahead, ofPushed⟩ := uncommented
  unfold LR.Host.fetch at run
  cases found : c.lookahead with
  | some next =>
    simp only [found] at run
    cases run
    exact ⟨⟨ofFrames, ofLookahead, ofPushed⟩, clear⟩
  | none =>
    cases waiting : c.pushed with
    | cons first rest =>
      simp only [found, waiting] at run
      cases run
      rw [waiting] at ofPushed
      refine ⟨⟨ofFrames, ?_, fun next member => ?_⟩, clear⟩
      · rintro next ⟨⟩
        cases first with
        | none => rfl
        | some next => exact ofPushed next List.mem_cons_self
      · exact ofPushed next (List.mem_cons_of_mem _ member)
    | nil =>
      simp only [found, waiting] at run
      obtain ⟨token, s₁, read, ⟨⟩⟩ := M.cut run
      obtain ⟨clear, noComment⟩ := nextToken_ok clear read
      refine ⟨⟨ofFrames, ?_, by simp⟩, clear⟩
      rintro next ⟨⟩
      cases token with
      | none => rfl
      | some t => exact (noComment t rfl).noComment

theorem Uncommented.choose {move : LR.Move Token Value} (clear : s.reader.Clear)
    (run : (host tracing).choose p.table p.defaults c s = .ok (move, c') s') :
    Uncommented c' ∧ s'.reader.Clear := by
  obtain ⟨_, _, s₁, -, before, ⟨_, -, -, rfl, after⟩ | ⟨next, s₂, fetched, -, after⟩⟩ :=
    choose_cases run
  · exact ⟨uncommented, by rwa [after.reader, before.reader]⟩
  · obtain ⟨uncommented, clear⟩ := uncommented.fetch (before.reader ▸ clear) fetched
    exact ⟨uncommented, by rwa [after.reader]⟩

/-- Recovery adds nothing but `error` symbols. -/
theorem Uncommented.recover {next : LR.Symbol Token Value} (noComment : isComment next.kind = false)
    (run : (host tracing).recover c next s = .ok (.running c') s') :
    Uncommented c' ∧ s'.reader = s.reader := by
  obtain ⟨run, same⟩ := ofExcept_eq_ok.1 run
  refine ⟨?_, same ▸ rfl⟩
  obtain ⟨ofFrames, ofLookahead, ofPushed⟩ := uncommented
  unfold LR.Host.recovered at run
  split at run
  · cases run
  · split at run
    · cases run
      exact ⟨fun _ => isComment_startFrames, by simp, by simp⟩
    · split at run
      · cases run
      · next top rest frames =>
        rw [frames] at ofFrames
        split at run
        · obtain ⟨_, ⟨⟩, ⟨⟩⟩ := bind_eq_ok.1 run
          refine ⟨fun frame member => ofFrames frame (List.mem_cons_of_mem _ member), ?_, ofPushed⟩
          rintro next ⟨⟩
          exact noComment
        · split at run
          · obtain ⟨_, ⟨⟩, ⟨⟩⟩ := bind_eq_ok.1 run
            exact ⟨ofFrames, by simp, ofPushed⟩
          · cases run
            refine ⟨frames ▸ ofFrames, ?_, fun next member => ?_⟩
            · rintro next ⟨⟩
              rfl
            · obtain ⟨⟨⟩⟩ | old := List.mem_cons.1 member
              · exact noComment
              · exact ofPushed next old

theorem Uncommented.fail {next : LR.Symbol Token Value} (noComment : isComment next.kind = false)
    (run : (host tracing).fail c next s = .ok (.running c') s') :
    Uncommented c' ∧ s'.reader = s.reader := by
  rw [fail_eq] at run
  obtain ⟨_, s₁, logged, run⟩ := M.cut run
  have silent (n : Nat) (ok : Bool) : Uncommented { c with errorCount := n, errorOk := ok } :=
    ⟨uncommented.frames, uncommented.lookahead, uncommented.pushed⟩
  rw [← (traces_log logged).reader]
  split at run
  · obtain ⟨_, s₂, reported, run⟩ := M.cut run
    rw [← (reportSyntaxError _).plain.detached.reader reported]
    exact (silent _ _).recover noComment run
  · exact (silent _ _).recover noComment run

end

theorem Uncommented.doReduce (uncommented : Uncommented c) {production : Nat}
    {rule : Symbol × List Symbol} (found : rules[production]? = some rule)
    (drives : p.Drives leads)
    (run : (host tracing).doReduce p.table c production s = .ok (.running c') s') :
    Uncommented c' ∧ s'.reader = s.reader := by
  obtain ⟨action, _, _, v, -, started, acted, finished⟩ := doReduce_parts run
  obtain ⟨after, target, -, ⟨⟩⟩ := afterAction_ok finished
  constructor
  · refine ⟨fun frame member => ?_, uncommented.lookahead, uncommented.pushed⟩
    obtain rfl | below := List.mem_cons.1 member
    · rw [drives.name found]
      exact isComment_rule found
    · exact uncommented.frames frame (List.mem_of_mem_drop below)
  · rw [after.reader, (action.does _).detached.reader acted, (traces_beforeAction started).reader]

theorem Uncommented.perform (uncommented : Uncommented c) {move : LR.Move Token Value}
    (drives : p.Drives leads) (chosen : Chosen leads w c move)
    (run : (host tracing).perform p.table c move s = .ok (.running c') s') :
    Uncommented c' ∧ s'.reader = s.reader := by
  cases chosen with
  | shift lookahead =>
    obtain ⟨_, _, logged, ⟨⟩⟩ := M.cut run
    refine ⟨⟨fun frame member => ?_, by simp, uncommented.pushed⟩, (traces_log logged).reader⟩
    obtain rfl | below := List.mem_cons.1 member
    · exact uncommented.lookahead _ lookahead
    · exact uncommented.frames frame below
  | reduce valid complete =>
    obtain ⟨rule, base, found, -⟩ := exists_rule valid complete
    exact uncommented.doReduce found drives run
  | accept =>
    obtain ⟨_, _, -, run⟩ := M.cut run
    obtain ⟨_, _, -, ⟨⟩⟩ := M.cut run
  | fail lookahead => exact uncommented.fail (uncommented.lookahead _ lookahead) run

end Moves

/-- A moment at which no comment is in the hands of the parser or in those of the reader. -/
structure CommentFree (leads : List Symbol → Nat → Prop) (m : Moment) : Prop where
  tracked : ∃ w, Tracks leads w m.config.frames
  uncommented : Uncommented m.config
  clear : m.state.reader.Clear

/-- No move brings a comment into play. -/
theorem CommentFree.step {p : Parser} {leads : List Symbol → Nat → Prop}
    (drives : p.Drives leads) {tracing : Option Tracing}
    {m next : Moment} (free : CommentFree leads m) (moves : Moves tracing p m next) :
    CommentFree leads next := by
  have tracked := tracks_step drives free.tracked moves
  obtain ⟨w, tracks⟩ := free.tracked
  obtain ⟨move, c, s, c', s', chosen, performed, rfl⟩ := moves
  obtain ⟨uncommented, clear⟩ := free.uncommented.choose free.clear chosen
  have choice := (choose_ok drives tracks chosen).2
  obtain ⟨uncommented, kept⟩ := uncommented.perform drives choice performed
  exact ⟨tracked, uncommented, kept ▸ clear⟩

theorem CommentFree.start {p : Parser} {leads : List Symbol → Nat → Prop}
    (drives : p.Drives leads) {tracing : Option Tracing}
    {text : String} {s s' : State} {u : Unit} (prepared : prepare tracing text s = .ok u s') :
    CommentFree leads { state := s' } := by
  obtain ⟨_, s₁, -, started⟩ := M.cut prepared
  exact ⟨⟨[], .bottom rfl drives.start⟩, ⟨fun _ => isComment_startFrames, by simp [LR.start],
    by simp [LR.start]⟩, clear_startReading started⟩

theorem mirror_heeding (tracing : Option Tracing) (keep : Bool) :
    Mirror tracing tracing (Backdrop.heeding keep) where
  traces := .inl rfl
  log level text s := by cases tracing <;> rfl
  open_ _ _ _ := rfl

/-- The history of a compilation is the same, whether comments are to be kept or not. -/
theorem history_heeding (p : Parser) (text : String) (limit : Nat) (keep : Bool) (s : State) :
    history p text limit (s.heeding keep) = (history p text limit s).map (·.heeding keep) := by
  obtain ⟨leads, drives⟩ := Perl.drives p
  refine (mirror_heeding s.options.tracing keep).history (CommentFree leads)
    (fun free moves => free.step drives moves) (fun {m} free s same => ?_) text limit rfl rfl
    (.start drives)
  exact nextToken_heeding keep (same ▸ free.clear)

/-- Whether comments are to be kept makes no difference: the same tokens are read from a text, and its
compilation goes through the same moments and ends in the same way, with the same class or the same
fault, and with the same state, in which the same has been printed. For every comment that the scanner
comes to is given as a line end; none is ever read as a token, and none is in the hands of the parser
at any moment. -/
theorem comments_make_no_difference (p : Parser) (session : Session) (options : Options)
    (name text : String) (keep : Bool) :
    let start := State.ofFile session options name
    let other := State.ofFile session { options with readComments := keep } name
    (∀ n, tokensOf text n other = mapState (·.heeding keep) (tokensOf text n start))
      ∧ (∀ limit, history p text limit other = (history p text limit start).map (·.heeding keep))
      ∧ compile p text other = mapState (·.heeding keep) (compile p text start)
      ∧ (∀ asked asName t, (((Perl.Scanner.ofText text).after asked).next asName).token = some t →
        t.kind = "COMMENT" → t.value = "\n")
      ∧ (∀ n tokens s, tokensOf text n start = .ok tokens s →
        ∀ t, some t ∈ tokens → isComment t.kind = false)
      ∧ ∀ limit, (history p text limit start).Always fun m => Uncommented m.config
        ∧ ∀ t s, nextToken m.state = .ok (some t) s → isComment t.kind = false := by
  intro start other
  have same : start.heeding keep = other := rfl
  refine ⟨fun n => ?_, fun limit => same ▸ history_heeding p text limit keep start, ?_,
    fun asked asName t => Perl.Scanner.comment_value, fun n tokens s run t member => ?_,
    fun limit m member => ?_⟩
  · exact tokensOf_heeding text n keep start
  · rw [compile, ← history_result, ← history_result, ← same, history_heeding]
    rfl
  · obtain ⟨_, s₁, started, run⟩ := M.cut run
    exact readTokens_ok (clear_startReading started) run member
  · obtain ⟨leads, drives⟩ := Perl.drives p
    have free : CommentFree leads m :=
      history_always (fun free moves => free.step drives moves) (.start drives) limit m member
    refine ⟨free.uncommented, fun t s run => ?_⟩
    exact ((nextToken_ok free.clear run).2 t rfl).noComment

end PerlJava.Compile
