import PerlJava.LR.Table

/-!
# The LR machine

`step` makes one move: it shifts, reduces, accepts or deals with an error. After an error the
machine puts an `error` symbol in front of the token it met, drops symbols until some state can
shift that, and is silent about further errors until three symbols have been shifted.

The machine works for any kind of tokens and values. What it needs from outside, the next token,
the value of a reduction, what to do about a syntax error, is in a `Host`.
-/

namespace PerlJava.LR

/-- Where a symbol starts and ends, as far as that is known. -/
structure Span where
  line : Option Nat := none
  offset : Option Nat := none
  endLine : Option Nat := none
  endOffset : Option Nat := none
deriving Repr, DecidableEq, Inhabited

/-- A symbol on the stack, or the one that comes next. -/
structure Symbol (τ α : Type) where
  kind : String
  value : Option α := none
  /-- The token that the symbol is, if it is one. -/
  token : Option τ := none
  span : Span := {}
deriving Inhabited

/-- What a reduction is made from: its symbol, those it is made of, and the stack below them, top
first. -/
structure Reduction (τ α : Type) where
  production : Nat
  symbol : Symbol τ α
  children : List (Symbol τ α)
  below : List (Symbol τ α)

/-- What becomes of a reduction. -/
inductive Reduced (α : Type) where
  /-- A value, and a line for the symbol if it is changed. -/
  | value (a : α) (line : Option Nat)
  /-- A syntax error after all. -/
  | refused

/-- What is done about a syntax error. -/
inductive Recovery (τ : Type) where
  /-- The machine recovers by itself. -/
  | machine
  /-- All is well again, and this token comes next. -/
  | resume (next : Option τ)
  /-- The stack is emptied. -/
  | restart

/-- How much a line of a trace matters. -/
inductive Level where
  | debug
  | info
  | error
deriving Repr, DecidableEq

/-- What is said about syntax errors: by a function of the host, or on standard error. -/
inductive Complaint (m : Type → Type) (τ : Type) where
  | function (f : Option τ → m (Recovery τ))
  | standard (write : String → m Unit)

/-- What the machine needs from outside. -/
structure Host (m : Type → Type) (τ α : Type) where
  /-- The next token. -/
  next : m (Option τ)
  kind : τ → String
  span : τ → Span
  /-- The value of a token that is shifted. -/
  value : τ → α
  /-- A token as the value of an `error` symbol. -/
  whole : τ → α
  /-- The value of a reduction. -/
  reduce : Reduction τ α → m (Reduced α)
  complain : Complaint m τ
  /-- Whether symbols get a span. -/
  tracking : Bool := false
  /-- The line and offset of the scanner, for symbols made of nothing. -/
  place : m (Nat × Nat)
  /-- Writes a line of the trace, if one is written. -/
  trace : Option (Level → String → m Unit) := none
  /-- A token in a trace. -/
  showToken : τ → String
  /-- A value on the stack, in a trace. -/
  showEntry : Option α → String
  /-- The value of a reduction, in a trace. -/
  showResult : Option α → String

/-- A state with the symbol it was entered by. -/
structure Frame (τ α : Type) where
  state : Nat
  symbol : Symbol τ α
deriving Inhabited

/-- A configuration of the machine. -/
structure Config (τ α : Type) where
  /-- The stack, top first. -/
  frames : List (Frame τ α)
  lookahead : Option (Symbol τ α) := none
  /-- Symbols that come before the next token; nothing stands for the end. -/
  pushed : List (Option (Symbol τ α)) := []
  /-- How many symbols have to be shifted before errors are reported again. -/
  errorCount : Nat := 0
  errorOk : Bool := true

/-- Where a move leads. -/
inductive Outcome (τ α : Type) where
  | running (c : Config τ α)
  | done (result : Option α)

/-- What the machine does next. -/
inductive Move (τ α : Type) where
  | shift (state : Nat) (s : Symbol τ α)
  | reduce (production : Nat)
  | accept
  | fail (s : Symbol τ α)

def recoveryLength : Nat := 3

def endSymbol {τ α : Type} : Symbol τ α :=
  { kind := "$end" }

def startFrames {τ α : Type} : List (Frame τ α) :=
  [⟨0, endSymbol⟩]

def start {τ α : Type} : Config τ α :=
  { frames := startFrames }

def known (part : Option Nat) : Except Fault Nat :=
  part.elim (.error .noMember) .ok

def joinSpans (first last : Span) : Except Fault Span := do
  let endLine ← known last.line
  let endOffset ← known last.offset
  return {
    line := some (← known first.line)
    offset := some (← known first.offset)
    endLine := some (last.endLine.getD endLine)
    endOffset := some (last.endOffset.getD endOffset) }

def Table.moveOn {τ α : Type} (table : Table) (state : Nat) (s : Symbol τ α) : Move τ α :=
  match table.action? state s.kind with
  | some (.shift state) => .shift state s
  | some (.reduce production) => .reduce production
  | some .accept => .accept
  | none => .fail s

/-- Where a reduction leads: its symbol goes onto the stack that is left. If it is refused, its symbol
becomes an `error` that comes next, and the symbol below it is dropped. -/
def Table.afterReduction {τ α : Type} (table : Table) (c : Config τ α) (symbol : Symbol τ α)
    (frames : List (Frame τ α)) : Reduced α → Except Fault (Outcome τ α)
  | .value a line => do
    let state := (frames.head?.map (·.state)).getD 0
    let span := match line with
      | some n => { symbol.span with line := some n }
      | none => symbol.span
    let target ← table.goto state symbol.kind
    return .running { c with frames := ⟨target, { symbol with value := some a, span }⟩ :: frames }
  | .refused =>
    match frames.drop 1 with
    | [] => .error .outOfRange
    | frames =>
      .ok (.running { c with
        frames
        pushed := c.lookahead :: c.pushed
        lookahead := some { symbol with kind := "error" }
        errorCount := recoveryLength
        errorOk := false })

def Symbol.takeIn {τ α : Type} (top s : Symbol τ α) : Except Fault (Symbol τ α) := do
  let line := s.span.line.getD (← known top.span.line)
  let offset := s.span.offset.getD (← known top.span.offset)
  return { top with span := { top.span with endLine := some line, endOffset := some offset } }

/-- Lets an `error` symbol that comes next start where the top of the stack does. -/
def Symbol.startAt {τ α : Type} (s top : Symbol τ α) : Except Fault (Symbol τ α) := do
  let line ← known top.span.line
  let offset ← known top.span.offset
  return { s with span := { s.span with line := some line, offset := some offset } }

section

variable {m : Type → Type} [Monad m] [MonadExcept Fault m] {τ α : Type} (host : Host m τ α)

def Host.log (level : Level) (text : Unit → String) : m Unit :=
  match host.trace with
  | some write => write level (text ())
  | none => pure ()

def Host.symbol (t : τ) : Symbol τ α :=
  { kind := host.kind t, value := some (host.value t), token := some t, span := host.span t }

def Host.showSymbol (s : Symbol τ α) : String :=
  s.token.elim s.kind host.showToken

def Host.showStack (c : Config τ α) : String :=
  let kinds := (c.frames.map (·.symbol.kind)).reverse.drop 1
  let line := " ".intercalate kinds ++ " . " ++ c.lookahead.elim "None" host.showSymbol
  String.ofList (line.toList.dropWhile (·.isWhitespace))

def Host.fetch (c : Config τ α) : m (Symbol τ α × Config τ α) := do
  match c.lookahead with
  | some s => return (s, c)
  | none =>
    match c.pushed with
    | pushed :: rest =>
      let s := pushed.getD endSymbol
      return (s, { c with lookahead := some s, pushed := rest })
    | [] =>
      let s := ((← host.next).map host.symbol).getD endSymbol
      return (s, { c with lookahead := some s })

def Host.reducedSpan (children : List (Symbol τ α)) : m Span := do
  if !host.tracking then return {}
  match children.head?, children.getLast? with
  | some first, some last => ofExcept (joinSpans first.span last.span)
  | _, _ =>
    let (line, offset) ← host.place
    return { line := some line, offset := some offset }

/-- Traces a reduction that is about to be made, if a trace is written. -/
def Host.logReduction (table : Table) (rule : Rule)
    (children : List (Symbol τ α)) (state : Nat) : m Unit := do
  if host.trace.isSome then
    let target ← ofExcept (table.goto state rule.name)
    host.log .info fun _ =>
      "Action : Reduce rule [" ++ rule.text ++ "] with ["
        ++ ",".intercalate (children.map fun s => host.showEntry s.value)
        ++ "] and goto state " ++ toString target

def Host.logReduced : Reduced α → m Unit
  | .value a _ => host.log .info fun _ => "Result : " ++ host.showResult (some a)
  | .refused => pure ()

def Host.doReduce (table : Table) (c : Config τ α) (production : Nat) : m (Outcome τ α) := do
  let rule := table.rules.getD production default
  let children := ((c.frames.take rule.length).map (·.symbol)).reverse
  let frames := c.frames.drop rule.length
  host.logReduction table rule children ((frames.head?.map (·.state)).getD 0)
  let symbol : Symbol τ α := { kind := rule.name, span := ← host.reducedSpan children }
  let reduced ← host.reduce ⟨production, symbol, children, frames.map (·.symbol)⟩
  host.logReduced reduced
  ofExcept (table.afterReduction c symbol frames reduced)

/-- Moves on after an error that has been reported: without a stack the symbol is dropped, at the
end the work is given up, and else an `error` symbol is put in front or a state is dropped. -/
def Host.recovered (c : Config τ α) (s : Symbol τ α) : Except Fault (Outcome τ α) :=
  if s.kind == "$end" then .ok (.done none)
  else if c.frames.length ≤ 1 then
    .ok (.running { c with frames := startFrames, lookahead := none, pushed := [] })
  else
    match c.frames with
    | [] => .error .outOfRange
    | top :: rest =>
      if s.kind == "error" then do
        let symbol ← if host.tracking then s.startAt top.symbol else pure s
        return .running { c with frames := rest, lookahead := some symbol }
      else if top.symbol.kind == "error" then do
        let symbol ← if host.tracking then top.symbol.takeIn s else pure top.symbol
        return .running { c with frames := { top with symbol } :: rest, lookahead := none }
      else
        let symbol : Symbol τ α := {
          kind := "error"
          value := s.token.map host.whole
          span := ⟨s.span.line, s.span.offset, s.span.line, s.span.offset⟩ }
        .ok (.running { c with lookahead := some symbol, pushed := some s :: c.pushed })

def Host.recover (c : Config τ α) (s : Symbol τ α) : m (Outcome τ α) :=
  ofExcept (host.recovered c s)

/-- Reports an error, unless one was reported a short while ago, and deals with it. -/
def Host.fail (c : Config τ α) (s : Symbol τ α) : m (Outcome τ α) := do
  host.log .error fun _ => "Error  : " ++ host.showStack c
  if c.errorCount = 0 || c.errorOk then
    let c := { c with errorCount := recoveryLength, errorOk := false }
    let token := if s.kind == "$end" then none else s.token
    match host.complain with
    | .function f =>
      match ← f token with
      | .machine => host.recover c s
      | .restart => host.recover { c with frames := startFrames } s
      | .resume next =>
        return .running { c with errorOk := true, lookahead := next.map host.symbol }
    | .standard write =>
      if s.kind == "$end" then
        write "yacc: Parse error in input. EOF\n"
        return .done none
      match s.span.line.getD 0 with
      | 0 => write ("yacc: Syntax error, token=" ++ s.kind)
      | line =>
        write ("yacc: Syntax error at line " ++ toString line ++ ", token=" ++ s.kind ++ "\n")
      host.recover c s
  else host.recover { c with errorCount := recoveryLength } s

/-- Chooses the next move: a reduction that the state leaves no choice about, or else what the table
says about the symbol that comes next. -/
def Host.choose (table : Table) (defaults : Array (Option Nat))
    (c : Config τ α) : m (Move τ α × Config τ α) := do
  match c.frames with
  | [] => throw .outOfRange
  | top :: _ =>
    host.log .debug fun _ => ""
    host.log .debug fun _ => "State  : " ++ toString top.state
    match defaults.getD top.state none with
    | some production =>
      host.log .debug fun _ =>
        "Defaulted state " ++ toString top.state ++ ": Reduce using " ++ toString production
      host.log .debug fun _ => "Stack  : " ++ host.showStack c
      return (.reduce production, c)
    | none =>
      let (s, c) ← host.fetch c
      ofExcept (table.checkState top.state)
      host.log .debug fun _ => "Stack  : " ++ host.showStack c
      return (table.moveOn top.state s, c)

def Host.perform (table : Table) (c : Config τ α) : Move τ α → m (Outcome τ α)
  | .shift state s => do
    host.log .debug fun _ => "Action : Shift and goto state " ++ toString state
    return .running { c with
      frames := ⟨state, s⟩ :: c.frames
      lookahead := none
      errorCount := c.errorCount - 1 }
  | .reduce production => host.doReduce table c production
  | .accept => do
    let result := c.frames.head?.bind (·.symbol.value)
    host.log .info fun _ => "Done   : Returning " ++ host.showResult result
    host.log .info fun _ => "PLY: PARSE DEBUG END"
    return .done result
  | .fail s => host.fail c s

def Host.step (table : Table) (defaults : Array (Option Nat))
    (c : Config τ α) : m (Outcome τ α) := do
  let (move, c) ← host.choose table defaults c
  host.perform table c move

/-- Moves until the work is done, at most `fuel` times. -/
def Host.run (host : Host m τ α) (table : Table) (defaults : Array (Option Nat)) :
    (fuel : Nat) → Config τ α → m (Option α)
  | 0, _ => throw .exhausted
  | fuel + 1, c => do
    match ← host.step table defaults c with
    | .running c => Host.run host table defaults fuel c
    | .done result => return result

/-- Parses what the host delivers, once `prepare` has been done. -/
def Host.parse (table : Table) (defaults : Array (Option Nat)) (fuel : Nat)
    (prepare : m Unit) : m (Option α) := do
  host.log .info fun _ => "PLY: PARSE DEBUG START"
  prepare
  host.run table defaults fuel start

end

end PerlJava.LR
