import PerlJava.Generator.ParserBuild
import PerlJava.Generator.Scanner
import PerlJava.LR.Trial

/-!
# Parses

A parser reads tokens from a list or from a scanner. Its functions record the reductions and build
a tree.
-/

namespace PerlJava.Generator

/-- Where the tokens of a parse come from. -/
inductive TokenSource where
  /-- A list, which also tells where the last token is. -/
  | listed (tokens : List Token)
  /-- A list, beside something that is always at the start. -/
  | apart (tokens : List Token)
  /-- A scanner. -/
  | scanned (text : Datum)

/-- How a parse is made. -/
structure ParseOptions where
  source : TokenSource
  tracking : Bool := false
  tracing : Bool := false
  repair : LR.Repair := .machine
  /-- The functions that refuse their reductions. -/
  refused : List String := []

structure ReductionRecord where
  function : String
  symbol : String
  size : Nat

structure ParseWork where
  /-- The scanner, if there is one. -/
  scanner : Option Scanner := none
  waiting : List Token := []
  /-- Where the last token is. -/
  place : Position := {}
  errors : Array (Option Token) := #[]
  reductions : Array ReductionRecord := #[]
  /-- What was printed on standard error. -/
  printed : String := ""

namespace Parse

abbrev ParseM := EStateM Fault ParseWork

def nextListed : ParseM (Option Token) := do
  match (← get).waiting with
  | [] => return none
  | t :: waiting =>
    modify fun w => { w with waiting, place := t.position }
    return some t

def nextScanned : ParseM (Option Token) := do
  match (← get).scanner with
  | none => throw .noMember
  | some scanner =>
    match Scanner.nextToken { scanner } with
    | .ok t work =>
      modify fun w => { w with scanner := some work.scanner }
      return t
    | .error e work =>
      modify fun w => { w with scanner := some work.scanner }
      throw e

def next : TokenSource → ParseM (Option Token)
  | .listed _ | .apart _ => nextListed
  | .scanned _ => nextScanned

/-- Where the tokens come from, for symbols made of nothing. -/
def place : TokenSource → ParseM (Nat × Nat)
  | .listed _ => do
    let place := (← get).place
    return (place.line, place.offset)
  | .apart _ => return (0, 0)
  | .scanned _ => do
    match (← get).scanner with
    | some s => return (s.line, s.position)
    | none => return (0, 0)

/-- The value below a reduction. The bottom of the stack has none. -/
def valueBelow (r : LR.Reduction Token LR.Tree) : ParseM LR.Tree :=
  match r.below with
  | [] | [_] => throw .noMember
  | s :: _ => return (s.value.getD .nothing).part

def reduce (p : Parser) (o : ParseOptions) (r : LR.Reduction Token LR.Tree) :
    ParseM (LR.Reduced LR.Tree) := do
  let function := (p.productions[r.production]?).bind (·.function)
  match function.bind fun (name, _) => function? p.members name with
  | none => throw .illTyped
  | some f =>
    unless f.arguments = 1 do throw .illTyped
    let record := ⟨f.name, r.symbol.kind, r.children.length + 1⟩
    modify fun w => { w with reductions := w.reductions.push record }
    if o.refused.contains f.name then return .refused
    let parts := r.children.map fun s => (s.value.getD .nothing).part
    let node (parts : List LR.Tree) : LR.Tree := .node r.symbol.kind parts
    match f.style with
    | .plain => return .value (node parts) none
    | .firstTwo => return .value (node (parts.take 2)) none
    | .withBelow => return .value (node (parts ++ [.beneath (← valueBelow r)])) none
    | .withSpots =>
      let spots := (r.symbol :: r.children).map fun s => s.span.spot
      return .value (node (parts ++ [.spots spots])) none
    | .withLine => return .value (node parts) (some 99)

def restartLimit : Nat := 3

/-- Records a syntax error and does what is to be done about it. -/
def complain (o : ParseOptions) (token : Option Token) : ParseM (LR.Recovery Token) := do
  modify fun w => { w with errors := w.errors.push token }
  if token.isNone then return .machine
  match o.repair with
  | .skip => return .resume (← next o.source)
  | .restart =>
    if (← get).errors.size < restartLimit then return .restart else return .machine
  | _ => return .machine

def write (text : String) : ParseM Unit :=
  modify fun w => { w with printed := w.printed ++ text }

def host (p : Parser) (o : ParseOptions) : LR.Host ParseM Token LR.Tree where
  next := next o.source
  kind t := t.kind
  span t := { line := some t.line, offset := some t.offset }
  value t := .leaf t.value
  whole t := .token t
  reduce := reduce p o
  complain := match p.errorRule with
    | none => .standard write
    | some (.function f) =>
      if f.arguments = 1 then .function (complain o) else .function fun _ => throw .illTyped
    | some (.setting _) => .function fun _ => throw .illTyped
  tracking := o.tracking
  place := place o.source
  trace := if o.tracing then some fun level text => write (LR.Trial.traceLine level text) else none
  showToken t := t.display
  showEntry v := (v.getD .nothing).shown.entry
  showResult v := (v.getD .nothing).shown.result LR.resultLimit

def prepare : TokenSource → ParseM Unit
  | .scanned text => do
    match (← get).scanner with
    | none => throw .noMember
    | some s =>
      let s ← s.inputDatum text
      modify fun w => { w with scanner := some s }
  | _ => return ()

def inputSize : TokenSource → Nat
  | .listed tokens | .apart tokens => tokens.length
  | .scanned (.text s) => s.length
  | .scanned _ => 0

def moveLimit (o : ParseOptions) : Nat :=
  1000 * (inputSize o.source + 100)

def listedTokens : TokenSource → List Token
  | .listed tokens | .apart tokens => tokens
  | .scanned _ => []

/-- Makes a parse: its result, and what is left of the work. -/
def run (p : Parser) (o : ParseOptions) (scanner : Option Scanner) :
    Except Fault (Option LR.Tree) × ParseWork :=
  let work : ParseWork := { scanner, waiting := listedTokens o.source }
  match (host p o).parse p.table p.defaults (moveLimit o) (prepare o.source) work with
  | .ok tree work => (.ok tree, work)
  | .error e work => (.error e, work)

end Parse

end PerlJava.Generator
