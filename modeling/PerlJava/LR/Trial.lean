import PerlJava.LR.Tree

/-!
# Trials of a parse table

A trial runs the machine on a list of tokens and builds a tree. It records the syntax errors that
were reported, the reductions that were made and how many tokens were read.
-/

namespace PerlJava.LR

/-- What a trial does about a syntax error that it is told of. -/
inductive Repair where
  /-- The machine recovers. -/
  | machine
  /-- The next token takes the place of the wrong one. -/
  | skip
  /-- The stack is emptied. -/
  | restart
  /-- The trial is not told; the machine complains by itself. -/
  | unheard
deriving Repr, DecidableEq

/-- How a trial is run. -/
structure Trial where
  tokens : List Token
  tracking : Bool := false
  tracing : Bool := false
  repair : Repair := .machine
  /-- The productions, as they are written, that are refused. -/
  refused : List String := []
  /-- Whether reductions wait for the next token even where there is no choice. -/
  lookFirst : Bool := false

namespace Trial

/-- What is recorded in a trial. -/
structure Record where
  waiting : List Token
  consumed : Nat := 0
  /-- Where the last token read is. -/
  place : Position := {}
  errors : Array (Option Token) := #[]
  reductions : Array String := #[]
  /-- What was written to the standard error stream. -/
  printed : String := ""

abbrev TrialM := EStateM Fault Record

def next : TrialM (Option Token) := do
  match (← get).waiting with
  | [] => return none
  | t :: waiting =>
    modify fun r => { r with waiting, consumed := r.consumed + 1, place := t.position }
    return some t

variable (trial : Trial)

def reduce (rules : Array Rule) (r : Reduction Token Tree) : TrialM (Reduced Tree) := do
  let rule := rules.getD r.production default
  modify fun record => { record with reductions := record.reductions.push rule.text }
  if trial.refused.contains rule.text then return .refused
  let parts := r.children.map fun s => (s.value.getD .nothing).part
  let span := r.symbol.span
  let remarks := if trial.tracking then [.extent span.lines span.offsets] else []
  return .value (.node rule.name (parts ++ remarks)) none

/-- Records a syntax error and does what the trial does about it. -/
def complain (token : Option Token) : TrialM (Recovery Token) := do
  modify fun record => { record with errors := record.errors.push token }
  match trial.repair with
  | .skip => if token.isSome then return .resume (← next) else return .machine
  | .restart => return .restart
  | _ => return .machine

def write (text : String) : TrialM Unit :=
  modify fun record => { record with printed := record.printed ++ text }

def traceLine (level : Level) (text : String) : String :=
  (if level = .error then "ERROR: " else "") ++ text ++ "\n"

def host (rules : Array Rule) : Host TrialM Token Tree where
  next := next
  kind t := t.kind
  span t := { line := some t.line, offset := some t.offset }
  value t := .leaf t.value
  whole t := .token t
  reduce := trial.reduce rules
  complain := if trial.repair = .unheard then .standard write else .function trial.complain
  tracking := trial.tracking
  place := do
    let place := (← get).place
    return (place.line, place.offset)
  trace := if trial.tracing then some fun level text => write (traceLine level text) else none
  showToken t := t.display
  showEntry v := (v.getD .nothing).shown.entry
  showResult v := (v.getD .nothing).shown.result resultLimit

def moveLimit : Nat :=
  1000 * (trial.tokens.length + 100)

def run (table : Table) : TrialM (Option Tree) := do
  let defaults ← table.defaults
  (trial.host table.rules).parse table (if trial.lookFirst then #[] else defaults)
    trial.moveLimit (pure ())

def outcome (table : Table) : Except Fault (Option Tree) × Record :=
  match trial.run table { waiting := trial.tokens } with
  | .ok tree record => (.ok tree, record)
  | .error e record => (.error e, record)

end Trial

end PerlJava.LR
