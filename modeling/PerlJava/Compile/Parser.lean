import PerlJava.Compile.Action.Call
import PerlJava.Compile.Action.Expression
import PerlJava.Compile.Action.Statement
import PerlJava.LR.Generate
import PerlJava.LR.Machine
import PerlJava.Perl.Grammar
import PerlJava.Perl.StateNumbers

/-!
# Compiling a file

The parser of the language reads the tokens of a file, and each of its reductions runs the action of
its production.
-/

namespace PerlJava.Compile

open Java

variable [Interfaces]

def allActions : Actions :=
  fileActions ++ labelActions ++ jobActions ++ statementActions ++ blockActions
    ++ expressionActions ++ assignmentActions ++ operatorActions ++ variableActions ++ valueActions
    ++ nativeActions ++ callActions

def actionTable : Array (Option Action) :=
  (none :: Perl.grammarRules.map fun (production, _) => allActions.lookup production).toArray

/-- The tables of the grammar, before their states are numbered as traces know them. -/
def generated : Except Fault LR.Generated := do
  (← Perl.grammar).generate .lalr

/-- What drives the parser: the table that was made of the grammar, with the reductions that are
made without looking at the next token. -/
structure Parser where
  made : LR.Generated
  table : LR.Table
  defaults : Array (Option Nat)
  isMade : generated = .ok made
  isNumbered : made.table.renumber Perl.stateNumbers = .ok table
  hasDefaults : table.defaults = .ok defaults

def parser : Except Fault Parser :=
  match isMade : generated with
  | .error e => .error e
  | .ok made =>
    match isNumbered : made.table.renumber Perl.stateNumbers with
    | .error e => .error e
    | .ok table =>
      match hasDefaults : table.defaults with
      | .error e => .error e
      | .ok defaults => .ok { made, table, defaults, isMade, isNumbered, hasDefaults }

/-- The arguments of an action: the values of the symbols that a reduction is made of. -/
def argsOf (r : LR.Reduction Token Value) : Args :=
  ⟨(r.children.map fun s => (s.value.getD .nothing, s.token.elim {} (·.position))).toArray⟩

def reduce (actions : Array (Option Action)) (r : LR.Reduction Token Value) :
    M (LR.Reduced Value) :=
  match actions.getD r.production none with
  | some action => return .value (← action.run (argsOf r)) none
  | none => throw .inconsistent

def reportSyntaxError (token : Option Token) : Plain Unit :=
  match token with
  | some t => report .syntaxErrorToken t.position [("token", t.value), ("type", t.kind)]
  | none => report .syntaxErrorEof none []

def addTrace (text : String) : M Unit :=
  modify fun s => { s with trace := s.trace ++ text }

instance (text : String) : Does .plain (addTrace text) :=
  .of_total (fun _ _ _ => ⟨(), _, rfl, .refl _⟩)
    ⟨fun _ => State.types_prefix rfl, fun _ => rfl, fun _ _ => rfl,
      .of_unprinted (fun _ => rfl) fun _ => .of_same rfl rfl rfl⟩

def Tracing.line (tracing : Tracing) (level : LR.Level) (text : String) : String :=
  if level = .debug && !tracing.details then ""
  else (if level = .error && !tracing.isLog then "ERROR: " else "") ++ text ++ "\n"

def Tracing.write (tracing : Tracing) (level : LR.Level) (text : String) : M Unit :=
  addTrace (tracing.line level text)

def host (tracing : Option Tracing) : LR.Host M Token Value where
  next := nextToken
  kind t := t.kind
  span t := { line := some t.line, offset := some t.offset }
  value t := .text t.value
  whole t := .token t
  reduce := reduce actionTable
  complain := .function fun token => do
    reportSyntaxError token
    return .machine
  place := pure (0, 0)
  trace := tracing.map fun tracing level text => tracing.write level text
  showToken t := t.display
  showEntry v := (v.getD .nothing).shown.entry
  showResult v := (v.getD .nothing).shown.result (tracing.elim LR.resultLimit (·.limit))

def moveLimit (text : String) : Nat :=
  1000 * (text.length + 100)

def classText? : Option Value → Option String
  | some (.text t) => some t
  | _ => none

/-- Compiles a text in so many moves of the parser at most. -/
def compileWithin (limit : Nat) (parser : Parser) (text : String) : M (Option String) := do
  let host := host (← get).options.tracing
  return classText? (← host.parse parser.table parser.defaults limit (startReading text))

def compile (parser : Parser) (text : String) : M (Option String) :=
  compileWithin (moveLimit text) parser text

open Regex in
def classNameOf (name : String) : String :=
  (Regex.group 1 (many dot) ++ char '.' ++ many dot ++ .anchor .textEnd).replace [.group 1] name

def State.ofFile (session : Session) (options : Options) (name : String) : State :=
  { toSession := session, options, fileName := name, className := classNameOf name }

end PerlJava.Compile
