import PerlJava.Generator.Build
import PerlJava.LR.RuleText
import PerlJava.Text.Slice

/-!
# Rules for parsers

A description names the tokens of a grammar, its start symbol and its precedences. The rules of the
grammar are the documentation of functions.

`ParserRules.collect` finds them and `ParserRules.check` reports what is wrong with them.
-/

namespace PerlJava.Generator

/-- What a description says about a parser. -/
structure ParserRules where
  /-- The start symbol, if it is given. -/
  start : Option Member
  /-- What is done about syntax errors, if that is given. -/
  errorRule : Option Member
  tokens : List Datum
  precedence : Option Member
  /-- The functions with rules, by line. -/
  functions : List Function

/-- A token with its associativity and level. -/
structure PrecedenceEntry where
  term : String
  assoc : String
  level : Nat

structure FunctionRule where
  function : String
  rule : LR.WrittenRule

structure CheckedRules where
  precedence : List PrecedenceEntry := []
  rules : List FunctionRule := []

variable (members : Members)

def member? (name : String) : Option Member :=
  match members.get? name with
  | some (.setting .nothing) => none
  | found => found

def Member.isGiven : Member → Bool
  | .setting value => value.isGiven
  | .function _ => true

namespace ParserRules

def readTokens : BuildM (List Datum) := do
  let refuse (text : String) : BuildM (List Datum) := do
    complain text
    throw (.unbuildable "Unable to build parser")
  match (member? members "tokens").filter Member.isGiven with
  | none => refuse "No token list is defined"
  | some (.setting value) =>
    match value.elements? with
    | some elements => return elements
    | none => refuse "tokens must be a list or tuple"
  | some (.function _) => refuse "tokens must be a list or tuple"

def collect : BuildM ParserRules := do
  let tokens ← readTokens members
  let functions := members.entries.filterMap fun (name, member) =>
    match member with
    | .function f => if name.startsWith "p_" && name != "p_error" then some f else none
    | .setting _ => none
  return {
    start := member? members "start"
    errorRule := (member? members "p_error").filter Member.isGiven
    tokens
    precedence := (member? members "precedence").filter Member.isGiven
    functions := functions.mergeSort fun a b => a.line ≤ b.line }

def joinedTexts? (between : String) (elements : List Datum) : Option String :=
  (elements.mapM Datum.text?).map between.intercalate

def precedenceText? : Member → Option String
  | .setting (.text s) => some s
  | .setting (.list levels) | .setting (.tuple levels) => do
    let texts ← levels.mapM fun level => match level with
      | .text s => some s
      | level => level.elements?.bind (joinedTexts? "")
    return String.join texts
  | _ => none

variable (rules : ParserRules)

/-- The text of what a table depends on: the start symbol, the precedences, the tokens and the
rules. It ends before the first of them that is not made of texts, or has characters above the
first 256. -/
def signature : Except Fault String := do
  let start ← match rules.start.filter Member.isGiven with
    | none => pure []
    | some (.setting (.text s)) => pure [some s]
    | some _ => throw .noMember
  let precedence := rules.precedence.toList.map precedenceText?
  let docs := rules.functions.filterMap fun f => (f.doc.filter (!·.isEmpty)).map some
  let parts := start ++ precedence ++ [joinedTexts? " " rules.tokens] ++ docs
  let narrow (part : Option String) : Option String :=
    part.filter fun s => s.toList.all (·.toNat < 256)
  return String.join ((parts.map narrow).takeWhile Option.isSome).reduceOption

variable (d : Description)

def checkErrorRule : BuildM Unit := do
  match rules.errorRule with
  | none => return ()
  | some (.setting _) => complain "'p_error' defined, but is not a function or method"
  | some (.function f) =>
    if f.arguments != 1 then complain (d.place f.line ++ ": p_error() requires 1 argument")

def checkTokens : BuildM Unit := do
  if rules.tokens.any (·.text? = some "error") then
    complain "Illegal token name 'error'. Is a reserved word"
  else
    let _ ← rules.tokens.foldlM (fun (seen : List String) token => do
      if token.isKey then
        let shown := token.display
        if seen.contains shown then warn ("Token " ++ shown ++ " multiply defined")
        return shown :: seen
      else throw Fault.illTyped) []

/-- The entries of one level of precedences, or what is wrong with it. -/
def readLevel (level : Nat) (d : Datum) : Except String (List PrecedenceEntry) :=
  match d.elements? with
  | none => .error "Bad precedence table"
  | some [] | some [_] =>
    .error ("Malformed precedence entry " ++ d.display ++ ". Must be (assoc, term, ..., term)")
  | some (assoc :: terms) =>
    match assoc with
    | .text assoc =>
      match terms.mapM Datum.text? with
      | some terms => .ok (terms.map (⟨·, assoc, level⟩))
      | none => .error "precedence items must be strings"
    | _ => .error "precedence associativity must be a string"

def checkPrecedence : BuildM (List PrecedenceEntry) := do
  let refuse (text : String) : BuildM (List PrecedenceEntry) := do
    complain text
    return []
  match rules.precedence with
  | none => return []
  | some (.function _) => refuse "precedence must be a list or tuple"
  | some (.setting value) =>
    match value.elements? with
    | none => refuse "precedence must be a list or tuple"
    | some levels =>
      match levels.zipIdx.mapM fun (level, i) => readLevel (i + 1) level with
      | .ok entries => return entries.flatten
      | .error text => refuse text

def hasRules (f : Function) : Bool :=
  f.arguments = 1 && f.doc.any (!·.isEmpty)

def checkFunction (f : Function) : BuildM (List FunctionRule) := do
  let place := d.place f.line
  if f.arguments > 1 then
    complain (place ++ ": Rule " ++ Text.quoted f.name ++ " has too many arguments")
    return []
  else if f.arguments < 1 then
    complain (place ++ ": Rule " ++ Text.quoted f.name ++ " requires an argument")
    return []
  else
    match f.doc.filter (!·.isEmpty) with
    | none =>
      warn (place ++ ": No documentation string specified in function " ++ Text.quoted f.name
        ++ " (ignored)")
      return []
    | some doc =>
      match LR.readRules doc d.file f.line with
      | .ok rules => return rules.map (⟨f.name, ·⟩)
      | .error (.malformed (some text)) =>
        complain (← filledText text)
        return []
      | .error e => throw e

/-- Reports members that look as if they were meant as rules. -/
def checkOthers : BuildM Unit := do
  for (name, member) in members.entries do
    let isRule := name.startsWith "p_"
    match member with
    | .setting _ =>
      if isRule && name != "p_error" then warn (Text.quoted name ++ " not defined as a function")
    | .function f =>
      if !isRule && !name.startsWith "t_" && f.arguments = 1 then
        if (f.doc.map (Text.splitBy · " ")).any (·[1]? = some ":") then
          warn (d.place f.line ++ ": Possible grammar rule " ++ Text.quoted name
            ++ " defined without p_ prefix")

def checkRepetitions : BuildM Unit := do
  let isRule (e : Entry) : Bool :=
    match e.member with
    | .function _ => e.name.startsWith "p_" && e.name.toList.all Text.isAsciiWord
    | .setting _ => false
  for (name, line, previous) in d.repetitions isRule do
    warn (d.place line ++ ": Function " ++ name ++ " redefined. Previously defined on line "
      ++ toString previous)

def check (rules : ParserRules) : BuildM CheckedRules := do
  match rules.start with
  | none | some (.setting (.text _)) => pure ()
  | some _ => say "ERROR: 'start' must be a string"
  let before := (← get).errors
  rules.checkErrorRule d
  rules.checkTokens
  let precedence ← rules.checkPrecedence
  let found ← rules.functions.mapM (checkFunction d)
  if rules.functions.isEmpty then complain "no rules of the form p_rulename are defined"
  else checkOthers members d
  let hasErrorFunction := match rules.errorRule with
    | some (.function _) => true
    | _ => false
  if hasErrorFunction || rules.functions.any hasRules then checkRepetitions d
  if (← get).errors > before then throw (.unbuildable "Unable to build parser")
  return { precedence, rules := found.flatten }

end ParserRules

end PerlJava.Generator
