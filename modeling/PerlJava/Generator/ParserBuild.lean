import PerlJava.Generator.ParserRules
import PerlJava.LR.Generate

/-!
# Building parsers

A parser is driven by the tables of its grammar. Tables are kept in a file, and as long as the
description says the same about the parser they are taken from there. A report tells how the tables
were made.
-/

namespace PerlJava.Generator

/-- How a parser is to be built. -/
structure ParserOptions where
  method : String := "LALR"
  /-- Whether to write a report, and to tell of conflicts. -/
  debug : Bool := true
  /-- The start symbol, in place of that of the description. -/
  start : Option Datum := none
  /-- Whether to look for symbols that cannot be reached or never end. -/
  checkRecursion : Bool := true
  /-- Whether to take tables as they are. -/
  optimize : Bool := false
  writeTables : Bool := true
  /-- The name of the report. -/
  reportName : String := "parser.out"
  outputFolder : Option String := none
  /-- The file in which the tables are kept in place of a module. -/
  dump : Option String := none
  /-- The module of the tables. -/
  table : TableModule := .named "parsetab"

structure Parser where
  table : LR.Table
  /-- The reductions that are made without looking at the next token. -/
  defaults : Array (Option Nat)
  productions : List TableProduction
  /-- Whether the tables were read from a file. -/
  isLoaded : Bool
  errorRule : Option Member
  members : Members

def Parser.display (p : Parser) (production : TableProduction) : String :=
  (if p.isLoaded then "MiniProduction(" else "Production(") ++ production.text ++ ")"

def ParserTable.toTable (t : ParserTable) (omitsEmpty : Bool) : LR.Table where
  rules := (t.productions.map fun p => ⟨p.name, p.length, p.text⟩).toArray
  actions := t.actions
  gotos := t.gotos
  omitsEmpty

def ParserTable.ofGenerated (g : LR.Generated) (signature : String) : ParserTable where
  method := g.method.text
  signature
  actions := g.table.actions
  gotos := g.table.gotos
  productions := g.productions.toList.map fun p =>
    { text := p.text, name := p.name, length := p.symbols.length
      function := p.function.map (·, p.place) }

namespace ParserBuild

def refuse {α : Type} : BuildM α :=
  throw (.unbuildable "Unable to build parser")

/-- The tables of a module or a dump, and whether they lack rows without actions. -/
def load? (o : ParserOptions) (table : TableModule) : BuildM (Option (ParserTable × Bool)) := do
  let folder := (← get).folder
  let accept (t : ParserTable) (omits : Bool) : BuildM (Option (ParserTable × Bool)) := do
    if t.version = tableVersion then return some (t, omits)
    warn "yacc table file version is out of date"
    return none
  match o.dump with
  | some path =>
    if folder.isFolder path then throw .isDirectory
    match folder.content? path with
    | none => return none
    | some (.dump t) => accept t false
    | some _ => throw .badValue
  | none =>
    match table with
    | .given _ version =>
      if version = tableVersion then throw .noMember
      warn "yacc table file version is out of date"
      return none
    | .named name =>
      match folder.module? name with
      | none => return none
      | some (.parser t) => accept t true
      | some (.scanner t) =>
        if t.version = tableVersion then throw .noMember
        warn "yacc table file version is out of date"
        return none
      | some _ => throw .noMember

def missingFunction? (members : Members) (productions : List TableProduction) : Option String :=
  productions.findSome? fun p => do
    let (name, _) ← p.function
    if members.contains name then none else some name

/-- The parser for tables that were read, or why they cannot be used. -/
def useLoaded (members : Members) (rules : ParserRules) (t : ParserTable) (omits : Bool) :
    Except String Parser :=
  match missingFunction? members t.productions with
  | some name => .error ("KeyError(" ++ Text.quoted name ++ ")")
  | none =>
    let table := t.toTable omits
    match table.defaults with
    | .ok defaults =>
      .ok { table, defaults, productions := t.productions, isLoaded := true
            errorRule := rules.errorRule, members }
    | .error _ =>
      .error "TypeError(\"'<' not supported between instances of 'NoneType' and 'int'\")"

def openReport (o : ParserOptions) (folder : String) : BuildM Unit := do
  modify fun s => { s with report := none }
  if o.debug then
    let path := Folder.join folder o.reportName
    match (← get).folder.writeError? path with
    | some reason =>
      warn (← filledText ("Couldn't open " ++ Text.quoted o.reportName ++ ". " ++ reason))
    | none =>
      modify fun s =>
        { s with folder := s.folder.write path (.text ""), report := some path }
  note ("Created by PLY version " ++ tableVersion ++ " (http://www.dabeaz.com/ply)")

def tokenName (d : Datum) : String :=
  d.text?.getD d.display

def showTerminal (tokens : List Datum) (name : String) : String :=
  ((tokens.find? (tokenName · = name)).map Datum.display).getD (Text.quoted name)

def makeGrammar (rules : ParserRules) (checked : CheckedRules) : BuildM LR.Grammar := do
  let before := (← get).errors
  let g := LR.Grammar.ofTokens (rules.tokens.map tokenName)
  let g ← checked.precedence.foldlM (fun (g : LR.Grammar) e => do
    match g.setPrecedence e.term e.assoc e.level with
    | .ok g => return g
    | .error (.badGrammar text) =>
      warn text
      return g
    | .error e => throw e) g
  let g ← checked.rules.foldlM (fun (g : LR.Grammar) r => do
    match g.addProduction r.rule.name r.rule.symbols (some r.function) r.rule.place with
    | .ok g => return g
    | .error (.badGrammar text) =>
      complain text
      return if g.canName r.rule.name then g.addLiterals r.rule.symbols else g
    | .error e => throw e) g
  let start := match rules.start with
    | some (.setting (.text s)) => some s
    | _ => none
  let g ← match g.setStart start with
    | .ok g => pure g
    | .error (.badGrammar text) =>
      complain (← filledText text)
      pure g
    | .error e => throw e
  if (← get).errors > before then refuse
  return g

def warnCount (count : Nat) (one : String) (many : String → String) : BuildM Unit := do
  if count = 1 then warn one
  else if count > 1 then warn (many (toString count))

def noteUses (kind : String) (uses : OrderedMap String (List Nat)) : BuildM Unit := do
  note ""
  note (kind ++ ", with rules where they appear")
  note ""
  for (name, numbers) in uses.entries.mergeSort fun a b => a.1 ≤ b.1 do
    note (Text.padRight 20 name ++ " : " ++ " ".intercalate (numbers.map toString))

/-- Reports what is wrong with a grammar or looks wrong. -/
def checkGrammar (rules : ParserRules) (g : LR.Grammar) (o : ParserOptions) : BuildM Unit := do
  let before := (← get).errors
  for (s, p) in g.undefinedSymbols do
    complain (p.place.text ++ ": Symbol " ++ Text.quoted s
      ++ " used, but not defined as a token or a rule")
  let unused := g.unusedTerminals
  unless unused.isEmpty do
    note ""
    note "Unused terminals:"
    note ""
    for s in unused do
      warn ("Token " ++ showTerminal rules.tokens s ++ " defined, but not used")
      note ("    " ++ s)
  note ""
  note "Grammar"
  note ""
  for p in g.productions.toList do
    note ("Rule " ++ Text.padRight 5 (toString p.number) ++ " " ++ p.text)
  let idle := g.unusedRules
  for p in idle do
    warn (p.place.text ++ ": Rule " ++ Text.quoted p.name ++ " defined, but not used")
  warnCount unused.length "There is 1 unused token" fun n => "There are " ++ n ++ " unused tokens"
  warnCount idle.length "There is 1 unused rule" fun n => "There are " ++ n ++ " unused rules"
  if o.debug && !rules.tokens.all Datum.isText then throw .illTyped
  noteUses "Terminals" g.terminals
  noteUses "Nonterminals" g.nonterminals
  note ""
  if o.checkRecursion then
    for s in g.unreachable do warn ("Symbol " ++ Text.quoted s ++ " is unreachable")
    for s in g.infiniteCycles do
      complain ("Infinite recursion detected for symbol " ++ Text.quoted s)
  for (s, assoc) in g.unusedPrecedence do
    complain ("Precedence rule " ++ Text.quoted assoc.text ++ " defined for unknown symbol "
      ++ Text.quoted s)
  if (← get).errors > before then refuse

def warnBoth (text : String) : BuildM Unit := do
  note ("WARNING: " ++ text)
  warn text

def reportConflicts (g : LR.Generated) : BuildM Unit := do
  warnCount g.shiftConflicts.length "1 shift/reduce conflict" (· ++ " shift/reduce conflicts")
  warnCount g.reduceConflicts.length "1 reduce/reduce conflict" (· ++ " reduce/reduce conflicts")
  if g.shiftConflicts.isEmpty && g.reduceConflicts.isEmpty then return
  note "WARNING: "
  note "WARNING: Conflicts:"
  note "WARNING: "
  for c in g.shiftConflicts do
    note ("WARNING: shift/reduce conflict for " ++ c.token ++ " in state " ++ toString c.state
      ++ " resolved as " ++ c.resolution)
  let distinct := g.reduceConflicts.foldl (fun acc c => if acc.contains c then acc else acc ++ [c])
    ([] : List LR.ReduceConflict)
  for c in distinct do
    let state := toString c.state
    warnBoth ("reduce/reduce conflict in state " ++ state ++ " resolved using rule ("
      ++ c.chosen.text ++ ")")
    warnBoth ("rejected rule (" ++ c.rejected.text ++ ") in state " ++ state)
  let never := (g.reduceConflicts.map (·.rejected)).filter fun p =>
    g.reduced.getD p.number 0 = 0
  let never := never.foldl (fun acc p => if acc.contains p then acc else acc ++ [p])
    ([] : List LR.Production)
  for p in never do warnBoth ("Rule (" ++ p.text ++ ") is never reduced")

def writeContent (shown path : String) (content : Content) : BuildM Unit := do
  match (← get).folder.writeError? path with
  | some reason => warn (← filledText ("Couldn't create " ++ shown ++ ". " ++ reason))
  | none => modify fun s => { s with folder := s.folder.write path content }

def writeTables (o : ParserOptions) (table : TableModule) (folder : String) (t : ParserTable) :
    BuildM Unit := do
  match o.dump with
  | some path => writeContent (Text.quoted path) path (.dump t)
  | none =>
    if o.writeTables then
      match table with
      | .given _ _ =>
        warn (← filledText ("Couldn't create " ++ table.display
          ++ ". Won't overwrite existing tabmodule"))
      | .named name =>
        writeContent table.display (Folder.modulePath folder (lastPart name)) (.parser t)

def outputFolder (o : ParserOptions) : BuildM String :=
  match o.outputFolder, o.table with
  | some folder, _ => return folder
  | none, .given _ _ => return ""
  | none, .named name =>
    if name.toList.contains '.' then moduleFolder (packagePart name) else return ""

end ParserBuild

open ParserBuild in
def buildParser (d : Description) (members : Members) (o : ParserOptions) : BuildM Parser := do
  let folder ← outputFolder o
  let table ← o.table.inPackage members
  let members := match o.start with
    | some start => members.insert "start" (.setting start)
    | none => members
  let rules ← ParserRules.collect members
  let signature ← rules.signature
  match ← load? o table with
  | some (t, omits) =>
    if o.optimize || t.signature = signature then
      match useLoaded members rules t omits with
      | .ok parser => return parser
      | .error reason => warn ("There was a problem loading the table file: " ++ reason)
  | none => pure ()
  openReport o folder
  let checked ← rules.check members d
  if rules.errorRule.isNone then warn "no p_error() function is defined"
  let g ← makeGrammar rules checked
  checkGrammar rules g o
  if o.debug then say ("Generating " ++ o.method ++ " tables")
  let method ← LR.Method.ofText o.method
  let generated ← g.generate method
  for line in generated.report do note line.text
  if o.debug then reportConflicts generated
  let t := ParserTable.ofGenerated generated signature
  writeTables o table folder t
  let defaults ← generated.table.defaults
  return { table := generated.table, defaults, productions := t.productions, isLoaded := false
           errorRule := rules.errorRule, members }

end PerlJava.Generator
