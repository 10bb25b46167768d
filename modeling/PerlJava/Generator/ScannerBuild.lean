import PerlJava.Generator.Scanner
import PerlJava.Generator.TokenRules

/-!
# Building scanners

The patterns of a state are joined into as few patterns as can be read. A scanner that is built
for speed is neither checked nor built again if there is a table of it.
-/

namespace PerlJava.Generator

structure ScannerOptions where
  /-- Whether to print what is built. -/
  debug : Bool := false
  optimize : Bool := false
  /-- The module of the table. -/
  table : TableModule := .named "lextab"
  /-- Where the table is written, if not beside its package or the description. -/
  outputFolder : Option String := none
  /-- The names of the flags of all patterns. -/
  flags : List String := []

namespace ScannerBuild

def patternOf (f : Function) : String :=
  f.patternText?.getD "None"

/-- What the named groups of a pattern stand for. A group with the name of a member that is no
rule cannot be used. -/
def usesOf (members : Members) (kinds : OrderedMap String String) (names : List (String × Nat)) :
    Option (List (Option RuleUse)) := do
  let size := names.foldl (fun size (_, number) => max size (number + 1)) 0
  names.foldlM (fun uses (name, number) => do
    match members.get? name with
    | some (.function f) => return uses.set number (some (.function f (← kinds.get? name)))
    | some (.setting .nothing) | none => return uses
    | some (.setting _) =>
      if (Text.find? name "ignore_").any (· > 0) then return uses.set number (some .ignored)
      else return uses.set number (some (.token (← kinds.get? name))))
    (List.replicate size none)

def join? (flags : List String) (members : Members) (kinds : OrderedMap String String)
    (groups : List String) : Option MasterPattern := do
  let text := "|".intercalate groups
  let pattern ← (Pattern.read text (TokenRules.flagsOf flags)).toOption
  guard (!TokenRules.flagsClash flags)
  return { text, regex := pattern.regex, uses := ← usesOf members kinds pattern.names }

/-- The patterns that join groups. What cannot be read is joined in two halves. -/
def joinAll (flags : List String) (members : Members) (kinds : OrderedMap String String)
    (groups : List String) : Except Fault (List MasterPattern) :=
  match join? flags members kinds groups with
  | some pattern => .ok [pattern]
  | none =>
    if groups.length ≤ 1 then .error .exhausted
    else do
      let half := groups.length / 2
      return (← joinAll flags members kinds (groups.take half))
        ++ (← joinAll flags members kinds (groups.drop half))
termination_by groups.length
decreasing_by
  all_goals grind

variable (rules : TokenRules)

def kindsOf : Except Fault (List String) := do
  let elements := rules.tokens.elements?.getD []
  if elements.all Datum.isKey then return elements.filterMap Datum.text? else throw .illTyped

/-- The characters that are tokens by themselves, in one text. -/
def literalsOf : Except Fault String :=
  match rules.literals with
  | .setting (.text s) => .ok s
  | .setting (.list elements) | .setting (.tuple elements) =>
    if elements.head?.any Datum.isText then
      match elements.mapM Datum.text? with
      | some parts => .ok (String.join parts)
      | none => .error .illTyped
    else .error .noMember
  | _ => .error .illTyped

def errorsOf : OrderedMap String (Option Function) :=
  let given := OrderedMap.ofList (rules.errors.entries.map fun (state, f) => (state, some f))
  rules.states.entries.foldl (fun errors (state, kind) =>
    if kind = .inclusive && !errors.contains state then
      errors.insert state (rules.errors.get? initialState)
    else errors) given

def ignoredOf : OrderedMap String String :=
  rules.states.entries.foldl (fun ignored (state, kind) =>
    if kind = .inclusive && !ignored.contains state then
      ignored.insert state ((rules.ignored.get? initialState).getD "")
    else ignored) rules.ignored

def warnMissing : BuildM Unit := do
  unless rules.errors.contains initialState do warn "No t_error rule is defined"
  let ignores := (rules.ignored.get? initialState).any (!·.isEmpty)
  for (state, kind) in rules.states.entries do
    if kind = .exclusive then
      unless rules.errors.contains state do
        warn ("No error rule is defined for exclusive state '" ++ state ++ "'")
      if !rules.ignored.contains state && ignores then
        warn ("No ignore rule is defined for exclusive state '" ++ state ++ "'")

def displayStates (states : OrderedMap String StateKind) : String :=
  "\x7b" ++ ", ".intercalate (states.entries.map fun (state, kind) =>
    Text.quoted state ++ ": " ++ Text.quoted kind.text) ++ "\x7d"

def displayMember : Member → String
  | .setting value => value.display
  | .function f => f.name

def rulesOf (state : String) : List (String × String) :=
  ((rules.functions.get? state).getD []).map (fun (name, f) => (name, patternOf f))
    ++ (rules.patterns.get? state).getD []

def joinStates (members : Members) (o : ScannerOptions) :
    BuildM (OrderedMap String (List MasterPattern)) := do
  let rulesByState := rules.states.keys.map fun state => (state, rulesOf rules state)
  if o.debug then
    for (state, found) in rulesByState do
      for (name, pattern) in found do
        say ("lex: Adding rule " ++ name ++ " -> '" ++ pattern ++ "' (state '" ++ state ++ "')")
    say "lex: ==== MASTER REGEXS FOLLOW ===="
  let own ← rulesByState.mapM fun (state, found) => do
    if found.isEmpty then throw Fault.badValue
    let groups := found.map fun (name, pattern) => TokenRules.groupText name pattern
    let patterns ← joinAll o.flags members rules.kinds groups
    if o.debug then
      for (p, i) in patterns.zipIdx do
        say ("lex: state '" ++ state ++ "' : regex[" ++ toString i ++ "] = '" ++ p.text ++ "'")
    return (state, patterns)
  let initial := (own.lookup initialState).getD []
  return .ofList (own.map fun (state, patterns) =>
    if state != initialState && rules.states.get? state = some .inclusive then
      (state, patterns ++ initial)
    else (state, patterns))

def tableOf (s : Scanner) (o : ScannerOptions) : ScannerTable :=
  let use : RuleUse → TableUse
    | .ignored => .ignored
    | .token kind => .token kind
    | .function f kind => .function f.name kind
  { flags := o.flags
    literals := s.literals
    states := ⟨s.states.entries.map fun (state, patterns) =>
      (state, patterns.map fun p => ⟨p.text, p.uses.map (·.map use)⟩)⟩
    ignored := s.ignoredIn
    errors := ⟨s.errorsIn.entries.map fun (state, f) => (state, f.map (·.name))⟩
    ends := ⟨s.endsIn.entries.map fun (state, f) => (state, f.name)⟩ }

def functionNamed (members : Members) (name : String) : Except Fault Function :=
  match members.get? name with
  | some (.function f) => .ok f
  | some (.setting _) => .error .illTyped
  | none => .error .missingKey

def ofTable (d : Description) (members : Members) (t : ScannerTable) : Except Fault Scanner := do
  unless t.flags.isEmpty do throw .unknownName
  let states ← t.states.entries.mapM fun (state, patterns) => do
    let patterns ← patterns.mapM fun p => do
      let pattern ← match Pattern.read p.text (TokenRules.flagsOf t.flags) with
        | .ok pattern => pure pattern
        | .error _ => throw .badTemplate
      let uses ← p.uses.mapM fun use => do
        match use with
        | some (.function name kind) =>
          return some (RuleUse.function (← functionNamed members name) kind)
        | some (.token kind) => return some (.token kind)
        | some .ignored => return some .ignored
        | none => return none
      return ({ text := p.text, regex := pattern.regex, uses } : MasterPattern)
    return (state, patterns)
  let errors ← t.errors.entries.mapM fun (state, name) => do
    match name with
    | some name => return (state, some (← functionNamed members name))
    | none => throw .missingKey
  let ends ← t.ends.entries.mapM fun (state, name) => do
    return (state, ← functionNamed members name)
  let s : Scanner :=
    { states := ⟨states⟩, ignoredIn := t.ignored, errorsIn := ⟨errors⟩, endsIn := ⟨ends⟩
      literals := t.literals, isOptimized := true, file := d.file }
  s.enter initialState

def load? (d : Description) (members : Members) (table : TableModule) :
    BuildM (Option Scanner) := do
  match table with
  | .given _ version => if version = tableVersion then throw .noMember else return none
  | .named name =>
    match (← get).folder.module? name with
    | some (.scanner t) =>
      if t.version = tableVersion then return some (← ofTable d members t) else return none
    | some (.parser t) => if t.version = tableVersion then throw .noMember else return none
    | _ => return none

def writeTable (s : Scanner) (o : ScannerOptions) (table : TableModule) : BuildM Unit := do
  let refuse (reason : String) : BuildM Unit := do
    warn (← filledText ("Couldn't write lextab module " ++ table.display ++ ". " ++ reason))
  match table with
  | .given _ _ => refuse "Won't overwrite existing lextab module"
  | .named name =>
    let folder ← match o.outputFolder with
      | some folder => pure folder
      | none => if name.toList.contains '.' then moduleFolder (packagePart name) else pure ""
    let path := Folder.modulePath folder (lastPart name)
    match (← get).folder.writeError? path with
    | some reason => refuse reason
    | none =>
      modify fun site =>
        { site with folder := site.folder.write path (.scanner (tableOf s o)) }

end ScannerBuild

open ScannerBuild in
def buildScanner (d : Description) (members : Members) (o : ScannerOptions) : BuildM Scanner := do
  let table ← o.table.inPackage members
  let before := (← get).errors
  let rules ← TokenRules.collect d members
  unless o.optimize do
    rules.check d o.flags
    if (← get).errors > before then throw (.malformed (some "Can't build lexer"))
  let usesTable := o.optimize && match table with
    | .named name => !name.isEmpty
    | .given _ _ => true
  if usesTable then
    match ← load? d members table with
    | some s => return s
    | none => pure ()
  if o.debug then
    say ("lex: tokens   = " ++ rules.tokens.display)
    say ("lex: literals = " ++ displayMember rules.literals)
    say ("lex: states   = " ++ displayStates rules.states)
  let kinds ← kindsOf rules
  let literals ← literalsOf rules
  let states ← joinStates rules members o
  warnMissing rules
  let s : Scanner :=
    { states
      ignoredIn := ignoredOf rules
      errorsIn := errorsOf rules
      endsIn := rules.ends
      kinds := kinds ++ literals.toList.map Char.toString
      literals
      isOptimized := o.optimize
      file := d.file }
  let s ← s.enter initialState
  if usesTable then writeTable s o table
  return s

end PerlJava.Generator
