import PerlJava.Generator.Build
import PerlJava.Regex.Pattern
import PerlJava.Text.Slice

/-!
# Rules for tokens

A description names the kinds of tokens and has rules for them. A rule is a text, which is a
pattern, or a function with a pattern. The name of a rule says for which states of the scanner it
is meant and which kind of token it finds.

`TokenRules.collect` sorts the rules by states, and `TokenRules.check` reports what is wrong with
them.
-/

namespace PerlJava.Generator

def initialState : String := "INITIAL"

/-- Which rules hold in a state: its own only, or also those of the initial state. -/
inductive StateKind where
  | exclusive
  | inclusive
deriving Repr, DecidableEq

def StateKind.text : StateKind → String
  | exclusive => "exclusive"
  | inclusive => "inclusive"

/-- The rules for tokens of a description, by states. -/
structure TokenRules where
  /-- The kinds of tokens. -/
  tokens : Datum := .list []
  literals : Member := .setting (.text "")
  states : OrderedMap String StateKind := {}
  /-- The kind of token for each rule. -/
  kinds : OrderedMap String String := {}
  functions : OrderedMap String (List (String × Function)) := {}
  patterns : OrderedMap String (List (String × String)) := {}
  /-- Characters to ignore. -/
  ignored : OrderedMap String String := {}
  errors : OrderedMap String Function := {}
  ends : OrderedMap String Function := {}

namespace TokenRules

def readTokens (members : Members) : BuildM Datum := do
  match members.get? "tokens" with
  | some (.setting value) =>
    if !value.isGiven then
      complain "No token list is defined"
      return .list []
    else if value.elements?.isNone then
      complain "tokens must be a list or tuple"
      return .list []
    else return value
  | some (.function _) =>
    complain "tokens must be a list or tuple"
    return .list []
  | none =>
    complain "No token list is defined"
    return .list []

def readLiterals (members : Members) : Member :=
  match members.get? "literals" with
  | some (.setting value) => .setting (if value.isGiven then value else .text "")
  | some (.function f) => .function f
  | none => .setting (.text "")

/-- Adds a state to those known. -/
def readState (states : OrderedMap String StateKind) (d : Datum) :
    BuildM (OrderedMap String StateKind) := do
  match d with
  | .tuple [name, kind] =>
    match name with
    | .text name =>
      let kind? : Option StateKind := match kind with
        | .text "inclusive" => some .inclusive
        | .text "exclusive" => some .exclusive
        | _ => none
      match kind? with
      | none =>
        complain ("State type for state " ++ name ++ " must be 'inclusive' or 'exclusive'")
        return states
      | some kind =>
        if states.contains name then
          complain ("State '" ++ name ++ "' already defined")
          return states
        return states.insert name kind
    | name =>
      complain ("State name " ++ name.display ++ " must be a string")
      return states
  | d =>
    complain ("Invalid state specifier " ++ d.display
      ++ ". Must be a tuple (statename,'exclusive|inclusive')")
    return states

/-- The states of a description. The initial state comes first. -/
def readStates (members : Members) : BuildM (OrderedMap String StateKind) := do
  let states := OrderedMap.ofList [(initialState, StateKind.inclusive)]
  match members.get? "states" with
  | none => return states
  | some (.setting value) =>
    if !value.isGiven then return states
    match value.elements? with
    | some elements => elements.foldlM readState states
    | none =>
      complain "states must be defined as a tuple or list"
      return states
  | some (.function _) =>
    complain "states must be defined as a tuple or list"
    return states

/-- The states that a rule is meant for and the kind of token it finds, by its name: the parts of
the name after the first are states as long as they can be, but the last part is the kind. -/
def readName (name : String) (states : List String) : List String × String :=
  let parts := (name.splitOn "_").drop 1
  let named := (parts.dropLast.takeWhile fun part => states.contains part || part = "ANY")
  let kind := "_".intercalate (parts.drop named.length)
  if named.isEmpty then ([initialState], kind)
  else if named.contains "ANY" then (states, kind)
  else (named, kind)

def addAll {α : Type} (m : OrderedMap String (List α)) (states : List String) (a : α) :
    OrderedMap String (List α) :=
  states.foldl (fun m state => m.insert state ((m.get? state).getD [] ++ [a])) m

def setAll {α : Type} (m : OrderedMap String α) (states : List String) (a : α) :
    OrderedMap String α :=
  states.foldl (fun m state => m.insert state a) m

variable (d : Description) (rules : TokenRules)

def addRule (name : String) (member : Member) : BuildM TokenRules := do
  let (states, kind) := readName name rules.states.keys
  let rules := { rules with kinds := rules.kinds.insert name kind }
  match member with
  | .function f =>
    if kind = "error" then return { rules with errors := setAll rules.errors states f }
    else if kind = "eof" then return { rules with ends := setAll rules.ends states f }
    else if kind = "ignore" then
      complain (d.place f.line ++ ": Rule '" ++ f.name ++ "' must be defined as a string")
      return rules
    else return { rules with functions := addAll rules.functions states (name, f) }
  | .setting (.text pattern) =>
    if kind = "ignore" then
      if pattern.toList.contains '\\' then
        warn (name ++ " contains a literal backslash '\\'")
      return { rules with ignored := setAll rules.ignored states pattern }
    else if kind = "error" then
      complain ("Rule '" ++ name ++ "' must be defined as a function")
      return rules
    else return { rules with patterns := addAll rules.patterns states (name, pattern) }
  | .setting _ =>
    complain (name ++ " not defined as a function or string")
    return rules

/-- The rules for tokens of a description. Functions go by line and patterns by length, the longer
first. -/
def collect (members : Members) : BuildM TokenRules := do
  let tokens ← readTokens members
  let literals := readLiterals members
  let states ← readStates members
  let none_ {α : Type} : OrderedMap String (List α) := .ofList (states.keys.map (·, []))
  let rules : TokenRules :=
    { tokens, literals, states, functions := none_, patterns := none_ }
  let named := members.entries.filter (·.1.startsWith "t_")
  if named.isEmpty then
    complain "No rules of the form t_rulename are defined"
    return rules
  let rules ← named.foldlM (fun rules (name, member) => addRule d rules name member) rules
  return { rules with
    functions := ⟨rules.functions.entries.map fun (state, found) =>
      (state, found.mergeSort fun a b => a.2.line ≤ b.2.line)⟩
    patterns := ⟨rules.patterns.entries.map fun (state, found) =>
      (state, found.mergeSort fun a b => a.2.length ≥ b.2.length)⟩ }

/-- Whether a text can name a kind of token. A line end after the name does no harm. -/
def isTokenName (name : String) : Bool :=
  let cs := name.toList
  let cs := if cs.getLast? = some '\n' then cs.dropLast else cs
  !cs.isEmpty && cs.all Text.isAsciiWord

def checkTokens : BuildM Unit := do
  let _ ← (rules.tokens.elements?.getD []).foldlM (fun (seen : List String) d => do
    match d with
    | .text name =>
      unless isTokenName name do complain ("Bad token name '" ++ name ++ "'")
      if seen.contains name then warn ("Token '" ++ name ++ "' multiply defined")
      return name :: seen
    | _ => throw Fault.illTyped) []

def checkLiterals : BuildM Unit := do
  let unusable : BuildM Unit := complain
    "Invalid literals specification. literals must be a sequence of characters"
  match rules.literals with
  | .setting (.text _) => return ()
  | .setting d =>
    match d.elements? with
    | none => unusable
    | some elements =>
      for d in elements do
        unless d.text?.any (·.length ≤ 1) do
          complain ("Invalid literal " ++ d.display ++ ". Must be a single character")
  | .function _ => unusable

def flagsOf (names : List String) : PatternFlags :=
  names.foldl (fun flags name =>
    match name with
    | "IGNORECASE" | "I" => flags.switchOn 'i'
    | "MULTILINE" | "M" => flags.switchOn 'm'
    | "DOTALL" | "S" => flags.switchOn 's'
    | "ASCII" | "A" => flags.switchOn 'a'
    | _ => flags) { verbose := true }

def flagsClash (names : List String) : Bool :=
  let has (long short : String) : Bool := names.contains long || names.contains short
  has "LOCALE" "L" || (has "ASCII" "A" && has "UNICODE" "U")

def groupText (name pattern : String) : String :=
  "(?P<" ++ name ++ ">" ++ pattern ++ ")"

/-- What is wrong with the pattern of a rule. -/
inductive PatternFlaw where
  | unreadable (message : String)
  | matchesNothing

def checkPattern (flags : List String) (name pattern : String) :
    Except Fault (Option PatternFlaw) :=
  let text := groupText name pattern
  match Pattern.read text (flagsOf flags) with
  | .error e => .ok (some (.unreadable (e.message text)))
  | .ok p =>
    if flagsClash flags then .error .badValue
    else .ok (if p.regex.matchesStart "" then some .matchesNothing else none)

def checkArguments (f : Function) : BuildM Bool := do
  if f.arguments > 1 then
    complain (d.place f.line ++ ": Rule '" ++ f.name ++ "' has too many arguments")
    return false
  else if f.arguments < 1 then
    complain (d.place f.line ++ ": Rule '" ++ f.name ++ "' requires an argument")
    return false
  else return true

def checkFunction (flags : List String) (name : String) (f : Function) : BuildM Unit := do
  if ← checkArguments d f then
    let place := d.place f.line
    match f.pattern? with
    | none => complain (place ++ ": No regular expression defined for rule '" ++ f.name ++ "'")
    | some pattern =>
      match ← checkPattern flags name pattern with
      | none => return ()
      | some .matchesNothing =>
        complain (place ++ ": Regular expression for rule '" ++ f.name
          ++ "' matches empty string")
      | some (.unreadable message) =>
        complain (place ++ ": Invalid regular expression for rule '" ++ f.name ++ "'. " ++ message)
        if pattern.toList.contains '#' then
          complain (place ++ ". Make sure '#' in rule '" ++ f.name ++ "' is escaped with '\\#'")

def checkText (flags : List String) (name pattern : String) : BuildM Unit := do
  let kind := (rules.kinds.get? name).getD ""
  let known := (rules.tokens.elements?.getD []).any (·.text? = some kind)
  if !known && !Text.occurs kind "ignore_" then
    complain ("Rule '" ++ name ++ "' defined for an unspecified token " ++ kind)
  else
    match ← checkPattern flags name pattern with
    | none => return ()
    | some .matchesNothing =>
      complain ("Regular expression for rule '" ++ name ++ "' matches empty string")
    | some (.unreadable message) =>
      complain ("Invalid regular expression for rule '" ++ name ++ "'. " ++ message)
      if pattern.toList.contains '#' then
        complain ("Make sure '#' in rule '" ++ name ++ "' is escaped with '\\#'")

def checkState (flags : List String) (state : String) : BuildM Unit := do
  let functions := (rules.functions.get? state).getD []
  let patterns := (rules.patterns.get? state).getD []
  for (name, f) in functions do checkFunction d flags name f
  for (name, pattern) in patterns do checkText rules flags name pattern
  if functions.isEmpty && patterns.isEmpty then
    complain ("No rules defined for state '" ++ state ++ "'")
  match rules.errors.get? state with
  | some f => let _ ← checkArguments d f
  | none => return ()

/-- Checks all rules. If there are functions among them, no name of a rule may stand in the file
twice. -/
def check (flags : List String) : BuildM Unit := do
  rules.checkTokens
  rules.checkLiterals
  for state in rules.states.keys do rules.checkState d flags state
  if rules.functions.values.any (!·.isEmpty) || !rules.errors.values.isEmpty then
    let isRule (e : Entry) : Bool :=
      e.name.startsWith "t_" && e.name.toList.all Text.isAsciiWord
    for (name, line, previous) in d.repetitions isRule do
      complain (d.place line ++ ": Rule " ++ name ++ " redefined. Previously defined on line "
        ++ toString previous)

end TokenRules

end PerlJava.Generator
