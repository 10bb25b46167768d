import PerlJava.Fault
import PerlJava.Generator.Description
import PerlJava.Perl.Token
import PerlJava.Regex.Pattern

/-!
# Scanners

A scanner finds tokens by patterns, one list of them for each of its states. Each pattern joins
several rules; the group that closes a match last tells which rule has matched. A rule is a kind of
token or a function, and functions can change the scanner.

`Scanner.next` takes the text, its length and the ignored characters as they are when it begins:
what a function changes is seen where the scanner looks again.
-/

namespace PerlJava.Generator

/-- What a group of a pattern stands for. -/
inductive RuleUse where
  /-- Text that makes no token. -/
  | ignored
  | token (kind : String)
  | function (f : Function) (kind : String)
deriving Inhabited

/-- A pattern that joins rules. -/
structure MasterPattern where
  text : String
  regex : Regex
  /-- What the groups stand for, by number, as far as they stand for something. -/
  uses : List (Option RuleUse)
deriving Inhabited

structure Scanner where
  /-- The patterns of each state. -/
  states : OrderedMap String (List MasterPattern)
  /-- The characters that each state ignores. -/
  ignoredIn : OrderedMap String String := {}
  errorsIn : OrderedMap String (Option Function) := {}
  endsIn : OrderedMap String Function := {}
  /-- The kinds of tokens that rules may deliver. -/
  kinds : List String := []
  /-- Characters that are tokens by themselves. -/
  literals : String := ""
  /-- Whether the kinds of tokens go unchecked. -/
  isOptimized : Bool := false
  file : String := ""
  state : String := ""
  patterns : List MasterPattern := []
  ignored : String := ""
  errorRule : Option Function := none
  endRule : Option Function := none
  stack : List String := []
  data : Option (List Char) := none
  position : Nat := 0
  line : Nat := 1

namespace Scanner

def enter (s : Scanner) (state : String) : Except Fault Scanner :=
  match s.states.get? state with
  | none => .error .badValue
  | some patterns => .ok { s with
      state
      patterns
      ignored := (s.ignoredIn.get? state).getD ""
      errorRule := (s.errorsIn.get? state).join
      endRule := s.endsIn.get? state }

def input (s : Scanner) (text : String) : Scanner :=
  { s with data := some text.toList, position := 0 }

def inputDatum (s : Scanner) (d : Datum) : Except Fault Scanner :=
  match d with
  | .text text => .ok (s.input text)
  | .list _ | .tuple _ => .error .badValue
  | _ => .error .illTyped

/-- The scanner with its functions taken anew from members. Of the patterns of each state only the
last is kept. -/
def rebind (s : Scanner) (members : Members) : Except Fault Scanner := do
  let find (f : Function) : Except Fault Function :=
    (function? members f.name).elim (.error .noMember) .ok
  let states ← s.states.entries.mapM fun (state, patterns) => do
    let rebound ← patterns.mapM fun p => do
      let uses ← p.uses.mapM fun use => do
        match use with
        | some (.function f kind) => return some (RuleUse.function (← find f) kind)
        | use => return use
      return { p with uses }
    return (state, rebound.drop (rebound.length - 1))
  let errorsIn ← s.errorsIn.entries.mapM fun (state, f) => do
    match f with
    | some f => return (state, some (← find f))
    | none => throw .noMember
  return { s with states := .ofList states, errorsIn := .ofList errorsIn }

/-- A scanner at work, with the text kept for the end. -/
structure Work where
  scanner : Scanner
  more : Option String := none

abbrev ScanM := EStateM Fault Work

def change (f : Scanner → Scanner) : ScanM Unit :=
  modify fun w => { w with scanner := f w.scanner }

def change? (f : Scanner → Except Fault Scanner) : ScanM Unit := do
  let scanner ← f (← get).scanner
  modify fun w => { w with scanner }

def cursorAt (data : List Char) (position : Nat) : Cursor :=
  (Cursor.ofList data).advance position

def findRule (patterns : List MasterPattern) (cursor : Cursor) :
    Option (MasterPattern × Regex.Progress) :=
  patterns.findSome? fun p => (p.regex.matchAt cursor).map (p, ·)

def useOf (pattern : MasterPattern) (group : Option Nat) : ScanM RuleUse :=
  match group with
  | none => throw .illTyped
  | some number =>
    match pattern.uses[number]? with
    | none => throw .outOfRange
    | some none => throw .illTyped
    | some (some use) => return use

def checkKind (f : Function) (t : Token) : ScanM Unit := do
  let s := (← get).scanner
  unless s.isOptimized || s.kinds.contains t.kind do
    throw (.unscannable (s.file ++ ":" ++ toString f.line ++ ": Rule '" ++ f.name
      ++ "' returned an unknown token type '" ++ t.kind ++ "'"))

mutual

def call : (fuel : Nat) → Function → Token → ScanM (Option Token)
  | 0, _, _ => throw .exhausted
  | fuel + 1, f, t =>
    if f.arguments = 1 then act fuel f.actions t else throw .illTyped

/-- Does what a function does with a token. -/
def act : (fuel : Nat) → List TokenAction → Token → ScanM (Option Token)
  | 0, _, _ => throw .exhausted
  | _, [], _ => return none
  | fuel + 1, action :: rest, t => do
    match action with
    | .deliver => return some t
    | .drop => return none
    | .setKind kind => act fuel rest { t with kind }
    | .capitalize => act fuel rest { t with value := Text.capitals t.value }
    | .pushState state =>
      change fun s => { s with stack := s.state :: s.stack }
      change? (·.enter state)
      act fuel rest t
    | .popState =>
      match (← get).scanner.stack with
      | [] => throw .outOfRange
      | state :: stack =>
        change fun s => { s with stack }
        change? (·.enter state)
        act fuel rest t
    | .enterState state =>
      change? (·.enter state)
      act fuel rest t
    | .skip count =>
      change fun s => { s with position := (s.position + count).toNat }
      act fuel rest t
    | .countLines =>
      change fun s => { s with line := s.line + t.value.toList.count '\n' }
      act fuel rest t
    | .showState => act fuel rest { t with value := (← get).scanner.state }
    | .readMore =>
      match (← get).more with
      | none => return none
      | some text =>
        modify fun w => { scanner := w.scanner.input text, more := none }
        next fuel

def next : (fuel : Nat) → ScanM (Option Token)
  | 0 => throw .exhausted
  | fuel + 1 => do
    let s := (← get).scanner
    let data := s.data.getD []
    scan fuel data data.length s.position s.ignored

/-- Looks for a token from a place on. -/
def scan : (fuel : Nat) → (data : List Char) → (length position : Nat) → (ignored : String) →
    ScanM (Option Token)
  | 0, _, _, _, _ => throw .exhausted
  | fuel + 1, data, length, position, ignored => do
    let s := (← get).scanner
    match (if position < length then data[position]? else none) with
    | none => atEnd fuel position
    | some c =>
      if ignored.toList.contains c then scan fuel data length (position + 1) ignored
      else
        match findRule s.patterns (cursorAt data position) with
        | none => noRule fuel data length position ignored c
        | some (pattern, found) =>
          let stop := found.cursor.position
          let value := String.ofList ((data.drop position).take (stop - position))
          match ← useOf pattern found.lastGroup with
          | .ignored => scan fuel data length stop ignored
          | .token kind =>
            if kind.isEmpty then scan fuel data length stop ignored
            else
              change fun s => { s with position := stop }
              return some ⟨kind, value, s.line, position⟩
          | .function f kind =>
            change fun s => { s with position := stop }
            match ← call fuel f ⟨kind, value, s.line, position⟩ with
            | none =>
              let s := (← get).scanner
              scan fuel data length s.position s.ignored
            | some t =>
              checkKind f t
              return some t

/-- What is done where no rule matches: a literal is a token, and else the function for errors has
to move on. -/
def noRule : (fuel : Nat) → (data : List Char) → (length position : Nat) → (ignored : String) →
    (c : Char) → ScanM (Option Token)
  | 0, _, _, _, _, _ => throw .exhausted
  | fuel + 1, data, length, position, ignored, c => do
    let s := (← get).scanner
    if s.literals.toList.contains c then
      change fun s => { s with position := position + 1 }
      return some ⟨c.toString, c.toString, s.line, position⟩
    change fun s => { s with position }
    match s.errorRule with
    | none =>
      throw (.unscannable ("Illegal character '" ++ c.toString ++ "' at index "
        ++ toString position))
    | some f =>
      let rest := String.ofList ((s.data.getD []).drop position)
      let made ← call fuel f ⟨"error", rest, s.line, position⟩
      let moved := (← get).scanner.position
      if moved = position then
        throw (.unscannable ("Scanning error. Illegal character '" ++ c.toString ++ "'"))
      match made with
      | none => scan fuel data length moved ignored
      | some t => return some t

def atEnd : (fuel : Nat) → (position : Nat) → ScanM (Option Token)
  | 0, _ => throw .exhausted
  | fuel + 1, position => do
    let s := (← get).scanner
    match s.endRule with
    | some f =>
      change fun s => { s with position }
      call fuel f ⟨"eof", "", s.line, position⟩
    | none =>
      change fun s => { s with position := position + 1 }
      if s.data.isNone then throw .inconsistent
      return none

end

def stepLimit (w : Work) : Nat :=
  100 * ((w.scanner.data.getD []).length + (w.more.getD "").length + 100)

def nextToken : ScanM (Option Token) := do
  next (stepLimit (← get))

/-- The tokens up to the end, at most `limit`, and the reason why there are no more of them if
something went wrong. -/
def tokens : (limit : Nat) → List Token → Work → List Token × Option Fault × Work
  | 0, found, w => (found.reverse, none, w)
  | limit + 1, found, w =>
    match nextToken w with
    | .error e w => (found.reverse, some e, w)
    | .ok none w => (found.reverse, none, w)
    | .ok (some t) w => tokens limit (t :: found) w

end Scanner

end PerlJava.Generator
