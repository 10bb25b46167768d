import PerlJava.Regex.Match
import PerlJava.Text.Quoted

/-!
# Patterns

The text form of regular expressions. `Pattern.read` gives the expression that a pattern stands for
and the numbers of its named groups, or says what is wrong with the pattern and where.

A pattern is read token by token; a backslash and the character after it are one token.
-/

namespace PerlJava

/-- How a pattern is meant. -/
structure PatternFlags where
  ignoreCase : Bool := false
  multiline : Bool := false
  dotAll : Bool := false
  verbose : Bool := false
  ascii : Bool := false
deriving Repr, DecidableEq

namespace PatternFlags

def folding (f : PatternFlags) : Folding :=
  if f.ignoreCase then (if f.ascii then .ascii else .full) else .exact

def switchOn (f : PatternFlags) : Char → PatternFlags
  | 'i' => { f with ignoreCase := true }
  | 'm' => { f with multiline := true }
  | 's' => { f with dotAll := true }
  | 'x' => { f with verbose := true }
  | 'a' => { f with ascii := true }
  | 'u' => { f with ascii := false }
  | _ => f

def switchOff (f : PatternFlags) : Char → PatternFlags
  | 'i' => { f with ignoreCase := false }
  | 'm' => { f with multiline := false }
  | 's' => { f with dotAll := false }
  | 'x' => { f with verbose := false }
  | _ => f

end PatternFlags

/-- What is wrong with a pattern, and where. -/
structure PatternError where
  reason : String
  position : Option Nat := none
deriving Repr, DecidableEq

def PatternError.message (e : PatternError) (pattern : String) : String :=
  match e.position with
  | none => e.reason
  | some position =>
    let text := e.reason ++ " at position " ++ toString position
    let before := pattern.toList.take position
    if pattern.toList.contains '\n' then
      let column := (before.reverse.takeWhile (· != '\n')).length + 1
      text ++ " (line " ++ toString (before.count '\n' + 1) ++ ", column " ++ toString column ++ ")"
    else text

/-- The least and the greatest length of the texts that an expression matches. -/
structure Width where
  least : Nat
  most : Option Nat
deriving Repr, DecidableEq, Inhabited

namespace Width

def zero : Width := ⟨0, some 0⟩

def add (a b : Width) : Width :=
  ⟨a.least + b.least, a.most.bind fun m => b.most.map (m + ·)⟩

def join (a b : Width) : Width :=
  ⟨min a.least b.least, a.most.bind fun m => b.most.map (max m)⟩

def times (w : Width) (least : Nat) (most : Option Nat) : Width :=
  ⟨w.least * least, if w.most = some 0 then some 0 else w.most.bind fun m => most.map (m * ·)⟩

end Width

/-- The width of an expression, given those of its groups. -/
def Regex.width (groups : Nat → Width) : Regex → Width
  | .empty | .anchor _ | .ahead _ _ | .behind _ _ _ => .zero
  | .one _ => ⟨1, some 1⟩
  | .seq first second => (first.width groups).add (second.width groups)
  | .alt first second => (first.width groups).join (second.width groups)
  | .rep least most _ body => (body.width groups).times least most
  | .group _ body | .atomic body => body.width groups
  | .backref number _ => groups number
  | .ifGroup _ yes no => (yes.width groups).join (no.width groups)

/-- A pattern that has been read. -/
structure Pattern where
  regex : Regex
  /-- The named groups with their numbers, in order. -/
  names : List (String × Nat) := []
deriving Inhabited

namespace Pattern

/-- A token of a pattern. -/
inductive Piece where
  | plain (c : Char)
  | escaped (c : Char)
deriving Repr, DecidableEq

def Piece.chars : Piece → List Char
  | plain c => [c]
  | escaped c => ['\\', c]

def Piece.text (p : Piece) : String :=
  String.ofList p.chars

/-- How far the reading of a pattern has come. -/
structure Reading where
  rest : List Char
  position : Nat := 0
  /-- The flags of the pattern as a whole. -/
  flags : PatternFlags
  /-- The widths of the groups from number one on; an open group has none yet. -/
  widths : Array (Option Width) := #[]
  names : List (String × Nat) := []
  /-- Inside a look-behind, the number of the first group in it. -/
  behindGroup : Option Nat := none
  /-- The groups that choices depend on, with their places. -/
  conditions : List (Nat × Nat) := []
  /-- Whether a look-behind has no fixed width. -/
  variableBehind : Bool := false

abbrev Reader := EStateM PatternError Reading

/-- Gives up, pointing `offset` characters before the place that has been reached. -/
def fail {α : Type} (reason : String) (offset : Nat := 0) : Reader α := do
  throw ⟨reason, some ((← get).position - offset)⟩

def checkEnd : Reader Unit := do
  if (← get).rest = ['\\'] then fail "bad escape (end of pattern)"

def peek : Reader (Option Piece) := do
  match (← get).rest with
  | [] => return none
  | '\\' :: c :: _ => return some (.escaped c)
  | c :: _ => return some (.plain c)

def take : Reader (Option Piece) := do
  let piece ← peek
  let length := (piece.map (·.chars.length)).getD 0
  modify fun r => { r with rest := r.rest.drop length, position := r.position + length }
  checkEnd
  return piece

def accept (c : Char) : Reader Bool := do
  if (← peek) = some (.plain c) then
    let _ ← take
    return true
  return false

/-- Takes up to `n` characters of a class. -/
def takeChars (p : Char → Bool) : (n : Nat) → Reader (List Char)
  | 0 => return []
  | n + 1 => do
    match ← peek with
    | some (.plain c) =>
      if p c then
        let _ ← take
        return c :: (← takeChars p n)
      return []
    | _ => return []

def takeAll (p : Char → Bool) : Reader (List Char) := do
  takeChars p (← get).rest.length

def takeName (terminator : Char) (what : String) : (fuel : Nat) → List Char → Reader String
  | 0, _ => fail ("missing " ++ what)
  | fuel + 1, found => do
    match ← take with
    | none =>
      if found.isEmpty then fail ("missing " ++ what)
      fail ("missing " ++ terminator.toString ++ ", unterminated name") found.length
    | some piece =>
      if piece = .plain terminator then
        if found.isEmpty then fail ("missing " ++ what) 1
        return String.ofList found
      takeName terminator what fuel (found ++ piece.chars)

def takeGroupName (terminator : Char) : Reader String := do
  takeName terminator "group name" ((← get).rest.length + 1) []

def isName (text : String) : Bool :=
  match text.toList with
  | [] => false
  | c :: rest => (c == '_' || Text.isLetter c) && rest.all Text.isWord

def checkName (name : String) : Reader Unit := do
  unless isName name do
    fail ("bad character in group name " ++ Text.quoted name) (name.length + 1)

/-! ### Groups -/

def nextGroup : Reader Nat := do
  return (← get).widths.size + 1

def openGroup (name : Option String) : Reader Nat := do
  let number ← nextGroup
  modify fun r => { r with widths := r.widths.push none }
  if let some name := name then
    if let some other := (← get).names.lookup name then
      fail ("redefinition of group name " ++ Text.quoted name ++ " as group " ++ toString number
        ++ "; was group " ++ toString other) (name.length + 1)
    modify fun r => { r with names := r.names ++ [(name, number)] }
  return number

def groupWidth? (number : Nat) : Reader (Option Width) := do
  return ((← get).widths[number - 1]?).join

def widthOf (r : Regex) : Reader Width := do
  let widths := (← get).widths
  return r.width fun number => ((widths[number - 1]?).join).getD .zero

/-- Refuses a reference to a group from within the look-behind that the group is in. -/
def checkBehind (number : Nat) : Reader Unit := do
  if let some first := (← get).behindGroup then
    if (← groupWidth? number).isNone then fail "cannot refer to an open group"
    if number ≥ first then
      fail "cannot refer to group defined in the same lookbehind subpattern"

def reference (number offset : Nat) (flags : PatternFlags) : Reader Regex := do
  if (← groupWidth? number).isNone then fail "cannot refer to an open group" offset
  checkBehind number
  return .backref number flags.folding

/-! ### Escapes -/

def isOctal (c : Char) : Bool :=
  '0' ≤ c && c ≤ '7'

def isHex (c : Char) : Bool :=
  Text.isAsciiDigit c || ('a' ≤ c && c ≤ 'f') || ('A' ≤ c && c ≤ 'F')

def digitOf (c : Char) : Nat :=
  if Text.isAsciiDigit c then c.toNat - '0'.toNat else c.toLower.toNat - 'a'.toNat + 10

def numberOf (base : Nat) (digits : List Char) : Nat :=
  digits.foldl (fun n c => n * base + digitOf c) 0

/-- The character that an escape of a control character stands for. -/
def control? : Char → Option Nat
  | 'a' => some 7
  | 'b' => some 8
  | 'f' => some 12
  | 'n' => some 10
  | 'r' => some 13
  | 't' => some 9
  | 'v' => some 11
  | '\\' => some 92
  | _ => none

variable (flags : PatternFlags)

def class? : Char → Option ClassItem
  | 'd' => some (if flags.ascii then .asciiDigit else .digit)
  | 'D' => some (if flags.ascii then .notAsciiDigit else .notDigit)
  | 's' => some (if flags.ascii then .asciiBlank else .blank)
  | 'S' => some (if flags.ascii then .notAsciiBlank else .notBlank)
  | 'w' => some (if flags.ascii then .asciiWord else .word)
  | 'W' => some (if flags.ascii then .notAsciiWord else .notWord)
  | _ => none

def anchor? : Char → Option Anchor
  | 'A' => some .textStart
  | 'Z' => some .veryEnd
  | 'b' => some (if flags.ascii then .asciiWordEdge else .wordEdge)
  | 'B' => some (if flags.ascii then .notAsciiWordEdge else .notWordEdge)
  | _ => none

def badEscape {α : Type} (escape : List Char) : Reader α :=
  fail ("bad escape " ++ String.ofList escape) escape.length

/-- A character given by a fixed number of hexadecimal digits. -/
def readHex (letter : Char) (count : Nat) : Reader Nat := do
  let digits ← takeChars isHex count
  let escape := ['\\', letter] ++ digits
  if digits.length < count then
    fail ("incomplete escape " ++ String.ofList escape) escape.length
  let n := numberOf 16 digits
  if n > 0x10ffff then badEscape escape
  return n

def readNamed {α : Type} : Reader α := do
  unless ← accept '\x7b' do fail "missing \x7b"
  let name ← takeName '\x7d' "character name" ((← get).rest.length + 1) []
  fail ("undefined character name " ++ Text.quoted name) (name.length + 4)

def checkOctal (digits : List Char) : Reader Nat := do
  let n := numberOf 8 digits
  if n > 255 then
    fail ("octal escape value \\" ++ String.ofList digits ++ " outside of range 0-0o377")
      (digits.length + 1)
  return n

/-- The character of an escape that means the same in a set and outside. -/
def readCharEscape (c : Char) : Reader Nat := do
  match c with
  | 'x' => readHex c 2
  | 'u' => readHex c 4
  | 'U' => readHex c 8
  | 'N' => readNamed
  | c =>
    if Text.isAsciiLetter c || Text.isAsciiDigit c then badEscape ['\\', c]
    return c.toNat

/-- A member of a set. -/
inductive Member where
  | char (n : Nat)
  | item (i : ClassItem)
deriving Repr, DecidableEq

def readSetEscape (c : Char) : Reader Member := do
  if let some n := control? c then return .char n
  if let some i := class? flags c then return .item i
  if isOctal c then
    return .char (← checkOctal (c :: (← takeChars isOctal 2)))
  return .char (← readCharEscape c)

def single (n : Nat) : Regex :=
  .one { items := [.char (Char.ofNat n)], folding := flags.folding }

/-- The expression that an escape of a number stands for: a character, or a group. -/
def readNumberEscape (c : Char) : Reader Regex := do
  if c = '0' then
    return single flags (numberOf 8 (c :: (← takeChars isOctal 2)))
  let second ← takeChars Text.isAsciiDigit 1
  if isOctal c && second.all isOctal && !second.isEmpty then
    let third ← takeChars isOctal 1
    unless third.isEmpty do
      return single flags (← checkOctal ([c] ++ second ++ third))
  let digits := c :: second
  let number := numberOf 10 digits
  if number < (← nextGroup) then
    reference number (digits.length + 1) flags
  else fail ("invalid group reference " ++ toString number) digits.length

/-! ### Parts of a sequence -/

/-- What a part of a sequence is, as far as its repetition is concerned. -/
inductive PartKind where
  | anchor
  | repetition
  | other
deriving Repr, DecidableEq

/-- A part of a sequence. -/
structure Part where
  regex : Regex
  kind : PartKind := .other

def readEscape (c : Char) : Reader Part := do
  if let some a := anchor? flags c then return ⟨.anchor a, .anchor⟩
  if let some i := class? flags c then
    return { regex := .one { items := [i], folding := flags.folding } }
  if let some n := control? c then return { regex := single flags n }
  if Text.isAsciiDigit c then return { regex := ← readNumberEscape flags c }
  return { regex := single flags (← readCharEscape c) }

def readMember : Piece → Reader Member
  | .escaped c => readSetEscape flags c
  | .plain c => return .char c.toNat

def Member.classItem : Member → ClassItem
  | char n => .char (Char.ofNat n)
  | item i => i

def readMembers (flags : PatternFlags) (start : Nat) :
    (fuel : Nat) → List ClassItem → Reader (List ClassItem)
  | 0, items => return items
  | fuel + 1, items => do
    let unterminated : Reader (List ClassItem) :=
      throw ⟨"unterminated character set", some start⟩
    match ← take with
    | none => unterminated
    | some piece =>
      if piece = .plain ']' && !items.isEmpty then return items
      let low ← readMember flags piece
      if ← accept '-' then
        match ← take with
        | none => unterminated
        | some (.plain ']') => return items ++ [low.classItem, .char '-']
        | some last =>
          let high ← readMember flags last
          let bad : Reader (List ClassItem) :=
            fail ("bad character range " ++ piece.text ++ "-" ++ last.text)
              (piece.chars.length + 1 + last.chars.length)
          match low, high with
          | .char low, .char high =>
            if high < low then bad
            else
              let range := ClassItem.range (Char.ofNat low) (Char.ofNat high)
              readMembers flags start fuel (items ++ [range])
          | _, _ => bad
      else readMembers flags start fuel (items ++ [low.classItem])

def readSet : Reader Part := do
  let start := (← get).position - 1
  let negated ← accept '^'
  let items ← readMembers flags start ((← get).rest.length + 1) []
  return { regex := .one { items, negated, folding := flags.folding } }

/-- The counts of a repetition, or nothing if a brace is just a brace. -/
def readCounts (c : Char) : Reader (Option (Nat × Option Nat)) := do
  match c with
  | '?' => return some (0, some 1)
  | '*' => return some (0, none)
  | '+' => return some (1, none)
  | _ =>
    if (← peek) = some (.plain '\x7d') then return none
    let start ← get
    let low ← takeAll Text.isAsciiDigit
    let high ← if ← accept ',' then takeAll Text.isAsciiDigit else pure low
    if !(← accept '\x7d') then
      set start
      return none
    let least := numberOf 10 low
    if high.isEmpty then return some (least, none)
    let most := numberOf 10 high
    if most < least then
      throw ⟨"min repeat greater than max repeat", some start.position⟩
    return some (least, some most)

/-- Reads a repetition after its sign and applies it to the parts before it, last first. -/
def readRepetition (c : Char) (parts : List Part) : Reader (List Part) := do
  let place := (← get).position - 1
  match ← readCounts c with
  | none => return { regex := single flags c.toNat } :: parts
  | some (least, most) =>
    match parts with
    | [] => throw ⟨"nothing to repeat", some place⟩
    | part :: before =>
      if part.kind = .anchor then throw ⟨"nothing to repeat", some place⟩
      if part.kind = .repetition then throw ⟨"multiple repeat", some place⟩
      if ← accept '?' then return ⟨.rep least most true part.regex, .repetition⟩ :: before
      let regex : Regex := .rep least most false part.regex
      if ← accept '+' then return ⟨.atomic regex, .repetition⟩ :: before
      return ⟨regex, .repetition⟩ :: before

def skipLine : (fuel : Nat) → Reader Unit
  | 0 => return
  | fuel + 1 => do
    match ← take with
    | none | some (.plain '\n') => return
    | some _ => skipLine fuel

def skipComment (start : Nat) : (fuel : Nat) → Reader Unit
  | 0 => return
  | fuel + 1 => do
    match ← take with
    | none => throw ⟨"missing ), unterminated comment", some start⟩
    | some (.plain ')') => return
    | some _ => skipComment start fuel

/-! ### Flags within a pattern -/

def flagLetters : List Char :=
  ['i', 'L', 'm', 's', 'x', 'a', 't', 'u']

def typeFlags : List Char :=
  ['a', 'L', 'u']

/-- Refuses a token where a flag or one of some signs is wanted. -/
def badFlag {α : Type} (wanted : String) (piece : Option Piece) : Reader α :=
  match piece with
  | none => fail wanted
  | some piece =>
    let isLetter := piece.chars.all Text.isLetter
    fail (if isLetter then "unknown flag" else wanted) piece.chars.length

/-- Reads the letters of flags to switch on, up to a sign that ends them. -/
def readOn : (fuel : Nat) → Char → List Char → Reader (List Char × Char)
  | 0, c, on => return (on, c)
  | fuel + 1, c, on => do
    if c = 'L' then fail "bad inline flags: cannot use 'L' flag with a str pattern"
    if typeFlags.contains c && on.any fun d => typeFlags.contains d && d != c then
      fail "bad inline flags: flags 'a', 'u' and 'L' are incompatible"
    let on := on ++ [c]
    match ← take with
    | some (.plain c) =>
      if [')', '-', ':'].contains c then return (on, c)
      if flagLetters.contains c then readOn fuel c on
      else badFlag "missing -, : or )" (some (.plain c))
    | piece => badFlag "missing -, : or )" piece

/-- Reads the letters of flags to switch off, up to a colon. -/
def readOff : (fuel : Nat) → Char → List Char → Reader (List Char)
  | 0, _, off => return off
  | fuel + 1, c, off => do
    if typeFlags.contains c then
      fail "bad inline flags: cannot turn off flags 'a', 'u' and 'L'"
    let off := off ++ [c]
    match ← take with
    | some (.plain ':') => return off
    | some (.plain c) =>
      if flagLetters.contains c then readOff fuel c off
      else badFlag "missing :" (some (.plain c))
    | piece => badFlag "missing :" piece

/-- Reads flags from their first character on: those to switch on and off, or nothing if they are
for the pattern as a whole. -/
def readFlags (c : Char) : Reader (Option (List Char × List Char)) := do
  let fuel := (← get).rest.length + 1
  let (on, stop) ← if c = '-' then pure ([], c) else readOn fuel c []
  if stop = ')' then
    modify fun r => { r with flags := on.foldl .switchOn r.flags }
    return none
  if on.contains 't' then fail "bad inline flags: cannot turn on global flag" 1
  let off ← if stop = '-' then
      match ← take with
      | some (.plain c) =>
        if flagLetters.contains c then readOff fuel c []
        else badFlag "missing flag" (some (.plain c))
      | piece => badFlag "missing flag" piece
    else pure []
  if off.contains 't' then fail "bad inline flags: cannot turn off global flag" 1
  if on.any off.contains then fail "bad inline flags: flag turned on and off" 1
  return some (on, off)

/-! ### Groups and sequences -/

/-- What an opening parenthesis begins. -/
inductive Opening where
  | capture (name : Option String)
  | plain (flags : PatternFlags)
  | atomic
  | look (negative behind : Bool)
  | reference (regex : Regex)
  | condition (group : Nat)
  /-- Nothing that is left once it has been read. -/
  | nothing

def takeSome : Reader Piece := do
  match ← take with
  | some piece => return piece
  | none => fail "unexpected end of pattern"

def readCondition : Reader Opening := do
  let name ← takeGroupName ')'
  let number ← if isName name then
      match (← get).names.lookup name with
      | some number => pure number
      | none => fail ("unknown group name " ++ Text.quoted name) (name.length + 1)
    else if name.toList.all Text.isAsciiDigit then
      let number := numberOf 10 name.toList
      if number = 0 then fail "bad group number" (name.length + 1)
      let r ← get
      set { r with conditions := r.conditions ++ [(number, r.position - name.length - 1)] }
      pure number
    else fail ("bad character in group name " ++ Text.quoted name) (name.length + 1)
  checkBehind number
  return .condition number

/-- Reads what follows the question mark after an opening parenthesis at a place. `first` says that
the parenthesis is the first token of the pattern. -/
def readExtension (start : Nat) (first : Bool) : Reader Opening := do
  let piece ← takeSome
  match piece with
  | .plain 'P' =>
    if ← accept '<' then
      let name ← takeGroupName '>'
      checkName name
      return .capture (some name)
    if ← accept '=' then
      let name ← takeGroupName ')'
      checkName name
      match (← get).names.lookup name with
      | some number => return .reference (← reference number (name.length + 1) flags)
      | none => fail ("unknown group name " ++ Text.quoted name) (name.length + 1)
    let piece ← takeSome
    fail ("unknown extension ?P" ++ piece.text) (piece.chars.length + 2)
  | .plain ':' => return .plain flags
  | .plain '#' =>
    skipComment start ((← get).rest.length + 1)
    return .nothing
  | .plain '=' => return .look false false
  | .plain '!' => return .look true false
  | .plain '<' =>
    match ← takeSome with
    | .plain '=' => return .look false true
    | .plain '!' => return .look true true
    | piece => fail ("unknown extension ?<" ++ piece.text) (piece.chars.length + 2)
  | .plain '(' => readCondition
  | .plain '>' => return .atomic
  | piece =>
    let flag? := match piece with
      | .plain c => if flagLetters.contains c || c = '-' then some c else none
      | .escaped _ => none
    match flag? with
    | none => fail ("unknown extension ?" ++ piece.text) (piece.chars.length + 1)
    | some c =>
      match ← readFlags c with
      | some (on, off) => return .plain (off.foldl .switchOff (on.foldl .switchOn flags))
      | none =>
        unless first do
          throw ⟨"global flags not at the start of the expression", some start⟩
        return .nothing

def close (start : Nat) : Reader Unit := do
  unless ← accept ')' do
    throw ⟨"missing ), unterminated subpattern", some start⟩

def joinParts (parts : List Part) : Regex :=
  parts.foldl (fun rest part =>
    if rest = .empty then part.regex else .seq part.regex rest) .empty

def closeGroup (number : Nat) (body : Regex) : Reader Unit := do
  let width ← widthOf body
  modify fun r => { r with widths := r.widths.setIfInBounds (number - 1) (some width) }

mutual

def readAlternatives (own : Option PatternFlags) : (fuel : Nat) → Reader Regex
  | 0 => return .empty
  | fuel + 1 => do
    let regex ← readSequence own own.isNone fuel []
    readOthers own fuel regex

def readOthers (own : Option PatternFlags) : (fuel : Nat) → Regex → Reader Regex
  | 0, regex => return regex
  | fuel + 1, regex => do
    if ← accept '|' then
      let other ← readSequence own false fuel []
      return .alt regex (← readOthers own fuel other)
    return regex

def readSequence (own : Option PatternFlags) (first : Bool) :
    (fuel : Nat) → List Part → Reader Regex
  | 0, parts => return joinParts parts
  | fuel + 1, parts => do
    match ← peek with
    | none | some (.plain '|') | some (.plain ')') => return joinParts parts
    | some piece =>
      let _ ← take
      let flags := own.getD (← get).flags
      if flags.verbose && piece.chars.all Text.isAsciiBlank then
        readSequence own first fuel parts
      else if flags.verbose && piece = .plain '#' then
        skipLine ((← get).rest.length + 1)
        readSequence own first fuel parts
      else
        match piece with
        | .escaped c => readSequence own first fuel ((← readEscape flags c) :: parts)
        | .plain '[' => readSequence own first fuel ((← readSet flags) :: parts)
        | .plain '.' =>
          let items := if flags.dotAll then [] else [ClassItem.char '\n']
          readSequence own first fuel ({ regex := Regex.noneOf items } :: parts)
        | .plain '^' =>
          let a : Anchor := if flags.multiline then .lineStart else .textStart
          readSequence own first fuel (⟨.anchor a, .anchor⟩ :: parts)
        | .plain '$' =>
          let a : Anchor := if flags.multiline then .lineEnd else .textEnd
          readSequence own first fuel (⟨.anchor a, .anchor⟩ :: parts)
        | .plain '(' =>
          let made ← readGroup flags (first && parts.isEmpty) fuel
          readSequence own first fuel (made.toList ++ parts)
        | .plain c =>
          if ['*', '+', '?', '\x7b'].contains c then
            readSequence own first fuel (← readRepetition flags c parts)
          else readSequence own first fuel ({ regex := single flags c.toNat } :: parts)

/-- Reads a group after its opening parenthesis. -/
def readGroup (flags : PatternFlags) (first : Bool) : (fuel : Nat) → Reader (Option Part)
  | 0 => return none
  | fuel + 1 => do
    let start := (← get).position - 1
    let opening ← if ← accept '?' then readExtension flags start first
      else pure (.capture none)
    match opening with
    | .nothing => return none
    | .reference regex => return some { regex }
    | .capture name =>
      let number ← openGroup name
      let body ← readAlternatives (some flags) fuel
      close start
      closeGroup number body
      return some { regex := .group number body }
    | .plain flags =>
      let body ← readAlternatives (some flags) fuel
      close start
      return some { regex := body }
    | .atomic =>
      let body ← readAlternatives (some flags) fuel
      close start
      return some { regex := .atomic body }
    | .look negative false =>
      let body ← readAlternatives (some flags) fuel
      close start
      return some { regex := .ahead negative body }
    | .look negative true =>
      let outer := (← get).behindGroup
      let number ← nextGroup
      modify fun r => { r with behindGroup := some (outer.getD number) }
      let body ← readAlternatives (some flags) fuel
      modify fun r => { r with behindGroup := outer }
      close start
      let width ← widthOf body
      if width.most ≠ some width.least then
        modify fun r => { r with variableBehind := true }
      return some { regex := .behind negative width.least body }
    | .condition number =>
      let yes ← readSequence (some flags) false fuel []
      let no ← if ← accept '|' then readSequence (some flags) false fuel [] else pure .empty
      if (← peek) = some (.plain '|') then
        fail "conditional backref with more than two branches"
      close start
      return some { regex := .ifGroup number yes no }

end

def readWhole : Reader Pattern := do
  checkEnd
  let regex ← readAlternatives none (4 * (← get).rest.length + 4)
  if (← peek).isSome then fail "unbalanced parenthesis"
  let r ← get
  for (number, position) in r.conditions do
    if number > r.widths.size then
      throw ⟨"invalid group reference " ++ toString number, some position⟩
  if r.variableBehind then throw { reason := "look-behind requires fixed-width pattern" }
  return { regex, names := r.names }

/-- The expression that a pattern stands for, or what is wrong with the pattern. -/
def read (text : String) (flags : PatternFlags) : Except PatternError Pattern :=
  match readWhole { rest := text.toList, flags } with
  | .ok pattern _ => .ok pattern
  | .error e _ => .error e

end Pattern

end PerlJava
