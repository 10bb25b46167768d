import PerlJava.Perl.Lexeme
import PerlJava.Perl.Token
import PerlJava.Perl.Vocabulary
import PerlJava.Text.Slice

/-!
# The scanner

`Scanner.step` recognises one lexeme, and `Scanner.next` goes on to the next token. What the
scanner passes over and reports is collected as notices, in the order of the text.
-/

namespace PerlJava.Perl

/-- What the scanner reports. -/
inductive Notice where
  /-- No lexeme starts with this character; it is passed over. -/
  | illegal (c : Char) (at_ : Position)
  /-- A label has an unknown word and is passed over. -/
  | unknownLabel (word : String) (at_ : Position)
deriving Repr, DecidableEq

/-- A scanner: where it is in the text, the length of the text, the line, and whether it is inside
a comment. -/
structure Scanner where
  cursor : Cursor
  size : Nat
  line : Nat := 1
  inComment : Bool := false
deriving Inhabited

/-- What one step of the scanner gives. -/
inductive Found where
  | token (t : Token)
  | nothing
  | notice (n : Notice)
deriving Repr, DecidableEq

namespace Scanner

def ofText (text : String) : Scanner :=
  { cursor := .ofText text, size := text.length }

def position (s : Scanner) : Position :=
  ⟨s.line, s.cursor.position⟩

def tokenHere (s : Scanner) (kind value : String) : Token :=
  ⟨kind, value, s.line, s.cursor.position⟩

def isSpace (c : Char) : Bool :=
  c == ' ' || c == '\t' || c == '\r'

def inside (text : List Char) : String :=
  String.ofList ((text.drop 1).dropLast)

/-- The part of an ignored block that is really left out: up to the mark after the first. -/
def blockExtent (text : List Char) : List Char :=
  let mark := "#<ignore-block>".toList
  let blocks := Text.splitByList mark 0 text
  if blocks.length > 3 then
    text.take (mark.length + ((blocks[1]?).getD []).length + mark.length)
  else text

/-- The kind and the value of the token that a rule gives for a text. `asName` holds after a sigil,
where a word is a name even if it is reserved. -/
def lexeme? (asName : Bool) (text : List Char) : Rule → Option (String × String)
  | .newlines | .packageUse | .shebang | .ignoredLine | .ignoredBlock | .comment => none
  | .floatNumber => some ("FLOAT_NUMBER", String.ofList text)
  | .intNumber => some ("INT_NUMBER", String.ofList text)
  | .quotedString => some ("STRING_QUOTE", inside text)
  | .doubleQuotedString => some ("STRING_DOUBLE_QUOTE", inside text)
  | .command => some ("CMD", inside text)
  | .matching => some ("M_REGEX", String.ofList text)
  | .substitution => some ("S_REGEX", String.ofList text)
  | .transliteration => some ("Y_REGEX", String.ofList text)
  | .javaImport => some ("JAVA_IMPORT", String.ofList (text.drop 14) ++ "\n")
  | .javaLine => some ("JAVA_LINE", String.ofList (text.drop 12) ++ "\n")
  | .repeatAssign => some ("XEQUAL", String.ofList text)
  | .word =>
    some (if asName then "ID" else wordKind (String.ofList text), String.ofList text)

def pass (s : Scanner) (text : List Char) (after : Cursor) : Rule → Scanner
  | .newlines => { s with cursor := after, line := s.line + text.length }
  | .ignoredBlock =>
    let extent := blockExtent text
    { s with
      cursor := s.cursor.advance extent.length
      line := s.line + extent.count '\n' }
  | .comment => { s with cursor := after, inComment := true }
  | _ => { s with cursor := after }

/-- The effect of a rule that matched up to `after`. -/
def applyRule (asName : Bool) (s : Scanner) (after : Cursor) (r : Rule) : Found × Scanner :=
  let text := after.textSince s.cursor
  let found := match lexeme? asName text r with
    | some (kind, value) => Found.token (s.tokenHere kind value)
    | none => .nothing
  (found, s.pass text after r)

/-- The effect of a label rule that matched up to `after`. The line end that closes a comment is
given back, so that it is counted once. -/
def applyLabelRule (s : Scanner) (after : Cursor) : LabelRule → Found × Scanner :=
  let text := after.textSince s.cursor
  let moved := { s with cursor := after }
  fun
  | .varName => (.token (s.tokenHere "VAR" (String.ofList ((text.drop 2).dropLast))), moved)
  | .word =>
    match labelWords.lookup (inside text) with
    | some kind => (.token (s.tokenHere kind (inside text)), moved)
    | none => (.notice (.unknownLabel (inside text) s.position), moved)
  | .size => (.token (s.tokenHere "SIZE" (inside text)), moved)
  | .other => (.nothing, moved)
  | .lineEnd =>
    (.token (s.tokenHere "COMMENT" (String.ofList text)), { s with inComment := false })

def firstMatch {ρ : Type} (pattern : ρ → Regex) (s : Scanner) (rules : List ρ) :
    Option (ρ × Cursor) :=
  rules.findSome? fun r => ((pattern r).matchIn s.size s.cursor).map fun p => (r, p.cursor)

def operatorHere? (s : Scanner) : Option (String × List Char) :=
  operators.find? fun (_, text) => text.isPrefixOf s.cursor.rest

/-- Recognises what stands at the place of the scanner; at the end of the text there is nothing. -/
def step (asName : Bool) (s : Scanner) : Option (Found × Scanner) :=
  match s.cursor.rest with
  | [] => none
  | c :: _ =>
    some <|
      if s.inComment then
        match s.firstMatch LabelRule.pattern LabelRule.all with
        | some (r, after) => s.applyLabelRule after r
        | none => (.nothing, { s with cursor := s.cursor.next })
      else if isSpace c then (.nothing, { s with cursor := s.cursor.next })
      else
        match s.firstMatch Rule.pattern Rule.all with
        | some (r, after) => s.applyRule asName after r
        | none =>
          match s.operatorHere? with
          | some (kind, text) =>
            (.token (s.tokenHere kind (String.ofList text)),
              { s with cursor := s.cursor.advance text.length })
          | none => (.notice (.illegal c s.position), { s with cursor := s.cursor.next })

/-- The notices up to the next token, that token, and the scanner after it. -/
structure Reading where
  notices : List Notice
  token : Option Token
  scanner : Scanner

/-- Steps until a token is found, at most `fuel` times. -/
def nextWith (asName : Bool) : (fuel : Nat) → List Notice → Scanner → Reading
  | 0, notices, s => ⟨notices.reverse, none, s⟩
  | fuel + 1, notices, s =>
    match s.step asName with
    | none => ⟨notices.reverse, none, s⟩
    | some (.token t, s) => ⟨notices.reverse, some t, s⟩
    | some (.nothing, s) => nextWith asName fuel notices s
    | some (.notice n, s) => nextWith asName fuel (n :: notices) s

/-- The next token. Every step moves on in the text or leaves a comment, so twice as many steps as
there are characters reach the next token or the end. -/
def next (asName : Bool) (s : Scanner) : Reading :=
  nextWith asName (2 * s.size + 2) [] s

end Scanner

end PerlJava.Perl
