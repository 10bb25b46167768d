import PerlJava.Text.Case
import PerlJava.Text.CharClass

/-!
# Regular expressions

The expressions that scanner rules are written in: ordered choice, greedy and lazy repetition,
numbered groups, anchors, look-around, atomic groups and choice by a group. Sequence is written `++`
and ordered choice `<|>`.
-/

namespace PerlJava

/-- A member of a set of characters. -/
inductive ClassItem where
  | char (c : Char)
  | range (low high : Char)
  | digit
  | notDigit
  | word
  | notWord
  | blank
  | notBlank
  | asciiDigit
  | notAsciiDigit
  | asciiWord
  | notAsciiWord
  | asciiBlank
  | notAsciiBlank
deriving Repr, DecidableEq

def ClassItem.contains (c : Char) : ClassItem → Bool
  | .char d => c == d
  | .range low high => low ≤ c && c ≤ high
  | .digit => Text.isDigit c
  | .notDigit => !Text.isDigit c
  | .word => Text.isWord c
  | .notWord => !Text.isWord c
  | .blank => Text.isBlank c
  | .notBlank => !Text.isBlank c
  | .asciiDigit => Text.isAsciiDigit c
  | .notAsciiDigit => !Text.isAsciiDigit c
  | .asciiWord => Text.isAsciiWord c
  | .notAsciiWord => !Text.isAsciiWord c
  | .asciiBlank => Text.isAsciiBlank c
  | .notAsciiBlank => !Text.isAsciiBlank c

/-- Which differences between capitals and small letters do not count. -/
inductive Folding where
  /-- All of them count. -/
  | exact
  /-- Those between ASCII letters. -/
  | ascii
  /-- Those between any letters. -/
  | full
deriving Repr, DecidableEq

/-- A set of characters, given by its members or by those it leaves out. -/
structure CharSet where
  items : List ClassItem
  negated : Bool := false
  folding : Folding := .exact
deriving Repr, DecidableEq

def swapCase (c : Char) : Char :=
  if 'a' ≤ c ∧ c ≤ 'z' then c.toUpper else c.toLower

def Folding.variants (c : Char) : Folding → List Char
  | exact => [c]
  | ascii => [c, swapCase c]
  | full => Text.caseVariants c

def Folding.same (c d : Char) : Folding → Bool
  | exact => c == d
  | ascii => c == d || c == swapCase d
  | full => Text.small c == Text.small d

def CharSet.contains (s : CharSet) (c : Char) : Bool :=
  match s.folding with
  | .exact => s.items.any (·.contains c) != s.negated
  | folding => (folding.variants c).any (fun d => s.items.any (·.contains d)) != s.negated

/-- Conditions on a place in the text. -/
inductive Anchor where
  /-- The start of the text. -/
  | textStart
  /-- The start of a line. -/
  | lineStart
  /-- The end of the text, or the place before a line feed that ends it. -/
  | textEnd
  /-- The end of a line. -/
  | lineEnd
  /-- The very end of the text. -/
  | veryEnd
  /-- Between a word character and another. -/
  | wordEdge
  /-- Not between a word character and another, in a text that is not empty. -/
  | notWordEdge
  /-- Between an ASCII word character and another. -/
  | asciiWordEdge
  /-- Not between an ASCII word character and another, in a text that is not empty. -/
  | notAsciiWordEdge
deriving Repr, DecidableEq

/-- A regular expression. -/
inductive Regex where
  | empty
  | one (s : CharSet)
  | seq (first second : Regex)
  | alt (first second : Regex)
  /-- At least `least` and at most `most` times; lazily if `lazily`. -/
  | rep (least : Nat) (most : Option Nat) (lazily : Bool) (body : Regex)
  | group (number : Nat) (body : Regex)
  /-- The text of a group once more. -/
  | backref (number : Nat) (folding : Folding)
  | anchor (a : Anchor)
  /-- The body matches here (does not, if `negative`), without consuming. -/
  | ahead (negative : Bool) (body : Regex)
  /-- The body matches (does not, if `negative`) the `width` characters before this place. -/
  | behind (negative : Bool) (width : Nat) (body : Regex)
  /-- The preferred match of the body and no other. -/
  | atomic (body : Regex)
  /-- One of two bodies, depending on whether a group has taken part. -/
  | ifGroup (number : Nat) (yes no : Regex)
deriving Repr, DecidableEq

namespace Regex

instance : Append Regex := ⟨.seq⟩

instance : OrElse Regex := ⟨fun first second => .alt first (second ())⟩

instance : Inhabited Regex := ⟨.empty⟩

def char (c : Char) : Regex :=
  .one { items := [.char c] }

def lit (text : String) : Regex :=
  text.toList.foldr (fun c rest => if rest = .empty then char c else .seq (char c) rest) .empty

def oneOf (items : List ClassItem) : Regex :=
  .one { items }

def noneOf (items : List ClassItem) : Regex :=
  .one { items, negated := true }

def dot : Regex :=
  noneOf [.char '\n']

def anything : Regex :=
  noneOf []

def many (r : Regex) : Regex :=
  .rep 0 none false r

def many1 (r : Regex) : Regex :=
  .rep 1 none false r

def opt (r : Regex) : Regex :=
  .rep 0 (some 1) false r

end Regex

end PerlJava
