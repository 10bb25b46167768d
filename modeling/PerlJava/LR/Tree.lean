import PerlJava.LR.Display
import PerlJava.LR.Machine
import PerlJava.Perl.Token

/-!
# Parse trees

A tree names the symbol of each reduction and lists what the reduction was made from. Remarks about
the places of symbols can stand at the end of such a list.
-/

namespace PerlJava.LR

/-- Where a symbol of a production stands: its line and offset, and its extent in each. -/
structure Spot where
  line : Nat
  offset : Nat
  lines : Nat × Nat
  offsets : Nat × Nat
deriving Repr, DecidableEq

namespace Span

/-- The lines of a span; what is not known is zero, or the same as the start. -/
def lines (s : Span) : Nat × Nat :=
  let first := s.line.getD 0
  (first, s.endLine.getD first)

/-- The offsets of a span; what is not known is zero, or the same as the start. -/
def offsets (s : Span) : Nat × Nat :=
  let first := s.offset.getD 0
  (first, s.endOffset.getD first)

def spot (s : Span) : Spot :=
  ⟨s.line.getD 0, s.offset.getD 0, s.lines, s.offsets⟩

end Span

/-- What a parse makes of its input. -/
inductive Tree where
  | nothing
  /-- The text of a token. -/
  | leaf (text : String)
  /-- A token that stands where an error was. -/
  | token (t : Token)
  /-- A symbol with what it was made from. -/
  | node (name : String) (parts : List Tree)
  /-- A remark: the value below a symbol on the stack. -/
  | beneath (value : Tree)
  /-- A remark: where the symbols of a production are. -/
  | spots (spots : List Spot)
  /-- A remark: the lines and offsets that a symbol covers. -/
  | extent (lines offsets : Nat × Nat)
deriving Inhabited

namespace Tree

def part : Tree → Tree
  | token t => leaf t.value
  | t => t

def displayPair (p : Nat × Nat) : String :=
  Shown.listed [toString p.1, toString p.2]

def displaySpot (s : Spot) : String :=
  Shown.listed [toString s.line, toString s.offset, displayPair s.lines, displayPair s.offsets]

def displayRemark (name text : String) : String :=
  "\x7b'" ++ name ++ "': " ++ text ++ "\x7d"

mutual

def display : Tree → String
  | nothing => "None"
  | leaf text => Text.quoted text
  | token t => t.display
  | node name parts => Shown.listed (Text.quoted name :: displayAll parts)
  | beneath value => displayRemark "below" value.display
  | spots ss => displayRemark "at" (Shown.listed (ss.map displaySpot))
  | extent lines offsets =>
    "\x7b'line': " ++ displayPair lines ++ ", 'pos': " ++ displayPair offsets ++ "\x7d"

def displayAll : List Tree → List String
  | [] => []
  | t :: rest => t.display :: displayAll rest

end

def className : Tree → String
  | nothing => "NoneType"
  | leaf _ => "str"
  | token _ => "LexToken"
  | node _ _ => "list"
  | beneath _ | spots _ | extent _ _ => "dict"

def shown (t : Tree) : Shown :=
  ⟨t.className, t.display⟩

end Tree

end PerlJava.LR
