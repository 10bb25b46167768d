import PerlJava.Fault
import PerlJava.Java.Layout

/-!
# Statements that are never reached

A line after a `break`, `continue` or `return` of the same block is never executed. Blocks of
braces alone and `do` blocks pass this on to the block around them.
-/

namespace PerlJava.Java

def afterBlanks (line : List Char) : List Char :=
  line.dropWhile (· == ' ')

def leavesBlock (line : List Char) : Bool :=
  ["break", "continue", "return"].any fun word => word.toList.isPrefixOf (afterBlanks line)

def opensPlainBlock (line : List Char) : Bool :=
  let content := lineContent (afterBlanks line)
  content == ['{'] || content == ['d', 'o', '{']

def isComment (line : List Char) : Bool :=
  ["//", "/*"].any fun mark => mark.toList.isPrefixOf (afterBlanks line)

/-- A block on the way: whether its end cannot be reached, and whether it passes that on. -/
structure OpenBlock where
  left : Bool := false
  passesOn : Bool := false
deriving Repr, DecidableEq

/-- Whether some line is never reached, given the open blocks, innermost first. -/
def unreachableIn : List OpenBlock → List (List Char) → Except Fault Bool
  | _, [] => .ok false
  | blocks, line :: lines =>
    if opensBlock line then
      unreachableIn ({ passesOn := opensPlainBlock line } :: blocks) lines
    else if (afterBlanks line).head? == some '}' then
      match blocks with
      | [] => .error .outOfRange
      | inner :: outer :: blocks =>
        let outer := if inner.passesOn then { outer with left := inner.left } else outer
        unreachableIn (outer :: blocks) lines
      | [inner] => if inner.passesOn then .error .outOfRange else unreachableIn [] lines
    else
      match blocks with
      | [] => .error .outOfRange
      | inner :: outer =>
        if inner.left && !isComment line then .ok true
        else if leavesBlock line && !inner.left then
          unreachableIn ({ inner with left := true } :: outer) lines
        else unreachableIn (inner :: outer) lines

def hasUnreachable (text : String) : Except Fault Bool :=
  unreachableIn [{}] (Text.linesOf text.toList)

end PerlJava.Java
