import PerlJava.Text.Lines
import PerlJava.Text.Slice

/-!
# Layout of Java code

A line that ends in an opening brace indents the lines after it; a line that starts with a closing
brace takes one indentation back.
-/

namespace PerlJava.Java

def lineContent (line : List Char) : List Char :=
  if line.getLast? == some '\n' then line.dropLast else line

def opensBlock (line : List Char) : Bool :=
  (lineContent line).getLast? == some '{'

def closesBlock (line : List Char) : Bool :=
  line.head? == some '}'

def indentLines : (depth : Nat) → List (List Char) → List Char
  | _, [] => []
  | depth, line :: lines =>
    let here := if closesBlock line then depth - 1 else depth
    let inside := if opensBlock line then here + 1 else here
    List.replicate (4 * here) ' ' ++ line ++ indentLines inside lines

def indent (text : String) : String :=
  String.ofList (indentLines 0 (Text.linesOf text.toList))

end PerlJava.Java
