/-!
# Lines of a text

A text is cut after every line boundary: line feed, carriage return, the pair of both, vertical
tab, form feed, the three information separators, next line, and the line and paragraph
separators. Joining the lines gives the text back.
-/

namespace PerlJava.Text

def isLineEnd (c : Char) : Bool :=
  let n := c.toNat
  (10 ≤ n && n ≤ 13) || (0x1c ≤ n && n ≤ 0x1e) || n == 0x85 || n == 0x2028 || n == 0x2029

def linesOf : List Char → List (List Char)
  | [] => []
  | '\r' :: '\n' :: text => ['\r', '\n'] :: linesOf text
  | c :: text =>
    if isLineEnd c then [c] :: linesOf text
    else
      match linesOf text with
      | [] => [[c]]
      | line :: lines => (c :: line) :: lines

def lines (text : String) : List String :=
  (linesOf text.toList).map String.ofList

def bareLines (text : String) : List String :=
  (linesOf text.toList).map fun line => String.ofList (line.filter (!isLineEnd ·))

/-- A text in which carriage returns, alone or before a line feed, have become line feeds. -/
def evenLineEnds : List Char → List Char
  | '\r' :: '\n' :: rest => '\n' :: evenLineEnds rest
  | '\r' :: rest => '\n' :: evenLineEnds rest
  | c :: rest => c :: evenLineEnds rest
  | [] => []

/-- A text in which carriage returns, alone or before a line feed, have become line feeds. -/
def withEvenLineEnds (text : String) : String :=
  String.ofList (evenLineEnds text.toList)

end PerlJava.Text
