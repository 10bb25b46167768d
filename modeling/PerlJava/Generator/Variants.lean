import PerlJava.Fault
import PerlJava.Text.Lines
import PerlJava.Text.Slice
import PerlJava.Text.Words

/-!
# Variants of a marked text

Parts of a text are marked by lines that start with a sign and a tag. From one part two variants
are made, which take the place of what stood there: in the first the sections for debugging are
left out, in the second also those for tracking.
-/

namespace PerlJava.Generator

namespace Variants

def mark (tag : String) : String :=
  "#--! " ++ tag

/-- The lines between the marks of a tag: the number of the first, and of the one after the last. A
part that does not end goes up to the last line. -/
def range (lines : List String) (tag : String) : Except Fault (Nat × Nat) := do
  let some start := lines.findIdx? fun line => (Text.strip line).startsWith (mark tag ++ "-start")
    | throw .unbound
  let rest := lines.drop (start + 1)
  if rest.isEmpty then throw .unbound
  let length := (rest.findIdx? fun line => (Text.strip line).endsWith (mark tag ++ "-end")).getD
    (rest.length - 1)
  return (start + 1, start + 1 + length)

/-- Lines without the sections of a tag. A section goes from one mark to the next. -/
def without (tag : String) : (inside : Bool) → List String → List String
  | _, [] => []
  | inside, line :: rest =>
    if (Text.strip line).startsWith (mark tag) then without tag (!inside) rest
    else if inside then without tag inside rest
    else line :: without tag inside rest

def replaceRange (lines : List String) (r : Nat × Nat) (others : List String) : List String :=
  lines.take r.1 ++ others ++ lines.drop (max r.1 r.2)

def trimEnd (line : String) : String :=
  String.ofList (line.toList.reverse.dropWhile Text.isBlank).reverse

def linesOf (text : String) : List String :=
  Text.printedLines (Text.withEvenLineEnds text)

def update (text : String) : Except Fault String := do
  let lines := linesOf text
  let (start, stop) ← range lines "parsedebug"
  let first ← range lines "parseopt"
  let second ← range lines "parseopt-notrack"
  let plain := without "DEBUG" false ((lines.drop start).take (stop - start))
  let bare := without "TRACKING" false plain
  let lines := replaceRange (replaceRange lines second bare) first plain
  return String.join (lines.map fun line => trimEnd line ++ "\n")

def report : String := "Updated yacc.py\n"

end Variants

end PerlJava.Generator
