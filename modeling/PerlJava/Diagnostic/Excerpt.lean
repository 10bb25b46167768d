import PerlJava.Perl.Token
import PerlJava.Text.Slice

/-!
# Showing a place of the source

A diagnostic names the line and the column of its place and shows the source around it, with a
mark below the place.
-/

namespace PerlJava.Diagnostic

def column (source : String) (offset : Nat) : Nat :=
  match Text.lastIndexOf? '\n' (source.toList.take offset) with
  | some lineFeed => offset - lineFeed
  | none => offset + 1

def reach : Nat := 40

/-- The source before a place that is shown: at most `reach` characters of its line. Near the start
of the text the bound counts from the end. -/
def before (source : List Char) (offset : Nat) : List Char :=
  let part := Text.sliceList source ((offset : Int) - reach) offset
  match Text.lastIndexOf? '\n' part with
  | some lineFeed => part.drop (lineFeed + 1)
  | none => part

/-- The source from a place on that is shown: at most `reach` characters of its line. -/
def after (source : List Char) (offset : Nat) : List Char :=
  ((source.drop offset).take reach).takeWhile (· != '\n')

def excerpt (source : String) (offset : Nat) : String :=
  let cs := source.toList
  let left := before cs offset
  let margin := Text.times 8 " "
  margin ++ String.ofList (left ++ after cs offset) ++ "\n"
    ++ margin ++ Text.times left.length " " ++ "^\n"

/-- The position that a diagnostic names: the line, and the column if the place is not the very
start of the text. -/
def place (source : String) (p : Position) : String :=
  if p.line = 0 then ""
  else if p.offset = 0 then toString p.line ++ ":"
  else toString p.line ++ ":" ++ toString (column source p.offset) ++ ":"

end PerlJava.Diagnostic
