import PerlJava.Text.Quoted
import PerlJava.Text.Slice

/-!
# Values in traces

A trace shows a value on one line. Long values on the stack show only their class, and long results
are cut.
-/

namespace PerlJava.LR

/-- A value as traces show it: the name of its class and its text. -/
structure Shown where
  className : String
  text : String

namespace Shown

def listed (parts : List String) : String :=
  "[" ++ ", ".intercalate parts ++ "]"

def line (v : Shown) : String :=
  if v.text.toList.contains '\n' then Text.quoted v.text else v.text

def entry (v : Shown) : String :=
  if v.line.length < 16 then v.line else "<" ++ v.className ++ " @ 0x0>"

def result (limit : Nat) (v : Shown) : String :=
  let text := v.line
  let cut := if text.length > limit then Text.sliceTo text limit ++ " ..." else text
  "<" ++ v.className ++ " @ 0x0> (" ++ cut ++ ")"

end Shown

/-- How much of a result a trace shows, unless something else is asked for. -/
def resultLimit : Nat := 40

end PerlJava.LR
