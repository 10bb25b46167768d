import PerlJava.Diagnostic.Excerpt
import PerlJava.Diagnostic.Message
import PerlJava.Fault

/-!
# The text of a diagnostic
-/

namespace PerlJava.Diagnostic

abbrev Names := List (String × String)

def fill (template : String) (names : Names) : String :=
  names.foldl (fun text (name, value) => Text.replaceAll text ("%" ++ name) value) template

def lookup (key : String) : Except Fault Message :=
  (Message.ofKey? key).elim (.error .missingKey) .ok

def severity (m : Message) : String :=
  if m.isWarning then Message.warningWord.template else Message.errorWord.template

def plain (m : Message) (names : Names) : String :=
  severity m ++ ": " ++ fill m.template names ++ "\n"

/-- A diagnostic about a source, with an excerpt if the place is known. -/
def located (file source : String) (m : Message) (at_ : Option Position) (names : Names) : String :=
  let p := at_.getD {}
  file ++ ":" ++ place source p ++ " " ++ severity m ++ ": " ++ fill m.template names ++ "\n"
    ++ (if p.offset = 0 then "" else excerpt source p.offset)

/-- Something that is printed. -/
inductive Printed where
  /-- A text of its own. -/
  | line (text : String)
  /-- A diagnostic about a source. -/
  | diagnostic (file source : String) (m : Message) (at_ : Option Position) (names : Names)
deriving Repr, DecidableEq, Inhabited

namespace Printed

def text : Printed → String
  | line text => text
  | diagnostic file source m at_ names => located file source m at_ names

def isError : Printed → Bool
  | line _ => false
  | diagnostic _ _ m _ _ => !m.isWarning

end Printed

end PerlJava.Diagnostic
