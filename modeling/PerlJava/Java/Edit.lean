import PerlJava.Java.Fragment
import PerlJava.Regex.Template

/-!
# Edits of generated code

Changes to the text of an expression: a reference that is read at once is dropped, a type
argument that Java can infer is left out, and reading an element becomes storing or deleting it.
-/

namespace PerlJava.Java.Edit

open Regex

/-- A new reference that is read at once: group 1 is its type argument, group 2 what it holds. -/
def freshRead : Regex :=
  .anchor .textStart ++ lit "new Ref"
    ++ opt (.group 1 (char '<' ++ many (noneOf [.char '(']) ++ char '>'))
    ++ char '(' ++ .group 2 (many dot) ++ lit ").get()" ++ .anchor .textEnd

def dropFreshRead (value : String) : String :=
  freshRead.replace [.group 2] value

/-- A creation with type arguments: group 1 comes before them, group 2 after them. -/
def creation : Regex :=
  .anchor .textStart ++ .group 1 (lit "new " ++ many (noneOf [.char '<'])) ++ char '<'
    ++ many (noneOf [.char '(']) ++ .group 2 (char '(' ++ many dot) ++ .anchor .textEnd

def inferArguments (value : String) : String :=
  creation.replace [.group 1, .text "<>", .group 2] value

def keyRead (before : Regex) : Regex :=
  before ++ lit "get(" ++ .group 2 (many dot) ++ char ')' ++ .anchor .textEnd

def elementRead (before : Regex) : Regex :=
  .group 1 (many dot) ++ keyRead before

def storeInto (collection : Dim) (value exp : String) : Except Fault String :=
  let stored (function : String) :=
    (elementRead .empty).substitute 2 ("\\1" ++ function ++ "(\\2," ++ exp ++ ")") value
  match collection.name? with
  | some .hash => stored "put"
  | some .list => stored "set"
  | _ => .ok (value ++ " = " ++ exp)

def deletion (value : String) : String :=
  (elementRead (char '.')).replace
    [.text "Perl.delete(", .group 1, .text ",", .group 2, .text ")"] value

end PerlJava.Java.Edit
