import PerlJava.Text.Quoted

/-!
# Data

The values that settings of a description can have.
-/

namespace PerlJava.Generator

/-- A value of a setting. -/
inductive Datum where
  | nothing
  | flag (b : Bool)
  | number (n : Int)
  | text (s : String)
  | list (elements : List Datum)
  | tuple (elements : List Datum)
deriving Inhabited

namespace Datum

mutual

def display : Datum → String
  | nothing => "None"
  | flag b => if b then "True" else "False"
  | number n => toString n
  | text s => Text.quoted s
  | list elements => "[" ++ ", ".intercalate (displayAll elements) ++ "]"
  | tuple [element] => "(" ++ element.display ++ ",)"
  | tuple elements => "(" ++ ", ".intercalate (displayAll elements) ++ ")"

def displayAll : List Datum → List String
  | [] => []
  | element :: rest => element.display :: displayAll rest

end

/-- Whether a value counts as given: zero and everything empty do not. -/
def isGiven : Datum → Bool
  | nothing => false
  | flag b => b
  | number n => n != 0
  | text s => !s.isEmpty
  | list elements | tuple elements => !elements.isEmpty

mutual

/-- Whether a value can be looked up: it contains no list. -/
def isKey : Datum → Bool
  | list _ => false
  | tuple elements => areKeys elements
  | _ => true

def areKeys : List Datum → Bool
  | [] => true
  | element :: rest => element.isKey && areKeys rest

end

def text? : Datum → Option String
  | text s => some s
  | _ => none

def elements? : Datum → Option (List Datum)
  | list elements | tuple elements => some elements
  | _ => none

def isText (d : Datum) : Bool :=
  d.text?.isSome

end Datum

end PerlJava.Generator
