import PerlJava.Fault
import PerlJava.Text.Slice

/-!
# Types

A type is a list of dimensions, from the outermost collection to the scalar inside. A dimension
that comes from a label may carry a size. Types print as Java types, `Map`, `List` and `Ref`
applied to what they hold and arrays with brackets.
-/

namespace PerlJava.Java

/-- The names of dimensions. -/
inductive TypeName where
  | boolean
  | integer
  | long
  | float
  | double
  | string
  | object
  | file
  | none
  | void
  | array
  | hash
  | list
  | ref
deriving Repr, DecidableEq, Inhabited

namespace TypeName

def all : List TypeName :=
  [boolean, integer, long, float, double, string, object, file, none, void, array, hash, list, ref]

def text : TypeName → String
  | boolean => "Boolean"
  | integer => "Integer"
  | long => "Long"
  | float => "Float"
  | double => "Double"
  | string => "String"
  | object => "Object"
  | file => "PerlFile"
  | none => "None"
  | void => "void"
  | array => "ARRAY"
  | hash => "HASH"
  | list => "LIST"
  | ref => "REF"

def ofText? (text : String) : Option TypeName :=
  all.find? (·.text == text)

def ofLabel? : String → Option TypeName
  | "boolean" => some boolean
  | "integer" => some integer
  | "long" => some long
  | "float" => some float
  | "double" => some double
  | "string" => some string
  | "file" => some file
  | _ => Option.none

def isCollection : TypeName → Bool
  | array | hash | list => true
  | _ => false

def isSequence : TypeName → Bool
  | array | list => true
  | _ => false

/-- How wide the numbers of a type are; other types have no width. -/
def width? : TypeName → Option Nat
  | none => some 0
  | integer => some 1
  | long => some 2
  | float => some 3
  | double => some 4
  | _ => Option.none

end TypeName

inductive Dim where
  | plain (name : TypeName)
  /-- A dimension that comes from a label, with its size if it has one. -/
  | sized (name : TypeName) (size : Option String)
  /-- A letter of a type that is a bare word. -/
  | letter (c : Char)
  /-- The dimension of an operation that was refused. -/
  | missing
deriving Repr, DecidableEq, Inhabited

namespace Dim

def name? : Dim → Option TypeName
  | plain name | sized name _ => some name
  | letter _ | missing => none

def is (d : Dim) (name : TypeName) : Bool :=
  d.name? == some name

def isOneOf (d : Dim) (names : List TypeName) : Bool :=
  d.name?.any names.contains

def isCollection (d : Dim) : Bool :=
  d.name?.any (·.isCollection)

def isSequence (d : Dim) : Bool :=
  d.name?.any (·.isSequence)

/-- Whether two dimensions agree; sizes do not count. -/
def agrees : Dim → Dim → Bool
  | letter c, letter d => c == d
  | missing, missing => true
  | d, e => d.name?.isSome && d.name? == e.name?

def text : Dim → String
  | plain name | sized name _ => name.text
  | letter c => String.singleton c
  | missing => "None"

def width : Dim → Except Fault Nat
  | plain name => name.width?.elim (.error .missingKey) .ok
  | sized _ _ => .error .illTyped
  | letter _ | missing => .error .missingKey

def size? : Dim → Except Fault (Option String)
  | sized _ size => .ok size
  | _ => .error .noMember

def scalarText : Dim → Except Fault String
  | plain name => .ok name.text
  | letter c => .ok (String.singleton c)
  | sized _ _ | missing => .error .illTyped

end Dim

/-- The names by which generated code means the interfaces of collections. -/
class Interfaces where
  list : String
  map : String
  iterator : String

/-- The names under which the interfaces are imported. -/
instance Interfaces.java : Interfaces where
  list := "List"
  map := "Map"
  iterator := "Iterator"

variable [Interfaces]

/-- A list of dimensions as a Java type. What follows a scalar does not show, but has to be
printable too. -/
def printDims : List Dim → Except Fault String
  | [] => .ok "%t"
  | d :: rest => do
    let inner ← printDims rest
    match d.name? with
    | some .array => return inner ++ "[]"
    | some .list => return Interfaces.list ++ "<" ++ inner ++ ">"
    | some .hash => return Interfaces.map ++ "<String," ++ inner ++ ">"
    | some .ref => return "Ref<" ++ inner ++ ">"
    | _ => d.scalarText

/-- A type, which an operation may have left unset or set to a bare word. -/
inductive Shape where
  | unset
  | word (letters : List Char)
  | dims (ds : List Dim)
deriving Repr, DecidableEq, Inhabited

namespace Shape

def scalar (name : TypeName) : Shape :=
  .dims [.plain name]

def ofNames (names : List TypeName) : Shape :=
  .dims (names.map .plain)

def parts : Shape → Except Fault (List Dim)
  | unset => .error .illTyped
  | word letters => .ok (letters.map .letter)
  | dims ds => .ok ds

variable (s : Shape)

def size : Except Fault Nat :=
  s.parts.map (·.length)

def at_ (i : Nat) : Except Fault Dim := do
  match (← s.parts)[i]? with
  | some d => return d
  | none => throw .outOfRange

def head : Except Fault Dim :=
  s.at_ 0

def tail : Shape → Except Fault Shape
  | unset => .error .illTyped
  | word letters => .ok (.word (letters.drop 1))
  | dims ds => .ok (.dims (ds.drop 1))

def copy : Shape → Except Fault Shape
  | unset => .error .illTyped
  | s => .ok s

def within (outer : List Dim) : Shape → Except Fault Shape
  | dims ds => .ok (.dims (outer ++ ds))
  | unset | word _ => .error .illTyped

def isPresent : Shape → Bool
  | unset | word [] | dims [] => false
  | word _ | dims _ => true

def agrees (s t : Shape) : Except Fault Bool := do
  let ds ← s.parts
  let es ← t.parts
  return ds.length == es.length && (ds.zip es).all fun (d, e) => d.agrees e

def display : Except Fault String := do
  let listed := String.join ("(" :: (← s.parts).map fun d => d.text ++ ", ")
  return Text.sliceTo listed (-2) ++ ")"

def javaText : Except Fault String := do
  printDims (← s.parts)

def arrayText : List Dim → List Dim → Except Fault String
  | _, [] => .ok "%t"
  | whole, d :: rest =>
    match d.name? with
    | some .array => (arrayText whole rest).map (· ++ "[%size]")
    | some .hash => .ok Interfaces.map
    | some .ref => .ok "Ref"
    | _ =>
      match whole.getLast? with
      | some last => last.scalarText
      | none => .error .outOfRange

/-- Writes sizes into the brackets of a new array, up to the first that is not given. -/
def fillSizes (text : String) : List (Option String) → String
  | some size :: sizes =>
    if size.isEmpty then text else fillSizes (Text.replaceFirst text "%size" size) sizes
  | _ => text

/-- The creation of an empty collection, with the given sizes. -/
def creation (sizes : List (Option String)) : Except Fault String := do
  let ds ← s.parts
  let first := (sizes.head?.join).getD ""
  match (← s.head).name? with
  | some .hash => return "new HashPerl<String," ++ (← printDims (ds.drop 1)) ++ ">(" ++ first ++ ")"
  | some .list => return "new PerlList<" ++ (← printDims (ds.drop 1)) ++ ">(" ++ first ++ ")"
  | _ => return "new " ++ Text.replaceAll (fillSizes (← arrayText ds ds) sizes) "%size" ""

end Shape

end PerlJava.Java
