import PerlJava.Java.Fragment
import PerlJava.Regex.Match

/-!
# Conversions between types

The Java text that turns a fragment into a value of another type. Literals are converted by their
spelling, collections count as their size.
-/

namespace PerlJava.Java

open Regex

/-- Literals of a fraction: digits with an exponent, or digits around a point that end the text. -/
def fractionLiteral : Regex :=
  let digits := many (oneOf [.digit])
  (digits ++ opt (char '.' ++ digits) ++ lit "eE" ++ digits)
    <|> (digits ++ char '.' ++ digits ++ .anchor .textEnd)

def integerLiteral : Regex :=
  opt (char '0' ++ oneOf [.char 'x', .char 'b', .char 'X', .char 'B'])
    ++ many1 (oneOf [.digit]) ++ .anchor .textEnd

def digitsOnly : Regex :=
  many (oneOf [.digit]) ++ .anchor .textEnd

theorem digitsOnly_eq_false {text : String} {d : Char} {rest : List Char}
    (begins : text.toList = d :: rest) (digit : Text.isDigit d = false) (line : d ≠ '\n') :
    digitsOnly.matchesStart text = false := by
  have outside : CharSet.contains { items := [.digit] } d = false := by
    simp [CharSet.contains, ClassItem.contains, digit]
  -- No digit is read, and what is left is not the end of the text.
  simp [Regex.matchesStart, Regex.matchText, Regex.matchAt, Regex.matchIn, Cursor.ofText,
    Cursor.ofList, begins, digitsOnly, Regex.many, Regex.oneOf, HAppend.hAppend, Append.append,
    Regex.run, Regex.enough, Regex.reach, outside, Anchor.holds, line]

/-- The Java types of numbers. -/
inductive NumberType where
  | integer
  | long
  | float
  | double
deriving Repr, DecidableEq

namespace NumberType

def name : NumberType → TypeName
  | integer => .integer
  | long => .long
  | float => .float
  | double => .double

def suffix : NumberType → String
  | integer => ""
  | long => "l"
  | float => "f"
  | double => "d"

def ofSize : NumberType → String → String
  | integer, text => text
  | long, text => "((long)" ++ text ++ ")"
  | float, text => "((float)" ++ text ++ ")"
  | double, text => "((double)" ++ text ++ ")"

def parser : NumberType → String
  | integer => "Integer.parseInt"
  | long => "Long.parseLong"
  | float => "Float.parseFloat"
  | double => "Double.parseDouble"

/-- The function that converts other numbers to the type. -/
def converter : NumberType → String
  | integer => "Pd.toInteger"
  | long => "Pd.toLong"
  | float => "Pd.toFloat"
  | double => "Pd.toDouble"

/-- The literals that are converted by their spelling from a number of another type; numbers of
types that need no conversion have no entry. -/
def literals? : NumberType → TypeName → Option Regex
  | integer, .long | integer, .float | integer, .double => some fractionLiteral
  | long, .integer | long, .float | long, .double => some integerLiteral
  | float, .integer | float, .long => some integerLiteral
  | float, .double => some fractionLiteral
  | double, .integer | double, .long | double, .float => some integerLiteral
  | _, _ => none

def spell : NumberType → String → String
  | integer, text => "(int)" ++ text
  | t, text => text ++ t.suffix

end NumberType

namespace Fragment

def toNumberType (t : NumberType) (c : Fragment) : Except Fault String := do
  let v := c.value
  if (← c.shape.size) > 1 then
    match (← c.head).name? with
    | some .array => return t.ofSize (v ++ ".length")
    | some .list => return t.ofSize (v ++ ".size()")
    | _ => return "1" ++ t.suffix
  else
    match (← c.head).name? with
    | some .string => return t.parser ++ "(" ++ v ++ ")"
    | some .boolean => return "(" ++ v ++ ")?1" ++ t.suffix ++ ":0" ++ t.suffix
    | some .void => return t.ofSize ("Pd.len(" ++ v ++ ")")
    | some .file => return "1" ++ t.suffix
    | some name =>
      match t.literals? name with
      | some literal =>
        return if literal.matchesStart v then t.spell v else t.converter ++ "(" ++ v ++ ")"
      | none => return v
    | none => return v

def toInteger : Fragment → Except Fault String := toNumberType .integer

def toDouble : Fragment → Except Fault String := toNumberType .double

variable (c : Fragment)

def toNumber : Except Fault Fragment := do
  let head ← c.head
  if head.is .void || (← c.shape.size) > 1 || head.is .boolean then
    return { c with value := ← c.toInteger, shape := .scalar .integer }
  else if head.is .string then
    return { c with value := ← c.toDouble, shape := .scalar .double }
  else return c

/-- The fragment as an operand of bitwise arithmetic; other numbers are taken as they are. -/
def toWhole : Except Fault Fragment := do
  if (← c.head).isOneOf [.integer, .long] then return c
  else return { c with shape := .scalar .integer }

def toBoolean : Except Fault String := do
  c.whole
  match c.condition with
  | some text => if text.isEmpty then plain else return text
  | none => plain
where
  /-- The truth of the value itself. -/
  plain : Except Fault String := do
    match (← c.head).name? with
    | some .void => return "Pd.len(" ++ c.value ++ ") != 0"
    | some .boolean => return c.value
    | some .file => return "true"
    | _ =>
      if digitsOnly.matchesStart c.value then
        return if c.value == "0" then "false" else "true"
      else return "Pd.eval(" ++ c.value ++ ")"

def toText : Except Fault String := do
  if (← c.shape.size) > 1 then
    match (← c.head).name? with
    | some .array => return "String.valueOf(" ++ c.value ++ ".length)"
    | some .list => return "String.valueOf(" ++ c.value ++ ".size())"
    | _ => return "\"1\""
  else
    match (← c.head).name? with
    | some .string => return c.value
    | some .file => return "\"1\""
    | _ => return "String.valueOf(" ++ c.value ++ ")"

def toPrinted : Except Fault String := do
  if (← c.shape.size) == 1 then
    return if (← c.head).is .file then "GLOB(0x1)" else c.value
  let head ← c.head
  if head.is .ref then
    let inner ← c.shape.at_ 1
    return "\"" ++ kindOf inner ++ "(0x1)\""
  else if c.ref then
    return if head.is .hash then "\"HASH(0x1)\"" else "\"ARRAY(0x1)\""
  else return "Pd.repr(" ++ c.value ++ ")"
where
  /-- What a reference to a dimension is called. -/
  kindOf (inner : Dim) : String :=
    if inner.is .ref || c.ref then "REF"
    else if inner.is .hash then "HASH"
    else if inner.isSequence then "ARRAY"
    else "SCALAR"

def toList : Except Fault Fragment := do
  if (← c.head).is .array then
    return { c with
      shape := ← (← c.shape.tail).within [.sized .list none]
      variable_ := none
      value := "Pd.list(" ++ c.value ++ ")" }
  else return c

def toArray [Interfaces] (c : Fragment) : Except Fault Fragment := do
  if (← c.head).is .list then
    let shape ← (← c.shape.tail).within [.sized .array none]
    return { c with
      shape
      variable_ := none
      value := c.value ++ ".toArray(" ++ (← shape.creation []) ++ "\x7b\x7d)" }
  else return c

end Fragment

end PerlJava.Java
