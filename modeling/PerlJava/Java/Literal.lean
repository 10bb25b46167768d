import PerlJava.Java.Shape
import PerlJava.Regex.Match

/-!
# String literals

How the text of a Perl string or regular expression is written between the quotes of a Java
literal: escapes are brought into Java's set, quotes are escaped, and variables are spliced in.
-/

namespace PerlJava.Java.Literal

def javaEscapes : List Char :=
  ['t', 'b', 'n', 'r', 'f', '"']

def regexEscapes : List Char :=
  ['.', '^', '$', '*', '+', '-', '?', '(', ')', '[', ']', '{', '}', '|', '/']

def escaped (regex : Bool) (c : Char) : List Char :=
  if javaEscapes.contains c then ['\\', c]
  else if regex && (regexEscapes.contains c || Text.isLetter c) then ['\\', '\\', c]
  else if c == '\\' then if regex then ['\\', '\\', '\\', '\\'] else ['\\', '\\']
  else [c]

/-- Changes the escapes of a text. A backslash that ends it is dropped. -/
def fixEscapesList (regex : Bool) : List Char → List Char
  | [] => []
  | ['\\'] => []
  | '\\' :: c :: text => escaped regex c ++ fixEscapesList regex text
  | c :: text => c :: fixEscapesList regex text

def fixEscapes (regex : Bool) (text : String) : String :=
  String.ofList (fixEscapesList regex text.toList)

/-- Puts a backslash before some characters, unless an odd number of backslashes stands there. -/
def escapeCharsList (chars : List Char) : (odd : Bool) → List Char → List Char
  | _, [] => []
  | odd, c :: text =>
    let rest := c :: escapeCharsList chars (c == '\\' && !odd) text
    if chars.contains c && !odd then '\\' :: rest else rest

/-- Puts a backslash before some characters, unless they are escaped already. -/
def escapeChars (chars : List Char) (text : String) : String :=
  String.ofList (escapeCharsList chars false text.toList)

open Regex in
def nameRegex : Regex :=
  oneOf [.range 'a' 'z', .range 'A' 'Z', .char '_']
    ++ many (oneOf [.range 'a' 'z', .range 'A' 'Z', .char '_', .range '0' '9'])

/-- The texts that an expression matches in a text, from left to right. -/
def occurrences (r : Regex) (text : String) : List String :=
  (r.matchesIn text).map fun (start, p) => String.ofList (p.cursor.textSince start)

/-- Splices the scalars among the variables that a text mentions by a sigil. -/
def interpolateNames (typeOf? : String → Option Shape) (text : String) (names : List String) :
    Except Fault String :=
  names.foldlM (fun text mention => do
    let name := Text.sliceFrom mention 1
    match typeOf? name with
    | some shape =>
      if (← shape.size) == 1 then return Text.replaceAll text mention ("\"+" ++ name ++ "+\"")
      else return text
    | none => return text) text

/-- Splices the variables that a text mentions. A mention in braces is looked up under the inner
part of the last mention without braces. -/
def interpolate (typeOf? : String → Option Shape) (text : String) : Except Fault String := do
  let mentions := occurrences (.char '$' ++ nameRegex) text
  let text ← interpolateNames typeOf? text mentions
  let braced := occurrences (.lit "$\x7b" ++ nameRegex ++ .char '}') text
  braced.foldlM (fun text _ => do
    match mentions.getLast? with
    | none => throw .unbound
    | some mention =>
      let name := Text.slice mention 2 (-1)
      match typeOf? name with
      | none => throw .noMember
      | some shape =>
        if (← shape.size) == 1 then
          return Text.replaceAll text mention ("\"+\"" ++ name ++ "\"+\"")
        else return text) text

end PerlJava.Java.Literal
