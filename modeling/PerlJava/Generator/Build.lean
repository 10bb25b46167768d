import PerlJava.Generator.Description
import PerlJava.Generator.Folder

/-!
# Building

Scanners and parsers are built from the members of a description. Building prints what is wrong
with the description, and may read and write files beside it.
-/

namespace PerlJava.Generator

/-- What building works on. -/
structure Site where
  folder : Folder := {}
  /-- What was printed on standard error. -/
  printed : String := ""
  /-- How many errors were reported. -/
  errors : Nat := 0
  /-- The file that the report on a grammar is written to, if one is. -/
  report : Option String := none

abbrev BuildM := EStateM Fault Site

def say (line : String) : BuildM Unit :=
  modify fun s => { s with printed := s.printed ++ line ++ "\n" }

def warn (text : String) : BuildM Unit :=
  say ("WARNING: " ++ text)

def complain (text : String) : BuildM Unit := do
  modify fun s => { s with errors := s.errors + 1 }
  say ("ERROR: " ++ text)

def note (line : String) : BuildM Unit := do
  if let some path := (← get).report then
    modify fun s =>
      let before := match s.folder.content? path with
        | some (.text lines) => lines
        | _ => ""
      { s with folder := s.folder.write path (.text (before ++ line ++ "\n")) }

/-- What is left of a directive after its flags, width and precision: the character that ends it,
if it has one, and the rest. Nothing, if the directive needs a value before that. -/
def directiveEnd? (cs : List Char) : Option (List Char) :=
  let isFlag (c : Char) : Bool := ['-', '+', ' ', '#', '0'].contains c
  let dropWidth (cs : List Char) : Option (List Char) :=
    if cs.head? = some '*' then none else some (cs.dropWhile Text.isAsciiDigit)
  if cs.head? = some '(' then none
  else do
    let cs ← dropWidth (cs.dropWhile isFlag)
    let cs ← match cs with
      | '.' :: rest => dropWidth rest
      | cs => some cs
    match cs with
    | 'h' :: rest | 'l' :: rest | 'L' :: rest => some rest
    | cs => some cs

/-- A text that is printed as a template without values: `%%` stands for a percent sign, and any
other directive has no value to show. -/
def filled : (fuel : Nat) → List Char → Except Fault (List Char)
  | 0, _ => .ok []
  | _, [] => .ok []
  | fuel + 1, c :: cs =>
    if c != '%' then (filled fuel cs).map (c :: ·)
    else
      match directiveEnd? cs with
      | none => .error .illTyped
      | some [] => .error .badValue
      | some (d :: rest) =>
        if d = '%' then (filled fuel rest).map ('%' :: ·) else .error .illTyped

def filledText (text : String) : Except Fault String :=
  (filled (text.length + 1) text.toList).map String.ofList

inductive TableModule where
  | named (name : String)
  | given (name : String) (version : String)

namespace TableModule

def display : TableModule → String
  | named name => Text.quoted name
  | given name _ => "<module " ++ Text.quoted name ++ " from " ++ Text.quoted (name ++ ".py") ++ ">"

/-- The name within the package of a description, if it has one. Names with a dot stay. -/
def inPackage (m : TableModule) (members : Members) : Except Fault TableModule :=
  match m, (setting? members "__package__").filter Datum.isGiven with
  | named name, some package =>
    if name.toList.contains '.' then .ok m
    else
      match package with
      | .text package => .ok (named (package ++ "." ++ name))
      | _ => .error .illTyped
  | _, _ => .ok m

end TableModule

def lastPart (name : String) : String :=
  ((name.splitOn ".").getLast?).getD name

def packagePart (name : String) : String :=
  ".".intercalate (name.splitOn ".").dropLast

def moduleFolder (name : String) : BuildM String := do
  let folder := (← get).folder
  let path := "/".intercalate (name.splitOn ".")
  if (folder.content? (Folder.modulePath "" path)).isSome then return Folder.parent path
  else if folder.isFolder path then return path
  else throw .noModule

end PerlJava.Generator
