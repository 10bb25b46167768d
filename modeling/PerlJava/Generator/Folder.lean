import PerlJava.LR.Grammar
import PerlJava.LR.Table

/-!
# The folder of a description

Tables and reports are kept in files beside the description. A table in a file has a version, and a
table of a parser also has a signature, which says what it was made from.
-/

namespace PerlJava.Generator

def tableVersion : String := "3.8"

/-- What a pattern's group stands for, in a table. -/
inductive TableUse where
  /-- Text that makes no token. -/
  | ignored
  | token (kind : String)
  | function (name kind : String)
deriving Repr, DecidableEq

/-- A pattern of a scanner's table. -/
structure TablePattern where
  text : String
  /-- What the groups stand for, by number, as far as they stand for something. -/
  uses : List (Option TableUse)
deriving Repr

structure ScannerTable where
  version : String := tableVersion
  /-- The names of the flags of its patterns. -/
  flags : List String
  literals : String
  states : OrderedMap String (List TablePattern)
  ignored : OrderedMap String String
  /-- The functions for errors, by state. -/
  errors : OrderedMap String (Option String)
  /-- The functions for the end of the text, by state. -/
  ends : OrderedMap String String

/-- A production of a parser's table. -/
structure TableProduction where
  text : String
  name : String
  length : Nat
  /-- The function, and where the production stands. -/
  function : Option (String × LR.Place) := none
deriving Inhabited

structure ParserTable where
  version : String := tableVersion
  method : String
  signature : String
  actions : Array LR.ActionRow
  gotos : Array (List (String × Nat))
  productions : List TableProduction

/-- What a file holds. -/
inductive Content where
  | empty
  | text (lines : String)
  | scanner (table : ScannerTable)
  | parser (table : ParserTable)
  /-- A parser's table that is not meant to be read by people. -/
  | dump (table : ParserTable)

/-- The files beside a description, by path, and the folders among them. -/
structure Folder where
  files : OrderedMap String Content := {}
  folders : List String := []

namespace Folder

def normal (path : String) : String :=
  "/".intercalate ((path.splitOn "/").filter fun part => part != "." && !part.isEmpty)

def join (folder name : String) : String :=
  if folder.isEmpty then name
  else if folder.endsWith "/" then folder ++ name
  else folder ++ "/" ++ name

def parent (path : String) : String :=
  "/".intercalate ((normal path).splitOn "/").dropLast

variable (f : Folder)

def content? (path : String) : Option Content :=
  f.files.get? (normal path)

def isFolder (path : String) : Bool :=
  (normal path).isEmpty || f.folders.contains (normal path)

def writeError? (path : String) : Option String :=
  let above := parent path
  if (f.files.get? above).isSome then
    some ("[Errno 20] Not a directory: " ++ Text.quoted path)
  else if !f.isFolder above then
    some ("[Errno 2] No such file or directory: " ++ Text.quoted path)
  else if f.isFolder path then
    some ("[Errno 21] Is a directory: " ++ Text.quoted path)
  else none

def write (path : String) (content : Content) : Folder :=
  { f with files := f.files.insert (normal path) content }

def makeFolder (name : String) : Folder :=
  { f with folders := f.folders ++ [normal name] }

def modulePath (folder name : String) : String :=
  join folder name ++ ".py"

def module? (name : String) : Option Content :=
  let path := "/".intercalate (name.splitOn ".")
  (f.content? (modulePath "" path)).or
    (if f.isFolder path then some .empty else none)

def paths : List String :=
  f.files.keys.mergeSort (· ≤ ·)

end Folder

end PerlJava.Generator
