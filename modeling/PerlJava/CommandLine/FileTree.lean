import PerlJava.Data.OrderedMap
import PerlJava.Fault

/-!
# Trees of files

Files and folders with a working directory, as a value. A path is followed part by part, from the root
or from the working directory, so each part before the last has to name a folder.
-/

namespace PerlJava.CommandLine

/-- Where a file or folder is: the names from the root on. -/
abbrev Location := List String

structure FileTree where
  files : OrderedMap Location String := {}
  folders : List Location := []
  /-- Paths that may not be accessed, as they are spelled. -/
  denied : List String := []
  /-- The working directory. -/
  home : Location := []

namespace FileTree

def parts (path : String) : List String :=
  (path.splitOn "/").filter fun part => !part.isEmpty && part != "."

/-- A working directory below the root, with files and folders in it. -/
def ofPaths (files : List (String × String)) (folders denied : List String) : FileTree :=
  let home := ["home"]
  { files := .ofList (files.map fun (path, text) => (home ++ parts path, text))
    folders := home :: folders.map (home ++ parts ·)
    denied
    home }

variable (t : FileTree)

/-- Whether there is a folder. The folders that something is in need not be listed. -/
def isFolder (l : Location) : Bool :=
  l.isEmpty || t.folders.any (l.isPrefixOf ·)
    || t.files.keys.any fun file => l.isPrefixOf file && l != file

def isThere (l : Location) : Bool :=
  t.files.contains l || t.isFolder l

/-- Where a path leads from a folder. Only the last part may be missing, and nothing is above the
root. -/
def follow (t : FileTree) : Location → List String → Except Fault (Option Location)
  | here, [] => .ok (some here)
  | here, part :: rest =>
    if t.isFolder here then
      if part = ".." then t.follow here.dropLast rest else t.follow (here ++ [part]) rest
    else if t.files.contains here then .error .notDirectory
    else .ok none

variable (path : String)

def locate : Except Fault (Option Location) := do
  if path.isEmpty then return none
  match ← t.follow (if path.startsWith "/" then [] else t.home) (parts path) with
  | none => return none
  | some l =>
    let last := ((path.splitOn "/").getLast?).getD ""
    if (last.isEmpty || last = ".") && !t.isFolder l then
      if t.files.contains l then throw .notDirectory else return none
    return some l

def pathExists : Bool :=
  match t.locate path with
  | .ok (some l) => t.isThere l
  | _ => false

def isAccessible : Bool :=
  t.pathExists path && !t.denied.contains path

def read : Except Fault String := do
  match ← t.locate path with
  | none => throw .noFile
  | some l =>
    if t.isFolder l then throw .isDirectory
    (t.files.get? l).elim (throw .noFile) pure

def write (path text : String) : Except Fault FileTree := do
  match ← t.locate path with
  | none => throw .noFile
  | some l =>
    if t.isFolder l then throw .isDirectory
    return { t with files := t.files.insert l text }

/-- The files in the working directory, by their paths from there. -/
def entries (t : FileTree) : List (String × String) :=
  let inside := t.files.entries.filter fun (l, _) => t.home.isPrefixOf l
  (inside.map fun (l, text) => ("/".intercalate (l.drop t.home.length), text)).mergeSort
    fun a b => a.1 ≤ b.1

end FileTree

end PerlJava.CommandLine
