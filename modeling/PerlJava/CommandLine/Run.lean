import PerlJava.CommandLine.FileTree
import PerlJava.CommandLine.Help
import PerlJava.Compile.Parser

/-!
# Running the program

The program reads its arguments, compiles one file after the other and writes a class for each file
without errors. Files see the packages of those before them.

What the program needs from outside is in a `World`, so that it can be run on a tree of files as
well as on a file system.
-/

namespace PerlJava.CommandLine

open Compile

/-- What the program needs from outside. -/
structure World (m : Type → Type) where
  pathExists : String → m Bool
  isReadable : String → m Bool
  isWritable : String → m Bool
  read : String → m String
  write : String → String → m Unit
  /-- Prints a text on standard output. -/
  print : String → m Unit
  /-- Prints a text on standard error. -/
  printError : String → m Unit

/-- How a run ends that is not given up. -/
inductive Ending where
  | finished
  /-- Help was shown. -/
  | helped
  /-- The arguments make no sense. -/
  | misused
deriving Repr, DecidableEq

def Ending.status : Ending → Nat
  | finished | helped => 0
  | misused => 2

/-- The options of a compilation. A trace goes to standard error, whatever is asked for about a
file for it. -/
def Arguments.options (a : Arguments) (isMain : Bool) : Options where
  mainClass := isMain
  readComments := a.readComments
  insertParens := a.insertParens
  optimizeCode := a.optimizeCode
  jregex := a.jregex
  unreachableCode := a.unreachableCode
  errorAbort := a.errorAbort
  lexerDebug := a.debugLexer
  tracing :=
    if a.debugParser then
      some { limit := ((a.debugSize.filter (· > 0)).map Int.toNat).getD LR.resultLimit }
    else none

def baseName (path : String) : String :=
  ((path.splitOn "/").getLast?).getD path

def joinPath (folder name : String) : String :=
  if folder.isEmpty || folder.endsWith "/" then folder ++ name else folder ++ "/" ++ name

section

variable {m : Type → Type} [Monad m] [MonadExcept Fault m] (world : World m)

/-- Reports an error that belongs to no source, and ends the run. -/
def World.refuse {α : Type} (e : Message) (names : Diagnostic.Names) : m α := do
  world.print (Diagnostic.plain e names)
  throw .stopped

def World.require (mayUse : String → m Bool) (path : String)
    (missing denied : Message) (names : Diagnostic.Names) : m Unit := do
  unless ← world.pathExists path do world.refuse missing names
  unless ← mayUse path do world.refuse denied names

def World.tell (s : State) : m Unit := do
  world.printError s.trace
  world.print s.log

/-- Writes the class that a compilation has come to, unless there was an error. -/
def World.writeClass (a : Arguments) (java : Option String) (s : State) : m Unit := do
  unless s.codeError do
    match java with
    | none => throw .noMember
    | some java =>
      world.write (joinPath (a.out.getD "") (s.className ++ ".java")) (Java.indent java)

def World.compileFile (parser : Parser) (a : Arguments) (isMain : Bool)
    (session : Session) (path : String) : m Session := do
  world.require world.isReadable path .fileNotFound .fileNotAccess [("file", path)]
  let text := Text.withEvenLineEnds (← world.read path)
  match compile parser text (State.ofFile session (a.options isMain) (baseName path)) with
  | .error e s =>
    world.tell s
    throw e.toFault
  | .ok java s =>
    world.tell s
    world.writeClass a java s
    return s.toSession

/-- Compiles files one after the other. Only the last can be the main file. -/
def World.compileFiles (world : World m) (parser : Parser) (a : Arguments) :
    Session → List String → m Unit
  | _, [] => return ()
  | session, path :: rest => do
    let session ← world.compileFile parser a (a.isMain && rest.isEmpty) session path
    world.compileFiles parser a session rest

def World.checkOut (a : Arguments) : m Unit := do
  if let some out := a.out then
    world.require world.isWritable out .outNotFound .outNotAccess []

def World.work (parser : Parser) (a : Arguments) : m Unit := do
  world.checkOut a
  world.compileFiles parser a {} a.files

def World.run (parser : Parser) (arguments : List String) : m Ending := do
  match Arguments.read arguments with
  | .ok a =>
    world.work parser a
    return .finished
  | .error .help =>
    world.print Help.text
    return .helped
  | .error (.misuse e) =>
    world.printError (Help.complaint e)
    return .misused

end

/-- A tree of files with what was printed and written. -/
structure Desk where
  tree : FileTree
  printed : String := ""
  printedError : String := ""
  /-- The paths and the texts of the files that were written, in order. -/
  written : List (String × String) := []

abbrev DeskM := EStateM Fault Desk

def Desk.world : World DeskM where
  pathExists path := return (← get).tree.pathExists path
  isReadable path := return (← get).tree.isAccessible path
  isWritable path := return (← get).tree.isAccessible path
  read path := do
    let text ← (← get).tree.read path
    return text
  write path text := do
    let tree ← (← get).tree.write path text
    modify fun d => { d with tree, written := d.written ++ [(path, text)] }
  print text := modify fun d => { d with printed := d.printed ++ text }
  printError text := modify fun d => { d with printedError := d.printedError ++ text }

def Desk.run (desk : Desk) (parser : Parser) (arguments : List String) :
    Except Fault Ending × Desk :=
  match Desk.world.run parser arguments desk with
  | .ok ending desk => (.ok ending, desk)
  | .error e desk => (.error e, desk)

end PerlJava.CommandLine
