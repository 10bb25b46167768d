import PerlJava.CommandLine.Run
import PerlJava.Generator.Variants
import PerlJava.Workload.Sample

/-!
# Workloads

Pieces of work of any size, to measure the program by. Their results show that the work was done.
-/

namespace PerlJava

open Compile

/-- A piece of work. -/
inductive Workload where
  | casting
  | operations
  | blocks
  | nativeFunctions
  | collections
  | userFunctions
  /-- Mappers and reducers. -/
  | mapReduce
  /-- A package and a program that uses it. -/
  | packages
  /-- Indentation. -/
  | layout
  /-- A compilation with a trace. -/
  | tracing
  /-- Runs of the program on files. -/
  | files
  /-- Sections of a marked text. -/
  | sections
deriving Repr, DecidableEq

namespace Workload

/-- What a workload results in. -/
inductive Result where
  /-- The class that a compilation gives, if it gives one. -/
  | java (text : Option String)
  | javas (texts : List (Option String))
  | number (n : Nat)
  | numbers (ns : List Nat)
  /-- The files that were compiled, and the size of the classes written. -/
  | listing (files : List String) (size : Nat)

def session : Session :=
  { importPaths := standardImports.insert "HadoopTypes" "org.apache.hadoop.io.*" }

variable (parser : Parser)

def compileText (session : Session) (options : Options) (name source : String) :
    Except Fault (Option String × Session) :=
  match compile parser source (State.ofFile session options (name ++ ".pl")) with
  | .ok java s => .ok (java, s.toSession)
  | .error e _ => .error e.toFault

def compileMain (name source : String) : Except Fault Result := do
  let (java, _) ← compileText parser session { mainClass := true } name source
  return .java java

def compileJobs (n : Nat) : Except Fault Result := do
  let javas ← (List.range n).mapM fun i => do
    let (m, _) ← compileText parser session {} ("Mapper" ++ toString i) Sample.mapper
    let (r, _) ← compileText parser session {} ("Reducer" ++ toString i) Sample.reducer
    return [m, r]
  return .javas javas.flatten

def compilePackages (n : Nat) : Except Fault Result := do
  let (first, later) ← compileText parser session {} "MyPkg" (Sample.package n)
  let (second, _) ← compileText parser later { mainClass := true } "Client" (Sample.client n)
  return .java (do return (← first) ++ "\n" ++ (← second))

def compileFiles (n : Nat) : Except Fault Result := do
  let paths := (List.range n).map fun i => "Prog" ++ toString i ++ ".pl"
  let tree := CommandLine.FileTree.ofPaths (paths.map (·, Sample.faulty)) [] []
  let (result, desk) := ({ tree } : CommandLine.Desk).run parser paths
  let _ ← result
  let classes := desk.tree.entries.filter fun (path, _) => !paths.contains path
  return .listing paths (classes.foldl (fun size (_, java) => size + java.utf8ByteSize) 0)

def cutSections (n : Nat) : Except Fault Result := do
  let lines := Sample.markedLines n
  let (start, stop) ← Generator.Variants.range lines "part"
  let kept := Generator.Variants.without "DEBUG" false ((lines.drop start).take (stop - start))
  return .numbers [start, stop, kept.length]

def run (w : Workload) (parser : Parser) (n : Nat) : Except Fault Result :=
  match w with
  | casting => compileMain parser "Casting" (Sample.casting n)
  | operations => compileMain parser "Ops" (Sample.operations n)
  | blocks => compileMain parser "Blocks" (Sample.blocks n)
  | nativeFunctions => compileMain parser "Natives" (Sample.nativeFunctions n)
  | collections => compileMain parser "Collections" (Sample.collections n)
  | userFunctions => compileMain parser "UserFuncs" (Sample.userFunctions n)
  | mapReduce => compileJobs parser n
  | packages => compilePackages parser n
  | layout => .ok (.number (Java.indent (Sample.flatJava n)).length)
  | tracing => do
    let (java, _) ← compileText parser session { mainClass := true, tracing := some {} } "Dbg"
      (Sample.counters n)
    return .java java
  | files => compileFiles parser n
  | sections => cutSections n

end Workload

end PerlJava
