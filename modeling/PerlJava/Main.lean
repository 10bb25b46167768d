import PerlJava.CommandLine.Run

/-!
# The program
-/

namespace PerlJava.CommandLine

def canOpen (path : String) (mode : IO.FS.Mode) : IO Bool := do
  try
    let _ ← IO.FS.Handle.mk path mode
    return true
  catch _ => return false

/-- Whether a path names something: it can be opened, or opening it fails for another reason. -/
def isThere (path : String) : IO Bool := do
  try
    let _ ← IO.FS.Handle.mk path .read
    return true
  catch
    | .noFileOrDirectory _ _ _ => return false
    | _ => return true

abbrev HostM := ExceptT Fault IO

def hostWorld : World HostM where
  pathExists path := isThere path
  isReadable path := canOpen path .read
  isWritable path := do
    let probe := joinPath path ".perljava"
    if ← canOpen probe .write then
      IO.FS.removeFile probe
      return true
    return false
  read path := IO.FS.readFile path
  write path text := IO.FS.writeFile path text
  print text := IO.print text
  printError text := IO.eprint text

end PerlJava.CommandLine

open PerlJava PerlJava.CommandLine in
/-- Runs the program on the arguments of the command line. -/
def main (arguments : List String) : IO UInt32 := do
  match Compile.parser with
  | .error e =>
    IO.eprintln (repr e)
    return 1
  | .ok parser =>
    match ← (hostWorld.run parser arguments).run with
    | .ok ending => return ending.status.toUInt32
    | .error .stopped => return 0
    | .error e =>
      IO.eprintln (repr e)
      return 1
