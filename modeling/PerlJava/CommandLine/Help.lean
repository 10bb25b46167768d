import PerlJava.CommandLine.Arguments
import PerlJava.Text.Slice

/-!
# Help

The text that help shows, and the lines on usage that come before the report of a usage error.
-/

namespace PerlJava.CommandLine

namespace Help

def programName : String := "perldoop.py"

def width : Nat := 78

def column : Nat := 24

def wrapWords (limit : Nat) : (line : List String) → (used : Nat) → List String → List String
  | line, _, [] => if line.isEmpty then [] else [" ".intercalate line.reverse]
  | [], _, word :: rest => wrapWords limit [word] word.length rest
  | line, used, word :: rest =>
    if used + 1 + word.length ≤ limit then
      wrapWords limit (word :: line) (used + 1 + word.length) rest
    else " ".intercalate line.reverse :: wrapWords limit [word] word.length rest

def wrap (limit : Nat) (text : String) : List String :=
  wrapWords limit [] 0 (Text.words text)

def blanks (n : Nat) : String :=
  Text.times n " "

def usagePart (s : Switch) : String :=
  "[" ++ s.names.headD "" ++ (s.value?.elim "" (" " ++ ·)) ++ "]"

def usage : String :=
  let start := "usage: "
  let margin := start.length + programName.length + 1
  let switches := wrapWords (width - margin) [] 0 (Switch.all.map usagePart)
  let lines := switches ++ ["infile [infile ...]"]
  start ++ programName ++ " " ++ ("\n" ++ blanks margin).intercalate lines ++ "\n"

def entry (title description : String) : String :=
  let lines := wrap (width - column) description
  let head := blanks 2 ++ title
  let body := ("\n" ++ blanks column).intercalate lines
  if head.length + 2 ≤ column then Text.padRight column head ++ body ++ "\n"
  else head ++ "\n" ++ blanks column ++ body ++ "\n"

def switchEntry (s : Switch) : String :=
  entry (", ".intercalate (s.names.map (· ++ s.value?.elim "" (" " ++ ·)))) s.description

def text : String :=
  let (debugging, others) := Switch.all.partition Switch.isDebugging
  let paragraph (lines : List String) : String := "\n".intercalate lines ++ "\n"
  usage ++ "\n"
    ++ paragraph (wrap width Message.helpToolDescription.template) ++ "\n"
    ++ "positional arguments:\n" ++ entry "infile" Message.helpFiles.template ++ "\n"
    ++ "options:\n" ++ String.join (others.map switchEntry) ++ "\n"
    ++ "debugger arguments:\n"
    ++ paragraph ((wrap (width - 2) Message.helpDebugger.template).map (blanks 2 ++ ·)) ++ "\n"
    ++ String.join (debugging.map switchEntry)

def complaint (e : UsageError) : String :=
  usage ++ programName ++ ": error: " ++ e.message ++ "\n"

end Help

end PerlJava.CommandLine
