import PerlJava.Diagnostic.Message

/-!
# Switches

The switches of the command line, their names and what help says about them.
-/

namespace PerlJava.CommandLine

/-- A switch of the command line. -/
inductive Switch where
  | help
  /-- The last file gets a `main` method. -/
  | main
  /-- Where classes are written. -/
  | out
  | comments
  | insertParens
  | optimizeCode
  | jregex
  | unreachableCode
  | errorAbort
  | debugLexer
  | debugParser
  | debugFile
  /-- How much of a value a trace shows. -/
  | debugSize
  | debugDetails
deriving Repr, DecidableEq, Inhabited

namespace Switch

def all : List Switch :=
  [help, main, out, comments, insertParens, optimizeCode, jregex, unreachableCode, errorAbort,
    debugLexer, debugParser, debugFile, debugSize, debugDetails]

def names : Switch → List String
  | help => ["-h", "--help"]
  | main => ["-m", "--main"]
  | out => ["-out"]
  | comments => ["-c", "--comments"]
  | insertParens => ["-ep", "--emulate-parens"]
  | optimizeCode => ["-oc", "--optimize-code"]
  | jregex => ["-jr", "--jregex"]
  | unreachableCode => ["-uc", "--unreachable-code"]
  | errorAbort => ["-ea", "--error-abort"]
  | debugLexer => ["-dl", "--debug-lexer"]
  | debugParser => ["-dp", "--debug-parser"]
  | debugFile => ["-df", "--debug-file"]
  | debugSize => ["-ds", "--debug-size"]
  | debugDetails => ["-dd", "--debug-details"]

/-- What help calls the value of a switch that takes one. -/
def value? : Switch → Option String
  | out => some "dir"
  | debugFile => some "file"
  | debugSize => some "size"
  | _ => none

def takesValue (s : Switch) : Bool :=
  s.value?.isSome

def isDebugging : Switch → Bool
  | debugLexer | debugParser | debugFile | debugSize | debugDetails => true
  | _ => false

def description : Switch → String
  | help => "show this help message and exit"
  | main => Message.helpMain.template
  | out => Message.helpOut.template
  | comments => Message.helpComments.template
  | insertParens => Message.helpInsertParens.template
  | optimizeCode => Message.helpOptimizeCode.template
  | jregex => Message.helpJregex.template
  | unreachableCode => Message.helpUnrecheableCode.template
  | errorAbort => Message.helpErrorAbort.template
  | debugLexer => Message.helpDebuggerLexer.template
  | debugParser => Message.helpDebuggerParser.template
  | debugFile => Message.helpDebuggerFile.template
  | debugSize => Message.helpDebuggerSize.template
  | debugDetails => Message.helpDebuggerDetails.template

def byName : List (String × Switch) :=
  all.flatMap fun s => s.names.map (·, s)

def ofName? (name : String) : Option Switch :=
  byName.lookup name

end Switch

end PerlJava.CommandLine
