import PerlJava.CommandLine.Switch
import PerlJava.Text.Quoted
import PerlJava.Text.Words

/-!
# Arguments

What the arguments of the command line ask for. An argument that starts with a dash is a switch, if
there is one with that name or with just one name that starts so. The value of a switch is the next
argument, or stands after an equals sign. Short switches can be written together. The files have to
stand together, before, between or after the switches; after two dashes everything is a file.
-/

namespace PerlJava.CommandLine

/-- What the arguments ask for. -/
structure Arguments where
  files : List String := []
  isMain : Bool := false
  /-- Where classes are written, if not in the working directory. -/
  out : Option String := none
  readComments : Bool := false
  insertParens : Bool := false
  optimizeCode : Bool := false
  jregex : Bool := false
  unreachableCode : Bool := false
  errorAbort : Bool := false
  debugLexer : Bool := false
  debugParser : Bool := false
  debugFile : Option String := none
  debugSize : Option Int := none
  debugDetails : Bool := false
deriving Repr, DecidableEq, Inhabited

/-- What is wrong with arguments. -/
inductive UsageError where
  /-- More than one switch has a name that starts so. -/
  | ambiguous (argument : String) (names : List String)
  | noValue (s : Switch)
  | unwantedValue (s : Switch) (value : String)
  | badNumber (s : Switch) (value : String)
  | noFiles
  | unknown (arguments : List String)
deriving Repr, DecidableEq, Inhabited

def Switch.title (s : Switch) : String :=
  "/".intercalate s.names

def UsageError.message : UsageError → String
  | ambiguous argument names =>
    "ambiguous option: " ++ argument ++ " could match " ++ ", ".intercalate names
  | noValue s => "argument " ++ s.title ++ ": expected one argument"
  | unwantedValue s value =>
    "argument " ++ s.title ++ ": ignored explicit argument " ++ Text.quoted value
  | badNumber s value => "argument " ++ s.title ++ ": invalid int value: " ++ Text.quoted value
  | noFiles => "the following arguments are required: infile"
  | unknown arguments => "unrecognized arguments: " ++ " ".intercalate arguments

/-- Why the arguments are not read to the end. -/
inductive Halt where
  /-- Help was asked for. -/
  | help
  | misuse (e : UsageError)
deriving Repr, DecidableEq, Inhabited

/-- A value that is part of the argument with its switch. -/
structure Attached where
  /-- Whether an equals sign stands before the value. -/
  isExplicit : Bool
  text : String
deriving Repr, DecidableEq, Inhabited

/-- What an argument is taken for. -/
inductive ArgumentKind where
  | plain
  /-- The two dashes after which everything is a file. -/
  | dashes
  | switch (s : Switch) (name : String) (attached : Option Attached)
  | unknownSwitch
deriving Repr, DecidableEq, Inhabited

namespace Arguments

def splitEquals (text : String) : String × Option String :=
  let cs := text.toList
  let before := cs.takeWhile (· != '=')
  (String.ofList before,
    if before.length < cs.length then some (String.ofList (cs.drop (before.length + 1))) else none)

/-- The switches that an argument can mean if it is no name of one. -/
def candidates (argument : String) : List (Switch × String × Option Attached) :=
  if argument.startsWith "--" then
    let (start, value) := splitEquals argument
    (Switch.byName.filter (·.1.startsWith start)).map fun (name, s) =>
      (s, name, value.map (⟨true, ·⟩))
  else
    let short := String.ofList (argument.toList.take 2)
    let rest := String.ofList (argument.toList.drop 2)
    Switch.byName.filterMap fun (name, s) =>
      if name = short then some (s, name, some ⟨false, rest⟩)
      else if name.startsWith argument then some (s, name, none)
      else none

def isNegativeNumber (argument : String) : Bool :=
  let digits := (argument.toList.drop 1)
  let digits := if digits.getLast? = some '\n' then digits.dropLast else digits
  let whole := digits.takeWhile Text.isDigit
  match digits.drop whole.length with
  | [] => !whole.isEmpty
  | '.' :: rest => !rest.isEmpty && rest.all Text.isDigit
  | _ => false

def kindOf (argument : String) : Except Halt ArgumentKind :=
  if !argument.startsWith "-" || argument = "-" then .ok .plain
  else if argument = "--" then .ok .dashes
  else
    match Switch.ofName? argument, splitEquals argument with
    | some s, _ => .ok (.switch s argument none)
    | none, (start, value) =>
      match value.bind fun value => (Switch.ofName? start).map (·, value) with
      | some (s, value) => .ok (.switch s start (some ⟨true, value⟩))
      | none =>
        match candidates argument with
        | [(s, name, attached)] => .ok (.switch s name attached)
        | [] =>
          if isNegativeNumber argument || argument.toList.contains ' ' then .ok .plain
          else .ok .unknownSwitch
        | found => .error (.misuse (.ambiguous argument (found.map (·.2.1))))

def kinds : List String → Except Halt (List (String × ArgumentKind))
  | [] => .ok []
  | argument :: rest => do
    match ← kindOf argument with
    | .dashes => return (argument, .dashes) :: rest.map (·, .plain)
    | kind => return (argument, kind) :: (← kinds rest)

/-- The value of a digit: digits stand in runs of ten. -/
def digitValue (c : Char) : Nat :=
  let before := (List.range 50).takeWhile fun k => Text.isDigit (Char.ofNat (c.toNat - 1 - k))
  before.length % 10

/-- The number that a text stands for. Between digits an underscore may stand. -/
def integer? (text : String) : Option Int :=
  let cs := (Text.strip text).toList
  let (negative, cs) := match cs with
    | '-' :: rest => (true, rest)
    | '+' :: rest => (false, rest)
    | cs => (false, cs)
  let rec digits (afterDigit : Bool) (n : Nat) : List Char → Option Nat
    | [] => if afterDigit then some n else none
    | c :: rest =>
      if Text.isDigit c then digits true (10 * n + digitValue c) rest
      else if c = '_' && afterDigit then digits false n rest
      else none
  (digits false 0 cs).map fun n => if negative then -(n : Int) else n

def apply (a : Arguments) (s : Switch) (value : String) : Except Halt Arguments :=
  match s with
  | .help => .error .help
  | .main => .ok { a with isMain := true }
  | .out => .ok { a with out := some value }
  | .comments => .ok { a with readComments := true }
  | .insertParens => .ok { a with insertParens := true }
  | .optimizeCode => .ok { a with optimizeCode := true }
  | .jregex => .ok { a with jregex := true }
  | .unreachableCode => .ok { a with unreachableCode := true }
  | .errorAbort => .ok { a with errorAbort := true }
  | .debugLexer => .ok { a with debugLexer := true }
  | .debugParser => .ok { a with debugParser := true }
  | .debugFile => .ok { a with debugFile := some value }
  | .debugSize =>
    match integer? value with
    | some n => .ok { a with debugSize := some n }
    | none => .error (.misuse (.badNumber s value))
  | .debugDetails => .ok { a with debugDetails := true }

/-- What one argument with switches asks for. -/
structure Opened where
  /-- The switches without a value, in order. -/
  flags : List Switch
  /-- The last switch if it takes a value, which may be part of the argument. -/
  last : Option (Switch × Option String) := none
  /-- What is left and means nothing. -/
  unknown : Option String := none

/-- Takes apart an argument with switches. A switch without a value may be followed by others, each
written as one letter. -/
def opened : (fuel : Nat) → Switch → String → Option Attached → Except Halt Opened
  | 0, _, _, _ => .ok { flags := [] }
  | fuel + 1, s, name, attached =>
    match attached with
    | none =>
      .ok (if s.takesValue then { flags := [], last := some (s, none) } else { flags := [s] })
    | some attached =>
      if s.takesValue then .ok { flags := [], last := some (s, some attached.text) }
      else
        match attached.text.toList with
        | [] => .error (.misuse (.unwantedValue s attached.text))
        | c :: rest =>
          if name.startsWith "--" || attached.isExplicit || c = '-' then
            .error (.misuse (.unwantedValue s attached.text))
          else
            let name := String.ofList ['-', c]
            match Switch.ofName? name with
            | none => .ok { flags := [s], unknown := some ("-" ++ attached.text) }
            | some next => do
              let attached := match rest with
                | [] => none
                | '=' :: value => some ⟨true, String.ofList value⟩
                | rest => some ⟨false, String.ofList rest⟩
              let more ← opened fuel next name attached
              return { more with flags := s :: more.flags }

structure Reading where
  arguments : Arguments := {}
  /-- Whether the files have been found. -/
  hasFiles : Bool := false
  unknown : List String := []

def isSwitch : ArgumentKind → Bool
  | .switch _ _ _ | .unknownSwitch => true
  | _ => false

/-- Reads arguments up to the next switch: they are the files, unless those have been found. -/
def readPlain (r : Reading) (found : List (String × ArgumentKind)) : Reading :=
  let texts := found.map (·.1)
  if r.hasFiles || !found.any (·.2 = .plain) then { r with unknown := r.unknown ++ texts }
  else { r with hasFiles := true, arguments := { r.arguments with files := texts.erase "--" } }

def readAll : (fuel : Nat) → Reading → List (String × ArgumentKind) → Except Halt Reading
  | 0, r, _ => .ok r
  | _, r, [] => .ok r
  | fuel + 1, r, (argument, kind) :: rest =>
    match kind with
    | .unknownSwitch => readAll fuel { r with unknown := r.unknown ++ [argument] } rest
    | .switch s name attached => do
      let found ← opened (argument.length + 1) s name attached
      let (last, rest) ← match found.last, rest with
        | none, rest => pure (none, rest)
        | some (s, some value), rest => pure (some (s, value), rest)
        | some (s, none), (value, .plain) :: rest => pure (some (s, value), rest)
        | some (s, none), _ => throw (.misuse (.noValue s))
      let arguments ← found.flags.foldlM (fun a s => a.apply s "") r.arguments
      let arguments ← match last with
        | some (s, value) => arguments.apply s value
        | none => pure arguments
      readAll fuel { r with arguments, unknown := r.unknown ++ found.unknown.toList } rest
    | _ =>
      let found := ((argument, kind) :: rest).takeWhile (!isSwitch ·.2)
      readAll fuel (readPlain r found) (((argument, kind) :: rest).drop found.length)

def read (texts : List String) : Except Halt Arguments := do
  let found ← kinds texts
  let r ← readAll (found.length + 1) {} found
  unless r.hasFiles do throw (.misuse .noFiles)
  unless r.unknown.isEmpty do throw (.misuse (.unknown r.unknown))
  return r.arguments

end Arguments

end PerlJava.CommandLine
