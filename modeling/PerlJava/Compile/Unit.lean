import PerlJava.Compile.Scope

/-!
# Functions, packages and the class of a file
-/

namespace PerlJava.Compile

open Java

variable [Interfaces]

def addImport (name : String) : Plain Unit :=
  update fun s =>
    { s with imports := if s.imports.contains name then s.imports else s.imports ++ [name] }

/-- Enters a function that starts, unless there is one of its name. -/
def enterFunction (arguments results : List Shape) (name : String) (at_ : Position) :
    Plain Function := do
  if ← isReserved name then report .wordNativeDeclare at_ [("word", name)]
  match (← read).functions.get? name with
  | some known =>
    update fun s => { s with currentFunction := some known }
    report .functionAlreadyDeclare at_
      [("funct", name), ("line", toString known.position.line)]
    return known
  | none =>
    let head : Function := { arguments, results, position := at_ }
    update fun s => { s with
      currentFunction := some head
      functions := s.functions.insert name head }
    return head

/-- Reports arguments that are collections; they have to be references. -/
def checkArguments (arguments : List Shape) (at_ : Position) : Plain Unit := do
  let isValue (shape : Shape) : Plain Bool := do
    if (← shape.size) ≤ 1 then return false
    return !(← shape.head).is .ref
  if ← arguments.anyM isValue then report .refRequires at_ []

def functionHead (arguments results : List Shape) (name : String) (at_ : Position) : M Unit := do
  let head ← enterFunction arguments results name at_
  pushLevel
  checkArguments arguments at_
  startFunction head

instance (arguments results : List Shape) (name : String) (at_ : Position) :
    Enacts .opensLevel (functionHead arguments results name at_) := by
  unfold functionHead; infer_instance

def checkLoopMarks (code : Fragment) : Plain Fragment := do
  if code.has .next then report .nextError code.position []
  if code.has .last then report .lastError code.position []
  return { code with flags := code.flags.filter fun f => f != .next && f != .last }

def resultType : List Shape → Except Fault String
  | [] => .ok "Object"
  | [shape] => shape.javaText
  | _ => .ok "Object[]"

def methodText (name : String) (body : Fragment) : Plain String := do
  let body ← checkLoopMarks body
  let some head := (← read).currentFunction | fail .noMember
  let opening := "public static " ++ (← resultType head.results) ++ " " ++ name
    ++ "(Object... pd_argv)"
  update fun s => { s with currentFunction := none }
  return opening ++ "\x7b\n" ++ body.value
    ++ (if body.has .returns then "" else "return null;\n") ++ "\x7d\n\n"

def functionText (name : String) (body : Fragment) : M String := do
  let _ ← popLevel
  methodText name body

instance (name : String) (body : Fragment) : Enacts .closesLevel (functionText name body) := by
  unfold functionText; infer_instance

def declarePackage (name : String) (at_ : Position) : Plain Unit := do
  let s ← read
  if !s.attributes.isEmpty || !s.functions.entries.isEmpty || !s.globalCode.isEmpty
      || !s.packageCode.isEmpty then
    report .packAfterCode at_ []
  else if s.className != name then report .packDifName at_ []
  else update fun s => { s with isPackage := true }

/-- The package with a name; one that does not exist counts as empty. -/
def accessPackage (name : String) (at_ : Position) : Plain Package := do
  match (← read).packages.get? name with
  | some p => return p
  | none =>
    report .packNotExist at_ [("pack", name)]
    return { name }

/-- Offers the functions and the shared variables of the file to other files. -/
def publishPackage : Plain Unit := do
  let s ← read
  let mut shared : OrderedMap String VarId := {}
  for (name, id) in (s.declared.getLast?.getD {}).entries do
    unless (← variableOf id).isPrivate do shared := shared.insert name id
  let package : Package := { name := s.className, vars := shared, functions := s.functions }
  update fun s => { s with packages := s.packages.insert s.className package }

def publishIfPackage : Plain Unit := do
  if (← read).isPackage then publishPackage

def importLines : Plain String := do
  let s ← read
  let mut text := "import perldoop.*;\n"
  for name in s.imports do
    match s.importPaths.get? name with
    | some path => text := text ++ "import " ++ path ++ ";\n"
    | none => fail .missingKey
  return text ++ "\n"

/-- Puts code in front of that of the class, outside functions and inside. -/
def prependCode (code functions : String) : M Unit :=
  modify fun s => { s with
    globalCode := code ++ s.globalCode
    functionsCode := functions ++ s.functionsCode }

instance (code functions : String) : Enacts .writes (prependCode code functions) :=
  .of_writing (fun _ => .refl _) (fun _ => State.types_prefix rfl) fun _ _ => rfl

def State.keepingArguments (s : State) : State :=
  if s.options.mainClass then { s with
    attributes := "private static String[] ARGV;\n" ++ s.attributes
    globalCode := s.className ++ ".ARGV=ARGV;\n" ++ s.globalCode }
  else s

def keepArguments : M Unit :=
  modify State.keepingArguments

instance : Enacts .writes keepArguments := by
  refine .of_writing (fun s => ?_) (fun s => ?_) fun c s => ?_
  · unfold State.keepingArguments
    split <;> exact .refl _
  · unfold State.keepingArguments
    split <;> exact State.types_prefix rfl
  · unfold State.keepingArguments
    split <;> split <;> trivial

/-- The class of the file. Code outside functions becomes its `main` method, or else runs when the
class is loaded. -/
def classText : Plain String := do
  let s ← read
  let start := if s.options.mainClass then
      "public static void main(String[] ARGV)\x7b\n" ++ s.globalCode ++ "\x7d\n\n"
    else if !s.globalCode.isEmpty then "static\x7b\n" ++ s.globalCode ++ "\x7d\n\n"
    else ""
  let parent := if s.superclass.isEmpty then "" else " extends " ++ s.superclass
  return s.packageCode ++ (← importLines) ++ "\n\npublic class " ++ s.className ++ parent
    ++ "\x7b\n" ++ s.attributes ++ "\n\n" ++ s.functionsCode ++ start ++ "\x7d"

/-- The whole file: its class, and its package if it is one. -/
def finishFile : M String := do
  keepArguments
  let text ← classText
  publishIfPackage
  return text

instance : Enacts .writes finishFile := by
  unfold finishFile; infer_instance

end PerlJava.Compile
