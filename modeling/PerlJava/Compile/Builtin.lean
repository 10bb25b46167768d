import PerlJava.Compile.Assignment
import PerlJava.Compile.Unit

/-!
# Native functions

The functions that Perl itself provides. Functions that change their argument pass it by reference
when their result is used, and assign to it when it is not.
-/

namespace PerlJava.Compile

open Java

variable [Interfaces]

/-- A call of a native function: its name, where that stands, its arguments, and where the call
ends. -/
structure NativeCall where
  name : String
  start : Position
  arguments : List Fragment
  position : Position

namespace NativeCall

def refused : Fragment :=
  { shape := .scalar .none }

variable (call : NativeCall)

def result (value : String) (shape : Shape) (declares : List DeclId) : Fragment :=
  { value, statement := some value, shape, declares, position := call.position,
    flags := [.statement] }

def refuse : Plain Fragment := do
  report .functionNativeError call.start [("function", call.name)]
  return refused

def requireVariable (c : Fragment) : Plain Unit := do
  c.whole
  if c.variable_.isNone then
    report .functionNativeVar call.start [("n", "1"), ("function", call.name)]

def single (f : Fragment → Plain Fragment) : Plain Fragment :=
  match call.arguments with
  | [c] => f c
  | _ => call.refuse

def checkedSingle (f : Fragment → Plain Fragment) : Plain Fragment :=
  call.single fun c => do
    check c false
    f (← unwrapped c)

def printed (arguments : List Fragment) (checked : Bool) : Plain (String × List DeclId) := do
  let mut declares := []
  let mut listed := ""
  for c in arguments do
    if checked then check c false
    declares := declares ++ c.declares
    listed := listed ++ (← (← unwrapped c).toPrinted) ++ ", "
  return (Text.sliceTo listed (-2), declares)

def print : Plain Fragment := do
  let (listed, declares) ← printed call.arguments false
  return call.result ("Perl." ++ call.name ++ "(" ++ listed ++ ")") (.scalar .integer) declares

def printTo (file : Fragment) : Plain Fragment := do
  unless (← file.head).is .file do
    let some first := call.arguments.head? | fail .outOfRange
    report .notFile first.position [("var", first.value)]
  check file false
  let (listed, declares) ← printed call.arguments true
  return call.result (file.value ++ "." ++ call.name ++ "(" ++ listed ++ ")") (.scalar .integer)
    (file.declares ++ declares)

def split (call : NativeCall) : Plain Fragment := do
  match call.arguments with
  | [pattern, text] =>
    check pattern false
    let first ← pattern.toText
    check text false
    let second ← text.toText
    return call.result ("Perl.split(" ++ first ++ ", " ++ second ++ ")")
      (.ofNames [.array, .string]) (pattern.declares ++ text.declares)
  | _ => call.refuse

def join (call : NativeCall) : Plain Fragment := do
  match call.arguments with
  | [separator, parts] =>
    let isSequence := (← parts.head).isSequence
    if ← pure (!isSequence) <&&> (return !(← parts.shape.at_ 1).is .string) then
      let _ ← convert (.ofNames [.array, .string]) parts
      return refused
    check separator false
    check parts false
    return call.result ("Perl.join(" ++ (← separator.toText) ++ ", " ++ parts.value ++ ")")
      (.scalar .string) (separator.declares ++ parts.declares)
  | _ => call.refuse

def keysOrValues : Plain Fragment :=
  call.single fun c => do
    let shape ← if call.name == "keys" then pure (Shape.ofNames [.array, .string])
      else (← c.shape.tail).within [.plain .list]
    check c false
    unless (← c.head).is .hash do
      let _ ← (← c.shape.tail).within [.plain .hash]
      fail .outOfRange
    let c ← unwrapped c
    return call.result ("Perl." ++ call.name ++ "(" ++ c.value ++ ")") shape c.declares

/-- Completes a call that changes its first argument: the text of the call so far, and what
follows the argument in it. -/
def updating (code : Fragment) (parameter : Shape) (c : Fragment) (rest : String) : Plain Fragment := do
  let (code, update, _) ← passByReference code parameter c
  return { code with value := "Pd.fe(" ++ code.value ++ rest ++ ")," ++ update ++ ")" }

def chop : Plain Fragment := do
  if call.arguments.isEmpty then fail .outOfRange
  call.single fun c => do
    call.requireVariable c
    check c false
    let c ← unwrapped c
    let chomped : Fragment := {
      shape := .scalar .string
      value := "Perl.chomp(" ++ (← c.toText) ++ ")" }
    let code : Fragment := {
      shape := .scalar (if call.name == "chomp" then .integer else .string)
      declares := c.declares
      position := call.position
      flags := [.statement]
      statement := some (c.value ++ " = " ++ (← converted c.shape chomped))
      value := "Perl." ++ call.name ++ "(" }
    updating code (.scalar .string) c ""

/-- Marks a variable as assigned; if it was not, it is declared as null. -/
def nullUnlessAssigned (c : Fragment) : Plain (List DeclId) := do
  let some id := c.variable_ | fail .noMember
  let name := (← variableOf id).name
  if ← isAssigned name then return []
  assign name
  return [← addPending { value := c.value ++ " = null" }]

/-- The next pair of a hash, assigned to two variables. -/
def nextPair (targets : List Fragment) (a : Access) : Plain Fragment := do
  let hash ← valueOf a
  let iterator ← freshCallName
  let entry ← freshCallName
  let refuse : Plain Fragment := do
    report .eachError hash.position []
    return refused
  unless (← hash.head).is .hash do return ← refuse
  let [key, val] := targets | refuse
  val.whole
  if val.variable_.isNone then return ← refuse
  key.whole
  if key.variable_.isNone then return ← refuse
  check hash false
  let inner ← hash.shape.tail
  let entryType := Interfaces.map ++ ".Entry<String, " ++ (← inner.javaText) ++ ">"
  let keyText ← converted key.shape { shape := .scalar .string, value := entry ++ ".getKey()" }
  let valueText ← converted val.shape { shape := inner, value := entry ++ ".getValue()" }
  let value := "(" ++ iterator ++ ".hasNext())?Perl.each(" ++ entry ++ "=" ++ iterator ++ ".next(),"
    ++ key.value ++ "=" ++ keyText ++ "," ++ val.value ++ "=" ++ valueText ++ "):false"
  let iteratorId ← addPending {
    value := Interfaces.iterator ++ "<" ++ entryType ++ "> " ++ iterator ++ " = " ++ hash.value
      ++ ".entrySet().iterator()" }
  let entryId ← addPending { value := entryType ++ " " ++ entry }
  let keyNull ← nullUnlessAssigned key
  let valueNull ← nullUnlessAssigned val
  return {
    shape := .scalar .none
    position := hash.position
    flags := [.statement]
    value
    condition := some value
    declares := key.declares ++ val.declares ++ hash.declares ++ [iteratorId, entryId] ++ keyNull
      ++ valueNull }

def each (targets : List Fragment) (a : Access) : Plain Fragment := do
  addImport "Map"
  addImport "Iterator"
  nextPair targets a

def defined (call : NativeCall) : Plain Fragment :=
  call.checkedSingle fun c =>
    return call.result ("Perl.defined(" ++ c.value ++ ")") (.scalar .boolean) c.declares

def open_ : Plain Fragment := do
  match call.arguments with
  | [file, mode, path] =>
    let isFile := (← file.head).is .file
    if isFile then file.whole
    match isFile, file.variable_ with
    | true, some id =>
      let declares := file.declares ++ mode.declares ++ path.declares
      let file ← sync { file with value := file.value ++ " = new PerlFile()" }
      assign (← variableOf id).name
      return call.result ("Perl.open(" ++ file.value ++ ", " ++ (← mode.toText) ++ ", "
        ++ (← path.toText) ++ ")") (.scalar .integer) declares
    | _, _ =>
      report .notFile file.position [("var", file.value)]
      return refused
  | _ => call.refuse

def close (call : NativeCall) : Plain Fragment :=
  call.single fun c => do
    check c false
    unless (← c.head).is .file do report .notFile c.position [("var", c.value)]
    let c ← unwrapped c
    return call.result ("Perl.close(" ++ c.value ++ ")") (.scalar .integer) c.declares

def declareCompared (at_ : Position) : Plain Unit := do
  match (← read).declaredTypes.get? "a" with
  | none => report .sortTypeAError at_ []
  | some typed =>
    for name in ["a", "b"] do
      declare name (← newVariable {
        name := some name
        shape := typed.shape
        position := typed.position })
      assign (some name)
    update fun s => { s with declaredTypes := (s.declaredTypes.erase "a").erase "b" }

/-- Opens the level of a comparison, in which the compared values have names. -/
def startSort (at_ : Position) : M Unit := do
  pushLevel
  declareCompared at_

/-- Why sorting by a comparison is refused: there is not one argument, it is no sequence, or its
elements are not of the type that is compared. -/
inductive SortRefusal where
  | arguments
  | noSequence (c : Fragment)
  | otherType (c : Fragment)

def sorted? : Plain (Except SortRefusal (Fragment × Shape)) := do
  match call.arguments with
  | [c] =>
    unless (← c.head).isSequence do return .error (.noSequence c)
    let some id := (← innermost).declared.get? "a" | return .error (.otherType c)
    let shape := (← variableOf id).shape
    unless ← (← c.shape.tail).agrees shape do return .error (.otherType c)
    return .ok (c, shape)
  | _ => return .error .arguments

def sortText (c comparison : Fragment) (shape : Shape) : Plain (String × Fragment) := do
  check c false
  check comparison false
  let c ← unwrapped c
  let type ← shape.javaText
  let value := "Perl.sort(" ++ c.value ++ ", (" ++ type ++ " a," ++ type ++ " b) ->\x7b"
    ++ (← declarations comparison) ++ "return " ++ (← comparison.toInteger) ++ ";\x7d)"
  return (value, c)

def refuseSort : SortRefusal → M Fragment
  | .arguments => do
    report .functionNativeError call.start [("function", call.name)]
    return refused
  | .noSequence c => do
    report .funArrayError c.position [("fun", "SORT")]
    return refused
  | .otherType c => do
    report .sortTypeError c.position [("var", c.value)]
    return refused

def sortBy (comparison : Fragment) : M Fragment := do
  match ← call.sorted? with
  | .ok (c, shape) =>
    let (value, c) ← sortText c comparison shape
    let _ ← popLevel
    return call.result value c.shape c.declares
  | .error refusal => call.refuseSort refusal

instance (at_ : Position) : Enacts .opensLevel (startSort at_) := by
  unfold startSort; infer_instance

instance (call : NativeCall) (refusal : SortRefusal) :
    Enacts .mayCloseLevel (call.refuseSort refusal) := by
  cases refusal <;> exact .refuse rfl rfl _

instance (call : NativeCall) (comparison : Fragment) :
    Enacts .mayCloseLevel (call.sortBy comparison) := by
  unfold sortBy
  refine @Enacts.bind_of_plain _ _ _ _ _ inferInstance fun sorted => ?_
  cases sorted with
  | ok found => exact .mayClose inferInstance
  | error refusal => infer_instance

def sort (call : NativeCall) : Plain Fragment :=
  call.single fun c => do
    unless (← c.head).isSequence do
      report .funArrayError c.position [("fun", "SORT")]
      return refused
    check c false
    let c ← unwrapped c
    return call.result ("Perl.sort(" ++ c.value ++ ")") c.shape c.declares

def onText (type : TypeName) : Plain Fragment :=
  call.checkedSingle fun c =>
    return call.result ("Perl." ++ call.name ++ "(" ++ (← c.toText) ++ ")") (.scalar type)
      c.declares

/-- Whether a fragment reads an element of a hash, as far as that can be told from the types. -/
def readsHash (c : Fragment) : Plain Bool := do
  c.whole
  let some id := c.variable_ | return false
  let whole ← (← variableOf id).shape.parts
  let part ← c.shape.size
  if whole.length > part then
    return (whole.reverse.drop part).head?.any (·.is .hash)
  else return true

def delete : Plain Fragment :=
  call.single fun c => do
    unless ← readsHash c do
      report .deleteNotHash c.position []
      return refused
    check c false
    let c ← unwrapped c
    return call.result (Edit.deletion c.value) c.shape c.declares

def exists_ : Plain Fragment :=
  call.checkedSingle fun c =>
    return call.result ("(" ++ c.value ++ " != null)") (.scalar .boolean) c.declares

def exit (call : NativeCall) : Plain Fragment :=
  call.checkedSingle fun c =>
    return call.result ("Perl.exit(" ++ (← c.toInteger) ++ ")") (.scalar .integer) c.declares

def lastPosition : Except Fault Position :=
  call.arguments.getLast?.elim (.error .outOfRange) fun c => .ok c.position

/-- A part of a string, or its replacement. -/
def substr (call : NativeCall) : Plain Fragment := do
  let position ← call.lastPosition
  let call := { call with position }
  let start (text offset : Fragment) : Plain String := do
    check text false
    check offset false
    offset.toInteger
  let part (text : Fragment) (rest : String) : Plain String := do
    return "Perl.substr(" ++ (← text.toText) ++ ", " ++ rest ++ ")"
  match call.arguments with
  | [text, offset] =>
    let rest ← start text offset
    return call.result (← part text rest) text.shape (text.declares ++ offset.declares)
  | [text, offset, length] =>
    let rest ← start text offset
    check length false
    let rest := rest ++ ", " ++ (← length.toInteger)
    return call.result (← part text rest) text.shape
      (text.declares ++ offset.declares ++ length.declares)
  | [text, offset, length, replacement] =>
    let rest ← start text offset
    check length false
    let rest := rest ++ ", " ++ (← length.toInteger)
    check replacement false
    let rest := rest ++ ", " ++ (← replacement.toText)
    let code := call.result "Perl.substr(" text.shape
      (text.declares ++ offset.declares ++ length.declares ++ replacement.declares)
    let code := { code with statement := some (text.value ++ " = " ++ (← part text rest)) }
    updating code text.shape text (", " ++ rest)
  | _ => call.refuse

def checkSpliced (target offset new : Fragment) : Plain Fragment := do
  let mut offset := offset
  if !(← new.head).isSequence then
    offset := (← convert (← (← new.shape.tail).within [.plain .array]) offset).2
  else if !(← (← target.shape.tail).agrees (← new.shape.tail)) then
    report .colectionConcatError new.position [("funct", "splice")]
  check new false
  return offset

def spliceOffset (target offset : Fragment) : Plain Fragment := do
  if (← target.head).isSequence then return offset
  else return (← convert (← (← target.shape.tail).within [.plain .array]) offset).2

/-- What follows the collection in the call of a splice, with its declarations: where it begins, and
maybe how many elements it takes out and which it puts in. -/
def spliceArguments (target offset : Fragment) : List Fragment → Plain (String × List DeclId)
  | [] => return (← offset.toInteger, offset.declares)
  | length :: more => do
    let first ← offset.toInteger
    check length false
    let rest := first ++ ", " ++ (← length.toInteger)
    match more with
    | [] => return (rest, offset.declares ++ length.declares)
    | new :: _ =>
      let _ ← checkSpliced target offset new
      return (rest ++ ", " ++ new.value, offset.declares ++ length.declares ++ new.declares)

/-- A call that changes a list in place. Any other collection is assigned to when the result of the
call is not used, and passed by reference when it is. -/
def changing (code target : Fragment) (opening statement rest : String) : Plain Fragment := do
  if (← target.head).is .list then return code
  else updating { code with value := opening, statement := some statement } target.shape target rest

def splice (call : NativeCall) : Plain Fragment := do
  let position ← call.lastPosition
  let call := { call with position }
  match call.arguments with
  | target :: offset :: more =>
    if more.length > 2 then return ← call.refuse
    call.requireVariable target
    let offset ← spliceOffset target offset
    check target false
    check offset false
    let (rest, declares) ← spliceArguments target offset more
    let statement := target.value ++ " = Perl.splice(" ++ target.value ++ ", " ++ rest ++ ")"
    let code := call.result statement target.shape (target.declares ++ declares)
    changing code target "Perl.splice(" statement (", " ++ rest)
  | _ => call.refuse

/-- Whether something can be added to a collection: an element, or a collection of such. -/
def canAdd (target new : Fragment) : Except Fault Bool := do
  if (← new.shape.size) ≤ 1 then return true
  let inner ← target.shape.tail
  if ← inner.agrees new.shape then return true
  if !(← inner.agrees (← new.shape.tail)) then return false
  if !(← target.head).isSequence then return false
  return (← new.head).isSequence

/-- An element as it is added to a collection; a collection of elements is added as it is. -/
def addedText (target new : Fragment) : Plain String := do
  if (← target.shape.size) > (← new.shape.size) then converted (← target.shape.tail) new
  else return new.value

def push : Plain Fragment := do
  let position ← call.lastPosition
  let call := { call with position }
  match call.arguments with
  | [target, new] =>
    call.requireVariable target
    unless (← target.head).isSequence do
      report .funArrayError target.position [("fun", call.name)]
    unless ← canAdd target new do
      report .colectionConcatError new.position [("funct", call.name)]
      return refused
    check target false
    check new false
    let element ← addedText target new
    let opening := "Perl." ++ call.name ++ "("
    let whole := opening ++ target.value ++ ", " ++ element ++ ")"
    let code := call.result whole (.scalar .integer) target.declares
    changing code target opening (target.value ++ " = " ++ whole) (", " ++ element)
  | _ => call.refuse

def withoutParens (c : Fragment) : Plain Fragment :=
  match c.value.toList with
  | [] => fail .outOfRange
  | '(' :: _ => sync { c with value := Text.slice c.value 1 (-1) }
  | _ => return c

def pop : Plain Fragment :=
  call.single fun c => do
    let c ← withoutParens c
    call.requireVariable c
    unless (← c.head).isSequence do
      report .funArrayError c.position [("fun", call.name)]
    let opening := "Perl." ++ call.name ++ "("
    let whole := opening ++ c.value ++ ")"
    let code := call.result whole (← c.shape.tail) c.declares
    changing code c opening (c.value ++ " = " ++ whole) ""

end NativeCall

end PerlJava.Compile
