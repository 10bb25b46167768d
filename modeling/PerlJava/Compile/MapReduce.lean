import PerlJava.Compile.Statement
import PerlJava.Compile.Unit

/-!
# Mappers and reducers

Parts of a program that labels mark as a mapper or a reducer become the methods of a Hadoop job.
-/

namespace PerlJava.Compile

open Java

variable [Interfaces]

def writable : TypeName → Except Fault String
  | .boolean => .ok "BooleanWritable"
  | .integer => .ok "IntWritable"
  | .long => .ok "LongWritable"
  | .float => .ok "FloatWritable"
  | .double => .ok "DoubleWritable"
  | .string => .ok "Text"
  | _ => .error .missingKey

/-- Which keys and values of a job a type belongs to. -/
inductive JobSlot where
  | keyIn
  | valueIn
  | keyOut
  | valueOut

def Job.type (job : Job) : JobSlot → TypeName
  | .keyIn => job.types.getD 0 .string
  | .valueIn => job.types.getD 1 .string
  | .keyOut => job.types.getD 2 .string
  | .valueOut => job.types.getD 3 .string

def jobType (slot : JobSlot) : Plain TypeName :=
  return (← read).job.type slot

def jobClass (slot : JobSlot) : Plain String := do
  writable (← jobType slot)

def changeJob (f : Job → Job) : Plain Unit :=
  update fun s => { s with job := f s.job }

def startMapper (types : Option (List TypeName)) (at_ : Position) : Plain Unit := do
  unless (← read).superclass.isEmpty do report .alreadyExtends at_ []
  changeJob fun job => { job with hasMapper := true }
  if (← read).declared.length > 1 then report .specialLocalBlock at_ []
  if let some types := types then changeJob fun job => { job with types := .string :: types }
  ["Mapper", "HadoopIO", "HadoopContext", "IOException"].forM addImport

def changeFunctions (f : String → String) : M Unit :=
  modify fun s => { s with functionsCode := f s.functionsCode }

instance (f : String → String) : Enacts .writes (changeFunctions f) :=
  .of_writing (fun _ => .refl _) (fun _ => State.types_prefix rfl) fun _ _ => rfl

variable (body : Fragment)

def mapperMethod : Plain String := do
  let superclass := "Mapper<Object," ++ (← jobClass .valueIn) ++ ","
  update fun s => { s with superclass }
  let superclass := superclass ++ (← jobClass .keyOut) ++ "," ++ (← jobClass .valueOut) ++ ">"
  update fun s => { s with superclass }
  return "@Override\npublic void map(Object pd_key, " ++ (← jobClass .valueIn)
    ++ " pd_value, Context pd_context) throws IOException, InterruptedException\x7b\ntry\x7b\n"
    ++ body.value
    ++ "\x7dcatch(Exception e)\x7b\nSystem.out.println(e.toString());\n\x7d\n\x7d\n\n"

def finishMapper : M Fragment := do
  let method ← mapperMethod body
  changeFunctions (method ++ ·)
  let _ ← popLevel
  return {}

instance (body : Fragment) : Enacts .endsJob (finishMapper body) := by
  unfold finishMapper; infer_instance

/-- The head of the loop of a mapper, which assigns the value at hand to a place. -/
def mapperLoopHead (a : Access) (at_ : Position) : Tidying Fragment := do
  let job := (← read).job
  if !job.hasMapper then report .hdMapperLoopAlone at_ []
  else if job.hasLoop then report .hdMapperManyLoop at_ []
  let type ← jobType .valueIn
  let value := if type = .string then "pd_value.toString()" else "pd_value.get()"
  let code ← assignTo a { shape := .scalar type, value } false
  return { code with value := (← declarations code) ++ code.value ++ ";\n", declares := [] }

/-- Notes that the mapper has its loop, which may not be left early. -/
def noteLoop (at_ : Position) : Plain Unit := do
  changeJob fun job => { job with hasLoop := true }
  if body.has .next || body.has .last then report .hdNextLast at_ []

def mapperLoop (head body : Fragment) (at_ : Position) : M Fragment := do
  noteLoop body at_
  let _ ← popLevel
  return { head with value := "\x7b\n" ++ head.value ++ body.value ++ "\x7d\n" }

instance (head body : Fragment) (at_ : Position) : Enacts .closesLevel (mapperLoop head body at_) := by
  unfold mapperLoop; infer_instance

/-- The output of a key and a value, which are the first and the third of four arguments. -/
def writePair (arguments : List Fragment) (at_ : Position) : Plain Fragment := do
  match arguments with
  | [key, _, val, _] =>
    check key true
    check val true
    let code ← key.join val
    let keyClass ← jobClass .keyOut
    let key ← converted (.scalar (← jobType .keyOut)) key
    let valueClass ← jobClass .valueOut
    let val ← converted (.scalar (← jobType .valueOut)) val
    let value := "pd_context.write(new " ++ keyClass ++ "(" ++ key ++ "), new " ++ valueClass ++ "("
      ++ val ++ "))"
    return { code with shape := .scalar .integer, value, statement := some value }
  | _ =>
    report .hdPrint at_ []
    return { shape := .scalar .none }

def reducerOperation : M Fragment := do
  changeJob fun job => { job with operation := some body.value }
  let _ ← popLevel
  addImport "Reducer"
  return {}

/-- The block that a reducer runs after the values of a key. -/
def reducerChange : M Fragment := do
  changeJob fun job => { job with change := some body.value }
  let _ ← popLevel
  addImport "Reducer"
  return {}

instance (body : Fragment) : Enacts .closesLevel (reducerOperation body) := by
  unfold reducerOperation; infer_instance

instance (body : Fragment) : Enacts .closesLevel (reducerChange body) := by
  unfold reducerChange; infer_instance

/-- Takes the first declaration of a statement as the key or value of a reducer, by `store`. If it
has no value yet it is declared as null. -/
def reducerVariable (store : String × Shape → Job → Job) (missing : Message)
    (exps : List Fragment) (at_ : Position) : Plain (List Fragment) := do
  match exps with
  | [] => fail .outOfRange
  | first :: rest =>
    match first.declares with
    | [] =>
      report missing at_ []
      return exps
    | id :: ids =>
      let pending ← pendingOf id
      let some var := pending.variable_ | fail .noMember
      let name := (← variableOf var).name.getD ""
      changeJob (store (name, pending.shape))
      if (← innermost).assigned.contains (some name) then return exps
      assign (some name)
      let id ← addPending { value := name ++ " = null", shape := pending.shape }
      return { first with declares := id :: ids } :: rest

def reducerKey (exps : List Fragment) (control comment : Option Fragment) (at_ label : Position) :
    M Fragment := do
  let exps ← reducerVariable (fun key job => { job with key := some key }) .hdReducerKey exps label
  finishStatement exps control comment at_

def reducerValue (exps : List Fragment) (control comment : Option Fragment) (at_ label : Position) :
    M Fragment := do
  let exps ← reducerVariable (fun value job => { job with value := some value }) .hdReducerValue
    exps label
  finishStatement exps control comment at_

instance (exps : List Fragment) (control comment : Option Fragment) (at_ label : Position) :
    Enacts .dropsLabels (reducerKey exps control comment at_ label) := by
  unfold reducerKey; infer_instance

instance (exps : List Fragment) (control comment : Option Fragment) (at_ label : Position) :
    Enacts .dropsLabels (reducerValue exps control comment at_ label) := by
  unfold reducerValue; infer_instance

/-- The parts of a reducer: what is done for each value and after those of a key, and the variables
that hold the key and the value. -/
structure Reducer where
  operation : String
  change : String
  key : String × Shape
  value : String × Shape

def Job.reducer? (job : Job) : Option Reducer :=
  return ⟨← job.operation, ← job.change, ← job.key, ← job.value⟩

def reducerParts? : Plain (Option Reducer) := do
  addImport "HadoopTypes"
  return (← read).job.reducer?

def reducerMethod (parts : Reducer) (body : Fragment) (at_ : Position) : Plain String := do
  unless (← read).superclass.isEmpty do report .alreadyExtends at_ []
  let inputs := "Reducer<" ++ (← jobClass .keyIn) ++ "," ++ (← jobClass .valueIn) ++ ","
  update fun s => { s with superclass := s.superclass ++ inputs }
  let outputs := (← jobClass .keyOut) ++ "," ++ (← jobClass .valueOut) ++ "," ++ ">"
  update fun s => { s with superclass := s.superclass ++ outputs }
  let head := "@Override\npublic void reduce(" ++ (← jobClass .keyIn) ++ " pd_key, Iterable<"
    ++ (← jobClass .valueIn)
    ++ "> pd_value, Context pd_context) throws IOException, InterruptedException"
  let keyText ← converted parts.key.2
    { shape := .scalar (← jobType .keyIn), value := "pd_key.get()" }
  let each ← freshLoopName
  let loop := "for(" ++ (← jobClass .valueIn) ++ " " ++ each ++ " : pd_value)\x7b\n"
  let valueText ← converted parts.value.2
    { shape := .scalar (← jobType .valueIn), value := each ++ ".get()" }
  return head ++ "\x7b\n" ++ body.value ++ parts.key.1 ++ " = " ++ keyText ++ ";\n" ++ loop
    ++ parts.value.1 ++ " = " ++ valueText ++ ";\n" ++ parts.operation ++ "\x7d\n" ++ parts.change
    ++ "\x7d\n\n"

def finishReducer (at_ parts : Position) : M Fragment := do
  match ← reducerParts? with
  | some reducer =>
    let method ← reducerMethod reducer body at_
    changeFunctions fun _ => method
    let _ ← popLevel
    return {}
  | none =>
    report .hdReducerIncomplete parts []
    return {}

instance (body : Fragment) (at_ parts : Position) :
    Enacts .endsJob (finishReducer body at_ parts) := by
  unfold finishReducer
  refine @Enacts.bind_of_plain _ _ _ _ _ inferInstance fun reducer? => ?_
  cases reducer? with
  | some reducer => infer_instance
  | none => exact .refuse rfl rfl _

end PerlJava.Compile
