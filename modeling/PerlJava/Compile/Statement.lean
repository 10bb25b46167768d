import PerlJava.Compile.Assignment

/-!
# Statements and calls
-/

namespace PerlJava.Compile

open Java

variable [Interfaces]

def dropLabels : M Unit :=
  modify fun s => { s with lineType := none, lineSizes := none }

/-- Puts a declaration where its statement stands, with the comment of the statement: outside
functions and blocks it becomes an attribute of the class. A declaration of a reserved name leaves
the comment to the next one. -/
def placeDeclaration (id : DeclId) (note : String) : Plain (String × String) := do
  let pending ← pendingOf id
  let text ← pending.text
  if ← isReserved pending.value then
    return ((← pending.shape.javaText) ++ " " ++ pending.value ++ ";\n", note)
  else if (← read).declared.length == 1 then
    let line := "private static " ++ text ++ note ++ "\n"
    update fun s => { s with attributes := s.attributes ++ line }
    return ("", "")
  else return (text ++ note ++ "\n", "")

/-- Puts declarations where their statement stands. The comment goes to the first of them. -/
def placeDeclarations : List DeclId → String → Plain (String × String)
  | [], note => return ("", note)
  | id :: ids, note => do
    let (first, note) ← placeDeclaration id note
    let (others, note) ← placeDeclarations ids note
    return (first ++ others, note)

/-- A statement made of expressions, with the declarations they wait for, inside a control if there
is one. The comment goes to the first declaration, or else to the control. -/
def statementText (expressions : List Fragment) (control comment : Option Fragment)
    (at_ : Position) : Plain Fragment := do
  let mut note := comment.elim "" (·.value)
  let mut flags : List Flag := []
  let mut value := ""
  for exp in expressions do
    exp.whole
    flags := Flag.union flags exp.flags
    let (declarations, rest) ← placeDeclarations exp.declares note
    value := value ++ declarations
    note := rest
    let statement := exp.statement.getD ""
    if !statement.isEmpty then value := value ++ statement ++ ";\n"
    else if exp.has .statement then value := value ++ "Pd.eval(" ++ exp.value ++ ");\n"
  if let some control := control then
    value := control.value ++ note ++ "\n" ++ value ++ "\x7d\n"
  return { value, flags, position := comment.elim at_ (·.position) }

/-- A statement made of expressions, which uses up the labels of its line. -/
def finishStatement (expressions : List Fragment) (control comment : Option Fragment)
    (at_ : Position) : M Fragment := do
  dropLabels
  statementText expressions control comment at_

instance : Enacts .dropsLabels dropLabels :=
  .of_total fun _ _ _ => ⟨(), _, rfl, rfl, rfl, rfl, rfl, id, id⟩

instance (expressions : List Fragment) (control comment : Option Fragment) (at_ : Position) :
    Enacts .dropsLabels (finishStatement expressions control comment at_) := by
  unfold finishStatement; infer_instance

def declareTypes (labels : List Label) (shape : Shape) (at_ : Position) : Plain Fragment := do
  for label in labels do
    if label.isVariable then
      if ← isDeclared label.value then
        report .varAlreadyTyped at_ [("var", label.value)]
      else
        update fun s => { s with
          declaredTypes := s.declaredTypes.insert label.value ⟨shape, at_⟩ }
  return {}

/-- Statements with one more, which is checked to be reached if so wished. -/
def appendStatement (statements : Fragment) (statement : Option Fragment) : Plain Fragment := do
  let some st := statement | return statements
  let all := { statements with
    value := statements.value ++ st.value
    flags := Flag.union statements.flags st.flags }
  if (← read).options.unreachableCode then
    let _ ← checkReachable all
  return all

def refusedCall : Fragment :=
  { shape := .word TypeName.none.text.toList }

def calledFunction? (name : String) (at_ : Position) (package : Option Package) :
    Plain (Option Function) := do
  match package with
  | some p =>
    let found := p.functions.get? name
    if found.isNone then
      report .packFunctionNotExist at_ [("funct", name), ("pack", p.name)]
    return found
  | none =>
    let found := (← read).functions.get? name
    if found.isNone then report .functionNotExist at_ [("funct", name)]
    return found

def callFunction (name : String) (at_ : Position) (arguments : List Fragment)
    (package : Option Package) : Plain Fragment := do
  let some f ← calledFunction? name at_ package | return refusedCall
  if arguments.length != f.arguments.length then
    report .functionArgsError at_ [("funct", name), ("exp", toString f.arguments.length),
      ("find", toString arguments.length)]
    return refusedCall
  let mut declares := []
  let mut listed := ""
  for (exp, shape) in arguments.zip f.arguments do
    declares := declares ++ exp.declares
    check exp false
    listed := listed ++ (← converted shape (← unwrapped exp)) ++ ", "
  if listed.length > 2 then listed := Text.sliceTo listed (-2)
  let value := package.elim "" (·.name ++ ".") ++ name ++ "(" ++ listed ++ ")"
  let code : Fragment := {
    value
    statement := some value
    declares
    position := at_
    flags := [.statement] }
  match f.results with
  | [shape] => return { code with shape }
  | results => return { code with shape := .scalar .void, results }

def returnStatement (exps : List Fragment) (at_ : Position) : Plain Fragment := do
  let some f := (← read).currentFunction
    | do
      report .returnError at_ []
      return {}
  if f.results.length != exps.length then
    report .returnParamError at_ [("num", toString f.results.length),
      ("find", toString exps.length)]
  if f.results.isEmpty then return { value := "return null" }
  let mut declares := []
  let mut listed := ""
  for (exp, shape) in exps.zip f.results do
    check exp false
    declares := declares ++ exp.declares
    listed := listed ++ (← converted shape exp) ++ ", "
  listed := Text.sliceTo listed (-2)
  let value := if f.results.length > 1 then "return new Object[]\x7b" ++ listed ++ "\x7d"
    else "return " ++ listed
  return { value, declares, flags := [.returns] }

/-- The output of a command of the system: one kept in a variable, or one that is spelt out. -/
def commandValue (text : String) (at_ : Position) : Plain Fragment := do
  let result (argument : String) : Fragment :=
    { value := "Pd.cmd(" ++ argument ++ ")", shape := .scalar .string, position := at_ }
  let spelt := result ("\"" ++ Text.replaceAll text "\"" "\\\"" ++ "\"")
  match text.toList with
  | [] => fail .outOfRange
  | '$' :: name =>
    match ← lookup? (String.ofList name) with
    | some id =>
      let v ← variableOf id
      if (← v.shape.size) == 1 then
        let held : Fragment := { shape := v.shape, value := v.name.getD "" }
        return result (← held.toText)
      else return spelt
    | none => return spelt
  | _ => return spelt

end PerlJava.Compile
