import PerlJava.Compile.Convert
import PerlJava.Compile.Tidying

/-!
# Variables and the places they lead to

Declaring and reading variables, going from a variable to an element or through a reference, and
the literals of arrays and hashes.
-/

namespace PerlJava.Compile

open Java

def noneShape : Shape :=
  .scalar .none

/-- The type of a variable that is being declared: from a label of its own, from the labels of the
line, or none, which only the variable of a loop may do without. -/
def declaredShape (name : String) (at_ : Position) : Plain Shape := do
  let s ← read
  match s.declaredTypes.get? name with
  | some typed =>
    if s.inForeach then
      report .varForTyped at_ [("var", name), ("line", toString typed.position.line)]
    update fun s => { s with declaredTypes := s.declaredTypes.erase name }
    return typed.shape
  | none =>
    match s.lineType with
    | some shape => return shape
    | none =>
      unless s.inForeach do report .varNotType at_ [("var", name)]
      return noneShape

/-- Reports a name that may not be declared: one that is declared already, or reserved. -/
def checkNewName (name : String) (at_ : Position) : Plain Unit := do
  if ← isDeclared name then
    let line ← match ← lookup? name with
      | some id => pure (← variableOf id).position.line
      | none => fail .noMember
    report .varAlreadyDeclare at_ [("var", name), ("line", toString line)]
  else if ← isReserved name then
    report .wordNativeDeclare at_ [("word", name)]

/-- Declares a variable. A shared one is an attribute of the class at once, any other waits for its
statement. -/
def createVariable [Interfaces] (name : String) (at_ : Position) (shared : Bool) :
    Plain Fragment := do
  let _ ← innermost
  checkNewName name at_
  let shape ← declaredShape name at_
  let id ← newVariable { name := some name, shape, position := at_, isPrivate := !shared }
  declare name id
  let code : Fragment := { value := name, shape, position := at_, variable_ := some id }
  if shared then
    let text ← shape.javaText
    update fun s => { s with
      attributes := s.attributes ++ "public static " ++ text ++ " " ++ name ++ ";\n" }
    return code
  else
    let slot ← addPending { value := name, shape, variable_ := some id }
    return { code with declares := [slot], slot := some slot }

def findVariable? (name : String) (package : Option Package) : Plain (Option VarId) :=
  match package with
  | some p => return p.vars.get? name
  | none => lookup? name

def reportNoVariable (name : String) (at_ : Position) (package : Option Package) : Plain Unit := do
  match package with
  | some p => report .packVarNotExist at_ [("var", name), ("pack", p.name)]
  | none =>
    if (← read).declaredTypes.contains name then report .varNotDeclare at_ [("var", name)]
    else report .varNotExist at_ [("var", name)]

/-- Reads a variable that should have been declared, here or in a package. -/
def readVariable (name : String) (at_ : Position) (package : Option Package) : Plain Fragment := do
  match ← findVariable? name package with
  | some id =>
    let v ← variableOf id
    let shape ← v.shape.copy
    let own := v.name.getD ""
    return {
      value := package.elim own fun p => p.name ++ "." ++ own
      shape
      results := v.elements.getD []
      position := at_
      variable_ := some id }
  | none =>
    reportNoVariable name at_ package
    let id ← newVariable {}
    assign (some name)
    return { value := name, shape := noneShape, position := at_, variable_ := some id }

variable (a : Access)

def followReference (at_ : Position) : Plain Access := do
  let a := { a with position := at_ }
  let head ← a.shape.head
  if !head.is .ref && !a.ref then
    report .varErrorAccess at_ [("type", TypeName.ref.text), ("find", head.text)]
    return a
  if head.is .ref then
    return { a with
      value := a.readText
      read := ".get("
      store := ".set("
      close := ")"
      shape := ← a.shape.tail
      ref := false }
  else return { a with ref := false }

/-- Enters a collection that should be of a kind, with its outermost dimension if it is. -/
def enter (key : Fragment) (at_ : Position) (kind : TypeName) : Plain (Access × Option Dim) := do
  let a := { a with position := at_, declares := a.declares ++ key.declares }
  let head ← a.shape.head
  unless head.is kind || (kind == .array && head.is .list) do
    report .varErrorAccess at_ [("type", kind.text), ("find", head.text)]
    return (a, none)
  return (a, some head)

/-- Goes to where a collection of a kind should be, through a reference first if `arrow`, with the
outermost dimension of the collection if there is one. -/
def approach (key : Fragment) (at_ : Position) (kind : TypeName) (arrow : Bool) :
    Plain (Access × Option Dim) := do
  check key true
  let some id := a.base.variable_
    | do
      report .declareAccess at_ []
      return (a, none)
  unless ← isAssigned (← variableOf id).name do
    report .readBeforeAssign at_ [("var", a.base.value)]
  let dimensions ← a.shape.size
  if arrow then
    let a ← followReference a at_
    if (← a.shape.size) == dimensions then return (a, none)
    enter a key at_ kind
  else enter a key at_ kind

/-- How an element is written after the text of its collection: where it is read, and where something
is stored to it. -/
structure ElementForm where
  subscript : String := ""
  read : String := ""
  store : String
  close : String := ""

/-- How the element with a key is written in a collection of a kind. -/
def elementForm (collection : Dim) (key : Fragment) : Except Fault ElementForm := do
  match collection.name? with
  | some .array => return { subscript := "[" ++ (← key.toInteger) ++ "]", store := " = " }
  | some .list =>
    return {
      read := ".get(" ++ key.value
      store := ".set(" ++ (← key.toInteger) ++ ","
      close := ")" }
  | _ =>
    let key ← key.toText
    return { read := ".get(" ++ key, store := ".put(" ++ key ++ ",", close := ")" }

def elementOf (collection : Dim) (key : Fragment) (value : String) : Except Fault Access := do
  let form ← elementForm collection key
  return { a with
    value := value ++ form.subscript
    read := form.read
    store := form.store
    close := form.close
    shape := ← a.shape.tail
    ref := true }

/-- Goes to an element of a collection of a kind, through a reference first if `arrow`. -/
def accessElement (key : Fragment) (at_ : Position) (kind : TypeName) (arrow : Bool) :
    Tidying Access := do
  match ← approach a key at_ kind arrow with
  | (a, none) => return a
  | (a, some head) => elementOf a head key (← tidied a.readText)

/-- Goes to an element of a collection of a kind, the text of which is tidied in some way. -/
def tidiedElement (key : Fragment) (at_ : Position) (kind : TypeName) (arrow : Bool)
    (tidy : String → String) : Plain Access := do
  match ← approach a key at_ kind arrow with
  | (a, none) => return a
  | (a, some head) => elementOf a head key (tidy a.readText)

theorem accessElement_on (a : Access) (key : Fragment) (at_ : Position) (kind : TypeName)
    (arrow : Bool) : (accessElement a key at_ kind arrow).on
      = tidiedElement a key at_ kind arrow Edit.dropFreshRead := by
  rw [accessElement, tidiedElement, Tidying.on_bind, Tidying.on_lift]
  congr
  funext reached
  split
  · rfl
  · rfl

theorem accessElement_off (a : Access) (key : Fragment) (at_ : Position) (kind : TypeName)
    (arrow : Bool) :
    (accessElement a key at_ kind arrow).off = tidiedElement a key at_ kind arrow id := by
  rw [accessElement, tidiedElement, Tidying.off_bind, Tidying.off_lift]
  congr
  funext reached
  split
  · rfl
  · rfl

variable [Interfaces]

def takeReference : Plain Access := do
  if ← pure a.base.variable_.isNone <||> (return !(← a.shape.head).isCollection) then
    report .varRefScalar a.position []
  let value := "new Ref<" ++ (← a.shape.javaText) ++ ">(" ++ a.readText ++ ")"
  return { a with
    value
    read := ""
    store := ""
    close := ""
    shape := ← a.shape.within [.plain .ref]
    ref := false }

def valueOf : Plain Fragment :=
  sync { a.base with
    ref := a.ref
    shape := a.shape
    position := a.position
    value := a.readText
    declares := a.base.declares ++ a.declares }

/-- The type of the elements of a literal, by its first element, and whether they are scalars: a
reference to a collection stands for the collection. -/
def elementShape (first : Fragment) : Except Fault (Shape × Bool) := do
  let size ← first.shape.size
  if size == 1 then return (first.shape, true)
  if (← first.head).is .ref && size != 2 then return (← first.shape.tail, false)
  return (first.shape, true)

def elementValue (exp : Fragment) : Tidying Fragment := do
  if (← exp.head).is .ref then
    let a ← followReference (← Access.ofFragment exp) exp.position
    let value ← tidied a.readText
    sync { exp with value, shape := a.shape }
  else
    report .varRefRequires exp.position [("var", exp.value)]
    return exp

def takeOver (code exp : Fragment) : Plain Fragment := do
  let code := { code with declares := code.declares ++ exp.declares }
  check exp false
  return if exp.has .statement then code.mark .statement else code

def arrayLiteral (elements : List Fragment) : Tidying Fragment := do
  let some first := elements.head? | fail .outOfRange
  let (inner, scalars) ← elementShape first
  let shape ← inner.within [.plain .ref, .plain .array]
  let mut code : Fragment := { shape }
  let mut value := (← (← shape.tail).creation []) ++ "\x7b"
  for exp in elements do
    code ← takeOver code exp
    let exp ← if scalars then pure exp else elementValue exp
    value := value ++ (← converted inner exp) ++ ","
  return { code with value := "new Ref<>(" ++ Text.sliceTo value (-1) ++ "\x7d)" }

/-- The literal of a hash: keys and values by turns. -/
def hashLiteral (elements : List Fragment) : Tidying Fragment := do
  if elements.length % 2 != 0 then
    let some last := elements.getLast? | fail .outOfRange
    report .hashNotValue last.position []
    return { shape := noneShape }
  let some first := elements[1]? | fail .outOfRange
  let (inner, scalars) ← elementShape first
  let mut code : Fragment := { shape := ← inner.within [.plain .ref, .plain .hash] }
  let mut keys := "new String[]\x7b"
  let mut values := (← (← inner.within [.sized .array none]).creation []) ++ "\x7b"
  let mut isKey := true
  for exp in elements do
    code ← takeOver code exp
    if isKey then keys := keys ++ (← exp.toText) ++ ","
    else
      let exp ← if scalars then pure exp else elementValue exp
      values := values ++ (← converted inner exp) ++ ","
    isKey := !isKey
  return { code with
    value := "new Ref<>(Pd.hash(" ++ Text.sliceTo keys (-1) ++ "\x7d, " ++ Text.sliceTo values (-1)
      ++ "\x7d))" }

def rangeArray (low high : Fragment) : Plain Fragment := do
  check low true
  check high true
  let code ← low.join high
  if (← low.head).is .string then
    return { code with
      shape := .ofNames [.array, .string]
      value := "Pd.range(" ++ (← low.toText) ++ "," ++ (← high.toText) ++ ")" }
  else
    return { code with
      shape := .ofNames [.array, .integer]
      value := "Pd.range(" ++ (← low.toInteger) ++ "," ++ (← high.toInteger) ++ ")" }

end PerlJava.Compile
