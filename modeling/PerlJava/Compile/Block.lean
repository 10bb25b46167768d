import PerlJava.Compile.Access

/-!
# Blocks and loops
-/

namespace PerlJava.Compile

open Java

variable [Interfaces] (cond body : Fragment) (at_ : Position)

def braced (text : String) : String :=
  "\x7b\n" ++ text ++ "\x7d\n"

/-- Code after the declarations it waits for, in a block of its own if there are any. -/
def withDeclarations (c : Fragment) (text : String) : Plain String := do
  if c.declares.isEmpty then return text
  else return braced ((← declarations c) ++ text)

def plainBlock : M Fragment := do
  mergeLevel
  return { value := braced body.value, position := at_, flags := body.flags }

instance : Enacts .closesLevel (plainBlock body at_) := by
  unfold plainBlock; infer_instance

/-- Lets declarations be joined with assignments, or keeps them from it. -/
def toggleInit : M Unit :=
  modify fun s => { s with initVar := !s.initVar }

instance : Enacts .togglesInit toggleInit :=
  .of_total fun _ _ _ => ⟨(), _, rfl, rfl, rfl, rfl, rfl, id, id⟩

def whileLoop : M Fragment := do
  check cond true
  let text := "while(" ++ (← cond.toBoolean) ++ ")\x7b\n" ++ body.value ++ "\x7d\n"
  let value ← withDeclarations cond text
  let _ ← popLevel
  return { value, position := at_ }

def refuseDeclarations : Plain Unit := do
  unless cond.declares.isEmpty do fail .illTyped

/-- A loop that ends when its condition, which comes first, holds. Declarations in the condition are
not supported. -/
def untilLoop : M Fragment := do
  check cond true
  let value := "while(!(" ++ (← cond.toBoolean) ++ "))\x7b\n" ++ body.value ++ "\x7d\n"
  refuseDeclarations cond
  let _ ← popLevel
  return { value, position := at_ }

/-- Closes the level of a loop whose body runs at least once. -/
def finishDoLoop (body : Fragment) (value : String) (at_ : Position) : M Fragment := do
  mergeLevel
  return {
    value
    position := at_
    flags := if body.has .returns then [.returns] else [] }

def doWhileLoop : M Fragment := do
  check cond true
  let text := "do\x7b\n" ++ body.value ++ "\x7dwhile(" ++ (← cond.toBoolean) ++ ");\n"
  finishDoLoop body (← withDeclarations cond text) at_

/-- A loop that ends when its condition, which comes last, holds. Declarations in the condition are
not supported. -/
def doUntilLoop : M Fragment := do
  check cond true
  let text := "do\x7b\n" ++ body.value ++ "\x7dwhile(!(" ++ (← cond.toBoolean) ++ "));\n"
  refuseDeclarations cond
  finishDoLoop body text at_

/-- The text in front of a branch, with its condition if it has one. -/
def branchHead (cond : Option Fragment) (head tail : String) : Plain String :=
  match cond with
  | some cond => do
    check cond true
    return head ++ (← cond.toBoolean) ++ tail
  | none => return head ++ tail

instance : Enacts .closesLevel (whileLoop cond body at_) := by
  unfold whileLoop; infer_instance

instance : Enacts .closesLevel (untilLoop cond body at_) := by
  unfold untilLoop; infer_instance

instance (value : String) : Enacts .closesLevel (finishDoLoop body value at_) := by
  unfold finishDoLoop; infer_instance

instance : Enacts .closesLevel (doWhileLoop cond body at_) := by
  unfold doWhileLoop; infer_instance

instance : Enacts .closesLevel (doUntilLoop cond body at_) := by
  unfold doUntilLoop; infer_instance

/-- A branch of a conditional: its level is closed, and what it assigns is kept until all branches
are known. -/
def branch (cond : Option Fragment) (head tail : String) (body : Fragment) (at_ : Position) :
    M Fragment := do
  let opening ← branchHead cond head tail
  let level ← popLevel
  return {
    value := opening ++ body.value ++ "\x7d"
    flags := body.flags
    declares := cond.elim [] (·.declares)
    position := at_
    assigned := level.passedOn }

instance (cond : Option Fragment) (head tail : String) :
    Enacts .closesLevel (branch cond head tail body at_) := by
  unfold branch; infer_instance

abbrev ifBranch : M Fragment :=
  branch cond "if(" ")\x7b\n" body at_

abbrev unlessBranch : M Fragment :=
  branch cond "if(!(" "))\x7b\n" body at_

abbrev elsifBranch : M Fragment :=
  branch cond "else if(" ")\x7b\n" body at_

def elseBranch : M Fragment := do
  let code ← branch none "else\x7b\n" "" body at_
  return { code with value := code.value ++ "\n" }

instance : Enacts .closesLevel (elseBranch body at_) := by
  unfold elseBranch; infer_instance

/-- A branch with those after it: what all of them assign is assigned, and if all of them return, so
does the whole. -/
def joinBranches (first : Fragment) : Option Fragment → Fragment
  | none => { first with value := first.value ++ "\n" }
  | some rest => {
      value := first.value ++ rest.value
      position := rest.position
      assigned := first.assigned.filter rest.assigned.contains
      declares := first.declares ++ rest.declares
      flags := if first.has .returns && rest.has .returns then [.returns] else [] }

def conditionalBlock (first : Fragment) (rest : Option Fragment) : Plain Fragment := do
  let code := joinBranches first rest
  assignAll code.assigned
  return { code with value := ← withDeclarations code code.value }

def declaredType (id : DeclId) : Plain String := do
  (← pendingOf id).shape.javaText

/-- Whether the first field of a `for` loop needs a block around the loop: because it mixes
declarations with other statements, or declares variables of several types. -/
def needsOuterBlock (statements : List Fragment) : Plain Bool := do
  let mut declares := false
  let mut acts := false
  let mut type : Option String := none
  for st in statements do
    unless st.declares.isEmpty do
      declares := true
      if acts then return true
      for id in st.declares do
        let text ← declaredType id
        if text != type.getD text then return true
        type := some (type.getD text)
    st.whole
    if st.statement.any (!·.isEmpty) then
      acts := true
      if declares then return true
  return false

/-- The first field of a `for` loop that declares its variables itself. -/
def initialField (statements : List Fragment) : Plain String := do
  let mut text := ""
  for st in statements do
    match st.declares with
    | [] => text := text ++ st.value ++ ","
    | first :: _ =>
      if text.isEmpty then text := (← declaredType first) ++ " "
      for id in st.declares do
        text := text ++ (← pendingOf id).value ++ ","
  return Text.sliceTo text (-1)

/-- The third field of a `for` loop, and what it needs in front of the loop. -/
def stepField (steps : List Fragment) : Plain (String × String) := do
  let mut outer := ""
  let mut third := ""
  for st in steps do
    st.whole
    let some text := st.statement | fail .illTyped
    third := third ++ text ++ ","
    outer := outer ++ (← declarations st)
  return (Text.sliceTo third (-1), outer)

/-- The second field of a `for` loop, and what the fields so far need in front of the loop. A
condition is not supported without a third field. -/
def conditionField (conds steps : List Fragment) (before : String) : Plain (String × String) := do
  let mut outer := before
  let mut second := ""
  for cond in conds do
    second := (← cond.toBoolean) ++ "&&"
    let some last := steps.getLast? | fail .unbound
    unless last.declares.isEmpty do outer := outer ++ (← declarations cond)
  return (Text.sliceTo second (-2), outer)

/-- The statements of the first field of a `for` loop, put in front of the loop. Declarations are
not supported there. -/
def initialStatements (init : List Fragment) (before : String) : Plain String := do
  let mut outer := before
  for st in init do
    unless st.declares.isEmpty do fail .noMember
    st.whole
    if let some text := st.statement then
      unless text.isEmpty do outer := outer ++ text ++ ";\n"
  return outer

/-- Whether the first field of a `for` loop stands in front of the loop. -/
def hasOuterBlock (init : List Fragment) (before : String) : Plain Bool :=
  if init.isEmpty then return false
  else if !before.isEmpty then return true
  else needsOuterBlock init

/-- The first field of a `for` loop, and what stands in front of the loop. -/
def placeInitial (init : List Fragment) (before : String) : Plain (String × String) := do
  if ← hasOuterBlock init before then return ("", ← initialStatements init before)
  else return (← initialField init, before)

/-- The text of a `for` loop with three fields. -/
def forText (init conds steps : List Fragment) (body : Fragment) : Plain String := do
  let (third, outer) ← stepField steps
  let (second, outer) ← conditionField conds steps outer
  let (first, outer) ← placeInitial init outer
  let loop := "for(" ++ first ++ "; " ++ second ++ "; " ++ third ++ ")\x7b\n" ++ body.value
    ++ "\x7d\n"
  return if outer.isEmpty then loop else braced (outer ++ loop)

/-- A `for` loop with three fields. -/
def forLoop (init conds steps : List Fragment) (body : Fragment) (at_ : Position) :
    M Fragment := do
  let value ← forText init conds steps body
  let _ ← popLevel
  return { value, position := at_ }

instance (init conds steps : List Fragment) :
    Enacts .closesLevel (forLoop init conds steps body at_) := by
  unfold forLoop; infer_instance

def startLoopVariable : M Unit :=
  modify fun s => { s with inForeach := true }

def targetOf (c : Fragment) : Plain VarId :=
  match c.variable_ with
  | some id => return id
  | none => fail .noMember

def assignTarget (c : Fragment) : Plain Unit := do
  assign (← variableOf (← targetOf c)).name

def endLoopVariable : M Unit :=
  modify fun s => { s with inForeach := false }

def finishLoopVariable (c : Fragment) : M Fragment := do
  endLoopVariable
  assignTarget c
  return c

instance : Enacts .entersForeach startLoopVariable :=
  .of_total fun _ _ _ => ⟨(), _, rfl, rfl, rfl, rfl, rfl, id, id⟩

instance : Enacts .leavesForeach endLoopVariable :=
  .of_total fun _ _ _ => ⟨(), _, rfl, rfl, rfl, rfl, rfl, id, id⟩

instance (c : Fragment) : Enacts .leavesForeach (finishLoopVariable c) := by
  unfold finishLoopVariable; infer_instance

/-- The type of the elements that a loop goes over. What is no collection has none, which is
reported. -/
def loopShape? (exp : Fragment) : Plain (Option Shape) := do
  check exp false
  unless (← exp.head).isCollection do
    report .foreachError exp.position []
    return none
  return some (← exp.shape.tail)

/-- The head of a loop over a collection of elements of a type. A variable that exists already is
assigned in the body. -/
def foreachText (c exp : Fragment) (shape : Shape) : Plain Fragment := do
  let type ← shape.javaText
  let (name, first) ← if c.declares.isEmpty then do
      let name ← freshLoopName
      let text ← converted c.shape { shape, value := name }
      pure (name, "\n" ++ c.value ++ " = " ++ text ++ ";")
    else pure (c.value, "")
  return {
    value := "for(" ++ type ++ " " ++ name ++ " : " ++ exp.value ++ ")\x7b" ++ first
    declares := exp.declares }

/-- The head of a loop over a collection with a variable, which gets the type of the elements. -/
def foreachHead (c exp : Fragment) : M Fragment := do
  match ← loopShape? exp with
  | none => return exp
  | some shape =>
    retype (← targetOf c) shape
    foreachText c exp shape

instance (c exp : Fragment) : Enacts .retypes (foreachHead c exp) := by
  unfold foreachHead
  refine @Enacts.bind_of_plain _ _ _ _ _ inferInstance fun shape? => ?_
  cases shape? with
  | none => exact .retypes_of_plain
  | some shape => infer_instance

/-- The head of a loop over a collection without a variable. -/
def repeatHead (exp : Fragment) : Plain Fragment := do
  check exp false
  unless (← exp.head).isCollection do
    report .foreachError exp.position []
    return exp
  let name ← freshLoopName
  return {
    value := "for(Integer " ++ name ++ "=0; " ++ name ++ "<" ++ (← exp.toInteger) ++ "; " ++ name
      ++ "++)\x7b"
    declares := exp.declares }

def foreachLoop (head body : Fragment) (at_ : Position) : M Fragment := do
  let head ← sync { head with
    position := at_
    value := head.value ++ "\n" ++ body.value ++ "\x7d\n" }
  let _ ← popLevel
  let value ← withDeclarations head head.value
  sync { head with value }

instance (head body : Fragment) (at_ : Position) :
    Enacts .closesLevel (foreachLoop head body at_) := by
  unfold foreachLoop; infer_instance

def postfixControl (head tail : String) (exp : Fragment) : Plain Fragment := do
  check exp true
  return {
    value := head ++ (← exp.toBoolean) ++ tail
    position := exp.position
    declares := exp.declares }

end PerlJava.Compile
