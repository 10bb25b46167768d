import PerlJava.Compile.Access

/-!
# Assignments
-/

namespace PerlJava.Compile

open Java

variable [Interfaces] (a : Access)

def refuseReference (exp : Fragment) : Plain Unit := do
  if (← exp.head).is .ref && a.ref then fail .noMember

def withText (c : Fragment) (value : String) : Plain Fragment :=
  if value == c.value then return c else sync { c with value }

/-- Whether a place gets a copy of an expression: of a variable that holds a collection. -/
def isCopied (exp : Fragment) : Plain Bool := do
  match exp.variable_ with
  | some source =>
    let name := (← variableOf source).name
    return (← a.shape.head).isCollection && some exp.value == name && !a.ref
  | none => return false

/-- Stores an expression at a place of a variable, with a cast if `cast`. An assignment to a variable
that has just been declared becomes part of the declaration. -/
def storeAt (id : VarId) (exp : Fragment) (cast : Bool) : Plain Fragment := do
  let exp ← if cast then
      sync { exp with value := "((" ++ (← exp.shape.javaText) ++ ")" ++ exp.value ++ ")" }
    else pure exp
  let code ← a.base.join exp
  assign (← variableOf id).name
  let code := { code with shape := a.shape, declares := code.declares ++ a.declares }
  let (value, exp) ← convert a.shape exp
  let stored := a.storeText (if ← isCopied a exp then "Pd.copy(" ++ value ++ ")" else value)
  let s ← read
  let mayJoin := !a.base.declares.isEmpty && s.declared.length > 1
  if ← pure mayJoin <&&> (return (← a.shape.size) == (← a.base.shape.size) && s.initVar) then
    let _ ← sync { a.base with value := stored }
    return { code with value := a.base.value, flags := code.flags.filter (· != .statement) }
  else return { code with value := stored, statement := some stored }.mark .statement

/-- Stores an expression at a place, with a cast if `cast`. -/
def assignTo (exp : Fragment) (cast : Bool) : Tidying Fragment := do
  check exp false
  match a.base.variable_ with
  | none =>
    report .varRequires a.position []
    return exp
  | some id =>
    refuseReference a exp
    storeAt a id (← withText exp (← tidied exp.value)) cast

/-- Stores an expression at a place, with a cast if `cast`, its text tidied in some way. -/
def tidiedAssign (exp : Fragment) (cast : Bool) (tidy : String → String) : Plain Fragment := do
  check exp false
  match a.base.variable_ with
  | none =>
    report .varRequires a.position []
    return exp
  | some id =>
    refuseReference a exp
    storeAt a id (← withText exp (tidy exp.value)) cast

theorem assignTo_on (a : Access) (exp : Fragment) (cast : Bool) :
    (assignTo a exp cast).on = tidiedAssign a exp cast Edit.dropFreshRead := by
  unfold assignTo tidiedAssign
  cases a.base.variable_ with
  | none => rfl
  | some id => rfl

theorem assignTo_off (a : Access) (exp : Fragment) (cast : Bool) :
    (assignTo a exp cast).off = tidiedAssign a exp cast id := by
  unfold assignTo tidiedAssign
  cases a.base.variable_ with
  | none => rfl
  | some id => rfl

/-- The sizes that labels of the line give to a collection; a variable is taken as an integer. -/
def lineSizesOf (labels : List Label) : Plain (List String) := do
  let mut sizes := []
  let mut changed := []
  for label in labels do
    let label ← if label.isVariable then
        match ← lookup? label.value with
        | none =>
          report .varNotExist label.position [("var", label.value)]
          pure label
        | some id =>
          let v ← variableOf id
          if ← isAssigned v.name then
            let size : Fragment := { value := label.value, shape := v.shape }
            pure { label with value := ← size.toInteger }
          else
            report .readBeforeAssign label.position [("var", label.value)]
            pure label
      else pure label
    sizes := sizes ++ [label.value]
    changed := changed ++ [label]
  update (fun s => { s with lineSizes := s.lineSizes.map fun _ => changed }) fun _ =>
    ⟨rfl, rfl, rfl, rfl, by simp [State.context], id⟩
  return sizes

def ownSizes (shape : Shape) : Except Fault (List String) := do
  let sizes ← (← shape.parts).dropLast.mapM (·.size?)
  return sizes.filterMap id

/-- The sizes of a new collection: those of the line, or else those of the variable. -/
def newSizes : Plain (List String) := do
  match (← read).lineSizes with
  | some labels => lineSizesOf labels
  | none =>
    match a.base.variable_ with
    | some id => ownSizes (← variableOf id).shape
    | none => fail .noMember

def assignNew (sizes : List String) : Tidying Fragment := do
  if sizes.isEmpty && (← a.shape.head).is .array then
    report .sizeRequired a.position [("var", a.value)]
  assignTo a { shape := a.shape, value := ← a.shape.creation (sizes.map some) } false

/-- Empties a place: a collection is created anew, anything else, or everything if `undef`, becomes
null. -/
def assignNothing (undef : Bool) : Tidying Fragment := do
  if a.base.variable_.isNone then report .varRequires a.position []
  if ← pure undef <||> (return !(← a.shape.head).isCollection) then
    assign (some a.value)
    assignTo a { shape := a.shape, value := "null" } false
  else assignNew a (← newSizes a)

/-- Whether lines can be read to a place: an array or list of strings. -/
def holdsLines (shape : Shape) : Except Fault Bool := do
  match ← shape.parts with
  | [outer, inner] => return inner.is .string && outer.isSequence
  | _ => return false

def assignRead (exp : Fragment) (line lines : String) : Tidying Fragment := do
  if (← a.shape.size) > 1 then
    unless ← holdsLines a.shape do report .fileArrayError a.position []
    assignTo a { exp with shape := .ofNames [.array, .string], value := lines } false
  else
    unless (← a.shape.head).is .string do report .fileStringError a.position []
    assignTo a { exp with shape := .scalar .string, value := line } false

def assignFromFile (a file : Access) (at_ : Position) : Tidying Fragment := do
  let file ← valueOf file
  check file true
  let code ← ({ position := at_ } : Fragment).join file
  unless (← file.head).is .file do
    report .notFile file.position [("var", file.value)]
  assignRead a code (file.value ++ ".read()") (file.value ++ ".readLines()")

def assignFromInput : Tidying Fragment :=
  assignRead a {} "Pd.read()" "Pd.readLines()"

def rawStatement (text : String) : Fragment :=
  { statement := some text }

def gatherDeclares (front : Fragment) (c : Fragment) : Fragment × Fragment :=
  ({ front with declares := front.declares ++ c.declares }, { c with declares := [] })

/-- Moves the declarations of targets in front, up to one that is no variable, which is reported. -/
def clearTargets : Fragment → List Fragment → Plain (Fragment × Option (List Fragment))
  | front, [] => return (front, some [])
  | front, target :: targets => do
    let (front, target) := gatherDeclares front target
    target.whole
    if target.variable_.isNone then
      report .varRequires target.position []
      return (front, none)
    let (front, cleared) ← clearTargets front targets
    return (front, cleared.map (target :: ·))

/-- A source that is no variable is kept in one, by which its elements are read. -/
def keepSource (source : Fragment) : Plain (List Fragment × Fragment) := do
  if source.variable_.isSome then return ([], source)
  let type ← if source.results.isEmpty then source.shape.javaText else pure "Object[]"
  let opening := rawStatement ("\x7b\n" ++ type ++ " pd_me=" ++ source.value)
  return ([opening], ← sync { source with value := "pd_me" })

def assignInOrder (targets : List Fragment) (source : Fragment) : Tidying (List Fragment) := do
  let numbered := targets.zip (List.range targets.length)
  match (← source.head).name? with
  | some .array =>
    let shape ← source.shape.tail
    numbered.mapM fun (target, n) => do
      assignTo (← Access.ofFragment target)
        { shape, value := source.value ++ "[" ++ toString n ++ "]" } false
  | some .list =>
    let shape ← source.shape.tail
    numbered.mapM fun (target, n) => do
      assignTo (← Access.ofFragment target)
        { shape, value := source.value ++ ".get(" ++ toString n ++ ")" } false
  | name? =>
    if name? == some .void && !source.results.isEmpty then
      (numbered.zip source.results).mapM fun ((target, n), shape) => do
        assignTo (← Access.ofFragment target)
          { shape, value := source.value ++ "[" ++ toString n ++ "]" } true
    else
      report .invalidMultiEquals source.position []
      return []

def assignElements (targets : List Fragment) (source : Fragment) : Tidying (List Fragment) := do
  check source false
  let (front, source) := gatherDeclares {} source
  let (front, cleared) ← clearTargets front targets
  let some cleared := cleared | return [front]
  let (opening, kept) ← keepSource source
  let assignments ← assignInOrder cleared kept
  return front :: opening ++ assignments
    ++ (if source.variable_.isNone then [rawStatement "\x7d"] else [])

def clearSources : Fragment → List Fragment → Except Fault (Fragment × List Fragment)
  | front, [] => return (front, [])
  | front, source :: sources => do
    let (front, source) := gatherDeclares front source
    source.whole
    let (front, cleared) ← clearSources front sources
    return (front, source :: cleared)

/-- Assigns expressions to variables one by one. Those that are variables have been kept in an array,
from the element with a number on. -/
def assignPairs : Fragment → Nat → List (Fragment × Fragment) → Tidying (Fragment × List Fragment)
  | front, _, [] => return (front, [])
  | front, n, (target, exp) :: pairs => do
    target.whole
    if target.variable_.isNone then report .varRequires target.position []
    let isKept := exp.has .variable_
    let (front, target) := if isKept then gatherDeclares front target else (front, target)
    let source : Fragment :=
      if isKept then { shape := exp.shape, value := "pd_me[" ++ toString n ++ "]" } else exp
    let result ← assignTo (← Access.ofFragment target) source isKept
    let (front, result) := gatherDeclares front result
    let (front, results) ← assignPairs front (if isKept then n + 1 else n) pairs
    return (front, result :: results)

/-- Assigns several expressions to several variables. Expressions that are variables are kept in a
temporary array first. -/
def assignMany (targets sources : List Fragment) : Tidying (List Fragment) := do
  let (front, exps) ← clearSources {} sources
  let kept := exps.filter (·.has .variable_)
  let (front, assignments) ← assignPairs front 0 (targets.zip exps)
  if kept.isEmpty then return front :: assignments
  else
    let listed := String.join (kept.map (·.value ++ ","))
    let opening := "\x7b\nObject[] pd_me=new Object[]\x7b" ++ Text.sliceTo listed (-1) ++ "\x7d"
    return front :: rawStatement opening :: assignments ++ [rawStatement "\x7d"]

end PerlJava.Compile
