import PerlJava.Compile.Assignment

/-!
# Operators
-/

namespace PerlJava.Compile

open Java

variable [Interfaces] (a b : Fragment)

def checkBoth : Plain Unit := do
  check a true
  check b true

def wider : Except Fault Shape := do
  let wa ← (← a.head).width
  let wb ← (← b.head).width
  return if wa > wb then a.shape else b.shape

def arithmetic (op : String) (a b : Fragment) : Plain Fragment := do
  let code ← a.join b
  checkBoth a b
  let a ← asNumber a
  let b ← asNumber b
  return { code with value := a.value ++ " " ++ op ++ " " ++ b.value, shape := ← wider a b }

def division : Plain Fragment := do
  let code ← a.join b
  checkBoth a b
  let a ← asNumber a
  let b ← asNumber b
  let shape ← wider a b
  if (← (← shape.head).width) < (TypeName.float.width?.getD 0) then
    let b ← sync { b with value := "(float)" ++ b.value }
    return { code with value := a.value ++ " / " ++ b.value, shape := .scalar .float }
  else return { code with value := a.value ++ " / " ++ b.value, shape }

def power : Plain Fragment := do
  let code ← a.join b
  checkBoth a b
  let a ← asNumber a
  let b ← asNumber b
  return { code with
    value := "Math.pow(" ++ a.value ++ "," ++ b.value ++ ")"
    shape := .scalar .double }

/-- An operand of the remainder: wider numbers count as long integers. -/
def asRemainderOperand (c : Fragment) : Plain Fragment := do
  if (← (← c.head).width) > (TypeName.long.width?.getD 0) then
    sync { c with shape := .scalar .long }
  else return c

def remainder : Plain Fragment := do
  let code ← a.join b
  checkBoth a b
  let a ← asNumber a
  let b ← asNumber b
  let a ← asRemainderOperand a
  let b ← asRemainderOperand b
  return { code with value := a.value ++ " % " ++ b.value, shape := a.shape }

def concatenation : Plain Fragment := do
  let code ← a.join b
  checkBoth a b
  unless (← a.head).is .string do report .notStringConcat a.position []
  return { code with value := a.value ++ " + " ++ b.value, shape := .scalar .string }

def repetition : Plain Fragment := do
  let code ← a.join b
  checkBoth a b
  return { code with
    value := "Pd.repeat(" ++ (← a.toText) ++ ", " ++ (← b.toInteger) ++ ")"
    shape := .scalar .string }

def opposite (c : Fragment) : Plain Fragment := do
  check c true
  let c ← asNumber c
  sync { c with value := "-" ++ c.value }

/-- Increment or decrement of a place before its value is taken. -/
def stepBefore (op : String) (a : Access) : Plain Fragment := do
  check a.base true
  if (← a.shape.head).isCollection then
    report .incDecColection a.position []
    return a.base
  let code ← a.base.join {}
  let code := { code with declares := code.declares ++ a.declares, shape := a.shape }
  let value ← if (← a.shape.head).isOneOf [.integer, .long] then
      if (← a.shape.size) == (← a.base.shape.size) then pure (op ++ op ++ a.readText)
      else pure (a.storeText (a.readText ++ " " ++ op ++ " 1"))
    else do
      let number := (← ({ code with value := a.readText } : Fragment).toDouble) ++ " " ++ op ++ " 1"
      let text ← converted a.shape { code with value := number, shape := .scalar .double }
      pure (a.storeText text)
  return { code with value, statement := some value }

/-- Increment or decrement of a place after its value is taken. Where Java has no operator for it
the place is incremented first, and the value is taken back by `undo`. -/
def stepAfter (op undo : String) (result : Option TypeName) (a : Access) : Plain Fragment := do
  check a.base true
  if (← a.shape.head).isCollection then
    report .incDecColection a.position []
    return a.asBare
  let code ← a.base.join {}
  let code := { code with declares := code.declares ++ a.declares, shape := a.shape }
  let isWhole := (← a.shape.head).isOneOf [.integer, .long]
  if ← pure isWhole <&&> return (← a.shape.size) == (← a.base.shape.size) then
    let value := a.readText ++ op ++ op
    return { code with value, statement := some value }
  else
    let stepped := (← stepBefore "+" a).value
    let code := { code with value := stepped, statement := some stepped }
    return { code with
      value := (← code.toDouble) ++ " " ++ undo ++ " 1"
      shape := result.elim code.shape .scalar }

def compareNumbers (op : String) (a b : Fragment) : Plain Fragment := do
  let code ← a.join b
  checkBoth a b
  let a ← asNumber a
  let b ← asNumber b
  let value := a.value ++ " " ++ op ++ " " ++ b.value
  return { code with value, condition := some value, shape := .scalar .boolean }

def orderNumbers : Plain Fragment := do
  let code ← a.join b
  checkBoth a b
  let a ← asNumber a
  let b ← asNumber b
  return { code with
    value := "Pd.cmp(" ++ a.value ++ ", " ++ b.value ++ ")"
    shape := .scalar .integer }

def compareStrings (test : String) (a b : Fragment) : Plain Fragment := do
  let code ← a.join b
  checkBoth a b
  let value := "Pd.cmp(" ++ (← a.toText) ++ ", " ++ (← b.toText) ++ ")" ++ test
  return { code with value, condition := some value, shape := .scalar .boolean }

def regexClass : Plain String := do
  return if (← read).options.jregex then "JRegex" else "Regex"

def matching (negated : Bool) (exp : Fragment) (regex : String) (at_ : Position) : Plain Fragment := do
  let lib ← regexClass
  let code ← exp.join { position := at_ }
  check exp true
  let arguments := "(" ++ (← exp.toText) ++ ", \"" ++ regex ++ "\")"
  if negated then
    let value := "!" ++ lib ++ ".match" ++ arguments
    return { code with value, condition := some value, shape := .scalar .boolean }
  else
    return { code with
      value := lib ++ ".matchAvc" ++ arguments
      condition := some (lib ++ ".match" ++ arguments)
      shape := .ofNames [.array, .string] }

def changeByRegex (function : String) (c : Fragment) (regex : String) (at_ : Position) :
    Plain Fragment := do
  let lib ← regexClass
  let code ← c.join { position := at_, flags := [.statement] }
  check c true
  if c.variable_.isNone then report .varRequires c.position []
  if (← c.shape.size) > 1 then report .scalarRequires c.position []
  let changed : Fragment := {
    value := lib ++ "." ++ function ++ "(" ++ (← c.toText) ++ ", \"" ++ regex ++ "\")"
    shape := .scalar .string }
  let value ← storeInto c (← converted c.shape changed)
  return { code with value, shape := c.shape, statement := some value }

def smartMatch (at_ : Position) : Plain Fragment := do
  let _ ← a.join b
  checkBoth a b
  report .smartEq at_ []
  return {}

def bitwise (op : String) (a b : Fragment) : Plain Fragment := do
  let code ← a.join b
  checkBoth a b
  let a ← asWhole a
  let b ← asWhole b
  return { code with value := a.value ++ " " ++ op ++ " " ++ b.value, shape := a.shape }

def complement (c : Fragment) : Plain Fragment := do
  check c true
  let c ← asWhole c
  sync { c with value := "~" ++ c.value }

/-- Disjunction and conjunction. Of two operands of one type the value is one of them; its truth is
kept beside it. -/
def logical (op function : String) (low : Bool) (a b : Fragment) : Plain Fragment := do
  let code ← a.join b
  checkBoth a b
  let wrap (text : String) := if low then "(" ++ text ++ ")" else text
  let truth := wrap (← a.toBoolean) ++ " " ++ op ++ " " ++ wrap (← b.toBoolean)
  if ← (return (← a.head).is .boolean) <||> (return (← b.head).is .boolean)
      <||> (return !(← a.shape.agrees b.shape)) then
    return { code with value := truth, shape := .scalar .boolean }
  else
    return { code with
      value := "Pd." ++ function ++ "(" ++ a.value ++ ", " ++ b.value ++ ")"
      condition := some truth
      shape := a.shape }

def negation (low : Bool) (c : Fragment) : Plain Fragment := do
  check c true
  let text ← c.toBoolean
  let truth := if low then "!(" ++ text ++ ")" else "!" ++ text
  if (← c.head).is .boolean then
    sync { c with value := truth, condition := some truth, shape := .scalar .boolean }
  else
    sync { c with
      value := "(" ++ text ++ ")?0:1"
      condition := some truth
      shape := .scalar .integer }

def exclusive : Plain Fragment := do
  let code ← a.join b
  checkBoth a b
  let truth := "Pd.xor(" ++ (← a.toBoolean) ++ ", " ++ (← b.toBoolean) ++ ")"
  let value := "(" ++ truth ++ ")?0:1"
  let acts (c : Fragment) := c.statement.any (!·.isEmpty)
  return { code with
    value
    statement := some (if acts a || acts b then value else truth)
    shape := .scalar .integer }

def conditional (cond a b : Fragment) : Plain Fragment := do
  let code ← (← a.join b).join cond
  check cond true
  checkBoth a b
  let value := "(" ++ (← cond.toBoolean) ++ ")?" ++ a.value ++ ":"
  let other ← if ← a.shape.agrees b.shape then pure b.value else converted a.shape b
  return { code with value := value ++ other, shape := a.shape }

/-- Whether an operator may change a place; if not, that is reported. -/
def mayChange (a : Access) : Plain Bool := do
  match a.base.variable_ with
  | none =>
    report .varRequires a.position []
    return false
  | some id =>
    if !(← isAssigned (← variableOf id).name) then
      report .readBeforeAssign a.position [("var", a.base.value)]
      return false
    else if (← a.shape.head).is .ref then
      report .refOperation a.position []
      return false
    else if (← a.shape.size) > 1 || (← a.shape.head).is .file then
      report .scalarRequires a.position [("var", a.base.value)]
      return false
    else return true

/-- Whether Java can change a place by an operator of its own: a variable or an element of an
array. -/
def isNativePlace (shape : Shape) : Except Fault Bool := do
  match (← shape.parts).reverse with
  | [_] => return true
  | _ :: outer :: _ => return outer.is .array
  | [] => return false

/-- Begins an operator with assignment. Places of the types `native` are changed by Java's own
operator; for others the operation is made by `operation`, and its result is yet to be assigned. -/
def startChange (op : String) (native : List TypeName)
    (operation : Fragment → Fragment → Plain Fragment) (a : Access) (exp : Fragment) :
    Plain (Fragment ⊕ Fragment) := do
  check exp true
  unless ← mayChange a do return .inl { shape := .dims [.missing] }
  if ← pure (!native.isEmpty) <&&> isNativePlace a.base.shape
      <&&> (return (← a.shape.head).isOneOf native) then
    let c ← valueOf a
    let code ← c.join exp
    let value := c.value ++ " " ++ op ++ " " ++ (← converted c.shape exp)
    return .inl { code with value, statement := some value }
  else return .inr (← operation { shape := a.shape, value := a.readText } exp)

def changeBy (op : String) (native : List TypeName) (operation : Fragment → Fragment → Plain Fragment)
    (a : Access) (exp : Fragment) : Tidying Fragment := do
  match ← startChange op native operation a exp with
  | .inl changed => return changed
  | .inr made => assignTo a made false

end PerlJava.Compile
