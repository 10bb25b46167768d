import PerlJava.Compile.Scope
import PerlJava.Java.Cast
import PerlJava.Java.Literal
import PerlJava.Java.Reachability
import PerlJava.Java.Edit

/-!
# Checks and conversions that may report
-/

namespace PerlJava.Compile

open Java

variable [Interfaces] (c : Fragment)

/-- Reports a variable that is read before it is assigned and, if `refs`, an operand that is a
reference. -/
def check (refs : Bool) : Plain Unit := do
  c.whole
  if let some id := c.variable_ then
    unless ← isAssigned (← variableOf id).name do
      report .readBeforeAssign c.position [("var", c.value)]
  if refs then
    if (← c.head).is .ref then report .refOperation c.position []

/-- A fragment as a value of a type, once it has been turned into a collection of its kind: a new
reference to it, or itself if its type agrees. -/
def agreed (target : Shape) (asReference : Bool) (c : Fragment) : Plain (String × Fragment) := do
  if asReference then return ("new Ref<" ++ (← c.shape.javaText) ++ ">(" ++ c.value ++ ")", c)
  unless ← target.agrees c.shape do
    report .imposibleCast c.position [("type", ← c.shape.display), ("cast", ← target.display)]
  return (c.value, c)

/-- The fragment as a value of another type, with the fragment afterwards: a collection may have
been turned into one of another kind. -/
def convert (target : Shape) (c : Fragment) : Plain (String × Fragment) := do
  let name? := (← target.head).name?
  if (← target.size) == 1 then
    match name? with
    | some .boolean => return (← c.toBoolean, c)
    | some .integer => return (← c.toNumberType .integer, c)
    | some .long => return (← c.toNumberType .long, c)
    | some .float => return (← c.toNumberType .float, c)
    | some .double => return (← c.toNumberType .double, c)
    | some .string => return (← c.toText, c)
    | _ => return (c.value, c)
  else
    match name? with
    | some .list => agreed target false (← sync (← c.toList))
    | some .array => agreed target false (← sync (← c.toArray))
    | _ => agreed target c.ref c

def converted (target : Shape) (c : Fragment) : Plain String := do
  return (← convert target c).1

def asNumber : Plain Fragment := do
  sync (← c.toNumber)

def asWhole : Plain Fragment := do
  sync (← c.toWhole)

def unwrapped : Plain Fragment :=
  sync c.stripParens

def interpolate (text : String) : Plain String := do
  let s ← read
  Literal.interpolate (fun name =>
    (lookupIn s.declared name).map fun id => (s.vars.getD id {}).shape) text

/-- Reports code that is never reached; once is enough. -/
def checkReachable : Plain Bool := do
  if ← hasUnreachable c.value then
    report .unreachableStatement c.position []
    update fun s => { s with options := { s.options with unreachableCode := false } }
    return true
  else return false

def storeInto (c : Fragment) (exp : String) : Plain String := do
  c.whole
  match c.variable_ with
  | none => fail .noMember
  | some id => Edit.storeInto (← (← variableOf id).shape.head) c.value exp

/-- Passes a variable by reference: the code so far with the argument and the declaration it needs,
and the text that updates the variable afterwards. -/
def passByReference (code : Fragment) (parameter : Shape) (c : Fragment) :
    Plain (Fragment × String × Fragment) := do
  let name ← freshCallName
  let id ← addPending { value := name, shape := ← c.shape.within [.plain .ref] }
  let code := { code with declares := code.declares ++ [id] }
  let (text, c) ← convert parameter c
  let code := { code with value := code.value ++ name ++ "=new Ref<>(" ++ text ++ ")" }
  let back ← converted c.shape { shape := parameter, value := name ++ ".get()" }
  return (code, ← storeInto c back, c)

end PerlJava.Compile
