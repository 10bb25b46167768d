import PerlJava.Java.Shape
import PerlJava.Perl.Token

/-!
# Fragments of Java code

A fragment is the Java text of a part of the program together with what later steps have to know
about it: its type, the variable it reads, the declarations it waits for, and marks on what it
contains.
-/

namespace PerlJava.Java

abbrev VarId := Nat

abbrev DeclId := Nat

/-- Marks on the code of a fragment. -/
inductive Flag where
  | next
  | last
  | returns
  | variable_
  | statement
  | named (name : String)
deriving Repr, DecidableEq

namespace Flag

def text : Flag → String
  | next => "next"
  | last => "last"
  | returns => "return"
  | variable_ => "variable"
  | statement => "statement"
  | named name => name

def ofText (text : String) : Flag :=
  ([next, last, returns, variable_, statement].find? (·.text == text)).getD (.named text)

def insert (flag : Flag) (flags : List Flag) : List Flag :=
  if flags.contains flag then flags else flags ++ [flag]

def union (flags more : List Flag) : List Flag :=
  more.foldl (fun acc flag => insert flag acc) flags

variable {f g : Flag} {flags more : List Flag}

theorem mem_insert_iff : f ∈ insert g flags ↔ f ∈ flags ∨ f = g := by
  unfold insert
  split
  · next there =>
    refine ⟨.inl, fun member => member.elim id ?_⟩
    rintro rfl
    simpa using there
  · simp

theorem mem_union : f ∈ union flags more ↔ f ∈ flags ∨ f ∈ more := by
  unfold union
  induction more generalizing flags with
  | nil => simp
  | cons g more ih => rw [List.foldl_cons, ih, mem_insert_iff, List.mem_cons, or_assoc]

end Flag

structure Fragment where
  /-- The Java expression. -/
  value : String := ""
  shape : Shape := .unset
  /-- The expression as a statement of its own. -/
  statement : Option String := none
  /-- The expression as a condition, where that differs. -/
  condition : Option String := none
  /-- The types of a result of several values. -/
  results : List Shape := []
  /-- The declarations that wait for the statement. -/
  declares : List DeclId := []
  /-- The variable, if the expression is nothing else. -/
  variable_ : Option VarId := none
  position : Position := ⟨1, 1⟩
  flags : List Flag := []
  /-- The variables assigned in a branch. -/
  assigned : List (Option String) := []
  /-- Whether a collection stands for a reference to it. -/
  ref : Bool := false
  /-- The declaration that shows this fragment itself. -/
  slot : Option DeclId := none
  /-- Whether this is an access that stands where a value should; then it has no variable, no marks,
  no statement and no condition to ask for. -/
  bare : Bool := false
deriving Repr, DecidableEq, Inhabited

variable (c : Fragment)

namespace Fragment

def head (c : Fragment) : Except Fault Dim :=
  c.shape.head

def has (flag : Flag) : Bool :=
  c.flags.contains flag

def mark (flag : Flag) : Fragment :=
  { c with flags := Flag.insert flag c.flags }

def whole : Except Fault Unit :=
  if c.bare then .error .noMember else .ok ()

/-- The start of a fragment made of two: their declarations and marks, and the later position. -/
def join (a b : Fragment) : Except Fault Fragment :=
  if a.bare then .error .illTyped
  else if b.bare then .error .noMember
  else .ok {
    declares := a.declares ++ b.declares
    flags := Flag.union a.flags b.flags
    position := if a.position.offset > b.position.offset then a.position else b.position }

def stripParens : Fragment :=
  if c.value.toList.head? == some '(' && c.value.toList.getLast? == some ')' then
    { c with value := Text.slice c.value 1 (-1) }
  else c

end Fragment

/-- A way to a place that can be read and stored to: the variable it starts from and the text so
far, with what completes it for reading, for storing and in both cases. -/
structure Access where
  base : Fragment
  value : String
  shape : Shape
  position : Position
  read : String := ""
  store : String := " = "
  close : String := ""
  declares : List DeclId := []
  ref : Bool := false
deriving Repr, DecidableEq, Inhabited

namespace Access

def ofFragment : Except Fault Access := do
  return { base := c, value := c.value, shape := ← c.shape.copy, position := c.position }

def readText (a : Access) : String :=
  a.value ++ a.read ++ a.close

def storeText (a : Access) (exp : String) : String :=
  a.value ++ a.store ++ exp ++ a.close

def asBare (a : Access) : Fragment :=
  { value := a.value
    shape := a.shape
    position := a.position
    declares := a.declares
    ref := a.ref
    bare := true }

end Access

end PerlJava.Java
