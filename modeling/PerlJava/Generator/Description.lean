import PerlJava.Data.OrderedMap
import PerlJava.Generator.Datum

/-!
# Descriptions of scanners and parsers

A description is a file of members: settings and functions. The names of members say what they are
for. Rules for tokens begin with `t_` and rules of a grammar with `p_`.
-/

namespace PerlJava.Generator

/-- What a rule for tokens does with the token it has found. -/
inductive TokenAction where
  /-- The token is delivered. -/
  | deliver
  /-- The token is dropped. -/
  | drop
  | setKind (kind : String)
  /-- Puts the text of the token in capitals. -/
  | capitalize
  | pushState (state : String)
  | popState
  | enterState (state : String)
  | skip (count : Int)
  /-- Counts the line ends in the token. -/
  | countLines
  /-- Makes the name of the scanner's state the text of the token. -/
  | showState
  /-- Goes on with the text kept for the end, once, and delivers its first token. -/
  | readMore
deriving Repr, DecidableEq

/-- What a rule of a grammar makes the value of its symbol from, apart from the values it has. -/
inductive Style where
  | plain
  /-- At most two of the values. -/
  | firstTwo
  /-- Also the value below the symbol on the stack. -/
  | withBelow
  /-- Also the places of all symbols. -/
  | withSpots
  /-- The symbol gets a line of its own. -/
  | withLine
deriving Repr, DecidableEq

/-- A function of a description. -/
structure Function where
  name : String
  /-- How many arguments it takes. -/
  arguments : Nat
  doc : Option String := none
  /-- A pattern given beside the text of the function. It may be given and yet be missing. -/
  ownPattern : Option (Option String) := none
  /-- The line where the function begins. -/
  line : Nat
  actions : List TokenAction := []
  style : Style := .plain
deriving Repr, Inhabited

/-- What stands as the pattern of a function: the one given beside it, or else its
documentation. -/
def Function.patternText? (f : Function) : Option String :=
  f.ownPattern.getD f.doc

def Function.pattern? (f : Function) : Option String :=
  f.patternText?.filter (!·.isEmpty)

/-- A member of a description. -/
inductive Member where
  | setting (value : Datum)
  | function (f : Function)
deriving Inhabited

/-- A member as it stands in the file. -/
structure Entry where
  name : String
  member : Member
  /-- The line that names the member. -/
  line : Nat

structure Description where
  entries : List Entry
  /-- The name of the file. -/
  file : String

abbrev Members := OrderedMap String Member

namespace Description

/-- The members in the order in which their names first stand in the file. Of two members of one
name the later counts. -/
def inOrder (d : Description) : Members :=
  .ofList (d.entries.map fun e => (e.name, e.member))

def byName (d : Description) : Members :=
  .ofList (d.inOrder.entries.mergeSort fun a b => a.1 ≤ b.1)

def place (d : Description) (line : Nat) : String :=
  d.file ++ ":" ++ toString line

/-- The names that stand in the file twice, each with the line of the repetition and the line
where the name first stands. -/
def repetitions (d : Description) (counts : Entry → Bool) : List (String × Nat × Nat) :=
  let entries := d.entries.filter counts
  (entries.foldl (fun (first, found) e =>
    match first.lookup e.name with
    | some line => (first, found ++ [(e.name, e.line, line)])
    | none => (first ++ [(e.name, e.line)], found))
    (([] : List (String × Nat)), ([] : List (String × Nat × Nat)))).2

end Description

def setting? (members : Members) (name : String) : Option Datum :=
  match members.get? name with
  | some (.setting .nothing) | some (.function _) | none => none
  | some (.setting value) => some value

def function? (members : Members) (name : String) : Option Function :=
  match members.get? name with
  | some (.function f) => some f
  | _ => none

end PerlJava.Generator
