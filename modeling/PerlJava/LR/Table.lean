import PerlJava.Fault

/-!
# Parse tables

What an LR parser is driven by: for each state and kind of token an action, and for each state and
nonterminal the state to go to after a reduction.
-/

namespace PerlJava.LR

/-- What to do in a state on a kind of token. -/
inductive Action where
  | shift (state : Nat)
  | reduce (production : Nat)
  | accept
deriving Repr, DecidableEq, Inhabited

/-- A production as the parser sees it. -/
structure Rule where
  name : String
  length : Nat
  /-- How the production is written. -/
  text : String
deriving Repr, DecidableEq, Inhabited

/-- A row of the action table. An entry without an action is a token that may not come here, because
operators that do not associate would meet. -/
abbrev ActionRow := List (String × Option Action)

/-- The tables of a parser. -/
structure Table where
  rules : Array Rule
  actions : Array ActionRow
  gotos : Array (List (String × Nat))
  /-- Whether states without actions are missing from the table. -/
  omitsEmpty : Bool := false
deriving Inhabited

namespace Table

variable (t : Table)

def checkState (state : Nat) : Except Fault Unit :=
  if t.omitsEmpty && (t.actions.getD state []).isEmpty then .error .missingKey else .ok ()

def action? (state : Nat) (kind : String) : Option Action :=
  ((t.actions.getD state []).lookup kind).join

def goto (state : Nat) (name : String) : Except Fault Nat :=
  ((t.gotos.getD state []).lookup name).elim (.error .missingKey) .ok

def soleReduction? (row : ActionRow) : Except Fault (Option Nat) :=
  match row with
  | [(_, some (.reduce production))] => .ok (some production)
  | [(_, none)] => .error .illTyped
  | _ => .ok none

def defaults : Except Fault (Array (Option Nat)) :=
  t.actions.mapM soleReduction?

def renumberAction (numbers : Array Nat) : Action → Action
  | .shift state => .shift (numbers.getD state state)
  | action => action

/-- The rows of a table in another order: row `i` becomes row `numbers[i]`. -/
def permute {α : Type} [Inhabited α] (numbers : Array Nat) (rows : Array α) : Array α :=
  (rows.zip numbers).foldl (fun acc (row, n) => acc.setIfInBounds n row) rows

def withNumbers (numbers : Array Nat) : Table where
  rules := t.rules
  omitsEmpty := t.omitsEmpty
  actions := permute numbers (t.actions.map fun row =>
    row.map fun (s, action) => (s, action.map (renumberAction numbers)))
  gotos := permute numbers (t.gotos.map fun row =>
    row.map fun (s, n) => (s, numbers.getD n n))

/-- The table with other numbers for its states, which have to be all the old ones. -/
def renumber (numbers : Array Nat) : Except Fault Table :=
  if numbers.toList.isPerm (List.range t.actions.size) then .ok (t.withNumbers numbers)
  else .error .inconsistent

end Table

end PerlJava.LR
