import PerlJava.LR.Automaton
import Std.Data.HashMap

/-!
# Lookahead sets

Which terminals may follow a reduction in a state. They are found from the transitions on
nonterminals: what can be read right after one, what can be read after it through others that
derive nothing, and what it inherits from the transitions around it. Both of the latter are a set
function on a graph, `F x = F₀ x ∪ ⋃ (F y | x R y)`, in which the members of a cycle share one
set.
-/

namespace PerlJava.LR

abbrev Transition := Nat × String

/-- Sets in order of insertion, some of which are shared: each node has the number of its cell. -/
structure Cells where
  cells : Array (List String) := #[]
  cellOf : Std.HashMap Transition Nat := {}

namespace Cells

def get (c : Cells) (x : Transition) : List String :=
  ((c.cellOf[x]?).map (c.cells.getD · [])).getD []

def fresh (c : Cells) (x : Transition) (set : List String) : Cells :=
  { cells := c.cells.push set, cellOf := c.cellOf.insert x c.cells.size }

def share (c : Cells) (x y : Transition) : Cells :=
  match c.cellOf[y]? with
  | some n => { c with cellOf := c.cellOf.insert x n }
  | none => c

def add (c : Cells) (x : Transition) (elements : List String) : Cells :=
  match c.cellOf[x]? with
  | none => c
  | some n =>
    match addMissing (c.cells.getD n []) elements with
    | (set, true) => { c with cells := c.cells.setIfInBounds n set }
    | (_, false) => c

end Cells

/-- The state of a walk through a graph. -/
structure Walk where
  /-- The depth of the nodes on the stack; larger than any of them for nodes that are done. -/
  depth : Std.HashMap Transition Nat := {}
  stack : List Transition := []
  sets : Cells

def doneDepth : Nat := 9223372036854775807

/-- Takes the nodes down to `x` off the stack; they share its set. -/
def Walk.close (x : Transition) (w : Walk) : Walk :=
  let inside := w.stack.takeWhile (· != x) ++ [x]
  { depth := inside.foldl (fun acc y => acc.insert y doneDepth) w.depth
    stack := w.stack.drop inside.length
    sets := inside.foldl (fun acc y => acc.share y x) w.sets }

/-- Walks from a node: `start` gives it its first set, `related` the nodes whose sets it includes.
A walk never nests deeper than the number of nodes. -/
def Walk.visit (start : Cells → Transition → Cells) (related : Transition → List Transition) :
    (fuel : Nat) → Walk → Transition → Walk
  | 0, w, _ => w
  | fuel + 1, w, x =>
    let d := w.stack.length + 1
    let w : Walk := {
      depth := w.depth.insert x d
      stack := x :: w.stack
      sets := start w.sets x }
    let w := (related x).foldl (fun w y =>
      let w := if w.depth.getD y 0 == 0 then Walk.visit start related fuel w y else w
      { w with
        depth := w.depth.insert x (min (w.depth.getD x 0) (w.depth.getD y 0))
        sets := w.sets.add x (w.sets.get y) }) w
    if w.depth.getD x 0 == d then w.close x else w

def graphSets (nodes : List Transition) (start : Cells → Transition → Cells)
    (related : Transition → List Transition) (sets : Cells) : Cells :=
  (nodes.foldl (fun w x =>
    if w.depth.getD x 0 == 0 then Walk.visit start related (nodes.length + 1) w x else w)
    { sets := sets : Walk }).sets

namespace Automaton

variable (a : Automaton)

def transitions : List Transition :=
  (List.range a.states.size).flatMap fun state =>
    let symbols := (a.items state).filterMap (·.next? a.productions)
    ((addMissing [] symbols).1.filter a.grammar.isNonterminal).map (state, ·)

def directReads (t : Transition) : List String :=
  let target := (a.goto? t.1 t.2).elim [] a.items
  let terms := (target.filterMap (·.next? a.productions)).filter a.grammar.isTerminal
  (addMissing [] terms).1
    ++ (if t.1 == 0 && [t.2] == a.grammar.augmented.symbols then ["$end"] else [])

/-- The transitions on symbols that derive nothing that come right after a transition. -/
def readsAfter (nullable : List String) (t : Transition) : List Transition :=
  match a.goto? t.1 t.2 with
  | none => []
  | some state =>
    ((a.items state).filterMap (·.next? a.productions)).filterMap fun s =>
      if nullable.contains s then some (state, s) else none

/-- What is found by reading a production to its end: the state there, and the transitions passed
after which the rest derives nothing. -/
def follow (a : Automaton) (nullable : List String) :
    (state : Nat) → List String → Nat × List Transition
  | state, [] => (state, [])
  | state, s :: rest =>
    let isIncluded := a.grammar.isNonterminal s
      && rest.all fun r => !a.grammar.isTerminal r && nullable.contains r
    let (last, found) := follow a nullable ((a.goto? state s).getD 0) rest
    (last, if isIncluded then (state, s) :: found else found)

/-- Whether a complete item ends a production whose symbols, a dot among them, are given. -/
def endsHere (name : String) (dotted : List String) (i : Item) : Bool :=
  let own := i.dotted a.productions
  (i.rule a.productions).name == name && own.length == dotted.length
    && own.take i.dot == (dotted.drop 1).take i.dot

/-- The complete items of a state that a transition on their nonterminal leads to, and the
transitions that include it. -/
def lookbacks (nullable : List String) (t : Transition) : List (Nat × Item) × List Transition :=
  let own := (a.items t.1).filter fun i => (i.rule a.productions).name == t.2
  own.foldl (fun (acc : List (Nat × Item) × List Transition) i =>
    let (last, included) :=
      follow a nullable t.1 ((i.rule a.productions).symbols.drop i.dot)
    let ends := (a.items last).filter fun r =>
      r.isComplete a.productions && a.endsHere t.2 (i.dotted a.productions) r
    (acc.1 ++ ends.map (last, ·), acc.2 ++ included)) ([], [])

/-- The terminals that may follow the reduction of a complete item in a state. -/
def lookaheads : Std.HashMap (Nat × Item) (List String) :=
  let nullable := a.grammar.nullable
  let transitions := a.transitions
  let reads := graphSets transitions (fun sets x => sets.fresh x (a.directReads x))
    (a.readsAfter nullable) {}
  let backs := transitions.map fun t => (t, a.lookbacks nullable t)
  let includes : Std.HashMap Transition (List Transition) :=
    backs.foldl (fun acc (t, _, included) =>
      included.foldl (fun acc i => acc.insert i (acc.getD i [] ++ [t])) acc) {}
  let follows := graphSets transitions (fun sets _ => sets) (includes.getD · []) reads
  backs.foldl (fun acc (t, ends, _) =>
    let set := follows.get t
    ends.foldl (fun acc e => acc.insert e (addMissing (acc.getD e []) set).1) acc) {}

end Automaton

end PerlJava.LR
