import PerlJava.LR.Analysis

/-!
# The automaton of item sets

An item is a production with a dot that marks how far it has been read. The states of the automaton
are sets of items closed under "what may start here", numbered in the order in which they are
found.
-/

namespace PerlJava.LR

structure Item where
  production : Nat
  dot : Nat
deriving Repr, DecidableEq, Inhabited, Hashable

/-- The states of a grammar. -/
structure Automaton where
  grammar : Grammar
  productions : Array Production
  /-- The items of each state. -/
  states : Array (List Item)
  /-- Where each state leads on a symbol. -/
  edges : Array (List (String × Nat))
deriving Inhabited

variable (productions : Array Production)

def Item.rule (i : Item) : Production :=
  productions.getD i.production default

def Item.next? (i : Item) : Option String :=
  (i.rule productions).symbols[i.dot]?

def Item.isComplete (i : Item) : Bool :=
  i.dot == (i.rule productions).symbols.length

def Item.dotted (i : Item) : List String :=
  let symbols := (i.rule productions).symbols
  symbols.take i.dot ++ "." :: symbols.drop i.dot

def Item.text (i : Item) : String :=
  (i.rule productions).name ++ " -> " ++ " ".intercalate (i.dotted productions)

namespace Automaton

variable (byName : OrderedMap String (List Nat))

def startsAt (i : Item) : List Nat :=
  ((i.next? productions).bind byName.get?).getD []

def closeItems (productions : Array Production) (byName : OrderedMap String (List Nat)) :
    (fuel : Nat) → (pending : List Item) → (added : Array Bool) → (done : Array Item) → Array Item
  | 0, pending, _, done => done ++ pending.toArray
  | _ + 1, [], _, done => done
  | fuel + 1, i :: pending, added, done =>
    let new := (startsAt productions byName i).filter fun n => !added.getD n false
    let added := new.foldl (fun acc n => acc.setIfInBounds n true) added
    closeItems productions byName fuel (pending ++ new.map (⟨·, 0⟩)) added (done.push i)

def closure (items : List Item) : List Item :=
  (closeItems productions byName (items.length + productions.size) items
    (Array.replicate productions.size false) #[]).toList

/-- The symbols that the productions of some items hold, in order of first occurrence. -/
def symbolsOf (items : List Item) : List String :=
  items.foldl (fun acc i => (addMissing acc (i.rule productions).symbols).1) []

/-- Adds what an item becomes when the symbol after its dot is read. -/
def addAdvance (acc : OrderedMap String (List Item)) (i : Item) : OrderedMap String (List Item) :=
  match i.next? productions with
  | some s => acc.insert s ((acc.get? s).getD [] ++ [⟨i.production, i.dot + 1⟩])
  | none => acc

def advances (items : List Item) : OrderedMap String (List Item) :=
  items.foldl (addAdvance productions) {}

/-- A search for states: those found, with the items they were entered by, and the edges of those
that have been looked at. -/
structure Search where
  states : Array (List Item)
  kernels : Array (List Item)
  edges : Array (List (String × Nat)) := #[]

def Search.enter (search : Search) (kernel : List Item) : Nat × Search :=
  match search.kernels.findIdx? (· == kernel) with
  | some n => (n, search)
  | none =>
    (search.states.size, { search with
      states := search.states.push (closure productions byName kernel)
      kernels := search.kernels.push kernel })

/-- Follows a symbol that some items advance on, and adds the edge to a row. -/
def Search.follow
    (targets : OrderedMap String (List Item)) (found : List (String × Nat) × Search) (s : String) :
    List (String × Nat) × Search :=
  match targets.get? s with
  | some kernel =>
    let (n, search) := found.2.enter productions byName kernel
    (found.1 ++ [(s, n)], search)
  | none => found

/-- Looks at the next state: follows every symbol that can be read there. -/
def Search.expand (search : Search) (items : List Item) : Search :=
  let (row, search) := (symbolsOf productions items).foldl
    (follow productions byName (advances productions items)) ([], search)
  { search with edges := search.edges.push row }

/-- Looks at states until none is left, at most `fuel` of them. -/
def Search.run (productions : Array Production) (byName : OrderedMap String (List Nat)) :
    (fuel : Nat) → Search → Search
  | 0, search => search
  | fuel + 1, search =>
    match search.states[search.edges.size]? with
    | none => search
    | some items => Search.run productions byName fuel (search.expand productions byName items)

def stateLimit : Nat := 1000000

def numbersByName (g : Grammar) : OrderedMap String (List Nat) :=
  .ofList (g.names.map fun name => (name, (g.productionsOf name).map (·.number)))

def Search.start (kernel : List Item) : Search :=
  { states := #[closure productions byName kernel], kernels := #[kernel] }

def ofGrammar (g : Grammar) : Automaton :=
  let productions := g.productions
  let byName := numbersByName g
  let search := Search.run productions byName stateLimit
    (.start productions byName [⟨0, 0⟩])
  { grammar := g, productions, states := search.states, edges := search.edges }

def goto? (a : Automaton) (state : Nat) (s : String) : Option Nat :=
  (a.edges.getD state []).lookup s

theorem mem_edges_of_goto? {a : Automaton} {q n : Nat} {s : String} (edge : a.goto? q s = some n) :
    (s, n) ∈ a.edges.getD q [] :=
  OrderedMap.mem_of_lookup edge

def items (a : Automaton) (state : Nat) : List Item :=
  a.states.getD state []

end Automaton

end PerlJava.LR
