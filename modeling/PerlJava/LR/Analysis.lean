import PerlJava.LR.Grammar

/-!
# Analyses of a grammar

Symbols that are not defined, not used, not reachable or never derive a text, and the sets that
tell what can start and follow a symbol.
-/

namespace PerlJava.LR

/-- Repeats a step until it changes nothing, at most `fuel` times. -/
def untilStable {α : Type} (step : α → α × Bool) : (fuel : Nat) → α → α
  | 0, a => a
  | fuel + 1, a =>
    match step a with
    | (a, true) => untilStable step fuel a
    | (a, false) => a

def addIfMissing (into : List String × Bool) (s : String) : List String × Bool :=
  if into.1.contains s then into else (into.1 ++ [s], true)

/-- A list with the elements of another that it lacks, and whether there were any. -/
def addMissing (into elements : List String) : List String × Bool :=
  elements.foldl addIfMissing (into, false)

namespace Grammar

variable (g : Grammar)

/-- Symbols that are used but neither tokens nor defined, with the productions that use them. -/
def undefinedSymbols : List (String × Production) :=
  g.productions.toList.flatMap fun p =>
    (p.symbols.filter fun s => !g.isDefined s && !g.isTerminal s).map (·, p)

def unusedTerminals : List String :=
  (g.terminals.entries.filter fun (s, uses) => s != "error" && uses.isEmpty).map (·.1)

def unusedRules : List Production :=
  (g.nonterminals.entries.filter (·.2.isEmpty)).filterMap fun (s, _) => (g.productionsOf s).head?

def unusedPrecedence : List (String × Assoc) :=
  (g.precedence.entries.filter fun (s, _) =>
    !g.isTerminal s && !g.usedPrecedence.contains s).map fun (s, p) => (s, p.assoc)

def symbolCount : Nat :=
  g.terminals.entries.length + g.nonterminals.entries.length + 2

def reachable : List String :=
  untilStable (fun found =>
    addMissing found (found.flatMap fun s => (g.productionsOf s).flatMap (·.symbols)))
    g.symbolCount g.augmented.symbols

def unreachable : List String :=
  let found := g.reachable
  g.nonterminals.keys.filter fun s => !found.contains s

def terminating : List String :=
  untilStable (fun found =>
    g.names.foldl (fun (found, changed) name =>
      let derives (s : String) : Bool :=
        if g.isNonterminal s then found.contains s else g.isTerminal s
      if !found.contains name && (g.productionsOf name).any (·.symbols.all derives) then
        (found ++ [name], true)
      else (found, changed)) (found, false))
    g.symbolCount []

def infiniteCycles : List String :=
  let found := g.terminating
  g.nonterminals.keys.filter fun s =>
    !found.contains s && (g.isDefined s || g.isTerminal s)

def nullable : List String :=
  untilStable (fun found =>
    g.own.foldl (fun (found, changed) p =>
      if !found.contains p.name && p.symbols.all found.contains then (found ++ [p.name], true)
      else (found, changed)) (found, false))
    g.symbolCount []

abbrev Sets := OrderedMap String (List String)

def setOf (sets : Sets) (s : String) : List String :=
  (sets.get? s).getD []

def emptyMark : String := "<empty>"

/-- What can start a text derived from a sequence of symbols. -/
def firstOf (first : Sets) (found : List String) : List String → List String
  | [] => found ++ [emptyMark]
  | s :: rest =>
    let starts := setOf first s
    let found := (addMissing found (starts.filter (· != emptyMark))).1
    if starts.contains emptyMark then firstOf first found rest else found

def setBound : Nat :=
  g.symbolCount * g.symbolCount + 1

def first : Sets :=
  let terminals : Sets := .ofList (g.terminals.keys.map fun t => (t, [t]))
  let empty := g.nonterminals.keys.foldl (fun acc n => acc.insert n [])
    (terminals.insert "$end" ["$end"])
  untilStable (fun sets =>
    g.nonterminals.keys.foldl (fun (acc : Sets × Bool) n =>
      (g.productionsOf n).foldl (fun (sets, changed) p =>
        match addMissing (setOf sets n) (firstOf sets [] p.symbols) with
        | (set, true) => (sets.insert n set, true)
        | (_, false) => (sets, changed)) acc) (sets, false))
    g.setBound empty

/-- Adds to the sets what follows the symbols of a production. -/
def followIn (g : Grammar) (first : Sets) (name : String) : Sets × Bool → List String → Sets × Bool
  | acc, [] => acc
  | (sets, changed), s :: rest =>
    let next := if g.isNonterminal s then
        let starts := firstOf first [] rest
        let (set, added) := addMissing (setOf sets s) (starts.filter (· != emptyMark))
        let sets := if added then sets.insert s set else sets
        if starts.contains emptyMark || rest.isEmpty then
          let (set, more) := addMissing (setOf sets s) (setOf sets name)
          (if more then sets.insert s set else sets, changed || added || more)
        else (sets, changed || added)
      else (sets, changed)
    followIn g first name next rest

/-- What can follow a nonterminal. The end follows the symbol of the first production. -/
def follow (first : Sets) : Sets :=
  let empty : Sets := .ofList (g.nonterminals.keys.map fun n => (n, []))
  let start := (g.own[0]?.map (·.name)).getD ""
  untilStable (fun sets =>
    g.own.foldl (fun acc p => followIn g first p.name acc p.symbols) (sets, false))
    g.setBound (empty.insert start ["$end"])

end Grammar

end PerlJava.LR
