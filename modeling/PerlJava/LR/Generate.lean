import PerlJava.LR.Lookahead
import PerlJava.LR.Table
import PerlJava.Text.Slice

/-!
# Making the tables of a grammar

Each state gets its actions from its items: a dot before a terminal shifts, a complete item reduces
on the terminals that may follow. Where both are possible precedences decide, and what they leave
open is a conflict. Along the way the report of the generator is written.
-/

namespace PerlJava.LR

/-- How the terminals on which a reduction is made are found. -/
inductive Method where
  | slr
  | lalr
deriving Repr, DecidableEq, Inhabited

namespace Method

def text : Method → String
  | slr => "SLR"
  | lalr => "LALR"

def ofText : String → Except Fault Method
  | "SLR" => .ok slr
  | "LALR" => .ok lalr
  | other => .error (.badConflict ("Unsupported method " ++ other))

end Method

/-- A line of the report; some only help to find errors. -/
structure ReportLine where
  text : String
  isDebug : Bool := false
deriving Repr, DecidableEq, Inhabited

/-- How a conflict between shifting and reducing was resolved. -/
structure ShiftConflict where
  state : Nat
  token : String
  shifts : Bool
deriving Repr, DecidableEq, Inhabited

def ShiftConflict.resolution (c : ShiftConflict) : String :=
  if c.shifts then "shift" else "reduce"

/-- A conflict between two reductions. -/
structure ReduceConflict where
  state : Nat
  chosen : Production
  rejected : Production
deriving Repr, DecidableEq, Inhabited

/-- The tables of a grammar and what was found while making them. -/
structure Generated where
  method : Method
  productions : Array Production
  table : Table
  shiftConflicts : List ShiftConflict
  reduceConflicts : List ReduceConflict
  /-- How many entries reduce by each production. -/
  reduced : Array Int
  report : List ReportLine
deriving Inhabited

namespace Generate

/-- The entry of a terminal: the action, if it was not taken back, and the item it is due to. -/
structure Entry where
  action : Option Action
  item : Item
deriving Inhabited

/-- The work on one state. -/
structure Row where
  state : Nat
  entries : OrderedMap String Entry := {}
  /-- All actions that were considered, with the items they are due to. -/
  considered : Array (String × Item × String) := #[]
  shiftConflicts : Array ShiftConflict := #[]
  reduceConflicts : Array ReduceConflict := #[]
  reduced : Array Int
  report : Array ReportLine := #[]

variable (row : Row)

namespace Row

def say (text : String) : Row :=
  { row with report := row.report.push { text } }

def count (production : Nat) (n : Int) : Row :=
  { row with reduced := row.reduced.modify production (· + n) }

def set (token : String) (action : Option Action) (item : Item) : Row :=
  { row with entries := row.entries.insert token ⟨action, item⟩ }

def takeBack (token : String) : Row :=
  match row.entries.get? token with
  | some e => { row with entries := row.entries.insert token { e with action := none } }
  | none => row

def consider (token : String) (item : Item) (text : String) : Row :=
  { row with considered := row.considered.push (token, item, text) }

def conflict (row : Row) (token : String) (shifts : Bool) : Row :=
  let c : ShiftConflict := ⟨row.state, token, shifts⟩
  { row.say ("  ! shift/reduce conflict for " ++ token ++ " resolved as " ++ c.resolution) with
    shiftConflicts := row.shiftConflicts.push c }

end Row

/-- What the work on a state needs to know. -/
structure Context where
  automaton : Automaton
  method : Method
  lookaheads : Std.HashMap (Nat × Item) (List String)
  follow : Grammar.Sets

namespace Context

variable (cx : Context)

def rule (n : Nat) : Production :=
  cx.automaton.productions.getD n default

def precedence (cx : Context) (token : String) : Precedence :=
  (cx.automaton.grammar.precedence.get? token).getD {}

/-- Reduces by a complete item on a terminal. -/
def reduceOn (item : Item) (row : Row) (token : String) : Except Fault Row := do
  let number := item.production
  let row := row.consider token item
    ("reduce using rule " ++ toString number ++ " (" ++ item.text cx.automaton.productions ++ ")")
  let reducing := (row.set token (some (.reduce number)) item).count number 1
  let some e := row.entries.get? token | return reducing
  match e.action with
  | none => return reducing
  | some (.shift _) =>
    let shift := (cx.rule e.item.production).precedence
    let reduce := cx.precedence token
    if shift.level < reduce.level || (shift.level == reduce.level && reduce.assoc = .left) then
      let row := row.set token (some (.reduce number)) item
      let row := if shift.level == 0 && reduce.level == 0 then row.conflict token false else row
      return row.count number 1
    else if shift.level == reduce.level && reduce.assoc = .nonassoc then
      return row.takeBack token
    else if reduce.level == 0 then return row.conflict token true
    else return row
  | some (.reduce old) =>
    let oldRule := cx.rule old
    let newRule := cx.rule number
    let replaces := oldRule.place.line > newRule.place.line
    let row := if replaces then
        ((row.set token (some (.reduce number)) item).count number 1).count old (-1)
      else row
    let (chosen, rejected) := if replaces then (newRule, oldRule) else (oldRule, newRule)
    let winner := ((row.entries.get? token).map (·.item)).getD item
    let row := { row with
      reduceConflicts := row.reduceConflicts.push ⟨row.state, chosen, rejected⟩ }
    return row.say ("  ! reduce/reduce conflict for " ++ token ++ " resolved using rule "
      ++ toString winner.production ++ " (" ++ winner.text cx.automaton.productions ++ ")")
  | some .accept =>
    throw (.badConflict ("Unknown conflict in state " ++ toString row.state))

def shiftOn (item : Item) (token : String) (target : Nat) (row : Row) : Except Fault Row := do
  let row := row.consider token item ("shift and go to state " ++ toString target)
  let shifting := row.set token (some (.shift target)) item
  let some e := row.entries.get? token | return shifting
  match e.action with
  | none => return shifting
  | some (.shift other) =>
    if other != target then
      throw (.badConflict ("Shift/shift conflict in state " ++ toString row.state))
    return row
  | some (.reduce _) =>
    let reduce := (cx.rule e.item.production).precedence
    let shift := cx.precedence token
    if shift.level > reduce.level || (shift.level == reduce.level && reduce.assoc = .right) then
      let row := (row.count e.item.production (-1)).set token (some (.shift target)) item
      return if reduce.level == 0 then row.conflict token true else row
    else if shift.level == reduce.level && reduce.assoc = .nonassoc then
      return row.takeBack token
    else if shift.level == 0 && reduce.level == 0 then return row.conflict token false
    else return row
  | some .accept =>
    throw (.badConflict ("Unknown conflict in state " ++ toString row.state))

def reducesOn (state : Nat) (item : Item) : Except Fault (List String) :=
  match cx.method with
  | .slr => .ok (Grammar.setOf cx.follow (cx.rule item.production).name)
  | .lalr => (cx.lookaheads[(state, item)]?).elim (.error .missingKey) .ok

def enter (item : Item) : Except Fault Row := do
  match item.next? cx.automaton.productions with
  | some s =>
    if !cx.automaton.grammar.isTerminal s then return row
    match cx.automaton.goto? row.state s with
    | some target => cx.shiftOn item s target row
    | none => return row
  | none =>
    if item.production == 0 then return row.set "$end" (some .accept) item
    (← cx.reducesOn row.state item).foldlM (cx.reduceOn item) row

/-- The lines about the actions of a state: those that are in force, then those that are not. -/
def actionLines : List ReportLine :=
  let inForce (token : String) (item : Item) : Bool :=
    (row.entries.get? token).any (·.item == item)
  let considered := row.considered.toList
  let used := considered.filter fun (token, item, _) => inForce token item
  let (unused, _) := considered.foldl (fun (acc : List (String × String) × List (String × String))
      (token, item, text) =>
    if inForce token item || acc.2.contains (token, text) then acc
    else (acc.1 ++ [(token, text)], acc.2 ++ [(token, text)]))
    ([], used.map fun (token, _, text) => (token, text))
  used.map (fun (token, _, text) => { text := "    " ++ Text.padRight 15 token ++ " " ++ text })
    ++ [{ text := "" }]
    ++ unused.map (fun (token, text) =>
        { text := "  ! " ++ Text.padRight 15 token ++ " [ " ++ text ++ " ]", isDebug := true })
    ++ (if unused.isEmpty then [] else [{ text := "", isDebug := true }])

def gotoRow (state : Nat) : List (String × Nat) :=
  (cx.automaton.edges.getD state []).filter fun (s, _) => cx.automaton.grammar.isNonterminal s

/-- The work so far on all states. -/
structure Progress where
  actions : Array ActionRow := #[]
  gotos : Array (List (String × Nat)) := #[]
  shiftConflicts : Array ShiftConflict := #[]
  reduceConflicts : Array ReduceConflict := #[]
  reduced : Array Int
  report : Array ReportLine

def addState (progress : Progress) (state : Nat) : Except Fault Progress := do
  let items := cx.automaton.items state
  let head : List ReportLine :=
    [{ text := "" }, { text := "state " ++ toString state }, { text := "" }]
      ++ items.map (fun i =>
          { text := "    (" ++ toString i.production ++ ") " ++ i.text cx.automaton.productions })
      ++ [{ text := "" }]
  let row ← items.foldlM cx.enter { state, reduced := progress.reduced }
  let gotos := cx.gotoRow state
  let tail := gotos.map fun (s, n) =>
    ({ text := "    " ++ Text.padRight 30 s ++ " shift and go to state " ++ toString n }
      : ReportLine)
  return {
    actions := progress.actions.push (row.entries.entries.map fun (s, e) => (s, e.action))
    gotos := progress.gotos.push gotos
    shiftConflicts := progress.shiftConflicts ++ row.shiftConflicts
    reduceConflicts := progress.reduceConflicts ++ row.reduceConflicts
    reduced := row.reduced
    report := progress.report ++ head.toArray ++ row.report ++ (actionLines row).toArray
      ++ tail.toArray }

end Context

end Generate

def Production.toRule (p : Production) : Rule :=
  { name := p.name, length := p.symbols.length, text := p.text }

def Grammar.generate (g : Grammar) (method : Method) : Except Fault Generated := do
  let first := g.first
  let follow := g.follow first
  let automaton := Automaton.ofGrammar g
  let cx : Generate.Context := {
    automaton
    method
    lookaheads := if method = .lalr then automaton.lookaheads else {}
    follow }
  let progress ← (List.range automaton.states.size).foldlM cx.addState {
    reduced := Array.replicate automaton.productions.size 0
    report := #[{ text := "Parsing method: " ++ method.text }] }
  return {
    method
    productions := automaton.productions
    table := {
      rules := automaton.productions.map (·.toRule)
      actions := progress.actions
      gotos := progress.gotos }
    shiftConflicts := progress.shiftConflicts.toList
    reduceConflicts := progress.reduceConflicts.toList
    reduced := progress.reduced
    report := progress.report.toList }

end PerlJava.LR
