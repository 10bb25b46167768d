import PerlJava.Data.OrderedMap
import PerlJava.Fault
import PerlJava.Text.Quoted
import PerlJava.Text.Unquoted

/-!
# Grammars

A grammar is built production by production on a set of tokens and precedences. What cannot be part
of a grammar is refused with a message that says where it stands.
-/

namespace PerlJava.LR

/-- How operators of one precedence group. -/
inductive Assoc where
  | left
  | right
  | nonassoc
deriving Repr, DecidableEq, Inhabited

namespace Assoc

def text : Assoc → String
  | left => "left"
  | right => "right"
  | nonassoc => "nonassoc"

def ofText? : String → Option Assoc
  | "left" => some left
  | "right" => some right
  | "nonassoc" => some nonassoc
  | _ => none

end Assoc

/-- How tightly an operator binds, and how it groups. -/
structure Precedence where
  assoc : Assoc := .right
  level : Nat := 0
deriving Repr, DecidableEq, Inhabited

/-- A place in a text that rules were read from. -/
structure Place where
  file : String := ""
  line : Nat := 0
deriving Repr, DecidableEq, Inhabited

def Place.text (p : Place) : String :=
  p.file ++ ":" ++ toString p.line

structure Production where
  number : Nat
  name : String
  symbols : List String
  precedence : Precedence := {}
  /-- The name of the function that makes its reductions. -/
  function : Option String := none
  place : Place := {}
deriving Repr, DecidableEq, Inhabited

namespace Production

def text (p : Production) : String :=
  p.name ++ " -> " ++ (if p.symbols.isEmpty then "<empty>" else " ".intercalate p.symbols)

end Production

structure Grammar where
  /-- The terminals, each with the productions that use it. -/
  terminals : OrderedMap String (List Nat)
  /-- The nonterminals, each with the productions that use it. -/
  nonterminals : OrderedMap String (List Nat) := {}
  precedence : OrderedMap String Precedence := {}
  /-- The precedences that productions asked for by name. -/
  usedPrecedence : List String := []
  /-- The productions, from number one on. -/
  own : Array Production := #[]
  start : Option String := none
deriving Inhabited

namespace Grammar

def ofTokens (tokens : List String) : Grammar :=
  { terminals := .ofList ((tokens ++ ["error"]).map fun t => (t, [])) }

variable (g : Grammar)

def isTerminal (s : String) : Bool :=
  g.terminals.contains s

def isNonterminal (s : String) : Bool :=
  g.nonterminals.contains s

def setPrecedence (term assoc : String) (level : Nat) : Except Fault Grammar :=
  if g.precedence.contains term then
    .error (.badGrammar ("Precedence already specified for terminal " ++ Text.quoted term))
  else
    match Assoc.ofText? assoc with
    | some assoc => .ok { g with precedence := g.precedence.insert term ⟨assoc, level⟩ }
    | none =>
      .error (.badGrammar "Associativity must be one of 'left','right', or 'nonassoc'")

def isIdentifier (text : String) : Bool :=
  !text.isEmpty && text.toList.all fun c =>
    Text.isAsciiLetter c || Text.isAsciiDigit c || c == '_' || c == '-'

def literal? (s : String) : Option String :=
  if s.toList.head?.any fun c => c == '\'' || c == '"' then Text.unquoted? s else none

/-- Reads a symbol of a production: a quoted character is a terminal of its own. -/
def readSymbol (name : String) (place : Place) (s : String) : Except Fault String :=
  match literal? s with
  | some c =>
    if c.length > 1 then
      throw (.badGrammar (place.text ++ ": Literal token " ++ s ++ " in rule " ++ Text.quoted name
        ++ " may only be a single character"))
    else return c
  | none =>
    if isIdentifier s || s == "%prec" then return s
    else throw (.badGrammar (place.text ++ ": Illegal name " ++ Text.quoted s ++ " in rule "
      ++ Text.quoted name))

/-- Makes the quoted characters of a production terminals, up to the first symbol that cannot be
read. -/
def addLiterals (symbols : List String) : Grammar :=
  let readable := symbols.takeWhile fun s => (readSymbol "" {} s).isOk
  readable.foldl (fun g s =>
    match literal? s with
    | some c => if g.isTerminal c then g else { g with terminals := g.terminals.insert c [] }
    | none => g) g

def canName (name : String) : Bool :=
  !g.isTerminal name && isIdentifier name

/-- The precedence of a production and its symbols without the request for one: the precedence asked
for, or that of its last terminal. -/
def choosePrecedence (symbols : List String) (place : Place) :
    Except Fault (Grammar × List String × Precedence) := do
  if !symbols.contains "%prec" then
    let term := symbols.reverse.find? g.isTerminal
    return (g, symbols, (term.bind g.precedence.get?).getD {})
  match symbols.reverse with
  | "%prec" :: _ =>
    throw (.badGrammar (place.text ++ ": Syntax error. Nothing follows %prec"))
  | term :: "%prec" :: rest =>
    match g.precedence.get? term with
    | some precedence =>
      return ({ g with usedPrecedence := term :: g.usedPrecedence }, rest.reverse, precedence)
    | none =>
      throw (.badGrammar (place.text ++ ": Nothing known about the precedence of "
        ++ Text.quoted term))
  | _ =>
    throw (.badGrammar (place.text
      ++ ": Syntax error. %prec can only appear at the end of a grammar rule"))

def noteUse (number : Nat) (g : Grammar) (s : String) : Grammar :=
  match g.terminals.get? s with
  | some uses => { g with terminals := g.terminals.insert s (uses ++ [number]) }
  | none =>
    let uses := (g.nonterminals.get? s).getD []
    { g with nonterminals := g.nonterminals.insert s (uses ++ [number]) }

/-- Fails unless productions may have a name. -/
def checkName (name : String) (place : Place) : Except Fault Unit :=
  let illegal := place.text ++ ": Illegal rule name " ++ Text.quoted name
  if g.isTerminal name then .error (.badGrammar (illegal ++ ". Already defined as a token"))
  else if isIdentifier name then .ok ()
  else .error (.badGrammar illegal)

def checkNew (name : String) (symbols : List String) (place : Place) : Except Fault Unit :=
  match g.own.find? fun p => p.name == name && p.symbols == symbols with
  | some same =>
    .error (.badGrammar (place.text ++ ": Duplicate rule " ++ same.text
      ++ ". Previous definition at " ++ same.place.text))
  | none => .ok ()

/-- Adds a production, and records the symbols it is about. -/
def push (g : Grammar) (p : Production) : Grammar :=
  let named := if g.isNonterminal p.name then g
    else { g with nonterminals := g.nonterminals.insert p.name [] }
  let noted := p.symbols.foldl (noteUse p.number) named
  { noted with own := noted.own.push p }

def addProduction (name : String) (symbols : List String) (function : Option String)
    (place : Place) : Except Fault Grammar := do
  g.checkName name place
  let g := g.addLiterals symbols
  let symbols ← symbols.mapM (readSymbol name place)
  let (g, symbols, precedence) ← choosePrecedence g symbols place
  g.checkNew name symbols place
  return g.push { number := g.own.size + 1, name, symbols, precedence, function, place }

/-- Chooses the start symbol, that of the first production unless one is given. -/
def setStart (start : Option String) : Except Fault Grammar := do
  let start ← match start with
    | some s => if s.isEmpty then firstName else pure s
    | none => firstName
  match g.nonterminals.get? start with
  | none => throw (.badGrammar ("start symbol " ++ start ++ " undefined"))
  | some uses =>
    return { g with
      nonterminals := g.nonterminals.insert start (uses ++ [0])
      start := some start }
where
  /-- The name of the first production. -/
  firstName : Except Fault String :=
    match g.own[0]? with
    | some p => .ok p.name
    | none => .error .outOfRange

def augmented : Production :=
  { number := 0, name := "S'", symbols := [g.start.getD ""] }

def productions : Array Production :=
  #[g.augmented] ++ g.own

def productionsOf (name : String) : List Production :=
  g.own.toList.filter (·.name == name)

def isDefined (name : String) : Bool :=
  g.own.any (·.name == name)

def names : List String :=
  g.own.foldl (fun acc p => if acc.contains p.name then acc else acc ++ [p.name]) []

end Grammar

end PerlJava.LR
