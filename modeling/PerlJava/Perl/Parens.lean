import PerlJava.Perl.Token
import PerlJava.Perl.Vocabulary

/-!
# Parentheses around arguments

Perl lets a call go without parentheses. `Parens.insert` puts them in: an opening one after the
name of a function whose number of arguments is known, and a closing one after so many commas, or
where the statement ends.
-/

namespace PerlJava.Perl.Parens

/-- How many arguments are known functions called with. -/
structure Arities where
  /-- A function of this file. -/
  own : String → Option Nat
  /-- A function of a package. -/
  ofPackage : String → String → Option Nat

/-- What is open at a place: a bracket, or a call that still takes some arguments (all that follow,
if negative). -/
inductive Opened where
  | bracket (kind : String)
  | call (arguments : Int)
deriving Repr, DecidableEq

def Opened.isCall : Opened → Bool
  | call _ => true
  | bracket _ => false

def opening? : String → Option String
  | "RBRACKET" => some "LBRACKET"
  | "RBRACE" => some "LBRACE"
  | "RPAREN" => some "LPAREN"
  | _ => none

def isOpening (kind : String) : Bool :=
  kind == "LBRACKET" || kind == "LBRACE" || kind == "LPAREN"

/-- A token of the result: one that was given, or a parenthesis that has been put in. -/
inductive Piece where
  | given (t : Token)
  | added (t : Token)
deriving Repr, DecidableEq

namespace Piece

def token : Piece → Token
  | given t | added t => t

def given? : Piece → Option Token
  | given t => some t
  | added _ => none

end Piece

/-- The state of the insertion: the tokens done, last first, the token met before (inserted ones
not counted), and what is open, innermost first. -/
structure Progress where
  done : List Piece := []
  last : Option Token := none
  opened : List Opened := []

variable (arities : Arities)

def isFunction (t : Token) : Bool :=
  (t.kind == "ID" && (arities.own t.value).isSome) || (nativeArity? t.kind).isSome

def isBareCall (last : Option Token) (t : Token) (following : Option Token) : Bool :=
  isFunction arities t && last.all (·.kind != "SUB")
    && following.any fun f => f.kind != "LPAREN" && f.kind != "TWO_COLON"

/-- The calls that a bare call opens. A call of a package's function counts for the package and
for the function of this file with the same name; there is no answer when the package does not
have the function. -/
def callsOpened? (p : Progress) (t : Token) : Option (List Opened) :=
  if t.kind == "ID" then
    let own := Opened.call (((arities.own t.value).getD 0 : Nat) : Int)
    match p.done with
    | _ :: package :: _ =>
      if p.last.any (·.kind == "TWO_COLON") && package.token.kind == "ID" then
        (arities.ofPackage package.token.value t.value).map fun n => [own, .call (n : Int)]
      else some [own]
    | _ => some [own]
  else (nativeArity? t.kind).map fun n => [.call n]

/-- Takes one token over, with the parentheses that belong before or after it. -/
def step (p : Progress) (t : Token) (following : Option Token) : Option Progress :=
  let taken := { p with done := .given t :: p.done, last := some t }
  if isBareCall arities p.last t following then
    (callsOpened? arities p t).map fun calls =>
      { taken with
        done := .added (t.beside "LPAREN" "(") :: taken.done
        opened := calls ++ p.opened }
  else if isOpening t.kind then
    some { taken with opened := .bracket t.kind :: p.opened }
  else
    match p.opened with
    | .bracket kind :: outer =>
      if opening? t.kind == some kind then some { taken with opened := outer }
      else if t.kind == "SEMI" then some (closeAll p t)
      else some taken
    | .call n :: outer =>
      if t.kind == "COMMA" then
        let n := if n > 0 then n - 1 else n
        if n = 0 then
          some { taken with
            done := .given t :: .added (t.beside "RPAREN" ")") :: p.done
            opened := outer }
        else some { taken with opened := .call n :: outer }
      else if t.kind == "SEMI" then some (closeAll p t)
      else some taken
    | [] => some taken
where
  /-- Closes the calls that are open where a statement ends. -/
  closeAll (p : Progress) (t : Token) : Progress :=
    let closing := List.replicate (p.opened.countP (·.isCall)) (.added (t.beside "RPAREN" ")"))
    { done := .given t :: closing ++ p.done, last := some t, opened := [] }

def run (arities : Arities) : List Token → Progress → Option (List Piece)
  | [], p => some p.done.reverse
  | t :: rest, p => (step arities p t rest.head?).bind (run arities rest)

/-- The tokens among the parentheses put in, if every call is of a known function. -/
def place (tokens : List Token) : Option (List Piece) :=
  run arities tokens {}

/-- The tokens with parentheses put in, if every call is of a known function. -/
def insert (tokens : List Token) : Option (List Token) :=
  (place arities tokens).map (·.map (·.token))

end PerlJava.Perl.Parens
