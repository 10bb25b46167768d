import PerlJava.Perl.Parens
import PerlJava.Perl.Scanner

/-!
# The order in which tokens reach the grammar

A label after a statement says something about that statement, so the grammar wants it in front.
The reader gathers the tokens of a statement in a buffer, puts the movable labels that follow on
the same line at the front of the innermost block that is still open, and then hands the buffer
out token by token.
-/

namespace PerlJava.Perl

/-- What a reader depends on: whether comments with blanks in them are kept, and how parentheses are
put into a buffer. -/
structure ReadingRules where
  keepComments : Bool := false
  parens : List Token → Option (List Token) := some

/-- A reader: its scanner, the token at hand, the tokens gathered, and the line of the last token
of code. -/
structure Reader where
  scanner : Scanner
  current : Option Token := none
  buffer : List Token := []
  codeLine : Option Nat := none
deriving Inhabited

namespace Reader

structure Reading where
  notices : List Notice
  token : Option Token
  reader : Reader

/-- Whether the last token gathered is a sigil, after which a word is a name. -/
def afterSigil (buffer : List Token) : Bool :=
  buffer.getLast?.any fun t => t.value == "$" || t.value == "@" || t.value == "%"

def fetch (r : Reader) : List Notice × Reader :=
  let reading := r.scanner.next (afterSigil r.buffer)
  (reading.notices, { r with scanner := reading.scanner, current := reading.token })

/-- A reader at the start of a text, with the first token at hand. -/
def ofText (text : String) : List Notice × Reader :=
  fetch { scanner := .ofText text }

/-- A gathering under way: where labels go in each open block, innermost first, and whether the
code of the statement has ended. -/
structure Gathering where
  places : List Nat := [0]
  ended : Bool := false

/-- What to do with the token at hand. -/
inductive Move where
  /-- Go on with this buffer. -/
  | goOn (buffer : List Token) (codeLine : Option Nat) (g : Gathering)
  /-- Hand out this buffer; the token at hand belongs to it. -/
  | close (buffer : List Token)
  /-- Hand out the buffer as it is; the token at hand is for later. -/
  | stop (codeLine : Option Nat)

def decide (rules : ReadingRules) (r : Reader) (g : Gathering) (t : Token) : Move :=
  if isLabel t.kind then
    if r.codeLine != some t.line then .stop (some t.line)
    else if isMovable t.kind then
      let place := g.places.headD 0
      .goOn (r.buffer.insertIdx place t) r.codeLine
        { places := (place + 1) :: g.places.drop 1, ended := true }
    else .close (r.buffer ++ [t])
  else if g.ended then .stop r.codeLine
  else
    let gathered := r.buffer ++ [t]
    if t.kind == "COMMENT" then
      let kept := rules.keepComments && t.value.toList.any (fun c => c == ' ' || c == '\t')
        && r.codeLine == some t.line
      .close (if kept then gathered else r.buffer)
    else if t.kind == "ID" && r.buffer.getLast?.any (·.kind == "SUB") then .close gathered
    else if t.kind == "RBRACE" then
      if g.places.length > 1 && r.buffer.getLast?.any (·.kind != "LBRACE") then
        .goOn gathered (some t.line) { g with places := g.places.drop 1 }
      else .close gathered
    else if t.kind == "LBRACE" then
      .goOn gathered (some t.line) { g with places := (r.buffer.length + 1) :: g.places }
    else .goOn gathered (some t.line) { g with ended := t.kind == "SEMI" }

/-- How a move goes on gathering; if not at all, the buffer is to be handed out. -/
def Move.gathering? : Move → Option Gathering
  | goOn _ _ g => some g
  | close _ | stop _ => none

/-- Carries out a move, with the notices up to the next token if that is put at hand. -/
def perform (r : Reader) : Move → List Notice × Reader
  | .goOn buffer codeLine _ => fetch { r with buffer, codeLine }
  | .close buffer => fetch { r with buffer }
  | .stop codeLine => ([], { r with codeLine })

/-- Hands out the first token of the buffer; what happens with an empty buffer is given. There is no
answer when parentheses cannot be put in. -/
def handOut (rules : ReadingRules) (notices : List Notice) (r : Reader)
    (otherwise : Reader → Option Reading) : Option Reading :=
  match rules.parens r.buffer with
  | none => none
  | some [] => otherwise { r with buffer := [] }
  | some (t :: buffer) => some ⟨notices, some t, { r with buffer }⟩

/-- Gathers tokens until the buffer is to be handed out. An empty buffer is not handed out: gathering
starts anew. -/
def gather (rules : ReadingRules) :
    (fuel : Nat) → List Notice → Gathering → Reader → Option Reading
  | 0, _, _, _ => none
  | fuel + 1, notices, g, r =>
    match r.current with
    | none => handOut rules notices r fun r => some ⟨notices, none, r⟩
    | some t =>
      let move := decide rules r g t
      let (more, r) := perform r move
      match move.gathering? with
      | some g => gather rules fuel (notices ++ more) g r
      | none => handOut rules (notices ++ more) r fun r => gather rules fuel (notices ++ more) {} r

/-- The next token for the grammar. There are at most two tokens for each character, since a line end
may close a comment before it is read, and a label on a line of its own is looked at twice. -/
def next (rules : ReadingRules) (r : Reader) : Option Reading :=
  match r.buffer with
  | t :: buffer => some ⟨[], some t, { r with buffer }⟩
  | [] => gather rules (4 * r.scanner.size + 8) [] {} r

end Reader

end PerlJava.Perl
