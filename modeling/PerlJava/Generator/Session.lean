import PerlJava.Generator.Parse
import PerlJava.Generator.ScannerBuild
import PerlJava.Generator.TableText

/-!
# Sessions

A session works with one description: it builds scanners and parsers from it and uses those built
last. Between builds tables can be changed, as if by another program.
-/

namespace PerlJava.Generator

structure Session where
  description : Description
  site : Site := {}
  scanner : Option Scanner := none
  parser : Option Parser := none

/-- How a scanner is copied before it is used. -/
inductive Copying where
  | same
  | copied
  /-- Copied, with its functions taken from the description. -/
  | rebound
deriving Repr, DecidableEq

/-- How a scanner is used. -/
structure ScanOptions where
  copying : Copying := .same
  /-- A state to enter first. -/
  state : Option String := none
  line : Option Nat := none
  text : Option Datum := none
  /-- A text kept for the end. -/
  more : Option String := none

/-- The tokens that were found, why there are no more if something went wrong, and the scanner. -/
structure Scanned where
  tokens : List Token
  fault : Option Fault
  scanner : Scanner

namespace Session

abbrev SessionM := EStateM Fault Session

def members (s : Session) (isCaller : Bool) : Members :=
  if isCaller then s.description.inOrder else s.description.byName

def build {α : Type} (m : BuildM α) : SessionM α := fun s =>
  match m s.site with
  | .ok a site => .ok a { s with site }
  | .error e site => .error e { s with site }

def makeScanner (isCaller : Bool) (o : ScannerOptions) : SessionM Unit := do
  let s ← get
  modify fun s => { s with scanner := none }
  let scanner ← build (buildScanner s.description (s.members isCaller) o)
  modify fun s => { s with scanner := some scanner }

def makeParser (isCaller : Bool) (o : ParserOptions) : SessionM Parser := do
  let s ← get
  modify fun s => { s with parser := none }
  let parser ← build (buildParser s.description (s.members isCaller) o)
  modify fun s => { s with parser := some parser }
  return parser

def theScanner : SessionM Scanner := do
  match (← get).scanner with
  | some s => return s
  | none => throw .noMember

def tokenLimit : Nat := 200

def prepare (o : ScanOptions) : Scanner.ScanM Unit := do
  if let some state := o.state then Scanner.change? (·.enter state)
  if let some line := o.line then Scanner.change fun s => { s with line }
  if let some text := o.text then Scanner.change? (·.inputDatum text)

/-- Reads tokens up to the end. A copy of the scanner shares nothing with it but the stack of
states. -/
def scan (o : ScanOptions) : SessionM Scanned := do
  let own ← theScanner
  let keep (used : Scanner) : SessionM Unit :=
    let scanner := if o.copying = .same then used else { own with stack := used.stack }
    modify fun s => { s with scanner := some scanner }
  let scanner ← if o.copying = .rebound then own.rebind ((← get).members false) else pure own
  match prepare o { scanner, more := o.more } with
  | .error e work =>
    keep work.scanner
    throw e
  | .ok () work =>
    let (tokens, fault, work) := Scanner.tokens tokenLimit [] work
    keep work.scanner
    return { tokens, fault, scanner := work.scanner }

structure ListingInput where
  text : Option String := none
  /-- What the file named on the command line holds. -/
  file : Option String := none
  /-- What standard input holds. -/
  standard : String := ""

def ListingInput.read (i : ListingInput) : String × String :=
  match i.text.filter (!·.isEmpty), i.file with
  | some text, _ => (text, "")
  | none, some text => (Text.withEvenLineEnds text, "")
  | none, none => (i.standard, "Reading from standard input (type EOF to end):\n")

def listedToken (t : Token) : String :=
  "(" ++ t.kind ++ "," ++ Text.quoted t.value ++ "," ++ toString t.line ++ ","
    ++ toString t.offset ++ ")\n"

/-- Lists the tokens of a text: what is printed, and why it ends early if it does. -/
def list (i : ListingInput) : SessionM (String × Option Fault) := do
  let (text, before) := i.read
  let scanner := (← theScanner).input text
  let work : Scanner.Work := { scanner }
  let (tokens, fault, work) := Scanner.tokens (Scanner.stepLimit work) [] work
  modify fun s => { s with scanner := some work.scanner }
  return (before ++ String.join (tokens.map listedToken), fault)

/-- Makes a parse. The scanner stays where the parse has left it. -/
def parse (o : ParseOptions) : SessionM (Except Fault (Option LR.Tree) × ParseWork) := do
  match (← get).parser with
  | none => throw .noMember
  | some p =>
    let (result, work) := Parse.run p o (← get).scanner
    modify fun s => { s with
      scanner := work.scanner
      site := { s.site with printed := s.site.printed ++ work.printed } }
    return (result, work)

def clear : SessionM Unit :=
  modify fun s => { s with site := { s.site with printed := "" } }

def change (path : String) (f : Content → Content) : SessionM Unit :=
  modify fun s =>
    match s.site.folder.content? path with
    | some content =>
      { s with site := { s.site with folder := s.site.folder.write path (f content) } }
    | none => s

def setVersion (path version : String) : SessionM Unit :=
  change path fun
    | .scanner t => .scanner { t with version }
    | .parser t => .parser { t with version }
    | .dump t => .dump { t with version }
    | content => content

def setSignature (path signature : String) : SessionM Unit :=
  change path fun
    | .parser t => .parser { t with signature }
    | content => content

/-- The table of a scanner with another text in place of one. -/
def renameScanner (rename : String → String) (t : ScannerTable) : ScannerTable :=
  let use : TableUse → TableUse
    | .ignored => .ignored
    | .token kind => .token (rename kind)
    | .function name kind => .function (rename name) (rename kind)
  { t with
    literals := rename t.literals
    states := ⟨t.states.entries.map fun (state, patterns) =>
      (rename state, patterns.map fun p => { p with uses := p.uses.map (·.map use) })⟩
    ignored := ⟨t.ignored.entries.map fun (state, text) => (rename state, rename text)⟩
    errors := ⟨t.errors.entries.map fun (state, name) => (rename state, name.map rename)⟩
    ends := ⟨t.ends.entries.map fun (state, name) => (rename state, rename name)⟩ }

/-- The table of a parser with another text in place of one. -/
def renameParser (rename : String → String) (t : ParserTable) : ParserTable :=
  { t with
    method := rename t.method
    actions := t.actions.map fun row => row.map fun (name, a) => (rename name, a)
    gotos := t.gotos.map fun row => row.map fun (name, n) => (rename name, n)
    productions := t.productions.map fun p =>
      { p with
        text := rename p.text
        name := rename p.name
        function := p.function.map fun (name, place) =>
          (rename name, { place with file := rename place.file }) } }

/-- Puts another text in place of one in the table in a file. -/
def renameIn (path old new : String) : SessionM Unit :=
  let rename (text : String) : String := if text = old then new else text
  change path fun
    | .scanner t => .scanner (renameScanner rename t)
    | .parser t => .parser (renameParser rename t)
    | content => content

def makeFolder (name file : String) : SessionM Unit :=
  modify fun s =>
    let folder := (s.site.folder.makeFolder name).write (Folder.join name file) .empty
    { s with site := { s.site with folder } }

def fileLines (s : Session) (path : String) : List String :=
  match s.site.folder.content? path with
  | some (.text lines) => Text.printedLines lines
  | some (.parser t) =>
    Text.printedLines (TableText.ofTable (((path.splitOn "/").getLast?).getD path) t)
  | _ => []

end Session

end PerlJava.Generator
