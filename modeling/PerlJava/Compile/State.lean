import PerlJava.Data.OrderedMap
import PerlJava.Diagnostic.Report
import PerlJava.Java.Fragment
import PerlJava.Perl.Reader

/-!
# The state of a compilation

A session compiles files one after the other; packages and variables live as long as the session,
everything else belongs to the file at hand. Steps run in `M`: a fault ends the work, and so does
the lack of a level of scope, but what was done before it stays.
-/

namespace PerlJava.Compile

open Java

/-- How the work of the parser is traced. -/
structure Tracing where
  /-- How much of a value is shown. -/
  limit : Nat := 40
  /-- Whether the trace is a log of its own, which names no levels. -/
  isLog : Bool := false
  /-- Whether lines that only help to find errors are kept. -/
  details : Bool := true
deriving Repr, DecidableEq, Inhabited

/-- The switches of a compilation. -/
structure Options where
  /-- Code outside functions becomes a `main` method. -/
  mainClass : Bool := false
  readComments : Bool := false
  /-- Parentheses are put around the arguments of calls. -/
  insertParens : Bool := false
  optimizeCode : Bool := false
  /-- Regular expressions are evaluated inside Java. -/
  jregex : Bool := false
  /-- Statements that are never reached are reported. -/
  unreachableCode : Bool := false
  /-- The first error ends the work. -/
  errorAbort : Bool := false
  /-- Tokens are printed as they are read. -/
  lexerDebug : Bool := false
  tracing : Option Tracing := none
deriving Repr, DecidableEq, Inhabited

/-- A variable: its name in Java, its type, the types of its elements if they differ, and whether
other packages may use it. -/
structure Variable where
  name : Option String := none
  shape : Shape := .unset
  elements : Option (List Shape) := none
  position : Position := {}
  isPrivate : Bool := false
deriving Repr, DecidableEq, Inhabited

structure Function where
  arguments : List Shape
  results : List Shape
  position : Position := {}
deriving Repr, DecidableEq, Inhabited

/-- What a package offers to other files. -/
structure Package where
  name : String
  vars : OrderedMap String VarId := {}
  functions : OrderedMap String Function := {}
deriving Repr, Inhabited

/-- A type that a label gave to a name. -/
structure TypedName where
  shape : Shape
  position : Position
deriving Repr, DecidableEq, Inhabited

/-- A variable or a size in a label. -/
structure Label where
  value : String
  position : Position
  isVariable : Bool := false
deriving Repr, DecidableEq, Inhabited

/-- A declaration that waits for its statement. -/
structure Pending where
  value : String := ""
  shape : Shape := .unset
  variable_ : Option VarId := none
deriving Repr, DecidableEq, Inhabited

/-- What is known about the mapper or reducer that a file defines. -/
structure Job where
  /-- Types of the keys and values that come in and go out. -/
  types : List TypeName := [.string, .string, .string, .string]
  hasMapper : Bool := false
  hasLoop : Bool := false
  operation : Option String := none
  change : Option String := none
  key : Option (String × Shape) := none
  value : Option (String × Shape) := none
deriving Repr, Inhabited

/-- The paths of the classes that generated code may import. -/
def standardImports : OrderedMap String String :=
  .ofList [("List", "java.util.List"), ("Map", "java.util.Map"),
    ("Iterator", "java.util.Iterator"), ("Mapper", "org.apache.hadoop.mapreduce.Mapper"),
    ("Reducer", "org.apache.hadoop.mapreduce.Reducer"), ("HadoopIO", "org.apache.hadoop.io.*"),
    ("HadoopContext", "org.apache.hadoop.mapreduce.Mapper.Context"),
    ("IOException", "java.io.IOException")]

/-- What lives as long as a session. -/
structure Session where
  packages : OrderedMap String Package := {}
  importPaths : OrderedMap String String := standardImports
  vars : Array Variable := #[]
  pending : Array Pending := #[]
deriving Inhabited

/-- The state of a compilation. -/
structure State extends Session where
  options : Options := {}
  fileName : String := ""
  className : String := ""
  /-- The class that the generated class extends. -/
  superclass : String := ""
  source : String := ""
  reader : Perl.Reader := default
  declaredTypes : OrderedMap String TypedName := {}
  /-- The variables that the open levels of scope declare, innermost first. -/
  declared : List (OrderedMap String VarId) := [{}]
  /-- The names that the open levels of scope assign, innermost first. -/
  assigned : List (List (Option String)) := [[]]
  /-- Names taken by auxiliary variables. -/
  reserved : List String := []
  imports : List String := []
  /-- The type that labels give to the variables of the statement at hand. -/
  lineType : Option Shape := none
  /-- The sizes that labels give to the collections of the statement at hand. -/
  lineSizes : Option (List Label) := none
  functions : OrderedMap String Function := {}
  currentFunction : Option Function := none
  packageCode : String := ""
  globalCode : String := ""
  functionsCode : String := ""
  attributes : String := ""
  codeError : Bool := false
  /-- Whether a declaration may be joined with the assignment that follows. -/
  initVar : Bool := true
  /-- Whether the variable of a loop is being declared, which needs no type. -/
  inForeach : Bool := false
  isPackage : Bool := false
  job : Job := {}
  /-- What was printed. -/
  printed : Array Diagnostic.Printed := #[]
  /-- The trace of the parser. -/
  trace : String := ""
deriving Inhabited

def State.types (s : State) : List Shape :=
  s.vars.toList.map (·.shape)

theorem State.types_prefix {s s' : State} (same : s'.vars = s.vars) : s.types <+: s'.types := by
  simp [State.types, same]

def State.log (s : State) : String :=
  String.join (s.printed.toList.map (·.text))

def State.optimizing (optimize : Bool) (s : State) : State :=
  { s with options := { s.options with optimizeCode := optimize } }

def State.aborting (abort : Bool) (s : State) : State :=
  { s with options := { s.options with errorAbort := abort } }

/-- What only the reader and the trace of the parser have to do with. -/
structure Backdrop where
  readComments : Bool
  tracing : Option Tracing
  reader : Perl.Reader
  trace : String

def State.against (b : Backdrop) (s : State) : State :=
  { s with
    options := { s.options with readComments := b.readComments, tracing := b.tracing }
    reader := b.reader
    trace := b.trace }

def State.backdrop (s : State) : Backdrop :=
  ⟨s.options.readComments, s.options.tracing, s.reader, s.trace⟩

def State.reframed (g : Backdrop → Backdrop) (s : State) : State :=
  s.against (g s.backdrop)

/-- What most steps can neither see nor change. -/
structure Cloak where
  optimizeCode : Bool := false
  errorAbort : Bool := false
  readComments : Bool := false
  tracing : Option Tracing := none
  reader : Perl.Reader := default
  trace : String := ""
  codeError : Bool := false
  printed : Array Diagnostic.Printed := #[]

/-- A state in which what most steps cannot see is exchanged. -/
def State.cloaked (c : Cloak) (s : State) : State :=
  { s with
    options := { s.options with
      optimizeCode := c.optimizeCode, errorAbort := c.errorAbort, readComments := c.readComments,
      tracing := c.tracing }
    reader := c.reader
    trace := c.trace
    codeError := c.codeError
    printed := c.printed }

def State.cloak (s : State) : Cloak where
  optimizeCode := s.options.optimizeCode
  errorAbort := s.options.errorAbort
  readComments := s.options.readComments
  tracing := s.options.tracing
  reader := s.reader
  trace := s.trace
  codeError := s.codeError
  printed := s.printed

section Cloaked

variable (s : State) (c : Cloak)

@[simp] theorem State.vars_cloaked : (s.cloaked c).vars = s.vars := rfl

@[simp] theorem State.pending_cloaked : (s.cloaked c).pending = s.pending := rfl

@[simp] theorem State.declared_cloaked : (s.cloaked c).declared = s.declared := rfl

@[simp] theorem State.assigned_cloaked : (s.cloaked c).assigned = s.assigned := rfl

end Cloaked

abbrev State.veiled (s : State) : State :=
  s.cloaked {}

/-- Why a compilation is given up: a fault, or a level of scope that is needed and is not open. -/
inductive Stop where
  | fault (f : Fault)
  | noLevel
deriving Repr, DecidableEq, Inhabited

def Stop.toFault : Stop → Fault
  | fault f => f
  | noLevel => .outOfRange

def M (α : Type) : Type := EStateM Stop State α

instance : Monad M := inferInstanceAs (Monad (EStateM Stop State))

instance : MonadStateOf State M := inferInstanceAs (MonadStateOf State (EStateM Stop State))

instance : MonadExceptOf Fault M where
  throw e := EStateM.throw (.fault e)
  tryCatch x handle := EStateM.tryCatch x fun
    | .fault e => handle e
    | .noLevel => EStateM.throw .noLevel

def endState {α : Type} : EStateM.Result Stop State α → State
  | .ok _ s => s
  | .error _ s => s

def mapState {α : Type} (f : State → State) :
    EStateM.Result Stop State α → EStateM.Result Stop State α
  | .ok a s => .ok a (f s)
  | .error stop s => .error stop (f s)

namespace M

variable {α β : Type} {x : M α} {f : α → M β} {s s' : State}

@[simp] theorem pure_apply (a : α) (s : State) : (pure a : M α) s = .ok a s := rfl

theorem bind_apply (x : M α) (f : α → M β) (s : State) :
    (x >>= f) s = match x s with
      | .ok a s => f a s
      | .error stop s => .error stop s := by
  change EStateM.bind x f s = _
  unfold EStateM.bind
  cases x s <;> rfl

theorem bind_eq_ok {b : β} :
    (x >>= f) s = .ok b s' ↔ ∃ a s₁, x s = .ok a s₁ ∧ f a s₁ = .ok b s' := by
  change EStateM.bind x f s = _ ↔ _
  unfold EStateM.bind
  cases x s <;> simp [and_assoc]

/-- A run is cut into its two parts. -/
theorem cut {b : β} (run : (x >>= f) s = .ok b s') :
    ∃ a s₁, x s = .ok a s₁ ∧ f a s₁ = .ok b s' :=
  bind_eq_ok.1 run

theorem bind_eq_error {stop : Stop} :
    (x >>= f) s = .error stop s'
      ↔ x s = .error stop s' ∨ ∃ a s₁, x s = .ok a s₁ ∧ f a s₁ = .error stop s' := by
  change EStateM.bind x f s = _ ↔ _
  unfold EStateM.bind
  cases x s <;> simp [and_assoc]

end M

end PerlJava.Compile
