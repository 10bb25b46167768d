import PerlJava.Compile.Tidying
import PerlJava.LR.Display
import PerlJava.Perl.Symbol

/-!
# The values of grammar symbols
-/

namespace PerlJava.Compile

open Java

/-- What a symbol of the grammar stands for. -/
inductive Value where
  | nothing
  | text (text : String)
  | token (token : Token)
  | code (code : Fragment)
  | access (access : Access)
  | codes (codes : List Fragment)
  | types (shapes : List Shape)
  | dims (dims : List Dim)
  | labels (labels : List Label)
  | package (package : Package)
deriving Inhabited

namespace Value

def showDim : Dim → String
  | .sized name _ => name.text
  | .missing => "None"
  | d => Text.quoted d.text

def anonymous (name : String) : String :=
  "<libs.datatype." ++ name ++ " object at 0x7f0000000000>"

def display : Value → String
  | nothing => "None"
  | text t => Text.quoted t
  | token t => t.display
  | code c => c.value
  | access a => a.value
  | codes cs => LR.Shown.listed (cs.map (·.value))
  | types ts => LR.Shown.listed (ts.map fun t =>
    LR.Shown.listed (((t.parts).toOption.getD []).map showDim))
  | dims ds => LR.Shown.listed (ds.map showDim)
  | labels ls => LR.Shown.listed (ls.map fun _ => anonymous "Declare")
  | package _ => anonymous "Package"

def className : Value → String
  | nothing => "NoneType"
  | text _ => "str"
  | token _ => "LexToken"
  | code c => if c.bare then "Access" else "Code"
  | access _ => "Access"
  | codes _ | types _ | dims _ | labels _ => "list"
  | package _ => "Package"

def shown (v : Value) : LR.Shown :=
  ⟨v.className, v.display⟩

end Value

/-- The symbols of the right side of a production, with their positions. -/
structure Args where
  values : Array (Value × Position)

namespace Args

variable (p : Args) (i : Nat)

def value : Value :=
  (p.values.getD (i - 1) (.nothing, {})).1

def at_ : Position :=
  (p.values.getD (i - 1) (.nothing, {})).2

def text (p : Args) (i : Nat) : Except Fault String :=
  match p.value i with
  | .text t => .ok t
  | _ => .error .illTyped

def text? : Option String :=
  match p.value i with
  | .text t => some t
  | _ => none

def code (p : Args) (i : Nat) : Except Fault Fragment :=
  match p.value i with
  | .code c => .ok c
  | _ => .error .noMember

def code? : Option Fragment :=
  match p.value i with
  | .code c => some c
  | _ => none

def access (p : Args) (i : Nat) : Except Fault Access :=
  match p.value i with
  | .access a => .ok a
  | _ => .error .noMember

def codes (p : Args) (i : Nat) : Except Fault (List Fragment) :=
  match p.value i with
  | .codes cs => .ok cs
  | _ => .error .illTyped

/-- A list of types; none at all is an empty one. -/
def types (p : Args) (i : Nat) : List Shape :=
  match p.value i with
  | .types ts => ts
  | _ => []

def dims (p : Args) (i : Nat) : Except Fault (List Dim) :=
  match p.value i with
  | .dims ds => .ok ds
  | _ => .error .illTyped

def labels (p : Args) (i : Nat) : Except Fault (List Label) :=
  match p.value i with
  | .labels ls => .ok ls
  | _ => .error .illTyped

def package (p : Args) (i : Nat) : Except Fault Package :=
  match p.value i with
  | .package q => .ok q
  | _ => .error .noMember

def type : Except Fault TypeName := do
  match TypeName.ofLabel? (← p.text i) with
  | some name => return name
  | none => throw .missingKey

section

variable {p : Args} {i : Nat}

theorem text_eq_ok {x : String} : p.text i = .ok x ↔ p.value i = .text x := by
  unfold text
  cases p.value i <;> simp

theorem code_eq_ok {x : Fragment} : p.code i = .ok x ↔ p.value i = .code x := by
  unfold code
  cases p.value i <;> simp

theorem access_eq_ok {x : Access} : p.access i = .ok x ↔ p.value i = .access x := by
  unfold access
  cases p.value i <;> simp

theorem codes_eq_ok {x : List Fragment} : p.codes i = .ok x ↔ p.value i = .codes x := by
  unfold codes
  cases p.value i <;> simp

theorem dims_eq_ok {x : List Dim} : p.dims i = .ok x ↔ p.value i = .dims x := by
  unfold dims
  cases p.value i <;> simp

theorem package_eq_ok {x : Package} : p.package i = .ok x ↔ p.value i = .package x := by
  unfold package
  cases p.value i <;> simp

end

end Args

/-- What a production does with its right side, and the effect that has. -/
structure Action where
  effect : Effect
  run : Args → M Value
  does : ∀ args, Enacts effect (run args)

abbrev PlainAction := Args → Plain Value

abbrev Actions := List (Perl.Production × Action)

def rule (name : Perl.Symbol) (symbols : List Perl.Symbol) (f : PlainAction) :
    Perl.Production × Action :=
  (⟨name, symbols⟩, {
    effect := .plain
    run args := (f args).run
    does args := (f args).plain })

def ruleTidying (name : Perl.Symbol) (symbols : List Perl.Symbol) (f : Args → Tidying Value) :
    Perl.Production × Action :=
  (⟨name, symbols⟩, {
    effect := .tidies
    run args := (f args).run
    does _ := inferInstance })

def ruleWith (e : Effect) (name : Perl.Symbol) (symbols : List Perl.Symbol) (f : Args → M Value)
    (does : ∀ args, Enacts e (f args) := by intro args; infer_instance) : Perl.Production × Action :=
  (⟨name, symbols⟩, {
    effect := e
    run := f
    does })

end PerlJava.Compile
