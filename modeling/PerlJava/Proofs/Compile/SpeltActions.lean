import Mathlib.Data.List.Forall2
import PerlJava.Compile.Parser
import PerlJava.Proofs.Compile.SpeltStatements

/-!
# Actions on types that are spelt the same

Every production concurs by other names, given symbols whose types are spelt the same, if the names
of the interfaces it brings in are Java's. Most of these are imported along with it: those of labels
and of `each`. A call of `values` and a hash in braces bring in an interface that is not.
-/

set_option synthInstance.maxSize 10000

namespace PerlJava.Perl

/-- The interfaces that a production brings in and imports. -/
def Production.imports (production : Production) : List String :=
  production.symbols.flatMap fun
    | .L_HASH => ["Map"]
    | .L_LIST => ["List"]
    | .EACH => ["Map", "Iterator"]
    | _ => []

/-- The interfaces that a production brings in and does not import. -/
def Production.omits (production : Production) : List String :=
  if production.symbols.head? = some .VALUES then ["List"]
  else if production.symbols = [.LBRACE, .list, .RBRACE] then ["Map"]
  else []

end PerlJava.Perl

namespace PerlJava.Java

structure Spelling.Keeps (σ : Spelling) (name : String) : Prop where
  list : name = "List" → σ.names.list = Interfaces.java.list
  map : name = "Map" → σ.names.map = Interfaces.java.map
  iterator : name = "Iterator" → σ.names.iterator = Interfaces.java.iterator

theorem Spelling.Keeps.java (name : String) : Spelling.java.Keeps name :=
  ⟨fun _ => rfl, fun _ => rfl, fun _ => rfl⟩

/-- The interfaces that a production brings in have Java's names. -/
def Spelling.Keeping (σ : Spelling) (production : Perl.Production) : Prop :=
  ∀ name ∈ production.imports ++ production.omits, σ.Keeps name

theorem Spelling.Keeping.values {σ : Spelling} {name word : Perl.Symbol} {symbols : List Perl.Symbol}
    (keeps : σ.Keeping ⟨name, word :: symbols⟩) (values : word = .VALUES) : σ.Keeps "List" :=
  keeps "List" (by simp [Perl.Production.omits, values])

end PerlJava.Java

namespace PerlJava.Compile

open Java
open Perl (Symbol Production)

variable {σ : Spelling}

/-! ### The values of symbols -/

def statementSymbols : List Symbol :=
  [.special_statement, .statement_type, .statements, .block, .if_block, .elif, .elif_block]

def Value.Sound (σ : Spelling) (x : Symbol) : Value → Prop
  | .code c => c.Spelt σ ∧ (x ∉ statementSymbols → ∀ f ∈ c.flags, f.Calm)
  | .text word => x = .KEYS → word = "keys"
  | .access a => a.Spelt σ
  | .codes cs => ∀ c ∈ cs, c.IsExpression σ
  | .types shapes => ∀ shape ∈ shapes, shape.Spelt σ
  | .dims ds => ∀ d ∈ ds, d.Spelt σ
  | .package p => p.Spelt σ
  | .nothing | .token _ | .labels _ => True

section Values

variable {x : Symbol}

instance : Fact (Symbol.special_statement ∈ statementSymbols) := ⟨by decide⟩
instance : Fact (Symbol.statement_type ∈ statementSymbols) := ⟨by decide⟩
instance : Fact (Symbol.statements ∈ statementSymbols) := ⟨by decide⟩
instance : Fact (Symbol.block ∈ statementSymbols) := ⟨by decide⟩
instance : Fact (Symbol.if_block ∈ statementSymbols) := ⟨by decide⟩
instance : Fact (Symbol.elif ∈ statementSymbols) := ⟨by decide⟩
instance : Fact (Symbol.elif_block ∈ statementSymbols) := ⟨by decide⟩

instance : Fact (Symbol.expression ∉ statementSymbols) := ⟨by decide⟩
instance : Fact (Symbol.variable_ ∉ statementSymbols) := ⟨by decide⟩
instance : Fact (Symbol.for_variable ∉ statementSymbols) := ⟨by decide⟩
instance : Fact (Symbol.loop_head ∉ statementSymbols) := ⟨by decide⟩

instance {c : Fragment} [is : Fact (c.IsExpression σ)] : Fact ((Value.code c).Sound σ x) :=
  ⟨is.out.toSpelt, fun _ => is.out.calm⟩

instance (priority := low) {c : Fragment} [is : Fact (c.Spelt σ)]
    [statement : Fact (x ∈ statementSymbols)] : Fact ((Value.code c).Sound σ x) :=
  ⟨is.out, fun other => absurd statement.out other⟩

instance {a : Access} [is : Fact (a.Spelt σ)] : Fact ((Value.access a).Sound σ x) := is

instance {cs : List Fragment} [all : Fact (∀ c ∈ cs, c.IsExpression σ)] :
    Fact ((Value.codes cs).Sound σ x) := all

instance {shapes : List Shape} [all : Fact (∀ shape ∈ shapes, shape.Spelt σ)] :
    Fact ((Value.types shapes).Sound σ x) := all

instance {ds : List Dim} [all : Fact (∀ d ∈ ds, d.Spelt σ)] : Fact ((Value.dims ds).Sound σ x) := all

instance (p : {p : Package // p.Spelt σ}) : Fact ((Value.package p.1).Sound σ x) := ⟨p.2⟩

instance : Fact (Value.nothing.Sound σ x) := ⟨trivial⟩

instance {labels : List Label} : Fact ((Value.labels labels).Sound σ x) := ⟨trivial⟩

instance {text : String} : Fact ((Value.text text).Sound σ .file) := ⟨(nomatch ·)⟩
instance {text : String} : Fact ((Value.text text).Sound σ .function) := ⟨(nomatch ·)⟩
instance {text : String} : Fact ((Value.text text).Sound σ .function_body) := ⟨(nomatch ·)⟩

end Values

/-- The arguments of an action are sound as values of some symbols. -/
def Args.Sound (σ : Spelling) (symbols : List Symbol) (p : Args) : Prop :=
  ∀ i, p.value i = .nothing ∨ ∃ x, symbols[i - 1]? = some x ∧ (p.value i).Sound σ x

/-- The symbol with some number, counted from one. -/
class SymbolAt (symbols : List Symbol) (i : Nat) (x : outParam Symbol) : Prop where
  here : symbols[i - 1]? = some x

instance {x : Symbol} {xs : List Symbol} : SymbolAt (x :: xs) 1 x := ⟨rfl⟩

instance {x : Symbol} {xs : List Symbol} : SymbolAt (x :: xs) (0 + 1) x := ⟨rfl⟩

instance {x y : Symbol} {xs : List Symbol} {i : Nat} [rest : SymbolAt xs (i + 1) y] :
    SymbolAt (x :: xs) (i + 2) y := ⟨rest.here⟩

namespace Args.Sound

variable {symbols : List Symbol} {i : Nat} {x : Symbol}

theorem of_value {p : Args} (sound : p.Sound σ symbols) {v : Value} (value : p.value i = v)
    (there : v ≠ .nothing) : ∃ x, symbols[i - 1]? = some x ∧ v.Sound σ x := by
  subst value
  exact (sound i).resolve_left there

variable (p : {p : Args // p.Sound σ symbols})

instance (priority := low) : Statement σ fun _ => p.1.code i := by
  refine ⟨.made rfl fun c found => ?_⟩
  obtain ⟨x, -, is⟩ := p.2.of_value (code_eq_ok.1 found) nofun
  exact is.1

instance [at_ : SymbolAt symbols i x] [plain : Fact (x ∉ statementSymbols)] :
    Expression σ fun _ => p.1.code i := by
  refine ⟨.made rfl fun c found => ?_⟩
  obtain ⟨y, here, is⟩ := p.2.of_value (code_eq_ok.1 found) nofun
  obtain rfl := Option.some.inj (here.symm.trans at_.here)
  exact ⟨is.1, is.2 plain.out⟩

theorem access_ok {a : Access} (found : p.1.access i = .ok a) : a.Spelt σ := by
  obtain ⟨x, -, is⟩ := p.2.of_value (access_eq_ok.1 found) nofun
  exact is

instance : Yields σ (fun _ => p.1.access i) (·.Spelt σ) :=
  ⟨.made rfl fun _ => access_ok p⟩

theorem codes_ok {cs : List Fragment} (found : p.1.codes i = .ok cs) : ∀ c ∈ cs, c.IsExpression σ := by
  obtain ⟨x, -, is⟩ := p.2.of_value (codes_eq_ok.1 found) nofun
  exact is

instance : Yields σ (fun _ => p.1.codes i) fun cs => ∀ c ∈ cs, c.IsExpression σ :=
  ⟨.made rfl fun _ => codes_ok p⟩

instance : Fact (∀ shape ∈ p.1.types i, shape.Spelt σ) := by
  unfold Args.types
  split
  · next value =>
    obtain ⟨x, -, is⟩ := p.2.of_value value nofun
    exact ⟨is⟩
  · infer_instance

instance : Yields σ (fun _ => p.1.dims i) fun ds => ∀ d ∈ ds, d.Spelt σ := by
  refine ⟨.made rfl fun ds found => ?_⟩
  obtain ⟨x, -, is⟩ := p.2.of_value (dims_eq_ok.1 found) nofun
  exact is

instance : Yields σ (fun _ => p.1.package i) (·.Spelt σ) := by
  refine ⟨.made rfl fun q found => ?_⟩
  obtain ⟨x, -, is⟩ := p.2.of_value (package_eq_ok.1 found) nofun
  exact is

theorem text : Yields σ (fun _ => p.1.text i) fun word => symbols[i - 1]? = some .KEYS → word = "keys" := by
  refine ⟨.made rfl fun word found keys => ?_⟩
  obtain ⟨x, here, is⟩ := p.2.of_value (text_eq_ok.1 found) nofun
  exact is (Option.some.inj (here.symm.trans keys))

theorem passOn {name : Symbol} (here : symbols[i - 1]? = some x)
    (plain : x ∉ statementSymbols ∨ name ∈ statementSymbols) (word : name ≠ .KEYS) :
    (p.1.value i).Sound σ name := by
  obtain missing | ⟨y, there, is⟩ := p.2 i
  · rw [missing]
    trivial
  · obtain rfl := Option.some.inj (there.symm.trans here)
    cases value : p.1.value i with
    | code c =>
      rw [value] at is
      exact ⟨is.1, fun other => is.2 (plain.resolve_right other)⟩
    | text => exact fun keys => absurd keys word
    | nothing | token | labels => trivial
    | access | codes | types | dims | package => rwa [value] at is

end Args.Sound

instance {p : Args} {i : Nat} : Yields σ (fun _ => p.type i) fun type => type.isCollection = false := by
  refine ⟨.made rfl fun type found => ?_⟩
  obtain ⟨word, -, found⟩ := bind_eq_ok.1 found
  split at found
  · next labelled =>
    cases found
    unfold TypeName.ofLabel? at labelled
    split at labelled <;> cases labelled <;> rfl
  · cases found

/-! ### Actions that agree -/

theorem Concur.run {α : Type} {x y : Tidying α} {P : α → Prop} (concur : Concur σ x y P) :
    Concur σ x.run y.run P := by
  intro optimized s spelt
  change x.run s = y.run s ∧ ∀ a s', y.run s = .ok a s' → _
  unfold Tidying.run
  split
  · exact concur true s spelt
  · exact concur false s spelt

/-- Two actions of one production do the same with sound symbols, where the interfaces that the
production brings in have Java's names. -/
class Agree (σ : Spelling) (a b : Production × Action) : Prop where
  production : a.1 = b.1
  concur : σ.Keeping b.1 → ∀ args : Args, args.Sound σ b.1.symbols →
    Concur σ (a.2.run args) (b.2.run args) (·.Sound σ b.1.name)

abbrev AllAgree (σ : Spelling) (as bs : Actions) : Prop :=
  List.Forall₂ (Agree σ) as bs

theorem AllAgree.append {as bs as' bs' : Actions} (first : AllAgree σ as bs)
    (second : AllAgree σ as' bs') : AllAgree σ (as ++ as') (bs ++ bs') :=
  List.rel_append first second

theorem AllAgree.map {words : List Symbol} {f g : Symbol → Production × Action}
    (each : ∀ word ∈ words, Agree σ (f word) (g word)) : AllAgree σ (words.map f) (words.map g) :=
  List.forall₂_map_left_iff.2 (List.forall₂_map_right_iff.2 (List.forall₂_same.2 each))

namespace Agree

variable {name : Symbol} {symbols : List Symbol}

theorem ruleKeeping {f g : PlainAction}
    (same : σ.Keeping ⟨name, symbols⟩ → ∀ p : {p : Args // p.Sound σ symbols},
      Leads σ (f p) (g p) (·.Sound σ name)) :
    Agree σ (Compile.rule name symbols f) (Compile.rule name symbols g) where
  production := rfl
  concur keeps p sound := @Concur.lift Plain M _ _ _ _ _ σ _ _ _ _ _ (same keeps ⟨p, sound⟩).concur

theorem ofTidying {f g : Args → Tidying Value}
    (same : σ.Keeping ⟨name, symbols⟩ → ∀ p : {p : Args // p.Sound σ symbols},
      Leads σ (f p) (g p) (·.Sound σ name)) :
    Agree σ (Compile.ruleTidying name symbols f) (Compile.ruleTidying name symbols g) where
  production := rfl
  concur keeps p sound := (same keeps ⟨p, sound⟩).concur.run

theorem ofRule {f g : PlainAction}
    (same : ∀ p : {p : Args // p.Sound σ symbols}, Leads σ (f p) (g p) (·.Sound σ name)) :
    Agree σ (Compile.rule name symbols f) (Compile.rule name symbols g) :=
  .ruleKeeping fun _ => same

instance rule {f g : PlainAction}
    [same : ∀ p : {p : Args // p.Sound σ symbols}, Leads σ (f p) (g p) (·.Sound σ name)] :
    Agree σ (Compile.rule name symbols f) (Compile.rule name symbols g) :=
  .ofRule same

instance ruleTidying {f g : Args → Tidying Value}
    [same : ∀ p : {p : Args // p.Sound σ symbols}, Leads σ (f p) (g p) (·.Sound σ name)] :
    Agree σ (Compile.ruleTidying name symbols f) (Compile.ruleTidying name symbols g) :=
  .ofTidying fun _ => same

theorem ofWith {e : Effect} {f g : Args → M Value} {doesF : ∀ args, Enacts e (f args)}
    {doesG : ∀ args, Enacts e (g args)}
    (same : ∀ p : {p : Args // p.Sound σ symbols}, Leads σ (f p) (g p) (·.Sound σ name)) :
    Agree σ (Compile.ruleWith e name symbols f doesF) (Compile.ruleWith e name symbols g doesG) where
  production := rfl
  concur _ p sound := (same ⟨p, sound⟩).concur

instance ruleWith {e : Effect} {f g : Args → M Value} {doesF : ∀ args, Enacts e (f args)}
    {doesG : ∀ args, Enacts e (g args)}
    [same : ∀ p : {p : Args // p.Sound σ symbols}, Leads σ (f p) (g p) (·.Sound σ name)] :
    Agree σ (Compile.ruleWith e name symbols f doesF) (Compile.ruleWith e name symbols g doesG) :=
  .ofWith same

theorem passOn {i : Nat} {x : Symbol} (here : symbols[i - 1]? = some x := by rfl)
    (plain : x ∉ statementSymbols ∨ name ∈ statementSymbols := by decide)
    (word : name ≠ .KEYS := by decide) :
    Agree σ (Compile.rule name symbols (Compile.passOn i))
      (Compile.rule name symbols (Compile.passOn i)) :=
  .ofRule fun p => ⟨.pure (Args.Sound.passOn p here plain word)⟩

end Agree

instance {p : Args} {x : Symbol} : Leads σ (makeNothing p) (makeNothing p) (·.Sound σ x) :=
  ⟨.pure trivial⟩

/-! ### Expressions -/

section Expressions

variable {name : Symbol} {symbols : List Symbol} {p : {p : Args // p.Sound σ symbols}}

theorem agree_expressions : AllAgree σ expressionActions expressionActions := by
  unfold expressionActions parenthesised valueOf
  repeat first | refine .cons inferInstance ?_ | refine .cons .passOn ?_
  exact .nil

theorem agree_assignments : AllAgree σ (@assignmentActions σ.names) assignmentActions := by
  unfold assignmentActions change arithmetic division power concatenation repetition bitwise logical
    assignFromFile assignRead valueOf checkBoth asWhole Fragment.toWhole
  repeat refine .cons inferInstance ?_
  exact .nil

theorem agree_operators : AllAgree σ (@operatorActions σ.names) operatorActions := by
  unfold operatorActions binary binaryBy unary arithmetic division power concatenation repetition
    compareNumbers orderNumbers compareStrings smartMatch bitwise logical exclusive conditional
    opposite complement negation onRegex regexText interpolate checkBoth matching regexClass asWhole
    Fragment.toWhole
  repeat first | refine .cons inferInstance ?_ | refine .cons .passOn ?_
  exact .nil

theorem agree_sigils {before after : List Symbol} {f g : PlainAction}
    [same : ∀ sigil, ∀ p : {p : Args // p.Sound σ (before ++ sigil :: after)},
      Leads σ (f p) (g p) (·.Sound σ name)] :
    AllAgree σ (sigils name before after f) (sigils name before after g) :=
  .map fun sigil _ => .ofRule (same sigil)

theorem agree_variables : AllAgree σ (@variableActions σ.names) variableActions := by
  unfold variableActions element bracedReferent referent ownVariable packageVariable newOne
  repeat' first | with_reducible exact agree_sigils | with_reducible apply AllAgree.append
  repeat first | refine .cons inferInstance ?_ | refine .cons .passOn ?_
  refine .cons (.ofTidying fun keeps p => ?_) ?_
  · have : Fact ((Dim.plain .hash).Spelt σ) := ⟨by simp [Dim.is, Dim.name?], fun _ => (keeps "Map" (by decide)).map rfl⟩
    infer_instance
  repeat first | refine .cons inferInstance ?_ | refine .cons .passOn ?_
  exact .nil

instance {type : TypeName} [Fact (type.isCollection = false)] {text : String → Plain String}
    [same : ∀ word, Leads σ (text word) (text word) fun _ => True] :
    Leads σ (literal type text p) (literal type text p) (·.Sound σ name) := by
  unfold literal
  exact .next fun word => .after (.of (same word)) inferInstance

theorem agree_values : AllAgree σ valueActions valueActions := by
  unfold valueActions quotedText doubleQuotedText interpolate
  repeat refine .cons inferInstance ?_
  exact .nil

end Expressions

/-! ### Calls -/

section Calls

/-- What a call may rely on: its arguments are expressions, `keys` is called what it says, and
lists have Java's name where `values` is called. -/
structure CallSound (σ : Spelling) (word : Symbol) (call : NativeCall) : Prop where
  arguments : call.Sound σ
  keys : word = .KEYS → call.name = "keys"
  values : word = .VALUES → σ.Keeps "List"

def ConcurCalls (σ : Spelling) (words : List Symbol) (f g : NativeCall → Plain Fragment) : Prop :=
  ∀ word ∈ words, ∀ call : NativeCall, CallSound σ word call → Leads σ (f call) (g call) (·.IsExpression σ)

variable {f g : NativeCall → Plain Fragment} {words : List Symbol}

theorem ConcurCalls.parensOnly (same : ConcurCalls σ words f g) :
    AllAgree σ (parensOnly f words) (parensOnly g words) := by
  refine .map fun word member => .ruleKeeping fun keeps p => ?_
  refine .take (Args.Sound.text p) fun name => .next fun cs => .after (.of (same word member _ ?_)) inferInstance
  exact ⟨cs.2, fun keys => name.2 (keys ▸ rfl), keeps.values⟩

theorem ConcurCalls.bothForms (same : ConcurCalls σ words f g) :
    AllAgree σ (bothForms f words) (bothForms g words) := by
  refine .append same.parensOnly (.map fun word member => .ruleKeeping fun keeps p => ?_)
  refine .next fun c => .take (Args.Sound.text p) fun name => .after (.of (same word member _ ?_)) inferInstance
  exact ⟨List.forall_mem_singleton.2 c.2, fun keys => name.2 (keys ▸ rfl), keeps.values⟩

section

variable [same : ∀ call : {call : NativeCall // call.Sound σ}, Concurs σ (f call) (g call) (·.IsExpression σ)]

theorem ConcurCalls.of_sound : ConcurCalls σ words f g :=
  fun _ _ call sound => .last (same ⟨call, sound.arguments⟩)

theorem agree_parensOnly : AllAgree σ (parensOnly f words) (parensOnly g words) :=
  ConcurCalls.of_sound.parensOnly

theorem agree_bothForms : AllAgree σ (bothForms f words) (bothForms g words) :=
  ConcurCalls.of_sound.bothForms

end

instance (call : {call : NativeCall // call.Sound σ}) : Fact (call.1.Sound σ) := ⟨call.2⟩

theorem agree_printToFile : AllAgree σ (printToFile words) (printToFile words) :=
  .append (.map fun _ _ => inferInstance) (.map fun _ _ => inferInstance)

theorem concurCalls_keysOrValues :
    ConcurCalls σ [.KEYS, .VALUES] NativeCall.keysOrValues NativeCall.keysOrValues := by
  intro word member call sound
  have := Fact.mk sound.arguments
  have list : Fact (call.name ≠ "keys" → (Dim.plain .list).Spelt σ) := by
    refine ⟨fun other => ?_⟩
    have values : word = .VALUES := by
      obtain rfl | values := List.mem_cons.1 member
      · exact absurd (sound.keys rfl) other
      · exact List.mem_singleton.1 values
    exact ⟨fun _ => (sound.values values).list rfl, by simp [Dim.is, Dim.name?]⟩
  infer_instance

theorem agree_natives : AllAgree σ (@nativeActions σ.names) nativeActions := by
  unfold nativeActions
  repeat' first
    | with_reducible exact agree_parensOnly
    | with_reducible exact agree_bothForms
    | with_reducible exact agree_printToFile
    | with_reducible exact concurCalls_keysOrValues.bothForms
    | with_reducible apply AllAgree.append
  refine .cons (.ruleKeeping fun keeps p => ?_) ?_
  · have : Fact (NativeCall.EachSpelt σ) :=
      ⟨(keeps "Map" (by decide)).map rfl, (keeps "Iterator" (by decide)).iterator rfl⟩
    infer_instance
  repeat refine .cons inferInstance ?_
  exact .nil

instance : Fact (∀ p ∈ (none : Option Package), p.Spelt σ) := ⟨by simp⟩

instance (p : {p : Package // p.Spelt σ}) : Fact (∀ q ∈ some p.1, q.Spelt σ) := ⟨by simpa using p.2⟩

theorem agree_calls : AllAgree σ (@callActions σ.names) callActions := by
  unfold callActions
  repeat refine .cons inferInstance ?_
  exact .nil

end Calls

/-! ### Files, labels and jobs -/

section Declarations

instance {ds : List Dim} [all : Fact (∀ d ∈ ds, d.Spelt σ)] : Fact ((Shape.dims ds).Spelt σ) := all

instance {ds es : List Dim} [all : Fact (∀ d ∈ ds, d.Spelt σ)] [more : Fact (∀ d ∈ es, d.Spelt σ)] :
    Fact (∀ d ∈ ds ++ es, d.Spelt σ) := ⟨List.forall_mem_append.2 ⟨all.out, more.out⟩⟩

instance (ds : {ds : List Dim // ∀ d ∈ ds, d.Spelt σ}) : Fact (∀ d ∈ ds.1, d.Spelt σ) := ⟨ds.2⟩

instance : Fact ((Dim.sized .ref none).Spelt σ) := ⟨.of_not rfl rfl⟩

instance (type : {type : TypeName // type.isCollection = false}) : Fact (type.1.isCollection = false) :=
  ⟨type.2⟩

instance {type : TypeName} [plain : Fact (type.isCollection = false)] : Fact ((Dim.plain type).Spelt σ) :=
  ⟨Shape.spelt_scalar plain.out _ List.mem_cons_self⟩

instance {shapes more : List Shape} [all : Fact (∀ shape ∈ shapes, shape.Spelt σ)]
    [others : Fact (∀ shape ∈ more, shape.Spelt σ)] : Fact (∀ shape ∈ shapes ++ more, shape.Spelt σ) :=
  ⟨List.forall_mem_append.2 ⟨all.out, others.out⟩⟩

instance {shape : Shape} [is : Fact (shape.Spelt σ)] : Fact (∀ s ∈ [shape], s.Spelt σ) :=
  ⟨List.forall_mem_singleton.2 is.out⟩

theorem agree_files : AllAgree σ (@fileActions σ.names) fileActions := by
  unfold fileActions functionHead checkArguments
  repeat first | refine .cons inferInstance ?_ | refine .cons .passOn ?_
  refine .cons (.ofWith fun p => .next fun _ => .next fun _ => ⟨.pure ?_⟩) ?_
  · exact Args.Sound.passOn p rfl (.inl (by decide)) (by decide)
  repeat first | refine .cons inferInstance ?_ | refine .cons .passOn ?_
  exact .nil

instance {shape : Shape} [is : Fact (shape.Spelt σ)] {name : Symbol} :
    Leads σ (setLineType shape) (setLineType shape) (·.Sound σ name) := by
  unfold setLineType
  refine .after (.change (fun _ => .of_same rfl) fun s spelt => { spelt with lineType := ?_ }) inferInstance
  simpa using is.out

instance {labels : List Label} {name : Symbol} :
    Leads σ (setLineSizes labels) (setLineSizes labels) (·.Sound σ name) := by
  unfold setLineSizes
  exact .after (.changeOther fun _ => ⟨rfl, rfl⟩) inferInstance

theorem agree_dimension {type : TypeName} {need : Option String} {symbols : List Symbol}
    {before : Args → Except Fault (List Dim)} {size : Nat}
    (list : type = .list → "List" ∈ (⟨.dimension, symbols⟩ : Production).imports)
    (map : type = .hash → "Map" ∈ (⟨.dimension, symbols⟩ : Production).imports)
    (known : ∀ p : {p : Args // p.Sound σ symbols},
      Leads σ (before p) (before p) fun ds => ∀ d ∈ ds, d.Spelt σ) :
    Agree σ (rule .dimension symbols (dimension type need before size))
      (rule .dimension symbols (dimension type need before size)) := by
  refine .ruleKeeping fun keeps p => ?_
  have spelt : Fact ((Dim.sized type (p.1.text? size)).Spelt σ) := by
    refine ⟨fun isList => ?_, fun isHash => ?_⟩
    · have named : type = .list := by simpa [Dim.is, Dim.name?] using isList
      exact (keeps "List" (List.mem_append_left _ (list named))).list rfl
    · have named : type = .hash := by simpa [Dim.is, Dim.name?] using isHash
      exact (keeps "Map" (List.mem_append_left _ (map named))).map rfl
  have := Concurs.of (known p)
  unfold dimension
  cases need <;> infer_instance

theorem agree_labels : AllAgree σ labelActions labelActions := by
  unfold labelActions
  repeat first
    | refine .cons inferInstance ?_
    | refine .cons .passOn ?_
    | refine .cons (agree_dimension (by decide) (by decide) inferInstance) ?_
  exact .nil

theorem agree_jobs : AllAgree σ (@jobActions σ.names) jobActions := by
  have types {types : List TypeName} (all : ∀ type ∈ types, type.isCollection = false) :
      ∀ type ∈ types, (Shape.scalar type).Spelt σ := fun type member => Shape.spelt_scalar (all type member)
  have none : Fact (∀ list ∈ (none : Option (List TypeName)), ∀ type ∈ list, (Shape.scalar type).Spelt σ) :=
    ⟨by simp⟩
  unfold jobActions
  repeat refine .cons inferInstance ?_
  refine .cons (.ofRule fun _ => .next fun first => .next fun second => .next fun third => ?_) ?_
  · have : Fact (∀ list ∈ some [first.1, second.1, third.1], ∀ type ∈ list, (Shape.scalar type).Spelt σ) :=
      ⟨by simp [Shape.spelt_scalar, first.2, second.2, third.2]⟩
    infer_instance
  repeat refine .cons inferInstance ?_
  refine .cons (.ofRule fun _ => .next fun first => .next fun second => .next fun third => .next fun fourth =>
    .after (steady_changeJob fun _ is => ⟨?_, is.key, is.value⟩) inferInstance) ?_
  · simp [Shape.spelt_scalar, first.2, second.2, third.2, fourth.2]
  repeat refine .cons inferInstance ?_
  exact .nil

end Declarations

/-! ### Statements and blocks -/

section Statements

theorem agree_statements : AllAgree σ (@statementActions σ.names) statementActions := by
  unfold statementActions plainStatement finishStatement plainBlock mergeLevel
  repeat first
    | refine .cons inferInstance ?_
    | refine .cons .passOn ?_
    | refine .cons (.ofWith inferInstance) ?_
  refine .cons (.ofRule fun _ => .next fun _ => .after (.updateOther fun _ => ⟨rfl, rfl⟩) inferInstance) ?_
  repeat refine .cons inferInstance ?_
  refine .cons (.ofRule fun _ => .next fun exps => ?_) ?_
  · cases exps.1.getLast? <;> infer_instance
  repeat refine .cons inferInstance ?_
  exact .nil

theorem agree_blocks : AllAgree σ (@blockActions σ.names) blockActions := by
  unfold blockActions whileLoop untilLoop conditionalBlock forLoop repeatHead foreachLoop
    postfixControl freshLoopName doWhileLoop finishDoLoop mergeLevel ifBranch branch forText
    placeInitial finishLoopVariable assignTarget
  repeat first
    | refine .cons inferInstance ?_
    | refine .cons .passOn ?_
    | refine .cons (.ofWith inferInstance) ?_
  exact .nil

end Statements

theorem agree_all : AllAgree σ (@allActions σ.names) allActions := by
  unfold allActions
  exact .append (.append (.append (.append (.append (.append (.append (.append (.append (.append
    (.append agree_files agree_labels) agree_jobs) agree_statements) agree_blocks)
    agree_expressions) agree_assignments) agree_operators) agree_variables) agree_values)
    agree_natives) agree_calls

/-! ### Imports -/

theorem mem_imports {name : String} {u : Unit} {s s' : State}
    (run : (addImport name).run s = .ok u s') : name ∈ s'.imports := by
  cases run
  dsimp only
  split
  · next there => simpa using there
  · simp

theorem each_imports {targets : List Fragment} {a : Access} {c : Fragment} {s s' : State}
    (all : ∀ c ∈ targets, c.IsExpression σ) (is : a.Spelt σ)
    (run : (NativeCall.each targets a).run s = .ok c s') :
    "Map" ∈ s'.imports ∧ "Iterator" ∈ s'.imports := by
  obtain ⟨_, s₁, first, run⟩ := M.cut run
  obtain ⟨_, s₂, second, run⟩ := M.cut run
  have grown {α : Type} {x : Plain α} {P : α → Prop} {a : α} {s s' : State}
      (steady : Concurs .java x x P) (run : x.run s = .ok a s') : s.ImportedIn s' :=
    ((steady.concur true s (.java s)).2 _ s' run).2.1
  have : Fact (NativeCall.EachSpelt .java) := ⟨rfl, rfl⟩
  have : Fact (∀ c ∈ targets, c.IsExpression .java) := ⟨fun c member => (all c member).java⟩
  have : Fact (a.Spelt .java) := ⟨is.java⟩
  have more := grown (inferInstance : Expression .java fun _ => NativeCall.nextPair targets a) run
  have fewer := grown (inferInstance : Steady .java fun _ => addImport "Iterator") second
  exact ⟨more.imports (fewer.imports (mem_imports first)), more.imports (mem_imports second)⟩

theorem dimension_imports {type : TypeName} {need : String} {before : Args → Except Fault (List Dim)}
    {size : Nat} {p : Args} {s s' : State} {v : Value}
    (run : (dimension type (some need) before size p).run s = .ok v s') : need ∈ s'.imports := by
  obtain ⟨_, s₁, asked, run⟩ := M.cut run
  obtain ⟨ds, s₂, found, ⟨⟩⟩ := M.cut run
  obtain ⟨-, rfl⟩ := Plain.lift_eq_ok.1 found
  exact mem_imports asked

set_option maxRecDepth 10000 in
/-- Few productions bring in interfaces that they import. -/
theorem importing_actions : allActions.filter (!·.1.imports.isEmpty) = [
    rule .dimension [.L_HASH, .size_opt] (dimension .hash (some "Map") (fun _ => .ok []) 2),
    rule .dimension [.L_LIST, .size_opt] (dimension .list (some "List") (fun _ => .ok []) 2),
    rule .dimension [.dimension, .L_HASH, .size_opt] (dimension .hash (some "Map") (·.dims 1) 3),
    rule .dimension [.dimension, .L_LIST, .size_opt] (dimension .list (some "List") (·.dims 1) 3),
    rule .function_call [.LPAREN, .list, .RPAREN, .EQUALS, .EACH, .var_access] fun p =>
      return .code (← NativeCall.each (← p.codes 2) (← p.access 6))] := rfl

/-- A production imports the interfaces that it brings in, apart from those that it omits. -/
theorem mem_imports_of_run {production : Production} {action : Action} {args : Args} {s s' : State}
    {v : Value} (listed : allActions.lookup production = some action)
    (sound : args.Sound σ production.symbols) (run : action.run args s = .ok v s') {name : String}
    (brought : name ∈ production.imports) : name ∈ s'.imports := by
  have member : (production, action) ∈ allActions.filter (!·.1.imports.isEmpty) := by
    obtain ⟨front, back, all, -⟩ := List.lookup_eq_some_iff.1 listed
    refine List.mem_filter.2 ⟨by simp [all], ?_⟩
    simpa using List.ne_nil_of_mem brought
  rw [importing_actions] at member
  simp only [List.mem_cons, List.not_mem_nil, or_false] at member
  obtain is | is | is | is | is := member <;> cases is <;> dsimp only at run
  · exact List.mem_singleton.1 brought ▸ dimension_imports run
  · exact List.mem_singleton.1 brought ▸ dimension_imports run
  · exact List.mem_singleton.1 brought ▸ dimension_imports run
  · exact List.mem_singleton.1 brought ▸ dimension_imports run
  · obtain ⟨targets, s₁, first, run⟩ := M.cut run
    obtain ⟨a, s₂, second, run⟩ := M.cut run
    obtain ⟨c, s₃, made, ⟨⟩⟩ := M.cut run
    obtain ⟨targets, -⟩ := Plain.lift_eq_ok.1 first
    obtain ⟨a, -⟩ := Plain.lift_eq_ok.1 second
    obtain ⟨map, iterator⟩ := each_imports (Args.Sound.codes_ok ⟨args, sound⟩ targets)
      (Args.Sound.access_ok ⟨args, sound⟩ a) made
    have brought : name ∈ ["Map", "Iterator"] := brought
    obtain rfl | brought := List.mem_cons.1 brought
    · exact map
    · exact List.mem_singleton.1 brought ▸ iterator

end PerlJava.Compile
