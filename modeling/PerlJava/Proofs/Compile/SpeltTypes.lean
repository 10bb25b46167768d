import Mathlib.Logic.Basic
import PerlJava.Compile.Tidying
import PerlJava.Proofs.Compile.StepLogic

/-!
# Types by other names

Generated code means the interfaces of collections by their names. A type is spelt by other names as
by Java's own if it has no collection whose name differs, and so it is with all types that a state
knows. Two steps concur if they do the same in every such state, lead to another one, drop no import
and have results of some kind: as a rule one of them prints types by other names than the other.
Steps that concur are put together along the definition of a step.
-/

namespace PerlJava.Java

/-! ### What is spelt the same -/

/-- Names of the interfaces, which need not be those in use. -/
structure Spelling where
  names : Interfaces

def Spelling.java : Spelling :=
  ⟨Interfaces.java⟩

def Dim.Spelt (σ : Spelling) (d : Dim) : Prop :=
  (d.is .list = true → σ.names.list = Interfaces.java.list)
    ∧ (d.is .hash = true → σ.names.map = Interfaces.java.map)

/-- All collections of a type have the names that Java has for them. -/
def Shape.Spelt (σ : Spelling) : Shape → Prop
  | .unset | .word _ => True
  | .dims ds => ∀ d ∈ ds, d.Spelt σ

variable {σ : Spelling}

theorem Dim.Spelt.java (d : Dim) : d.Spelt .java :=
  ⟨fun _ => rfl, fun _ => rfl⟩

theorem Dim.Spelt.of_not {d : Dim} (list : d.is .list = false) (hash : d.is .hash = false) :
    d.Spelt σ :=
  ⟨fun is => absurd is (by simp [list]), fun is => absurd is (by simp [hash])⟩

theorem Dim.Spelt.of_name {d e : Dim} (spelt : d.Spelt σ) (same : e.name? = d.name?) : e.Spelt σ := by
  simpa only [Dim.Spelt, Dim.is, same] using spelt

theorem printDims_spelt {ds : List Dim} (spelt : ∀ d ∈ ds, d.Spelt σ) :
    @printDims σ.names ds = printDims ds := by
  induction ds with
  | nil => rfl
  | cons d rest ih =>
    obtain ⟨list, hash⟩ := spelt d List.mem_cons_self
    have same := ih fun d member => spelt d (List.mem_cons_of_mem _ member)
    change (@printDims σ.names rest >>= _) = (printDims rest >>= _)
    rw [same]
    congr
    funext inner
    split
    · rfl
    · next name => rw [list (by simp [Dim.is, name])]
    · next name => rw [hash (by simp [Dim.is, name])]
    · rfl
    · rfl

namespace Shape

theorem Spelt.java (s : Shape) : s.Spelt .java := by
  cases s with
  | unset | word => trivial
  | dims ds => exact fun d _ => .java d

theorem Spelt.parts {s : Shape} (spelt : s.Spelt σ) {ds : List Dim} (parts : s.parts = .ok ds) :
    ∀ d ∈ ds, d.Spelt σ := by
  cases s with
  | unset => cases parts
  | word letters =>
    cases parts
    intro d member
    obtain ⟨c, -, rfl⟩ := List.mem_map.1 member
    exact .of_not rfl rfl
  | dims ds =>
    cases parts
    exact spelt

theorem Spelt.head {s : Shape} (spelt : s.Spelt σ) {d : Dim} (head : s.head = .ok d) : d.Spelt σ := by
  unfold Shape.head Shape.at_ at head
  obtain ⟨ds, parts, head⟩ := bind_eq_ok.1 head
  split at head
  · next found =>
    cases head
    exact spelt.parts parts _ (List.mem_of_getElem? found)
  · cases head

theorem spelt_scalar {name : TypeName} (plain : name.isCollection = false) :
    (Shape.scalar name).Spelt σ := by
  intro d member
  obtain rfl := List.mem_singleton.1 member
  cases name with
  | hash | list => cases plain
  | _ => exact .of_not rfl rfl

theorem Spelt.tail {s t : Shape} (spelt : s.Spelt σ) (made : s.tail = .ok t) : t.Spelt σ := by
  cases s with
  | unset => cases made
  | word letters =>
    cases made
    trivial
  | dims ds =>
    cases made
    exact fun d member => spelt d (List.mem_of_mem_drop member)

theorem Spelt.copy {s t : Shape} (spelt : s.Spelt σ) (made : s.copy = .ok t) : t.Spelt σ := by
  cases s <;> cases made <;> exact spelt

theorem Spelt.within {s t : Shape} {outer : List Dim} (spelt : s.Spelt σ)
    (around : ∀ d ∈ outer, d.Spelt σ) (made : s.within outer = .ok t) : t.Spelt σ := by
  cases s with
  | unset | word => cases made
  | dims ds =>
    cases made
    intro d member
    exact (List.mem_append.1 member).elim (around d) (spelt d)

theorem javaText_spelt {s : Shape} (spelt : s.Spelt σ) : @javaText σ.names s = s.javaText := by
  unfold javaText
  cases parts : s.parts with
  | error f => rfl
  | ok ds => exact printDims_spelt (spelt.parts parts)

theorem arrayText_spelt {whole ds : List Dim} (spelt : ∀ d ∈ ds, d.Spelt σ) :
    @arrayText σ.names whole ds = arrayText whole ds := by
  induction ds with
  | nil => rfl
  | cons d rest ih =>
    obtain ⟨-, hash⟩ := spelt d List.mem_cons_self
    have same := ih fun d member => spelt d (List.mem_cons_of_mem _ member)
    unfold arrayText
    rw [same]
    split
    · rfl
    · next name => rw [hash (by simp [Dim.is, name])]
    · rfl
    · rfl

theorem creation_spelt {s : Shape} (spelt : s.Spelt σ) (sizes : List (Option String)) :
    @creation σ.names s sizes = s.creation sizes := by
  unfold creation
  cases parts : s.parts with
  | error f => rfl
  | ok ds =>
    have all := spelt.parts parts
    have inner := printDims_spelt fun d member => all d (List.mem_of_mem_drop (i := 1) member)
    change (s.head >>= fun head => _) = (s.head >>= fun head => _)
    rw [inner, arrayText_spelt all]

end Shape

/-- A fragment has types that are spelt the same. -/
structure Fragment.Spelt (σ : Spelling) (c : Fragment) : Prop where
  shape : c.shape.Spelt σ
  results : ∀ r ∈ c.results, r.Spelt σ

/-- A mark that says nothing about where the code may be left. -/
def Flag.Calm (f : Flag) : Prop :=
  f ≠ .next ∧ f ≠ .last ∧ f ≠ .returns

/-- A fragment that may be an expression: its types are spelt the same, and no mark says that the code
may be left. -/
structure Fragment.IsExpression (σ : Spelling) (c : Fragment) : Prop extends c.Spelt σ where
  calm : ∀ f ∈ c.flags, f.Calm

/-- All marks are calm, whatever the names are. -/
def Flag.AllCalm (_ : Spelling) (flags : List Flag) : Prop :=
  ∀ f ∈ flags, f.Calm

/-- What may be an expression by other names may be one by Java's. -/
theorem Fragment.IsExpression.java {c : Fragment} (is : c.IsExpression σ) : c.IsExpression .java :=
  ⟨⟨.java _, fun _ _ => .java _⟩, is.calm⟩

/-- A way to a place has types that are spelt the same. -/
structure Access.Spelt (σ : Spelling) (a : Access) : Prop where
  base : a.base.IsExpression σ
  shape : a.shape.Spelt σ

theorem Access.Spelt.java {a : Access} (is : a.Spelt σ) : a.Spelt .java :=
  ⟨is.base.java, .java _⟩

/-! ### What is known by how things are made -/

section Facts

variable {shape : Shape} {c : Fragment} {a : Access}

instance fact_true : Fact True := ⟨trivial⟩

instance fact_and {p q : Prop} [first : Fact p] [second : Fact q] : Fact (p ∧ q) :=
  ⟨first.out, second.out⟩

instance : Fact (TypeName.boolean.isCollection = false) := ⟨rfl⟩
instance : Fact (TypeName.integer.isCollection = false) := ⟨rfl⟩
instance : Fact (TypeName.long.isCollection = false) := ⟨rfl⟩
instance : Fact (TypeName.float.isCollection = false) := ⟨rfl⟩
instance : Fact (TypeName.double.isCollection = false) := ⟨rfl⟩
instance : Fact (TypeName.string.isCollection = false) := ⟨rfl⟩
instance : Fact (TypeName.none.isCollection = false) := ⟨rfl⟩
instance : Fact (TypeName.void.isCollection = false) := ⟨rfl⟩

instance : Fact (∀ name ∈ (none : Option TypeName), name.isCollection = false) := ⟨by simp⟩

instance {name : TypeName} [plain : Fact (name.isCollection = false)] :
    Fact (∀ other ∈ some name, other.isCollection = false) := ⟨by simpa using plain.out⟩

instance {p : Prop} [Decidable p] {name other : TypeName} [is : Fact (name.isCollection = false)]
    [isOther : Fact (other.isCollection = false)] :
    Fact ((if p then name else other).isCollection = false) := by
  split
  · exact is
  · exact isOther

instance : Fact ((Dim.plain .ref).Spelt σ) := ⟨.of_not rfl rfl⟩
instance : Fact ((Dim.plain .array).Spelt σ) := ⟨.of_not rfl rfl⟩
instance : Fact ((Dim.sized .array none).Spelt σ) := ⟨.of_not rfl rfl⟩

instance : Fact (∀ d ∈ ([] : List Dim), d.Spelt σ) := ⟨by simp⟩

instance {d : Dim} {ds : List Dim} [is : Fact (d.Spelt σ)] [all : Fact (∀ d ∈ ds, d.Spelt σ)] :
    Fact (∀ e ∈ d :: ds, e.Spelt σ) := ⟨List.forall_mem_cons.2 ⟨is.out, all.out⟩⟩

instance : Fact (Shape.unset.Spelt σ) := ⟨trivial⟩
instance {letters : List Char} : Fact ((Shape.word letters).Spelt σ) := ⟨trivial⟩

instance : Fact ((Shape.ofNames [.array, .string]).Spelt σ) :=
  ⟨by simp [Shape.ofNames, Shape.Spelt, Dim.Spelt, Dim.is, Dim.name?]⟩

instance {name : TypeName} [plain : Fact (name.isCollection = false)] :
    Fact ((Shape.scalar name).Spelt σ) := ⟨Shape.spelt_scalar plain.out⟩

instance {p : Prop} [Decidable p] {other : Shape} [is : Fact (shape.Spelt σ)]
    [isOther : Fact (other.Spelt σ)] : Fact ((if p then shape else other).Spelt σ) := by
  split
  · exact is
  · exact isOther

instance {result : Option TypeName} [plain : Fact (∀ name ∈ result, name.isCollection = false)]
    [is : Fact (shape.Spelt σ)] : Fact ((result.elim shape .scalar).Spelt σ) := by
  cases result with
  | none => exact is
  | some name => exact ⟨Shape.spelt_scalar (plain.out name rfl)⟩

instance (shape : {shape : Shape // shape.Spelt σ}) : Fact (shape.1.Spelt σ) := ⟨shape.2⟩
instance [is : Fact (shape.Spelt σ)] (s : {s // s = shape}) : Fact (s.1.Spelt σ) :=
  ⟨by rw [s.2]; exact is.out⟩

instance (c : {c : Fragment // c.Spelt σ}) : Fact (c.1.Spelt σ) := ⟨c.2⟩
instance (c : {c : Fragment // c.IsExpression σ}) : Fact (c.1.IsExpression σ) := ⟨c.2⟩
instance (a : {a : Access // a.Spelt σ}) : Fact (a.1.Spelt σ) := ⟨a.2⟩

instance {α : Type} (r : {r : α × Fragment // r.2.IsExpression σ}) : Fact (r.1.2.IsExpression σ) := ⟨r.2⟩

instance {α : Type} (r : {r : Fragment × α // r.1.IsExpression σ}) : Fact (r.1.1.IsExpression σ) := ⟨r.2⟩

instance [is : Fact (c.IsExpression σ)] (d : {d // d = c}) : Fact (d.1.IsExpression σ) :=
  ⟨by rw [d.2]; exact is.out⟩

instance [is : Fact (c.Spelt σ)] (d : {d // d = c}) : Fact (d.1.Spelt σ) :=
  ⟨by rw [d.2]; exact is.out⟩

section

variable {cs ds : List Fragment} [all : Fact (∀ c ∈ cs, c.IsExpression σ)]

instance (c : {c // c ∈ cs}) : Fact (c.1.IsExpression σ) := ⟨all.out _ c.2⟩

instance : Fact (∀ c ∈ ([] : List Fragment), c.IsExpression σ) := ⟨by simp⟩

instance [is : Fact (c.IsExpression σ)] : Fact (∀ d ∈ c :: cs, d.IsExpression σ) :=
  ⟨List.forall_mem_cons.2 ⟨is.out, all.out⟩⟩

instance [more : Fact (∀ c ∈ ds, c.IsExpression σ)] : Fact (∀ c ∈ cs ++ ds, c.IsExpression σ) :=
  ⟨List.forall_mem_append.2 ⟨all.out, more.out⟩⟩

instance {p : Prop} [Decidable p] [more : Fact (∀ c ∈ ds, c.IsExpression σ)] :
    Fact (∀ c ∈ if p then cs else ds, c.IsExpression σ) := by
  split
  · exact all
  · exact more

instance (cs : {cs : List Fragment // ∀ c ∈ cs, c.IsExpression σ}) :
    Fact (∀ c ∈ cs.1, c.IsExpression σ) := ⟨cs.2⟩

instance (r : {r : Fragment × List Fragment // r.1.IsExpression σ ∧ ∀ c ∈ r.2, c.IsExpression σ}) :
    Fact (r.1.1.IsExpression σ) := ⟨r.2.1⟩

instance (r : {r : Fragment × List Fragment // r.1.IsExpression σ ∧ ∀ c ∈ r.2, c.IsExpression σ}) :
    Fact (∀ c ∈ r.1.2, c.IsExpression σ) := ⟨r.2.2⟩

end

instance : Fact (∀ shape ∈ ([] : List Shape), shape.Spelt σ) := ⟨by simp⟩

instance : Fact Flag.statement.Calm := ⟨by simp [Flag.Calm]⟩
instance : Fact Flag.variable_.Calm := ⟨by simp [Flag.Calm]⟩

instance : Fact (Flag.AllCalm σ []) := ⟨by simp [Flag.AllCalm]⟩

instance : Fact (Flag.AllCalm σ [.statement]) := ⟨by simp [Flag.AllCalm, Flag.Calm]⟩

instance {flags more : List Flag} [first : Fact (Flag.AllCalm σ flags)]
    [second : Fact (Flag.AllCalm σ more)] : Fact (Flag.AllCalm σ (Flag.union flags more)) :=
  ⟨fun f member => (Flag.mem_union.1 member).elim (first.out f) (second.out f)⟩

instance {flags : List Flag} {p : Flag → Bool} [calm : Fact (Flag.AllCalm σ flags)] :
    Fact (Flag.AllCalm σ (flags.filter p)) := ⟨fun f member => calm.out f (List.mem_filter.1 member).1⟩

instance [is : Fact (c.IsExpression σ)] : Fact (c.Spelt σ) := ⟨is.out.toSpelt⟩

instance [is : Fact (c.IsExpression σ)] : Fact (Flag.AllCalm σ c.flags) := ⟨is.out.calm⟩

instance [is : Fact (c.Spelt σ)] : Fact (c.shape.Spelt σ) := ⟨is.out.shape⟩

instance [is : Fact (c.Spelt σ)] : Fact (∀ shape ∈ c.results, shape.Spelt σ) := ⟨is.out.results⟩

instance {value statement condition results declares variable_ position flags assigned ref slot bare}
    [known : Fact (shape.Spelt σ)] [all : Fact (∀ shape ∈ results, shape.Spelt σ)] :
    Fact (Fragment.Spelt σ ⟨value, shape, statement, condition, results, declares, variable_,
      position, flags, assigned, ref, slot, bare⟩) :=
  ⟨⟨known.out, all.out⟩⟩

instance {value statement condition results declares variable_ position flags assigned ref slot bare}
    [known : Fact (shape.Spelt σ)] [all : Fact (∀ shape ∈ results, shape.Spelt σ)]
    [calm : Fact (Flag.AllCalm σ flags)] :
    Fact (Fragment.IsExpression σ ⟨value, shape, statement, condition, results, declares, variable_,
      position, flags, assigned, ref, slot, bare⟩) :=
  ⟨⟨⟨known.out, all.out⟩, calm.out⟩⟩

instance [is : Fact (a.Spelt σ)] : Fact (a.base.IsExpression σ) := ⟨is.out.base⟩

instance [is : Fact (a.Spelt σ)] : Fact (a.shape.Spelt σ) := ⟨is.out.shape⟩

instance {value position read store close declares ref} [is : Fact (c.IsExpression σ)]
    [known : Fact (shape.Spelt σ)] :
    Fact (Access.Spelt σ ⟨c, value, shape, position, read, store, close, declares, ref⟩) :=
  ⟨⟨is.out, known.out⟩⟩

instance {p : Prop} [Decidable p] {d : Fragment} [is : Fact (c.IsExpression σ)]
    [other : Fact (d.IsExpression σ)] : Fact ((if p then c else d).IsExpression σ) := by
  split
  · exact is
  · exact other

instance [is : Fact (c.IsExpression σ)] : Fact (c.stripParens.IsExpression σ) := by
  unfold Fragment.stripParens
  split <;> infer_instance

instance {f : Flag} [calm : Fact f.Calm] [is : Fact (c.IsExpression σ)] :
    Fact ((c.mark f).IsExpression σ) := by
  refine ⟨⟨⟨is.out.shape, is.out.results⟩, fun g member => ?_⟩⟩
  obtain old | rfl := Flag.mem_insert_iff.1 member
  · exact is.out.calm g old
  · exact calm.out

end Facts

end PerlJava.Java

namespace PerlJava.Compile

open Java

/-- The types of a variable are spelt the same. -/
structure Variable.Spelt (σ : Spelling) (v : Variable) : Prop where
  shape : v.shape.Spelt σ
  elements : ∀ shapes ∈ v.elements, ∀ shape ∈ shapes, shape.Spelt σ

/-- The types of a function are spelt the same. -/
structure Function.Spelt (σ : Spelling) (f : Function) : Prop where
  arguments : ∀ shape ∈ f.arguments, shape.Spelt σ
  results : ∀ shape ∈ f.results, shape.Spelt σ

def Package.Spelt (σ : Spelling) (p : Package) : Prop :=
  ∀ entry ∈ p.functions.entries, entry.2.Spelt σ

/-- All types that outlive a file are spelt the same. -/
structure Session.Spelt (σ : Spelling) (s : Session) : Prop where
  vars : ∀ v ∈ s.vars, v.Spelt σ
  pending : ∀ p ∈ s.pending, p.shape.Spelt σ
  packages : ∀ entry ∈ s.packages.entries, entry.2.Spelt σ

structure Job.Spelt (σ : Spelling) (job : Job) : Prop where
  types : ∀ type ∈ job.types, (Shape.scalar type).Spelt σ
  key : ∀ key ∈ job.key, key.2.Spelt σ
  value : ∀ value ∈ job.value, value.2.Spelt σ

structure State.Spelt (σ : Spelling) (s : State) : Prop extends s.toSession.Spelt σ where
  declaredTypes : ∀ entry ∈ s.declaredTypes.entries, entry.2.shape.Spelt σ
  lineType : ∀ shape ∈ s.lineType, shape.Spelt σ
  functions : ∀ entry ∈ s.functions.entries, entry.2.Spelt σ
  currentFunction : ∀ f ∈ s.currentFunction, f.Spelt σ
  job : s.job.Spelt σ

theorem Function.Spelt.java (f : Function) : f.Spelt .java :=
  ⟨fun _ _ => .java _, fun _ _ => .java _⟩

theorem State.Spelt.java (s : State) : s.Spelt .java where
  vars _ _ := ⟨.java _, fun _ _ _ _ => .java _⟩
  pending _ _ := .java _
  packages _ _ _ _ := .java _
  declaredTypes _ _ := .java _
  lineType _ _ := .java _
  functions _ _ := .java _
  currentFunction _ _ := .java _
  job := ⟨fun _ _ => .java _, fun _ _ => .java _, fun _ _ => .java _⟩

/-! ### Steps that concur -/

/-- Steps of some kind, by what they do where code is optimised and where it is not. -/
class Steps (m : Type → Type) [Monad m] where
  act {α : Type} : Bool → m α → M α
  act_pure {α : Type} (optimized : Bool) (a : α) : act optimized (pure a : m α) = pure a
  act_bind {α β : Type} (optimized : Bool) (x : m α) (f : α → m β) :
    act optimized (x >>= f) = act optimized x >>= fun a => act optimized (f a)

instance : Steps M where
  act _ x := x
  act_pure _ _ := rfl
  act_bind _ _ _ := rfl

instance : Steps Plain where
  act _ x := x.run
  act_pure _ _ := rfl
  act_bind _ _ _ := rfl

instance : Steps Tidying where
  act
    | true, x => x.on.run
    | false, x => x.off.run
  act_pure optimized _ := by cases optimized <;> rfl
  act_bind optimized _ _ := by cases optimized <;> rfl

instance : Steps (Except Fault) where
  act _ x := (liftM x : Plain _).run
  act_pure _ _ := rfl
  act_bind _ x _ := by cases x <;> rfl

/-- Steps of one kind are taken for steps of another that do the same. -/
class Lifts (m n : Type → Type) [Monad m] [Monad n] [Steps m] [Steps n] [MonadLiftT m n] : Prop where
  act_lift {α : Type} (optimized : Bool) (x : m α) :
    Steps.act optimized (liftM x : n α) = Steps.act optimized x

instance : Lifts (Except Fault) Plain := ⟨fun _ _ => rfl⟩

instance : Lifts (Except Fault) M := ⟨fun _ _ => rfl⟩

instance : Lifts (Except Fault) Tidying := ⟨fun optimized _ => by cases optimized <;> rfl⟩

instance : Lifts Plain M := ⟨fun _ _ => rfl⟩

instance : Lifts Plain Tidying := ⟨fun optimized _ => by cases optimized <;> rfl⟩

variable {m n : Type → Type} [Monad m] [Steps m] [Monad n] [Steps n] {α β : Type}

def State.importing (s : State) :=
  (s.imports, s.importPaths)

/-- No import of the first state is dropped in the second one, and they have their paths. -/
structure State.ImportedIn (s s' : State) : Prop where
  imports : s.imports ⊆ s'.imports
  paths : s'.importPaths = s.importPaths

theorem State.ImportedIn.of_same {s s' : State} (same : s'.importing = s.importing) :
    s.ImportedIn s' := by
  obtain ⟨imports, paths⟩ := Prod.mk.inj same
  exact ⟨imports ▸ List.Subset.refl _, paths⟩

theorem State.ImportedIn.trans {s s₁ s' : State} (first : s.ImportedIn s₁)
    (second : s₁.ImportedIn s') : s.ImportedIn s' :=
  ⟨List.Subset.trans first.imports second.imports, second.paths.trans first.paths⟩

/-- Where the types that a state knows are spelt the same, two steps do the same; and where they
succeed, this is so again, no import is dropped, and the result is as wanted. -/
def Concur (σ : Spelling) (x y : m α) (wanted : α → Prop) : Prop :=
  ∀ (optimized : Bool) (s : State), s.Spelt σ →
    Steps.act optimized x s = Steps.act optimized y s ∧ ∀ a s', Steps.act optimized y s = .ok a s' →
      s'.Spelt σ ∧ s.ImportedIn s' ∧ wanted a

namespace Concur

variable {σ : Spelling} {x y : m α} {f g : α → m β} {P Q : α → Prop} {R : β → Prop}

theorem pure {a : α} (is : P a) : Concur σ (Pure.pure a : m α) (Pure.pure a) P := by
  intro optimized s spelt
  rw [Steps.act_pure]
  refine ⟨rfl, ?_⟩
  rintro _ _ ⟨⟩
  exact ⟨spelt, .of_same rfl, is⟩

theorem bind (first : Concur σ x y P) (second : ∀ a, P a → Concur σ (f a) (g a) R) :
    Concur σ (x >>= f) (y >>= g) R := by
  intro optimized s spelt
  obtain ⟨same, after⟩ := first optimized s spelt
  rw [Steps.act_bind, Steps.act_bind, M.bind_apply, M.bind_apply, same]
  cases ran : Steps.act optimized y s with
  | error stop s' => exact ⟨rfl, by rintro _ _ ⟨⟩⟩
  | ok a s₁ =>
    obtain ⟨spelt, grown, is⟩ := after a s₁ ran
    obtain ⟨same, after⟩ := second a is optimized s₁ spelt
    refine ⟨same, fun b s' ran => ?_⟩
    obtain ⟨spelt, more, is⟩ := after b s' ran
    exact ⟨spelt, grown.trans more, is⟩

theorem mono (concur : Concur σ x y P) (weaker : ∀ a, P a → Q a) : Concur σ x y Q := by
  intro optimized s spelt
  obtain ⟨same, after⟩ := concur optimized s spelt
  refine ⟨same, fun a s' ran => ?_⟩
  obtain ⟨spelt, grown, is⟩ := after a s' ran
  exact ⟨spelt, grown, weaker a is⟩

theorem lift [MonadLiftT m n] [Lifts m n] (concur : Concur σ x y P) :
    Concur σ (liftM x : n α) (liftM y : n α) P := by
  intro optimized s spelt
  rw [Lifts.act_lift, Lifts.act_lift]
  exact concur optimized s spelt

theorem made {x y : Except Fault α} (same : x = y) (is : ∀ a, y = .ok a → P a) : Concur σ x y P := by
  subst same
  intro optimized s spelt
  refine ⟨rfl, fun a s' ran => ?_⟩
  obtain ⟨made, rfl⟩ := Plain.lift_eq_ok.1 ran
  exact ⟨spelt, .of_same rfl, is a made⟩

end Concur

/-- What is known of two steps that concur: it is found by their functions. -/
class Concurs (σ : Spelling) (x y : m α) (wanted : outParam (α → Prop)) : Prop where
  concur : Concur σ x y wanted

/-- Steps concur, with a result that is wanted, by what is known of their parts. -/
class Leads (σ : Spelling) (x y : m α) (wanted : α → Prop) : Prop where
  concur : Concur σ x y wanted

/-- A step that is the same by all names, and whose results are of some kind. -/
abbrev Yields (σ : Spelling) (x : Interfaces → m α) (wanted : α → Prop) : Prop :=
  Concurs σ (x σ.names) (x .java) wanted

abbrev Steady (σ : Spelling) (x : Interfaces → m α) : Prop :=
  Yields σ x fun _ => True

/-- A step that makes expressions by all names. -/
abbrev Expression (σ : Spelling) (x : Interfaces → m Fragment) : Prop :=
  Yields σ x (·.IsExpression σ)

/-- A step that makes code of types that are spelt the same, by all names. -/
abbrev Statement (σ : Spelling) (x : Interfaces → m Fragment) : Prop :=
  Yields σ x (·.Spelt σ)

/-- What holds after a round of a loop, whether it is the last one or not. -/
def Ends (P : β → Prop) (step : ForInStep β) : Prop :=
  P step.value

instance {P : β → Prop} {b : β} [is : Fact (P b)] : Fact (Ends P (.yield b)) := ⟨is.out⟩

section Parts

variable {σ : Spelling} {x y : m α} {f g : α → m β} {P Q : α → Prop} {R : β → Prop}

namespace Leads

instance pure {a : α} [is : Fact (P a)] : Leads σ (Pure.pure a : m α) (Pure.pure a) P :=
  ⟨.pure is.out⟩

theorem after (first : Concurs σ x y P) (second : ∀ a : Subtype P, Leads σ (f a) (g a) R) :
    Leads σ (x >>= f) (y >>= g) R :=
  ⟨first.concur.bind fun a is => (second ⟨a, is⟩).concur⟩

theorem next [first : Concurs σ x y P] (second : ∀ a : Subtype P, Leads σ (f a) (g a) R) :
    Leads σ (x >>= f) (y >>= g) R :=
  .after first second

theorem take [MonadLiftT m n] [Lifts m n] {f g : α → n β} (first : Concurs σ x y P)
    (second : ∀ a : Subtype P, Leads σ (f a) (g a) R) : Leads σ (liftM x >>= f) (liftM y >>= g) R :=
  .after ⟨first.concur.lift⟩ second

instance bind [Concurs σ x y P] [second : ∀ a : Subtype P, Leads σ (f a) (g a) R] :
    Leads σ (x >>= f) (y >>= g) R :=
  .next second

theorem last (step : Concurs σ x y P) [weaker : ∀ a : Subtype P, Fact (Q a)] : Leads σ x y Q :=
  ⟨step.concur.mono fun a is => (weaker ⟨a, is⟩).out⟩

instance (priority := low) of_concurs [step : Concurs σ x y P]
    [∀ a : Subtype P, Fact (Q a)] : Leads σ x y Q :=
  .last step

theorem iteOf {c : Prop} [Decidable c] {x' y' : m α} (pos : c → Leads σ x y P)
    (neg : ¬c → Leads σ x' y' P) : Leads σ (if c then x else x') (if c then y else y') P := by
  split
  · next is => exact pos is
  · next isNot => exact neg isNot

instance ite {c : Prop} [Decidable c] {x' y' : m α} [pos : Leads σ x y P] [neg : Leads σ x' y' P] :
    Leads σ (if c then x else x') (if c then y else y') P :=
  .iteOf (fun _ => pos) fun _ => neg

/-- A step that may be taken first. -/
theorem join {c : Prop} [Decidable c] {x y : m PUnit} {f g : PUnit → m β} {P : PUnit → Prop}
    [Concurs σ x y P] (rest : ∀ a, Leads σ (f a) (g a) R) :
    Leads σ (if c then x >>= f else f ⟨⟩) (if c then y >>= g else g ⟨⟩) R :=
  .iteOf (fun _ => .next fun a => rest a) fun _ => rest _

theorem joinUnless {c : Prop} [Decidable c] {x y : m PUnit} {f g : PUnit → m β} {P : PUnit → Prop}
    [Concurs σ x y P] (rest : ∀ a, Leads σ (f a) (g a) R) :
    Leads σ (if c then f ⟨⟩ else x >>= f) (if c then g ⟨⟩ else y >>= g) R :=
  .iteOf (fun _ => rest _) fun _ => .next fun a => rest a

end Leads

namespace Concurs

theorem of (leads : Leads σ x y P) : Concurs σ x y P :=
  ⟨leads.concur⟩

theorem walk [leads : Leads σ x y P] : Concurs σ x y P :=
  .of leads

instance lift [MonadLiftT m n] [Lifts m n] [step : Concurs σ x y P] :
    Concurs σ (liftM x : n α) (liftM y : n α) P :=
  ⟨step.concur.lift⟩

instance pure {a : α} : Concurs σ (Pure.pure a : m α) (Pure.pure a) (· = a) :=
  ⟨.pure rfl⟩

instance (priority := low) known (x : Except Fault α) : Concurs σ x x (x = .ok ·) :=
  ⟨.made rfl fun _ => id⟩

instance (priority := 300) expression {f g : α → m Fragment}
    [Leads σ (x >>= f) (y >>= g) (·.IsExpression σ)] :
    Concurs σ (x >>= f) (y >>= g) (·.IsExpression σ) :=
  .walk

instance (priority := 200) statement {f g : α → m Fragment}
    [Leads σ (x >>= f) (y >>= g) (·.Spelt σ)] : Concurs σ (x >>= f) (y >>= g) (·.Spelt σ) :=
  .walk

instance (priority := low) bind [Leads σ (x >>= f) (y >>= g) fun _ => True] :
    Concurs σ (x >>= f) (y >>= g) fun _ => True :=
  .walk

instance andM {x y x' y' : m Bool} [first : Leads σ x y fun _ => True]
    [second : Leads σ x' y' fun _ => True] : Concurs σ (andM x x') (andM y y') fun _ => True := by
  refine ⟨first.concur.bind fun b _ => ?_⟩
  cases b with
  | true => exact second.concur
  | false => exact .pure trivial

instance orM {x y x' y' : m Bool} [first : Leads σ x y fun _ => True]
    [second : Leads σ x' y' fun _ => True] : Concurs σ (orM x x') (orM y y') fun _ => True := by
  refine ⟨first.concur.bind fun b _ => ?_⟩
  cases b with
  | true => exact .pure trivial
  | false => exact second.concur

section

variable {as : List α} {init : β} {f g : α → β → m (ForInStep β)}

theorem repeating (start : R init)
    (each : ∀ (a : {a // a ∈ as}) (b : Subtype R), Leads σ (f a b) (g a b) (Ends R)) :
    Concurs σ (forIn as init f) (forIn as init g) R := by
  induction as generalizing init with
  | nil => exact ⟨.pure start⟩
  | cons a as ih =>
    rw [List.forIn_cons, List.forIn_cons]
    refine ⟨.bind (each ⟨a, List.mem_cons_self⟩ ⟨init, start⟩).concur fun step is => ?_⟩
    cases step with
    | done b => exact .pure is
    | yield b => exact (ih is fun a => each ⟨a, List.mem_cons_of_mem _ a.2⟩).concur

theorem rounds (each : ∀ (a : {a // a ∈ as}) b, Leads σ (f a b) (g a b) fun _ => True) :
    Concurs σ (forIn as init f) (forIn as init g) fun _ => True :=
  .repeating trivial fun a b => ⟨(each a b).concur⟩

instance (priority := low) loop [each : ∀ (a : {a // a ∈ as}) b, Leads σ (f a b) (g a b) fun _ => True] :
    Concurs σ (forIn as init f) (forIn as init g) fun _ => True :=
  .rounds each

end

instance fail {f : Fault} : Concurs σ (Compile.fail f : Plain α) (Compile.fail f) fun _ => False := by
  refine ⟨fun optimized s spelt => ⟨rfl, ?_⟩⟩
  rintro _ _ ⟨⟩

/-- A loop that builds up an expression. -/
instance buildingLoop {as : List α} {γ : Type} {init : Fragment × γ}
    {f g : α → Fragment × γ → m (ForInStep (Fragment × γ))} [start : Fact (init.1.IsExpression σ)]
    [each : ∀ (a : {a // a ∈ as}) (b : {b : Fragment × γ // b.1.IsExpression σ}),
      Leads σ (f a b) (g a b) (Ends (·.1.IsExpression σ))] :
    Concurs σ (forIn as init f) (forIn as init g) (·.1.IsExpression σ) :=
  .repeating start.out each

end Concurs

instance Leads.fail {f : Fault} : Leads σ (Compile.fail f : Plain α) (Compile.fail f) P :=
  ⟨(Concurs.fail.concur).mono fun _ never => never.elim⟩

instance Leads.liftFail [MonadLiftT Plain n] [Lifts Plain n] {f : Fault} {Q : α → Prop} :
    Leads σ (liftM (Compile.fail f : Plain α) : n α) (liftM (Compile.fail f)) Q :=
  ⟨.lift (Leads.fail.concur)⟩

instance Leads.ok {a : α} [is : Fact (P a)] : Leads σ (Except.ok a : Except Fault α) (.ok a) P :=
  ⟨.pure is.out⟩

instance Leads.error {f : Fault} : Leads σ (Except.error f : Except Fault α) (.error f) P :=
  ⟨.made rfl (by rintro _ ⟨⟩)⟩

instance Leads.afterFail {f : Fault} {g h : α → Plain β} :
    Leads σ (Compile.fail f >>= g) (Compile.fail f >>= h) R :=
  .next fun never => never.2.elim

instance Leads.afterLiftFail [MonadLiftT Plain n] [Lifts Plain n] {f : Fault} {g h : α → n β} :
    Leads σ (liftM (Compile.fail f : Plain α) >>= g) (liftM (Compile.fail f : Plain α) >>= h) R :=
  .next fun never => never.2.elim

end Parts

end PerlJava.Compile
