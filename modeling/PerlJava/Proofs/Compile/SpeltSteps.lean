import PerlJava.Compile.Assignment
import PerlJava.Proofs.Compile.SpeltTypes

/-!
# Steps on types that are spelt the same

Looking up variables, converting, going to places and assigning: none of these brings in a collection
that no type had before.
-/

-- a step is put together from as many parts as it has lines
set_option synthInstance.maxSize 10000

namespace PerlJava.Compile

open Java

variable {σ : Spelling}

/-! ### The state -/

def State.typing (s : State) :=
  (s.vars, s.pending, s.packages, s.declaredTypes, s.lineType, s.functions, s.currentFunction, s.job)

theorem State.Spelt.of_typing {s s' : State} (spelt : s.Spelt σ) (same : s'.typing = s.typing) :
    s'.Spelt σ := by
  simp only [State.typing, Prod.mk.injEq] at same
  obtain ⟨vars, pending, packages, declaredTypes, lineType, functions, current, job⟩ := same
  exact {
    vars := vars ▸ spelt.vars
    pending := pending ▸ spelt.pending
    packages := packages ▸ spelt.packages
    declaredTypes := declaredTypes ▸ spelt.declaredTypes
    lineType := lineType ▸ spelt.lineType
    functions := functions ▸ spelt.functions
    currentFunction := current ▸ spelt.currentFunction
    job := job ▸ spelt.job }

namespace Concurs

instance read : Concurs σ (MonadReader.read : Plain State) MonadReader.read (·.Spelt σ) := by
  refine ⟨fun optimized s spelt => ⟨rfl, ?_⟩⟩
  rintro _ _ ⟨⟩
  exact ⟨spelt, .of_same rfl, spelt.of_typing rfl⟩

/-- A step that changes nothing that is known of types, and no import. -/
theorem untyped {α : Type} {x : M α} (same : ∀ s a s', x s = .ok a s' →
    s'.typing = s.typing ∧ s'.importing = s.importing) : Steady σ fun _ => x := by
  refine ⟨fun optimized s spelt => ⟨rfl, fun a s' ran => ?_⟩⟩
  obtain ⟨typing, importing⟩ := same s a s' ran
  exact ⟨spelt.of_typing typing, .of_same importing, trivial⟩

theorem preserving {α : Type} {x : Plain α}
    (kept : Preserves (fun s => (s.typing, s.importing)) x) : Steady σ fun _ => x :=
  ⟨(@untyped σ α x.run fun s a s' ran => Prod.mk.inj (kept s a s' ran)).concur⟩

theorem change {f : State → State} (grows : ∀ s : State, s.ImportedIn (f s))
    (spelt : ∀ s : State, s.Spelt σ → (f s).Spelt σ) : Steady σ fun _ => (modify f : M PUnit) := by
  refine ⟨fun optimized s known => ⟨rfl, ?_⟩⟩
  rintro _ _ ⟨⟩
  exact ⟨spelt s known, grows s, trivial⟩

theorem changeOther {f : State → State}
    (same : ∀ s : State, (f s).typing = s.typing ∧ (f s).importing = s.importing) :
    Steady σ fun _ => (modify f : M PUnit) :=
  .change (fun s => .of_same (same s).2) fun s spelt => spelt.of_typing (same s).1

section

variable {f : State → State} {follows : ∀ s : State, s.context.Follows (f s).context}
  {types : ∀ s : State, s.types <+: (f s).types} {code : ∀ s : State, (f s).written = s.written}
  {silent : ∀ c s, f (s.cloaked c) = (f s).cloaked c}

theorem update (grows : ∀ s : State, s.ImportedIn (f s))
    (spelt : ∀ s : State, s.Spelt σ → (f s).Spelt σ) :
    Steady σ fun _ => Compile.update f follows types code silent :=
  ⟨(change grows spelt).concur⟩

theorem updateOther (same : ∀ s : State, (f s).typing = s.typing ∧ (f s).importing = s.importing) :
    Steady σ fun _ => Compile.update f follows types code silent :=
  .update (fun s => .of_same (same s).2) fun s spelt => spelt.of_typing (same s).1

end

end Concurs

instance : Untold fun s : State => (s.typing, s.importing) := ⟨fun _ _ => rfl⟩

instance {message : Message} {at_ : Option Position} {names : Diagnostic.Names} :
    Steady σ fun _ => report message at_ names :=
  .preserving .walk

instance {c : Fragment} {refs : Bool} : Steady σ fun _ => check c refs :=
  .preserving .walk

/-! ### Levels and variables -/

section Scope

variable {id : VarId} {name : String} {assigned : Option String} {v : Variable}

instance : Steady σ fun _ => freshName name := by
  unfold freshName
  exact .of (.next fun _ => .after (.updateOther fun _ => ⟨rfl, rfl⟩) inferInstance)

instance [is : Fact (v.Spelt σ)] : Steady σ fun _ => newVariable v := by
  unfold newVariable
  refine .of (.next fun _ => .after (.update (fun _ => .of_same rfl) fun s spelt => ?_) inferInstance)
  refine { spelt with vars := fun w member => ?_ }
  obtain old | rfl := Array.mem_push.1 member
  · exact spelt.vars w old
  · exact is.out

instance : Yields σ (fun _ => variableOf id) (·.Spelt σ) := by
  unfold variableOf
  refine .of (.next fun s => ⟨.pure ?_⟩)
  rw [Array.getD_eq_getD_getElem?]
  cases found : s.1.vars[id]? with
  | none => exact ⟨trivial, fun _ => (nomatch ·)⟩
  | some v => exact s.2.vars v (Array.mem_of_getElem? found)

instance (v : {v : Variable // v.Spelt σ}) : Fact (v.1.shape.Spelt σ) := ⟨v.2.shape⟩

instance {name position isPrivate} {shape : Shape} [known : Fact (shape.Spelt σ)] :
    Fact (Variable.Spelt σ ⟨name, shape, none, position, isPrivate⟩) :=
  ⟨known.out, fun _ => (nomatch ·)⟩

instance {shape : Shape} [known : Fact (shape.Spelt σ)] : Steady σ fun _ => retype id shape := by
  refine .change (fun _ => .of_same rfl) fun s spelt => { spelt with vars := fun v member => ?_ }
  obtain ⟨i, bound, rfl⟩ := Array.mem_iff_getElem.1 member
  have within : i < s.vars.size := by simpa using bound
  have old := spelt.vars _ (Array.getElem_mem within)
  simp only [Array.getElem_modify]
  split
  · exact ⟨known.out, old.elements⟩
  · exact old

instance : Steady σ fun _ => readLevel := by
  refine .untyped fun s a s' ran => ?_
  unfold readLevel at ran
  split at ran <;> cases ran
  exact ⟨rfl, rfl⟩

instance {f : OrderedMap String VarId → OrderedMap String VarId} :
    Steady σ fun _ => changeDeclared f := by
  refine .untyped fun s a s' ran => ?_
  unfold changeDeclared at ran
  split at ran <;> cases ran
  exact ⟨rfl, rfl⟩

instance {f : List (Option String) → List (Option String)} : Steady σ fun _ => changeAssigned f := by
  refine .untyped fun s a s' ran => ?_
  unfold changeAssigned at ran
  split at ran <;> cases ran
  exact ⟨rfl, rfl⟩

instance : Steady σ fun _ => popDeclared := by
  refine .untyped fun s a s' ran => ?_
  unfold popDeclared at ran
  split at ran <;> cases ran
  exact ⟨rfl, rfl⟩

instance : Steady σ fun _ => popAssigned := by
  refine .untyped fun s a s' ran => ?_
  unfold popAssigned at ran
  split at ran <;> cases ran
  exact ⟨rfl, rfl⟩

instance : Steady σ fun _ => pushLevel :=
  .changeOther fun _ => ⟨rfl, rfl⟩

instance : Steady σ fun _ => popLevel := by
  unfold popLevel
  exact .walk

instance : Steady σ fun _ => innermost :=
  ⟨(inferInstance : Steady σ fun _ => readLevel).concur⟩

instance {names : List (Option String)} : Steady σ fun _ => assignAll names :=
  ⟨(inferInstance : Steady σ fun _ => changeAssigned (addNames names)).concur⟩

instance : Steady σ fun _ => assign assigned :=
  ⟨(inferInstance : Steady σ fun _ => changeAssigned (addName assigned)).concur⟩

instance : Steady σ fun _ => declare name id :=
  ⟨(inferInstance : Steady σ fun _ => changeDeclared (·.insert name id)).concur⟩

instance {f : Function} [is : Fact (f.Spelt σ)] : Steady σ fun _ => startFunction f := by
  unfold startFunction
  have arguments : Fact (Variable.Spelt σ {
      name := some "pd_argv", shape := .scalar .void, elements := some f.arguments,
      position := f.position }) := by
    refine ⟨Shape.spelt_scalar rfl, ?_⟩
    rintro _ ⟨⟩
    exact is.out.arguments
  exact .of (.next fun _ => .next fun _ => .next fun _ => .last (.updateOther fun _ => ⟨rfl, rfl⟩))

instance {value variable_} {shape : Shape} [known : Fact (shape.Spelt σ)] :
    Steady σ fun _ => addPending ⟨value, shape, variable_⟩ := by
  unfold addPending
  refine .of (.next fun _ => .after (.update (fun _ => .of_same rfl) fun s spelt => ?_) inferInstance)
  refine { spelt with pending := fun q member => ?_ }
  obtain old | rfl := Array.mem_push.1 member
  · exact spelt.pending q old
  · exact known.out

instance {id : DeclId} : Yields σ (fun _ => pendingOf id) (·.shape.Spelt σ) := by
  unfold pendingOf
  refine .of (.next fun s => ⟨.pure ?_⟩)
  rw [Array.getD_eq_getD_getElem?]
  cases found : s.1.pending[id]? with
  | none => trivial
  | some p => exact s.2.pending p (Array.mem_of_getElem? found)

instance (p : {p : Pending // p.shape.Spelt σ}) : Fact (p.1.shape.Spelt σ) := ⟨p.2⟩

/-- Showing a fragment in its declaration gives the fragment. -/
instance {c : Fragment} [is : Fact (c.shape.Spelt σ)] : Yields σ (fun _ => sync c) (· = c) := by
  unfold sync
  refine .of ?_
  split
  · refine .after (.update (fun _ => .of_same rfl) fun s spelt => ?_) fun _ => ⟨.pure rfl⟩
    refine { spelt with pending := fun q member => ?_ }
    obtain old | rfl := Array.mem_or_eq_of_mem_setIfInBounds member
    · exact spelt.pending q old
    · exact is.out
  · exact ⟨.pure rfl⟩

instance {shape : Shape} [known : Fact (shape.Spelt σ)] : Steady σ fun _ => shape.javaText :=
  ⟨.made (Shape.javaText_spelt known.out) fun _ _ => trivial⟩

instance {shape : Shape} [known : Fact (shape.Spelt σ)] {sizes : List (Option String)} :
    Steady σ fun _ => shape.creation sizes :=
  ⟨.made (Shape.creation_spelt known.out sizes) fun _ _ => trivial⟩

instance {p : Pending} [Fact (p.shape.Spelt σ)] : Steady σ fun _ => p.text := by
  unfold Pending.text
  exact .walk

instance {c : Fragment} : Steady σ fun _ => declarations c := by
  unfold declarations
  exact .walk

end Scope

/-! ### Conversions -/

section Convert

variable {c : Fragment} {text : String}

instance {s : Shape} [is : Fact (s.Spelt σ)] : Yields σ (fun _ => s.tail) (·.Spelt σ) :=
  ⟨.made rfl fun _ => is.out.tail⟩

instance {s : Shape} [is : Fact (s.Spelt σ)] : Yields σ (fun _ => s.copy) (·.Spelt σ) :=
  ⟨.made rfl fun _ => is.out.copy⟩

instance {s : Shape} {outer : List Dim} [is : Fact (s.Spelt σ)] [all : Fact (∀ d ∈ outer, d.Spelt σ)] :
    Yields σ (fun _ => s.within outer) (·.Spelt σ) :=
  ⟨.made rfl fun _ => is.out.within all.out⟩

instance {a b : Fragment} [Fact (a.IsExpression σ)] [Fact (b.IsExpression σ)] :
    Expression σ fun _ => a.join b := by
  unfold Fragment.join
  exact .walk

section

variable [is : Fact (c.IsExpression σ)]

instance [Fact ((Dim.sized .list none).Spelt σ)] : Expression σ fun _ => c.toList := by
  unfold Fragment.toList
  exact .walk

/-- A conversion makes a list only where lists are wanted. -/
instance {target : Shape} [known : Fact (target.Spelt σ)] :
    Yields σ (fun _ => convert target c) (·.2.IsExpression σ) := by
  unfold convert Fragment.toArray agreed
  refine .of (.next fun head => .next fun size => .iteOf (fun _ => ?_) fun _ => ?_)
  · split <;> infer_instance
  · split
    · next name =>
      have list : Fact ((Dim.sized .list none).Spelt σ) := ⟨(known.out.head head.2).of_name name.symm⟩
      infer_instance
    · infer_instance
    · infer_instance

instance {target : Shape} [Fact (target.Spelt σ)] : Steady σ fun _ => converted target c := by
  unfold converted
  exact .walk

instance : Expression σ fun _ => asNumber c := by
  unfold asNumber Fragment.toNumber
  exact .walk

instance : Expression σ fun _ => unwrapped c := by
  unfold unwrapped
  exact .walk

end

instance : Steady σ fun _ => checkReachable c := by
  unfold checkReachable
  refine .of (.next fun _ => .iteOf (fun _ => .next fun _ => ?_) inferInstance)
  exact .after (.updateOther fun _ => ⟨rfl, rfl⟩) inferInstance

instance : Steady σ fun _ => storeInto c text := by
  unfold storeInto
  refine .of (.next fun _ => ?_)
  split <;> infer_instance

instance {code : Fragment} {parameter : Shape} [Fact (code.IsExpression σ)]
    [Fact (parameter.Spelt σ)] [Fact (c.IsExpression σ)] :
    Yields σ (fun _ => passByReference code parameter c) (·.1.IsExpression σ) := by
  unfold passByReference freshCallName
  dsimp only
  exact .walk

end Convert

/-! ### Variables and places -/

section Access

variable {c key : Fragment} {a : Access} {text name : String} {at_ : Position} {kind : TypeName}
  {package : Option Package}

instance : Steady σ fun _ => tidied text := by
  refine ⟨fun optimized s spelt => ⟨rfl, ?_⟩⟩
  cases optimized <;> rintro _ _ ⟨⟩ <;> exact ⟨spelt, .of_same rfl, trivial⟩

instance : Fact (noneShape.Spelt σ) := ⟨Shape.spelt_scalar rfl⟩

instance : Yields σ (fun _ => declaredShape name at_) (·.Spelt σ) := by
  unfold declaredShape
  dsimp only
  refine .of (.next fun s => ?_)
  split
  · next typed found =>
    have is : Fact (typed.shape.Spelt σ) := ⟨s.2.declaredTypes _ (OrderedMap.mem_of_get? found)⟩
    have (erased : String) : Steady σ fun _ => update fun s : State =>
        { s with declaredTypes := s.declaredTypes.erase erased } :=
      .update (fun _ => .of_same rfl) fun s spelt => { spelt with
        declaredTypes := fun entry member => spelt.declaredTypes entry (List.mem_filter.1 member).1 }
    infer_instance
  · split
    · next shape found =>
      have : Fact (shape.Spelt σ) := ⟨s.2.lineType shape found⟩
      infer_instance
    · infer_instance

instance : Steady σ fun _ => checkNewName name at_ := by
  unfold checkNewName isReserved lookup? isDeclared
  dsimp only
  refine .of (.next fun _ => .iteOf (fun _ => .next fun _ => ?_) inferInstance)
  split <;> infer_instance

instance {shared : Bool} : Expression σ fun _ => createVariable name at_ shared := by
  unfold createVariable
  dsimp only
  refine .of (.next fun _ => .next fun _ => .next fun _ => .next fun _ => .next fun _ =>
    .iteOf (fun _ => .next fun _ => ?_) inferInstance)
  exact .after (.updateOther fun _ => ⟨rfl, rfl⟩) inferInstance

instance : Steady σ fun _ => findVariable? name package := by
  unfold findVariable? lookup?
  cases package <;> exact .walk

instance : Steady σ fun _ => reportNoVariable name at_ package := by
  unfold reportNoVariable
  cases package <;> exact .walk

instance : Expression σ fun _ => readVariable name at_ package := by
  unfold readVariable
  refine .of (.next fun found => ?_)
  split
  · refine .next fun v => ?_
    have : Fact (∀ shape ∈ v.1.elements.getD [], shape.Spelt σ) := by
      cases elements : v.1.elements with
      | none => exact ⟨by simp⟩
      | some shapes => exact ⟨v.2.elements shapes elements⟩
    infer_instance
  · infer_instance

section

variable [Fact (a.Spelt σ)]

instance : Yields σ (fun _ => followReference a at_) (·.Spelt σ) := by
  unfold followReference
  exact .walk

instance {arrow : Bool} : Yields σ (fun _ => approach a key at_ kind arrow) (·.1.Spelt σ) := by
  unfold approach isAssigned enter
  refine .of (.next fun _ => ?_)
  split <;> infer_instance

instance {collection : Dim} : Yields σ (fun _ => elementOf a collection key text) (·.Spelt σ) := by
  unfold elementOf
  exact .walk

instance {arrow : Bool} : Yields σ (fun _ => accessElement a key at_ kind arrow) (·.Spelt σ) := by
  unfold accessElement
  refine .of (.next fun ⟨(a, head), is⟩ => ?_)
  have : Fact (a.Spelt σ) := ⟨is⟩
  cases head <;> infer_instance

instance : Yields σ (fun _ => takeReference a) (·.Spelt σ) := by
  unfold takeReference
  exact .walk

end

section

variable [Fact (c.IsExpression σ)]

instance : Yields σ (fun _ => elementShape c) (·.1.Spelt σ) := by
  unfold elementShape
  exact .walk

instance : Yields σ (fun _ => Access.ofFragment c) (·.Spelt σ) := by
  unfold Access.ofFragment
  exact .walk

end

instance (r : {r : Shape × Bool // r.1.Spelt σ}) : Fact (r.1.1.Spelt σ) := ⟨r.2⟩

instance {elements : List Fragment} [all : Fact (∀ c ∈ elements, c.IsExpression σ)] :
    Expression σ fun _ => arrayLiteral elements := by
  unfold arrayLiteral elementValue takeOver
  refine .of ?_
  split
  · next first found =>
    have : Fact (first.IsExpression σ) := ⟨all.out first (List.mem_of_mem_head? found)⟩
    dsimp only
    infer_instance
  · infer_instance

instance {elements : List Fragment} [Fact ((Dim.plain .hash).Spelt σ)]
    [all : Fact (∀ c ∈ elements, c.IsExpression σ)] : Expression σ fun _ => hashLiteral elements := by
  unfold hashLiteral elementValue takeOver
  refine .of (.iteOf (fun _ => ?_) fun _ => ?_)
  · split <;> infer_instance
  split
  · next first found =>
    have : Fact (first.IsExpression σ) := ⟨all.out first (List.mem_of_getElem? found)⟩
    dsimp only
    infer_instance
  · infer_instance

end Access

end PerlJava.Compile
