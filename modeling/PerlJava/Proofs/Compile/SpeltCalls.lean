import PerlJava.Compile.Builtin
import PerlJava.Compile.Statement
import PerlJava.Proofs.Compile.SpeltOperators

/-!
# Calls on types that are spelt the same

Native functions have results of the types of their arguments, or of types without collections.
There are two exceptions: `values` brings in a list, and `each` prints the names of two interfaces.
-/

set_option synthInstance.maxSize 10000

namespace PerlJava.Compile

open Java

variable {σ : Spelling} {c : Fragment}

instance {name : String} : Steady σ fun _ => addImport name := by
  refine .update (fun s => ⟨?_, rfl⟩) fun _ spelt => spelt.of_typing rfl
  dsimp only
  split
  · exact List.Subset.refl _
  · exact List.subset_append_left _ _

namespace NativeCall

variable {call : NativeCall} {at_ : Position}

def Sound (σ : Spelling) (call : NativeCall) : Prop :=
  ∀ c ∈ call.arguments, c.IsExpression σ

instance {name start position arguments} [all : Fact (∀ c ∈ arguments, c.IsExpression σ)] :
    Fact (Sound σ ⟨name, start, arguments, position⟩) := all

instance : Fact (refused.IsExpression σ) := by
  unfold refused
  infer_instance

instance {value declares} {shape : Shape} [Fact (shape.Spelt σ)] :
    Fact ((call.result value shape declares).IsExpression σ) := by
  unfold result
  infer_instance

instance : Expression σ fun _ => call.refuse := by
  unfold refuse
  exact .walk

instance : Steady σ fun _ => call.requireVariable c := by
  unfold requireVariable
  exact .walk

instance : Steady σ fun _ => nullUnlessAssigned c := by
  unfold nullUnlessAssigned isAssigned
  split <;> exact .walk

instance : Steady σ fun _ => readsHash c := by
  unfold readsHash
  refine .of (.next fun _ => ?_)
  split <;> infer_instance

/-! ### Calls with one argument -/

section Single

variable [sound : Fact (call.Sound σ)]

theorem ofSingle {f g : Fragment → Plain Fragment}
    (each : ∀ c : {c : Fragment // c.IsExpression σ}, Leads σ (f c) (g c) (·.IsExpression σ)) :
    Concurs σ (call.single f) (call.single g) (·.IsExpression σ) := by
  unfold single
  split
  · next c arguments => exact .of (each ⟨c, sound.out c (by simp [arguments])⟩)
  · exact .walk

instance {f g : Fragment → Plain Fragment}
    [each : ∀ c : {c : Fragment // c.IsExpression σ}, Leads σ (f c) (g c) (·.IsExpression σ)] :
    Concurs σ (call.single f) (call.single g) (·.IsExpression σ) :=
  ofSingle each

instance {f g : Fragment → Plain Fragment}
    [each : ∀ c : {c : Fragment // c.IsExpression σ}, Leads σ (f c) (g c) (·.IsExpression σ)] :
    Concurs σ (call.checkedSingle f) (call.checkedSingle g) (·.IsExpression σ) := by
  unfold checkedSingle
  exact .walk

instance [list : Fact (call.name ≠ "keys" → (Dim.plain .list).Spelt σ)] :
    Expression σ fun _ => call.keysOrValues := by
  unfold keysOrValues
  refine ofSingle fun c => .iteOf (fun _ => inferInstance) fun other => ?_
  have : Fact ((Dim.plain .list).Spelt σ) := ⟨list.out (by simpa using other)⟩
  infer_instance

instance {code : Fragment} {parameter : Shape} {rest : String} [Fact (code.IsExpression σ)]
    [Fact (parameter.Spelt σ)] [Fact (c.IsExpression σ)] :
    Expression σ fun _ => updating code parameter c rest := by
  unfold updating
  dsimp only
  exact .walk

instance : Expression σ fun _ => call.chop := by
  unfold chop
  dsimp only
  exact .walk

instance : Expression σ fun _ => call.defined := by
  unfold defined
  exact .walk

instance : Expression σ fun _ => call.close := by
  unfold close
  exact .walk

instance : Expression σ fun _ => call.sort := by
  unfold sort
  exact .walk

instance {type : TypeName} [Fact (type.isCollection = false)] :
    Expression σ fun _ => call.onText type := by
  unfold onText
  exact .walk

instance : Expression σ fun _ => call.delete := by
  unfold delete
  exact .walk

instance : Expression σ fun _ => call.exists_ := by
  unfold exists_
  exact .walk

instance : Expression σ fun _ => call.exit := by
  unfold exit
  exact .walk

end Single

/-! ### Printing -/

section Print

variable [sound : Fact (call.Sound σ)]

instance : Fact (∀ c ∈ call.arguments, c.IsExpression σ) := sound

instance : Expression σ fun _ => call.print := by
  unfold print printed
  exact .walk

instance {file : Fragment} : Expression σ fun _ => call.printTo file := by
  unfold printTo printed
  refine .of (.next fun _ => .iteOf (fun _ => inferInstance) fun _ => ?_)
  split <;> infer_instance

end Print

/-! ### Sorting -/

section Sorting

instance : Steady σ fun _ => declareCompared at_ := by
  unfold declareCompared
  refine .of (.next fun s => ?_)
  split
  · infer_instance
  · next typed found =>
    have : Fact (typed.shape.Spelt σ) := ⟨s.2.declaredTypes _ (OrderedMap.mem_of_get? found)⟩
    refine .next fun _ => .last (.update (fun _ => .of_same rfl) fun s spelt => ?_)
    refine { spelt with declaredTypes := fun entry member => ?_ }
    exact spelt.declaredTypes entry (List.mem_filter.1 (List.mem_filter.1 member).1).1

instance : Steady σ fun _ => startSort at_ := by
  unfold startSort
  exact .walk

instance {comparison : Fragment} {shape : Shape} [Fact (c.IsExpression σ)] [Fact (shape.Spelt σ)] :
    Yields σ (fun _ => sortText c comparison shape) (·.2.IsExpression σ) := by
  unfold sortText
  exact .walk

instance {refusal : SortRefusal} : Expression σ fun _ => call.refuseSort refusal := by
  cases refusal <;> unfold refuseSort <;> exact .walk

variable [sound : Fact (call.Sound σ)]

instance : Yields σ (fun _ => call.sorted?) fun r => ∀ c shape, r = .ok (c, shape) →
    c.IsExpression σ ∧ shape.Spelt σ := by
  unfold sorted?
  have refused (refusal : SortRefusal) : Fact (∀ (c : Fragment) (shape : Shape),
    Except.error refusal = .ok (c, shape) → c.IsExpression σ ∧ shape.Spelt σ) := ⟨by rintro _ _ ⟨⟩⟩
  refine .of ?_
  split
  · next c arguments =>
    have is : c.IsExpression σ := sound.out c (by simp [arguments])
    refine .next fun head => .iteOf (fun _ => .next fun level => ?_) inferInstance
    split
    · refine .next fun v => .next fun tail => .next fun agrees => .iteOf (fun _ => ⟨.pure ?_⟩) inferInstance
      rintro _ _ ⟨⟩
      exact ⟨is, v.2.shape⟩
    · infer_instance
  · infer_instance

instance {comparison : Fragment} : Expression σ fun _ => call.sortBy comparison := by
  unfold sortBy
  refine .of (.next fun ⟨r, are⟩ => ?_)
  cases r with
  | ok found =>
    have := Fact.mk (are found.1 found.2 rfl).1
    have := Fact.mk (are found.1 found.2 rfl).2
    dsimp only
    infer_instance
  | error refusal => infer_instance

end Sorting

/-! ### Calls with several arguments -/

section Several

structure EachSpelt (σ : Spelling) : Prop where
  map : σ.names.map = Interfaces.java.map
  iterator : σ.names.iterator = Interfaces.java.iterator

section

variable [spelt : Fact (EachSpelt σ)] {targets : List Fragment}
  [all : Fact (∀ c ∈ targets, c.IsExpression σ)] {a : Access} [Fact (a.Spelt σ)]

instance : Expression σ fun _ => nextPair targets a := by
  unfold nextPair freshCallName valueOf
  refine .of ?_
  simp only [spelt.out.map, spelt.out.iterator]
  refine (.next fun hash => .next fun iterator => .next fun entry => .next fun head =>
    .iteOf (fun _ => ?_) fun _ => inferInstance)
  split
  · next key val =>
    have : Fact (key.IsExpression σ) := ⟨all.out key (by simp)⟩
    have : Fact (val.IsExpression σ) := ⟨all.out val (by simp)⟩
    infer_instance
  · infer_instance

instance : Expression σ fun _ => each targets a := by
  unfold each
  exact .walk

end

variable {target offset new code : Fragment} {opening statement rest : String}

instance {more : List Fragment} [Fact (offset.IsExpression σ)]
    [others : Fact (∀ c ∈ more, c.IsExpression σ)] :
    Steady σ fun _ => spliceArguments target offset more := by
  unfold spliceArguments checkSpliced
  split
  · exact .walk
  · refine .of (.next fun _ => .next fun _ => .next fun _ => ?_)
    split
    · infer_instance
    · next new _ =>
      have : Fact (new.IsExpression σ) := ⟨others.out new (by simp)⟩
      infer_instance

instance [Fact (c.IsExpression σ)] : Expression σ fun _ => withoutParens c := by
  unfold withoutParens
  split <;> exact .walk

instance : Expression σ fun _ => call.split := by
  unfold NativeCall.split
  split <;> exact .walk

variable [sound : Fact (call.Sound σ)]

instance : Expression σ fun _ => call.join := by
  unfold join
  split
  · next separator parts arguments =>
    have : Fact (parts.IsExpression σ) := ⟨sound.out parts (by simp [arguments])⟩
    exact .walk
  · exact .walk

instance : Expression σ fun _ => call.open_ := by
  unfold open_
  refine .of ?_
  split
  · next file mode path arguments =>
    have : Fact (file.IsExpression σ) := ⟨sound.out file (by simp [arguments])⟩
    refine .next fun head => ?_
    cases head.1.is .file <;> cases file.variable_ <;> infer_instance
  · infer_instance

instance : Expression σ fun _ => call.substr := by
  unfold substr
  refine .of (.next fun position => ?_)
  dsimp only
  split
  · next text offset arguments =>
    have : Fact (text.IsExpression σ) := ⟨sound.out text (by simp [arguments])⟩
    infer_instance
  · next text offset length arguments =>
    have : Fact (text.IsExpression σ) := ⟨sound.out text (by simp [arguments])⟩
    infer_instance
  · next text offset length replacement arguments =>
    have : Fact (text.IsExpression σ) := ⟨sound.out text (by simp [arguments])⟩
    infer_instance
  · infer_instance

instance : Expression σ fun _ => call.splice := by
  unfold splice spliceOffset changing
  refine .of (.next fun position => ?_)
  dsimp only
  split
  · next target offset more arguments =>
    have : Fact (target.IsExpression σ) := ⟨sound.out target (by simp [arguments])⟩
    have : Fact (offset.IsExpression σ) := ⟨sound.out offset (by simp [arguments])⟩
    have : Fact (∀ c ∈ more, c.IsExpression σ) := ⟨fun c member => sound.out c (by simp [arguments, member])⟩
    infer_instance
  · infer_instance

instance : Expression σ fun _ => call.push := by
  unfold push changing addedText
  refine .of (.next fun position => ?_)
  dsimp only
  split
  · next target new arguments =>
    have : Fact (target.IsExpression σ) := ⟨sound.out target (by simp [arguments])⟩
    have : Fact (new.IsExpression σ) := ⟨sound.out new (by simp [arguments])⟩
    infer_instance
  · infer_instance

instance : Expression σ fun _ => call.pop := by
  unfold pop changing
  exact .walk

end Several

end NativeCall

end PerlJava.Compile
