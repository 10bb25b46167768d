import PerlJava.Compile.Operator
import PerlJava.Proofs.Compile.SpeltSteps

/-!
# Assignments and operators on types that are spelt the same

What is assigned or computed has the type of an operand, or one without collections.
-/

set_option synthInstance.maxSize 10000

namespace PerlJava.Compile

open Java

variable {σ : Spelling}

/-! ### Assignments -/

section Assignment

variable {a : Access} {exp front : Fragment} {cast : Bool} {line lines : String}

instance : Steady σ fun _ => isCopied a exp := by
  unfold isCopied
  split <;> exact .walk

instance {labels : List Label} : Steady σ fun _ => lineSizesOf labels := by
  unfold lineSizesOf lookup? isAssigned
  refine .of (.after (.rounds fun label _ => ?_) fun _ =>
    .after (.updateOther fun _ => ⟨rfl, rfl⟩) inferInstance)
  refine .iteOf (fun _ => .next fun _ => ?_) inferInstance
  split <;> infer_instance

instance : Steady σ fun _ => newSizes a := by
  unfold newSizes
  refine .of (.next fun _ => ?_)
  split
  · infer_instance
  · split <;> infer_instance

section

variable [Fact (exp.IsExpression σ)]

instance : Expression σ fun _ => withText exp line := by
  unfold withText
  exact .walk

variable [Fact (a.Spelt σ)]

instance {id : VarId} : Expression σ fun _ => storeAt a id exp cast := by
  unfold storeAt
  dsimp only
  exact .walk

instance : Expression σ fun _ => assignTo a exp cast := by
  unfold assignTo refuseReference
  refine .of (.next fun _ => ?_)
  split <;> infer_instance

end

section

variable [Fact (a.Spelt σ)]

instance {undef : Bool} : Expression σ fun _ => assignNothing a undef := by
  unfold assignNothing assignNew
  exact .walk

instance : Expression σ fun _ => assignFromInput a := by
  unfold assignFromInput assignRead
  exact .walk

end

/-! ### Several assignments -/

theorem yields_clearTargets {targets : List Fragment} (all : ∀ c ∈ targets, c.IsExpression σ)
    {front : Fragment} [isFront : Fact (front.IsExpression σ)] :
    Yields σ (fun _ => clearTargets front targets) fun r =>
      r.1.IsExpression σ ∧ ∀ cleared ∈ r.2, ∀ c ∈ cleared, c.IsExpression σ := by
  induction targets generalizing front with
  | nil => exact .of ⟨.pure ⟨isFront.out, by simp⟩⟩
  | cons target targets ih =>
    obtain ⟨isTarget, others⟩ := List.forall_mem_cons.1 all
    have := Fact.mk isTarget
    refine .of (.next fun _ => .iteOf (fun _ => .next fun _ => ⟨.pure ⟨Fact.out, fun _ => (nomatch ·)⟩⟩)
      fun _ => .after (ih others) fun r => ⟨.pure ⟨r.2.1, fun row found => ?_⟩⟩)
    obtain ⟨rest, isRest, rfl⟩ := Option.map_eq_some_iff.1 found
    exact List.forall_mem_cons.2 ⟨Fact.out, r.2.2 rest isRest⟩

instance [is : Fact (exp.IsExpression σ)] :
    Yields σ (fun _ => keepSource exp) fun r => (∀ c ∈ r.1, c.IsExpression σ) ∧ r.2.IsExpression σ := by
  unfold keepSource rawStatement
  dsimp only
  exact .walk

/-- Steps for all elements of a list that make expressions. -/
instance {α : Type} {as : List α} {f g : α → Tidying Fragment}
    [each : ∀ a : {a // a ∈ as}, Leads σ (f a) (g a) (·.IsExpression σ)] :
    Concurs σ (as.mapM f) (as.mapM g) fun cs => ∀ c ∈ cs, c.IsExpression σ := by
  suffices loop : ∀ made : List Fragment, (∀ c ∈ made, c.IsExpression σ) →
      Concur σ (List.mapM.loop f as made) (List.mapM.loop g as made) (∀ c ∈ ·, c.IsExpression σ) from
    ⟨loop [] fun _ => (absurd · List.not_mem_nil)⟩
  revert each
  induction as <;> intro each made are
  case nil => exact .pure fun c member => are c (List.mem_reverse.1 member)
  case cons a as ih =>
    refine .bind (each ⟨a, List.mem_cons_self⟩).concur fun c is => ?_
    exact @ih (fun a => each ⟨a, List.mem_cons_of_mem _ a.2⟩) _ (List.forall_mem_cons.2 ⟨is, are⟩)

section

variable {targets sources : List Fragment} [all : Fact (∀ c ∈ targets, c.IsExpression σ)]

instance {α : Type} {others : List α} (c : {c // c ∈ targets.zip others}) : Fact (c.1.1.IsExpression σ) :=
  ⟨all.out _ (List.of_mem_zip c.2).1⟩

instance {α : Type} {numbers : List α} {others : List Shape} (c : {c // c ∈ (targets.zip numbers).zip others}) :
    Fact (c.1.1.1.IsExpression σ) :=
  ⟨all.out _ (List.of_mem_zip (List.of_mem_zip c.2).1).1⟩

instance {α : Type} {as : List α} {shapes : List Shape} [all : Fact (∀ shape ∈ shapes, shape.Spelt σ)]
    (c : {c // c ∈ as.zip shapes}) : Fact (c.1.2.Spelt σ) :=
  ⟨all.out _ (List.of_mem_zip c.2).2⟩

instance [is : Fact (exp.IsExpression σ)] :
    Yields σ (fun _ => assignInOrder targets exp) fun cs => ∀ c ∈ cs, c.IsExpression σ := by
  unfold assignInOrder
  refine .of (.next fun head => ?_)
  dsimp only
  split
  · infer_instance
  · infer_instance
  · infer_instance

instance [is : Fact (exp.IsExpression σ)] :
    Yields σ (fun _ => assignElements targets exp) fun cs => ∀ c ∈ cs, c.IsExpression σ := by
  unfold assignElements gatherDeclares rawStatement
  refine .of (.next fun _ => .take (yields_clearTargets all.out) fun ⟨(front, cleared), isFront, are⟩ => ?_)
  have := Fact.mk isFront
  cases cleared with
  | none => infer_instance
  | some cleared =>
    have := Fact.mk (are cleared rfl)
    refine .next fun kept => ?_
    have := Fact.mk kept.2.1
    have := Fact.mk kept.2.2
    dsimp only
    infer_instance

theorem clearSources_isExpression {front : Fragment} [isFront : Fact (front.IsExpression σ)]
    {sources : List Fragment} (all : ∀ c ∈ sources, c.IsExpression σ) :
    Yields σ (fun _ => clearSources front sources) fun r =>
      r.1.IsExpression σ ∧ ∀ c ∈ r.2, c.IsExpression σ := by
  induction sources generalizing front with
  | nil => exact .of ⟨.pure ⟨isFront.out, by simp⟩⟩
  | cons source sources ih =>
    obtain ⟨isSource, others⟩ := List.forall_mem_cons.1 all
    have := Fact.mk isSource
    exact .of (.next fun _ => .after (ih others) fun r =>
      ⟨.pure ⟨r.2.1, List.forall_mem_cons.2 ⟨Fact.out, r.2.2⟩⟩⟩)

theorem yields_assignPairs {front : Fragment} [isFront : Fact (front.IsExpression σ)] {n : Nat}
    {pairs : List (Fragment × Fragment)}
    (all : ∀ pair ∈ pairs, pair.1.IsExpression σ ∧ pair.2.IsExpression σ) :
    Yields σ (fun _ => assignPairs front n pairs) fun r =>
      r.1.IsExpression σ ∧ ∀ c ∈ r.2, c.IsExpression σ := by
  induction pairs generalizing front n with
  | nil => exact .of ⟨.pure ⟨isFront.out, by simp⟩⟩
  | cons pair pairs ih =>
    obtain ⟨target, exp⟩ := pair
    obtain ⟨⟨isTarget, isExp⟩, others⟩ := List.forall_mem_cons.1 all
    have := Fact.mk isTarget
    have := Fact.mk isExp
    have rest {front : Fragment} [Fact (front.IsExpression σ)] {n : Nat} := @ih front _ n others
    unfold assignPairs gatherDeclares
    cases exp.has .variable_ <;> simp only [reduceIte, Bool.false_eq_true] <;> exact .walk

instance [are : Fact (∀ c ∈ sources, c.IsExpression σ)] :
    Yields σ (fun _ => assignMany targets sources) fun cs => ∀ c ∈ cs, c.IsExpression σ := by
  unfold assignMany rawStatement
  refine .of (.take (clearSources_isExpression are.out) fun ⟨(front, exps), isFront, areExps⟩ => ?_)
  have := Fact.mk isFront
  refine .after (yields_assignPairs fun pair member => ?_) fun r => ?_
  · obtain ⟨isTarget, isExp⟩ := List.of_mem_zip member
    exact ⟨all.out _ isTarget, areExps _ isExp⟩
  · infer_instance

end

end Assignment

/-! ### Operators -/

section Operators

variable {a b c : Fragment} {op test regex : String} {at_ : Position} {low : Bool}

section

variable [Fact (a.IsExpression σ)] [Fact (b.IsExpression σ)]

instance : Yields σ (fun _ => wider a b) (·.Spelt σ) := by
  unfold wider
  exact .walk

instance : Expression σ fun _ => remainder a b := by
  unfold remainder asRemainderOperand checkBoth
  exact .walk

variable [Fact (c.IsExpression σ)]

end

section

variable [Fact (c.IsExpression σ)]

instance {function : String} : Expression σ fun _ => changeByRegex function c regex at_ := by
  unfold changeByRegex regexClass
  exact .walk

end

end Operators

/-! ### Operators on places -/

section Places

variable {a : Access} {op undo : String} {c : Fragment} {native : List TypeName}

instance : Steady σ fun _ => mayChange a := by
  unfold mayChange isAssigned
  split <;> exact .walk

variable [Fact (a.Spelt σ)]

instance : Expression σ fun _ => stepBefore op a := by
  unfold stepBefore
  exact .walk

instance {result : Option TypeName} [plain : Fact (∀ name ∈ result, name.isCollection = false)] :
    Expression σ fun _ => stepAfter op undo result a := by
  unfold stepAfter Access.asBare
  dsimp only
  exact .walk

variable [Fact (c.IsExpression σ)]

/-- An operation on two expressions that makes one by all names. -/
abbrev Operation (σ : Spelling) (f g : Fragment → Fragment → Plain Fragment) : Prop :=
  ∀ a b : {c : Fragment // c.IsExpression σ}, Concurs σ (f a b) (g a b) (·.IsExpression σ)

instance fact_inl {α β : Type} {P : α → Prop} {Q : β → Prop} {a : α} [is : Fact (P a)] :
    Fact (Sum.elim P Q (.inl a)) := is

instance fact_inr {α β : Type} {P : α → Prop} {Q : β → Prop} {b : β} [is : Fact (Q b)] :
    Fact (Sum.elim P Q (.inr b)) := is

instance : Fact ((Shape.dims [.missing]).Spelt σ) := ⟨by simp [Shape.Spelt, Dim.Spelt, Dim.is, Dim.name?]⟩

instance {f g : Fragment → Fragment → Plain Fragment} [operation : Operation σ f g] :
    Concurs σ (@startChange σ.names op native f a c) (startChange op native g a c)
      (Sum.elim (·.IsExpression σ) (·.IsExpression σ)) := by
  unfold startChange valueOf
  have := operation ⟨{ shape := a.shape, value := a.readText }, Fact.out⟩ ⟨c, Fact.out⟩
  exact .walk

instance {f g : Fragment → Fragment → Plain Fragment} [operation : Operation σ f g] :
    Concurs σ (@changeBy σ.names op native f a c) (changeBy op native g a c) (·.IsExpression σ) := by
  unfold changeBy
  refine .of (.next fun ⟨r, is⟩ => ?_)
  cases r with
  | inl d =>
    have : Fact (d.IsExpression σ) := ⟨is⟩
    infer_instance
  | inr d =>
    have : Fact (d.IsExpression σ) := ⟨is⟩
    infer_instance

end Places

end PerlJava.Compile
