import PerlJava.Compile.Action.Statement
import PerlJava.Proofs.Compile.SpeltCalls

/-!
# Statements on types that are spelt the same

Statements, blocks, functions and the class of a file print the types that are known.
-/

set_option synthInstance.maxSize 10000

namespace PerlJava.Compile

open Java

variable {σ : Spelling} {c exp : Fragment} {name : String} {at_ : Position}

/-! ### Statements -/

section Statements

variable {expressions : List Fragment} {control comment : Option Fragment} {note : String}

instance {id : DeclId} : Steady σ fun _ => placeDeclaration id note := by
  unfold placeDeclaration isReserved
  refine .of (.next fun _ => .next fun _ => .next fun _ => .iteOf (fun _ => inferInstance) fun _ =>
    .next fun _ => .iteOf (fun _ => ?_) inferInstance)
  exact .after (.updateOther fun _ => ⟨rfl, rfl⟩) inferInstance

instance placed {ids : List DeclId} : Steady σ fun _ => placeDeclarations ids note := by
  induction ids generalizing note with
  | nil =>
    unfold placeDeclarations
    exact .walk
  | cons id ids ih =>
    unfold placeDeclarations
    exact .walk

instance [all : Fact (∀ c ∈ expressions, c.IsExpression σ)] :
    Expression σ fun _ => statementText expressions control comment at_ := by
  unfold statementText
  have calm {r : String × List Flag × String} [is : Fact (Flag.AllCalm σ r.2.1)] :
      Fact ((fun r : String × List Flag × String => Flag.AllCalm σ r.2.1) r) := is
  refine .of (.after (.repeating (R := fun r : String × List Flag × String => Flag.AllCalm σ r.2.1)
    Fact.out fun exp r => ?_) fun r => ?_)
  · have : Fact (Flag.AllCalm σ r.1.2.1) := ⟨r.2⟩
    infer_instance
  · have : Fact (Flag.AllCalm σ r.1.2.1) := ⟨r.2⟩
    cases control <;> infer_instance

instance : Steady σ fun _ => dropLabels :=
  .change (fun _ => .of_same rfl) fun _ spelt => { spelt with lineType := fun _ => (nomatch ·) }

instance {labels : List Label} {shape : Shape} [is : Fact (shape.Spelt σ)] :
    Statement σ fun _ => declareTypes labels shape at_ := by
  unfold declareTypes isDeclared
  refine .of (.after (.rounds fun label _ => .iteOf (fun _ => .next fun _ =>
    .iteOf (fun _ => inferInstance) fun _ => ?_) inferInstance) inferInstance)
  refine .after (.update (fun _ => .of_same rfl) fun s spelt => { spelt with
    declaredTypes := fun entry member => ?_ }) inferInstance
  obtain rfl | old := OrderedMap.mem_entries_insert member
  · exact is.out
  · exact spelt.declaredTypes entry old

instance {statements : Fragment} [is : Fact (statements.Spelt σ)] {statement : Option Fragment} :
    Statement σ fun _ => appendStatement statements statement := by
  unfold appendStatement
  split <;> exact .walk

/-! ### Calls of functions of the program -/

variable {package : Option Package}

instance [known : Fact (∀ p ∈ package, p.Spelt σ)] :
    Yields σ (fun _ => calledFunction? name at_ package) fun found => ∀ f ∈ found, f.Spelt σ := by
  unfold calledFunction?
  cases package with
  | some p =>
    have : Fact (∀ f ∈ p.functions.get? name, f.Spelt σ) :=
      ⟨fun f found => known.out p rfl _ (OrderedMap.mem_of_get? found)⟩
    exact .walk
  | none =>
    refine .of (.next fun s => ?_)
    have : Fact (∀ f ∈ s.1.functions.get? name, f.Spelt σ) :=
      ⟨fun f found => s.2.functions _ (OrderedMap.mem_of_get? found)⟩
    infer_instance

instance {f : Function} [is : Fact (f.Spelt σ)] : Fact (∀ shape ∈ f.arguments, shape.Spelt σ) :=
  ⟨is.out.arguments⟩

instance {f : Function} [is : Fact (f.Spelt σ)] : Fact (∀ shape ∈ f.results, shape.Spelt σ) :=
  ⟨is.out.results⟩

instance {arguments : List Fragment} [all : Fact (∀ c ∈ arguments, c.IsExpression σ)]
    [known : Fact (∀ p ∈ package, p.Spelt σ)] :
    Expression σ fun _ => callFunction name at_ arguments package := by
  unfold callFunction refusedCall
  refine .of (.next fun ⟨found, are⟩ => ?_)
  cases found with
  | none => infer_instance
  | some f =>
    have := Fact.mk (are f rfl)
    refine .iteOf (fun _ => inferInstance) fun _ => .next fun _ => ?_
    have only {shape : Shape} (is : f.results = [shape]) : Fact (shape.Spelt σ) :=
      ⟨(are f rfl).results shape (by simp [is])⟩
    dsimp only
    split <;> split
    · next is =>
      have := only is
      infer_instance
    · infer_instance
    · next is =>
      have := only is
      infer_instance
    · infer_instance

instance {exps : List Fragment} [all : Fact (∀ c ∈ exps, c.IsExpression σ)] :
    Statement σ fun _ => returnStatement exps at_ := by
  unfold returnStatement
  refine .of (.next fun s => ?_)
  split
  · next f found =>
    have := Fact.mk (s.2.currentFunction f found)
    infer_instance
  · infer_instance

instance {text : String} : Expression σ fun _ => commandValue text at_ := by
  unfold commandValue lookup?
  dsimp only
  split
  · exact .walk
  · refine .of (.next fun _ => ?_)
    split <;> infer_instance
  · exact .walk

end Statements

/-! ### Blocks -/

section Blocks

variable {body cond : Fragment} {text head tail before : String} {init conds steps : List Fragment}

instance : Steady σ fun _ => withDeclarations c text := by
  unfold withDeclarations
  exact .walk

instance : Steady σ fun _ => toggleInit :=
  .changeOther fun _ => ⟨rfl, rfl⟩

instance : Steady σ fun _ => refuseDeclarations cond := by
  unfold refuseDeclarations
  exact .walk

instance : Statement σ fun _ => doUntilLoop cond body at_ := by
  unfold doUntilLoop finishDoLoop mergeLevel
  exact .walk

instance {cond : Option Fragment} : Steady σ fun _ => branchHead cond head tail := by
  unfold branchHead
  cases cond <;> exact .walk

instance {cond : Option Fragment} : Statement σ fun _ => branch cond head tail body at_ := by
  unfold branch
  exact .walk

instance : Statement σ fun _ => elseBranch body at_ := by
  unfold elseBranch branch
  exact .walk

instance {first : Fragment} [Fact (first.Spelt σ)] {rest : Option Fragment} :
    Fact ((joinBranches first rest).Spelt σ) := by
  unfold joinBranches
  cases rest <;> infer_instance

instance : Steady σ fun _ => needsOuterBlock init := by
  unfold needsOuterBlock declaredType
  refine .of (.after (.rounds fun st r => .iteOf inferInstance fun _ => .iteOf inferInstance fun _ =>
    .next fun types => ?_) fun r => ?_)
  · dsimp only
    split <;> infer_instance
  · dsimp only
    split <;> infer_instance

instance : Steady σ fun _ => initialField init := by
  unfold initialField declaredType
  refine .of (.after (.rounds fun st _ => ?_) inferInstance)
  split <;> infer_instance

instance : Steady σ fun _ => stepField steps := by
  unfold stepField
  refine .of (.after (.rounds fun st r => .next fun _ => ?_) inferInstance)
  split <;> infer_instance

instance : Steady σ fun _ => conditionField conds steps before := by
  unfold conditionField
  refine .of (.after (.rounds fun st r => .next fun _ => ?_) inferInstance)
  dsimp only
  split <;> infer_instance

instance : Steady σ fun _ => initialStatements init before := by
  unfold initialStatements
  refine .of (.after (.rounds fun st _ => ?_) inferInstance)
  cases st.1.statement <;> infer_instance

instance : Steady σ fun _ => hasOuterBlock init before := by
  unfold hasOuterBlock
  exact .walk

instance : Steady σ fun _ => startLoopVariable :=
  .changeOther fun _ => ⟨rfl, rfl⟩

instance : Steady σ fun _ => endLoopVariable :=
  .changeOther fun _ => ⟨rfl, rfl⟩

instance : Steady σ fun _ => targetOf c := by
  unfold targetOf
  split <;> exact .walk

section

variable [Fact (c.IsExpression σ)] [isExp : Fact (exp.IsExpression σ)]

instance : Yields σ (fun _ => loopShape? exp) fun found => ∀ shape ∈ found, shape.Spelt σ := by
  have found {shape : Shape} [is : Fact (shape.Spelt σ)] : Fact (∀ s ∈ some shape, s.Spelt σ) :=
    ⟨by simpa using is.out⟩
  have none : Fact (∀ s ∈ (none : Option Shape), s.Spelt σ) := ⟨by simp⟩
  unfold loopShape?
  exact .walk

instance : Expression σ fun _ => foreachHead c exp := by
  unfold foreachHead foreachText freshLoopName
  refine .of (.next fun ⟨found, known⟩ => ?_)
  cases found with
  | none => infer_instance
  | some shape =>
    have := Fact.mk (known shape rfl)
    infer_instance

end

end Blocks

/-! ### Functions, packages and the class of a file -/

section Units

variable {arguments results : List Shape} {body : Fragment}

section

variable [known : Fact (∀ shape ∈ arguments, shape.Spelt σ)]
  [returned : Fact (∀ shape ∈ results, shape.Spelt σ)]

instance : Yields σ (fun _ => enterFunction arguments results name at_) (·.Spelt σ) := by
  unfold enterFunction isReserved
  refine .of (.next fun _ => .join fun _ => .next fun s => ?_)
  split
  · next f found =>
    have is : Fact (f.Spelt σ) := ⟨s.2.functions _ (OrderedMap.mem_of_get? found)⟩
    refine .after (.update (fun _ => .of_same rfl) fun s spelt => { spelt with
      currentFunction := by simpa using is.out }) inferInstance
  · have is : Fact (({ arguments, results, position := at_ } : Function).Spelt σ) :=
      ⟨known.out, returned.out⟩
    refine .after (.update (fun _ => .of_same rfl) fun s spelt => { spelt with
      currentFunction := by simpa using is.out
      functions := fun entry member => ?_ }) inferInstance
    obtain rfl | old := OrderedMap.mem_entries_insert member
    · exact is.out
    · exact spelt.functions entry old

instance (f : {f : Function // f.Spelt σ}) : Fact (f.1.Spelt σ) := ⟨f.2⟩

instance {α : Type} {as : List α} {f g : α → Plain Bool} [each : ∀ a, Leads σ (f a) (g a) fun _ => True] :
    Concurs σ (as.anyM f) (as.anyM g) fun _ => True := by
  induction as with
  | nil => exact .of ⟨.pure trivial⟩
  | cons a as ih =>
    refine ⟨(each a).concur.bind fun found _ => ?_⟩
    cases found with
    | true => exact .pure trivial
    | false => exact ih.concur

end

instance : Steady σ fun _ => checkLoopMarks body := by
  unfold checkLoopMarks
  exact .walk

instance [are : Fact (∀ shape ∈ results, shape.Spelt σ)] : Steady σ fun _ => resultType results := by
  unfold resultType
  split
  · exact .walk
  · next shape =>
    have : Fact (shape.Spelt σ) := ⟨are.out shape List.mem_cons_self⟩
    exact .walk
  · exact .walk

instance : Steady σ fun _ => methodText name body := by
  unfold methodText
  refine .of (.next fun _ => .next fun s => ?_)
  split
  · next f found =>
    have := Fact.mk (s.2.currentFunction f found)
    refine .next fun _ => .after (.update (fun _ => .of_same rfl) fun s spelt => { spelt with
      currentFunction := by simp }) inferInstance
  · infer_instance

instance : Steady σ fun _ => functionText name body := by
  unfold functionText
  exact .walk

instance : Steady σ fun _ => declarePackage name at_ := by
  unfold declarePackage
  exact .of (.next fun _ => .iteOf inferInstance fun _ => .iteOf inferInstance fun _ =>
    .last (.updateOther fun _ => ⟨rfl, rfl⟩))

instance : Yields σ (fun _ => accessPackage name at_) (·.Spelt σ) := by
  unfold accessPackage
  refine .of (.next fun s => ?_)
  split
  · next p found => exact ⟨.pure (s.2.packages _ (OrderedMap.mem_of_get? found))⟩
  · exact .next fun _ => ⟨.pure fun _ => (absurd · List.not_mem_nil)⟩

instance : Steady σ fun _ => publishPackage := by
  unfold publishPackage
  refine .of (.next fun known => .next fun _ => .last (.update (fun _ => .of_same rfl) fun s spelt =>
    { spelt with packages := fun entry member => ?_ }))
  obtain rfl | old := OrderedMap.mem_entries_insert member
  · exact known.2.functions
  · exact spelt.packages entry old

instance : Steady σ fun _ => importLines := by
  unfold importLines
  refine .of (.next fun _ => .after (.rounds fun name _ => ?_) inferInstance)
  split <;> infer_instance

instance {code functions : String} : Steady σ fun _ => prependCode code functions :=
  .changeOther fun _ => ⟨rfl, rfl⟩

instance : Steady σ fun _ => keepArguments := by
  refine .change (fun s => ?_) fun s spelt => ?_
  · unfold State.keepingArguments
    split <;> exact .of_same rfl
  · unfold State.keepingArguments
    split
    · exact spelt.of_typing rfl
    · exact spelt

instance : Steady σ fun _ => finishFile := by
  unfold finishFile publishIfPackage classText
  exact .walk

end Units

/-! ### Mappers and reducers -/

section Jobs

variable {slot : JobSlot} {body : Fragment} {control comment : Option Fragment}
  {exps : List Fragment}

instance : Yields σ (fun _ => jobType slot) fun type => (Shape.scalar type).Spelt σ := by
  unfold jobType
  refine .of (.next fun s => ⟨.pure ?_⟩)
  have known (n : Nat) : (Shape.scalar (s.1.job.types.getD n .string)).Spelt σ := by
    rw [List.getD_eq_getElem?_getD]
    cases found : s.1.job.types[n]? with
    | none => exact Shape.spelt_scalar rfl
    | some type => exact s.2.job.types type (List.mem_of_getElem? found)
  cases slot <;> exact known _

instance (type : {type // (Shape.scalar type).Spelt σ}) : Fact ((Shape.scalar type.1).Spelt σ) := ⟨type.2⟩

theorem steady_changeJob {f : Job → Job} (known : ∀ job : Job, job.Spelt σ → (f job).Spelt σ) :
    Steady σ fun _ => changeJob f :=
  .update (fun _ => .of_same rfl) fun s spelt => { spelt with job := known s.job spelt.job }

instance {types : Option (List TypeName)}
    [known : Fact (∀ list ∈ types, ∀ type ∈ list, (Shape.scalar type).Spelt σ)] :
    Steady σ fun _ => startMapper types at_ := by
  have imports : Steady σ fun _ => ["Mapper", "HadoopIO", "HadoopContext", "IOException"].forM addImport := by
    simp only [List.forM_eq_forM, List.forM_cons, List.forM_nil]
    exact .walk
  unfold startMapper
  refine .of (.next fun _ => .joinUnless fun _ => .after
    (steady_changeJob fun _ is => ⟨is.types, is.key, is.value⟩) fun _ => .next fun _ => .join fun _ => ?_)
  cases types with
  | none => infer_instance
  | some types =>
    refine .after (steady_changeJob fun _ is => ⟨?_, is.key, is.value⟩) inferInstance
    exact List.forall_mem_cons.2 ⟨Shape.spelt_scalar rfl, known.out types rfl⟩

instance {f : String → String} : Steady σ fun _ => changeFunctions f :=
  .changeOther fun _ => ⟨rfl, rfl⟩

instance : Steady σ fun _ => mapperMethod body := by
  unfold mapperMethod jobClass
  refine .of (.next fun _ => .after (.updateOther fun _ => ⟨rfl, rfl⟩) fun _ => .next fun _ =>
    .next fun _ => .after (.updateOther fun _ => ⟨rfl, rfl⟩) inferInstance)

instance : Statement σ fun _ => finishMapper body := by
  unfold finishMapper
  exact .walk

instance {a : Access} [Fact (a.Spelt σ)] : Expression σ fun _ => mapperLoopHead a at_ := by
  unfold mapperLoopHead
  exact .of (.take .read inferInstance)

instance : Steady σ fun _ => noteLoop body at_ := by
  unfold noteLoop
  exact .of (.after (steady_changeJob fun _ is => ⟨is.types, is.key, is.value⟩) inferInstance)

instance {head : Fragment} [Fact (head.Spelt σ)] : Statement σ fun _ => mapperLoop head body at_ := by
  unfold mapperLoop
  exact .walk

instance [all : Fact (∀ c ∈ exps, c.IsExpression σ)] : Expression σ fun _ => writePair exps at_ := by
  unfold writePair jobClass
  split
  · next key _ val _ =>
    have : Fact (key.IsExpression σ) := ⟨all.out key (by simp)⟩
    have : Fact (val.IsExpression σ) := ⟨all.out val (by simp)⟩
    exact .walk
  · exact .walk

instance : Statement σ fun _ => reducerOperation body := by
  unfold reducerOperation
  exact .of (.take (steady_changeJob fun _ is => ⟨is.types, is.key, is.value⟩) inferInstance)

instance : Statement σ fun _ => reducerChange body := by
  unfold reducerChange
  exact .of (.take (steady_changeJob fun _ is => ⟨is.types, is.key, is.value⟩) inferInstance)

/-- The key or the value of a reducer is stored with its type. -/
def StoresSpelt (σ : Spelling) (store : String × Shape → Job → Job) : Prop :=
  ∀ (part : String × Shape) (job : Job), part.2.Spelt σ → job.Spelt σ → (store part job).Spelt σ

section

variable [all : Fact (∀ c ∈ exps, c.IsExpression σ)]

theorem yields_reducerVariable {store : String × Shape → Job → Job} (stores : StoresSpelt σ store)
    {missing : Message} : Yields σ (fun _ => reducerVariable store missing exps at_)
      fun exps => ∀ c ∈ exps, c.IsExpression σ := by
  unfold reducerVariable
  refine .of ?_
  split
  · infer_instance
  · next first rest =>
    obtain ⟨isFirst, areRest⟩ := List.forall_mem_cons.1 all.out
    have := Fact.mk isFirst
    have := Fact.mk areRest
    split
    · infer_instance
    · refine .next fun pending => ?_
      split
      · exact .next fun v => .after (steady_changeJob fun job => stores _ job pending.2) inferInstance
      · infer_instance

variable {label : Position}

instance : Expression σ fun _ => reducerKey exps control comment at_ label := by
  unfold reducerKey finishStatement
  refine .of (.take (yields_reducerVariable ?_) inferInstance)
  exact fun part job is known => ⟨known.types, by simpa using is, known.value⟩

instance : Expression σ fun _ => reducerValue exps control comment at_ label := by
  unfold reducerValue finishStatement
  refine .of (.take (yields_reducerVariable ?_) inferInstance)
  exact fun part job is known => ⟨known.types, known.key, by simpa using is⟩

end

instance : Yields σ (fun _ => reducerParts?) fun found =>
    ∀ parts ∈ found, parts.key.2.Spelt σ ∧ parts.value.2.Spelt σ := by
  unfold reducerParts?
  refine .of (.next fun _ => .next fun s => ⟨.pure fun parts found => ?_⟩)
  obtain ⟨_, -, found⟩ := Option.bind_eq_some_iff.1 found
  obtain ⟨_, -, found⟩ := Option.bind_eq_some_iff.1 found
  obtain ⟨key, isKey, found⟩ := Option.bind_eq_some_iff.1 found
  obtain ⟨value, isValue, ⟨⟩⟩ := Option.bind_eq_some_iff.1 found
  exact ⟨s.2.job.key key isKey, s.2.job.value value isValue⟩

instance {parts : Reducer} [Fact (parts.key.2.Spelt σ)] [Fact (parts.value.2.Spelt σ)] :
    Steady σ fun _ => reducerMethod parts body at_ := by
  unfold reducerMethod jobClass freshLoopName
  exact .of (.next fun _ => .joinUnless fun _ => .next fun _ => .next fun _ =>
    .after (.updateOther fun _ => ⟨rfl, rfl⟩) fun _ => .next fun _ => .next fun _ =>
      .after (.updateOther fun _ => ⟨rfl, rfl⟩) inferInstance)

instance {parts : Position} : Statement σ fun _ => finishReducer body at_ parts := by
  unfold finishReducer
  refine .of (.next fun ⟨found, are⟩ => ?_)
  cases found with
  | none => infer_instance
  | some reducer =>
    have := Fact.mk (are reducer rfl).1
    have := Fact.mk (are reducer rfl).2
    infer_instance

end Jobs

end PerlJava.Compile
