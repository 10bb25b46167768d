import PerlJava.Proofs.Compile.ImportedInterfaces
import PerlJava.Proofs.Java.ControlFlow

/-!
# The marks of statements

The code of a statement is that of a Java statement, in which each `last` and `next` of the source
has become a jump. Its marks are those of that Java statement: they tell the strays that lie in no
conditional with several branches, and whether it counts as one that returns. Expressions have no
such marks, and no jumps. This holds of all trees that are formed without mappers and reducers, by
induction over their formation.
-/

namespace PerlJava.Java

def Jump.flag : Jump → Flag
  | break_ => .last
  | continue_ => .next

/-- Marks tell the strays of a statement that lie in no conditional with several branches, and whether
it counts as one that returns. -/
structure Stmt.Marks (st : Stmt) (flags : List Flag) : Prop where
  jumps (j : Jump) : j.flag ∈ flags ↔ j ∈ st.reported
  returns : Flag.returns ∈ flags ↔ st.marked = true

namespace Stmt.Marks

variable {st other : Stmt} {flags more : List Flag}

theorem of_calm (calm : ∀ f ∈ flags, f.Calm) (none : st.reported = []) (unmarked : st.marked = false) :
    st.Marks flags := by
  refine ⟨fun j => ⟨fun member => ?_, by simp [none]⟩, ⟨fun member => ?_, by simp [unmarked]⟩⟩
  · obtain ⟨next, last, -⟩ := calm _ member
    cases j with
    | break_ => exact absurd rfl last
    | continue_ => exact absurd rfl next
  · exact absurd rfl (calm _ member).2.2

end Stmt.Marks

end PerlJava.Java

namespace PerlJava.Compile

open Java
open Perl (Symbol Production rules)

/-! ### The code of statements -/

section Blocks

variable {s s' : State}

variable {c body cond exp : Fragment} {at_ : Position}

theorem withDeclarations_ok {text value : String}
    (run : (withDeclarations c text).run s = .ok value s') :
    value = text ∨ ∃ front, value = braced (front ++ text) := by
  unfold withDeclarations at run
  split at run
  · cases run
    exact .inl rfl
  · obtain ⟨front, _, -, ⟨⟩⟩ := Plain.cut run
    exact .inr ⟨front, rfl⟩

/-- A text is a Java statement, which may stand in a block after some text. -/
def IsStmt (st : Stmt) (text : String) : Prop :=
  text = st.print ∨ ∃ front, text = braced (front ++ st.print)

/-- Code is a loop around a body. Its marks tell at most that it returns, which it does as its body
does if that is bound to run. -/
structure IsLoop (l : Loop) (body c : Fragment) : Prop where
  text : ∀ st : Stmt, body.value = st.print → IsStmt (.loop l st) c.value
  jumps (j : Jump) : j.flag ∉ c.flags
  returns : Flag.returns ∈ c.flags ↔ l.once = true ∧ Flag.returns ∈ body.flags

theorem IsLoop.of_calm {l : Loop} (skipped : l.once = false)
    (calm : ∀ f ∈ c.flags, f.Calm)
    (text : ∀ st : Stmt, body.value = st.print → IsStmt (.loop l st) c.value) : IsLoop l body c := by
  refine ⟨text, fun j member => ?_, fun member => absurd rfl (calm _ member).2.2, by simp [skipped]⟩
  obtain ⟨next, last, -⟩ := calm _ member
  cases j with
  | break_ => exact last rfl
  | continue_ => exact next rfl

theorem IsLoop.marks {l : Loop} (loop : IsLoop l body c) {st : Stmt}
    (marks : st.Marks body.flags) : (Stmt.loop l st).Marks c.flags := by
  refine ⟨fun j => ?_, ?_⟩
  · simp [loop.jumps j, Stmt.reported]
  · rw [loop.returns, marks.returns, Stmt.marked, Bool.and_eq_true]

theorem whileLoop_ok (run : whileLoop cond body at_ s = .ok c s') : ∃ l, IsLoop l body c := by
  obtain ⟨_, s₁, -, run⟩ := M.cut run
  obtain ⟨truth, s₂, -, run⟩ := M.cut run
  obtain ⟨value, s₃, made, run⟩ := M.cut run
  obtain ⟨_, s₄, -, ⟨⟩⟩ := M.cut run
  refine ⟨.while_ truth, .of_calm rfl (by simp) fun st is => ?_⟩
  rw [is] at made
  exact withDeclarations_ok made

theorem untilLoop_ok (run : untilLoop cond body at_ s = .ok c s') : ∃ l, IsLoop l body c := by
  obtain ⟨_, s₁, -, run⟩ := M.cut run
  obtain ⟨truth, s₂, -, run⟩ := M.cut run
  obtain ⟨_, s₃, -, run⟩ := M.cut run
  obtain ⟨_, s₄, -, ⟨⟩⟩ := M.cut run
  refine ⟨.while_ ("!(" ++ truth ++ ")"), .of_calm rfl (by simp) fun st is => .inl ?_⟩
  have head : "while(!(" = "while(" ++ "!(" := rfl
  have tail : "))\x7b\n" = ")" ++ ")\x7b\n" := rfl
  dsimp only
  rw [is, head, tail]
  simp only [Stmt.print, Loop.head, Loop.tail, String.append_assoc, -String.reduceAppend]

theorem finishDoLoop_ok {value cond : String} (run : finishDoLoop body value at_ s = .ok c s')
    (text : ∀ st : Stmt, body.value = st.print → IsStmt (.loop (.doWhile cond) st) value) :
    IsLoop (.doWhile cond) body c := by
  obtain ⟨_, s₁, -, ⟨⟩⟩ := M.cut run
  refine ⟨text, fun j => ?_, ?_⟩
  · cases j <;> dsimp only <;> split <;> simp [Jump.flag]
  · dsimp only
    split <;> simp_all [Fragment.has, Loop.once]

theorem doWhileLoop_ok (run : doWhileLoop cond body at_ s = .ok c s') : ∃ l, IsLoop l body c := by
  obtain ⟨_, s₁, -, run⟩ := M.cut run
  obtain ⟨truth, s₂, -, run⟩ := M.cut run
  obtain ⟨value, s₃, made, run⟩ := M.cut run
  refine ⟨.doWhile truth, finishDoLoop_ok run fun st is => ?_⟩
  rw [is] at made
  have same : "do\x7b\n" ++ st.print ++ "\x7dwhile(" ++ truth ++ ");\n"
      = (Stmt.loop (.doWhile truth) st).print := by
    simp [Stmt.print, Loop.head, Loop.tail, String.append_assoc]
  rw [same] at made
  exact withDeclarations_ok made

theorem doUntilLoop_ok (run : doUntilLoop cond body at_ s = .ok c s') : ∃ l, IsLoop l body c := by
  obtain ⟨_, s₁, -, run⟩ := M.cut run
  obtain ⟨truth, s₂, -, run⟩ := M.cut run
  obtain ⟨_, s₃, -, run⟩ := M.cut run
  refine ⟨.doWhile ("!(" ++ truth ++ ")"), finishDoLoop_ok run fun st is => .inl ?_⟩
  have head : "\x7dwhile(!(" = "\x7dwhile(" ++ "!(" := rfl
  have tail : "));\n" = ")" ++ ");\n" := rfl
  rw [is, head, tail]
  simp only [Stmt.print, Loop.head, Loop.tail, String.append_assoc, -String.reduceAppend]

theorem forLoop_ok {init conds steps : List Fragment}
    (run : forLoop init conds steps body at_ s = .ok c s') : ∃ l, IsLoop l body c := by
  obtain ⟨value, s₁, made, run⟩ := M.cut run
  obtain ⟨_, s₂, -, ⟨⟩⟩ := M.cut run
  obtain ⟨⟨third, outer⟩, _, -, made⟩ := Plain.cut made
  obtain ⟨⟨second, outer⟩, _, -, made⟩ := Plain.cut made
  obtain ⟨⟨first, outer⟩, _, -, made⟩ := Plain.cut made
  cases made
  refine ⟨.for_ (first ++ "; " ++ second ++ "; " ++ third) "", .of_calm rfl (by simp) fun st is => ?_⟩
  have same : "for(" ++ first ++ "; " ++ second ++ "; " ++ third ++ ")\x7b\n" ++ body.value ++ "\x7d\n"
      = (Stmt.loop (.for_ (first ++ "; " ++ second ++ "; " ++ third) "") st).print := by
    simp [is, Stmt.print, Loop.head, Loop.tail, String.append_assoc]
  dsimp only
  rw [same]
  split
  · exact .inl rfl
  · exact .inr ⟨outer, rfl⟩

theorem sync_ok {d : Fragment} (run : (sync c).run s = .ok d s') : d = c := by
  unfold sync at run
  split at run
  · obtain ⟨_, _, -, ⟨⟩⟩ := Plain.cut run
    rfl
  · cases run
    rfl

def IsForHead (c : Fragment) : Prop :=
  ∃ fields start, c.value = "for(" ++ fields ++ ")\x7b" ++ start

theorem foreachLoop_ok {head : Fragment} (calm : ∀ f ∈ head.flags, f.Calm)
    (is : IsForHead head) (run : foreachLoop head body at_ s = .ok c s') : ∃ l, IsLoop l body c := by
  obtain ⟨whole, s₁, shown, run⟩ := M.cut run
  obtain ⟨_, s₂, -, run⟩ := M.cut run
  obtain ⟨value, s₃, made, run⟩ := M.cut run
  obtain rfl := sync_ok shown
  obtain rfl := sync_ok run
  obtain ⟨fields, start, is⟩ := is
  refine ⟨.for_ fields start, .of_calm rfl calm fun st same => ?_⟩
  dsimp only at made ⊢
  rw [same, is] at made
  exact withDeclarations_ok made

/-- What is no head of a loop has been reported. -/
theorem repeatHead_ok (run : (repeatHead exp).run s = .ok c s')
    (fine : s'.codeError = false) : IsForHead c := by
  obtain ⟨_, _, -, run⟩ := Plain.cut run
  obtain ⟨head, _, -, run⟩ := Plain.cut run
  split at run
  · obtain ⟨name, _, -, run⟩ := Plain.cut run
    obtain ⟨count, _, -, ⟨⟩⟩ := Plain.cut run
    refine ⟨"Integer " ++ name ++ "=0; " ++ name ++ "<" ++ count ++ "; " ++ name ++ "++", "", ?_⟩
    have start : "for(Integer " = "for(" ++ "Integer " := rfl
    have tail : "++)\x7b" = "++" ++ ")\x7b" := rfl
    dsimp only
    rw [start, tail]
    simp only [String.append_assoc, String.append_empty, -String.reduceAppend]
  · obtain ⟨_, _, refused, ⟨⟩⟩ := Plain.cut run
    simp [report_failed rfl refused] at fine

theorem loopShape?_ok {shape : Option Shape}
    (run : (loopShape? exp).run s = .ok shape s') (fine : s'.codeError = false) : shape.isSome = true := by
  obtain ⟨_, _, -, run⟩ := Plain.cut run
  obtain ⟨head, _, -, run⟩ := Plain.cut run
  split at run
  · obtain ⟨_, _, -, ⟨⟩⟩ := Plain.cut run
    rfl
  · obtain ⟨_, _, refused, ⟨⟩⟩ := Plain.cut run
    simp [report_failed rfl refused] at fine

theorem foreachText_ok {v : Fragment} {shape : Shape}
    (run : (foreachText v exp shape).run s = .ok c s') : IsForHead c := by
  obtain ⟨type, _, -, run⟩ := Plain.cut run
  have head (name first : String) : "for(" ++ type ++ " " ++ name ++ " : " ++ exp.value ++ ")\x7b" ++ first
      = "for(" ++ (type ++ " " ++ name ++ " : " ++ exp.value) ++ ")\x7b" ++ first := by
    simp only [String.append_assoc]
  dsimp only at run
  split at run
  · obtain ⟨name, _, -, run⟩ := Plain.cut run
    obtain ⟨text, _, -, ⟨⟩⟩ := Plain.cut run
    exact ⟨_, _, head _ _⟩
  · cases run
    exact ⟨_, _, head _ _⟩

theorem foreachHead_ok {v : Fragment} (run : foreachHead v exp s = .ok c s')
    (fine : s'.codeError = false) : IsForHead c := by
  obtain ⟨shape?, s₁, shown, run⟩ := M.cut run
  cases shape? with
  | none =>
    cases run
    cases loopShape?_ok shown fine
  | some shape =>
    obtain ⟨_, _, -, run⟩ := M.cut run
    obtain ⟨_, _, -, run⟩ := M.cut run
    exact foreachText_ok run

/-- Code is a branch, maybe one that follows another: it has the marks of its body. -/
structure IsBranch (further : Bool) (body c : Fragment) : Prop where
  flags : c.flags = body.flags
  text : ∃ cond, c.value = (if further then "else if(" else "if(") ++ cond ++ ")\x7b\n" ++ body.value
    ++ "\x7d"

theorem branch_ok {head tail : String} (run : branch cond head tail body at_ s = .ok c s') :
    c.flags = body.flags ∧ ∃ truth, c.value = head ++ truth ++ tail ++ body.value ++ "\x7d" := by
  obtain ⟨opening, s₁, opened, run⟩ := M.cut run
  obtain ⟨level, s₂, -, ⟨⟩⟩ := M.cut run
  obtain ⟨_, _, -, opened⟩ := M.cut opened
  obtain ⟨truth, _, -, ⟨⟩⟩ := M.cut opened
  exact ⟨rfl, truth, rfl⟩

theorem ifBranch_ok (run : ifBranch cond body at_ s = .ok c s') : IsBranch false body c := by
  obtain ⟨flags, truth, text⟩ := branch_ok run
  exact ⟨flags, truth, text⟩

theorem unlessBranch_ok (run : unlessBranch cond body at_ s = .ok c s') : IsBranch false body c := by
  obtain ⟨flags, truth, text⟩ := branch_ok run
  have head : "if(!(" = "if(" ++ "!(" := rfl
  have tail : "))\x7b\n" = ")" ++ ")\x7b\n" := rfl
  refine ⟨flags, "!(" ++ truth ++ ")", text.trans ?_⟩
  rw [head, tail]
  simp only [Bool.false_eq_true, if_false, String.append_assoc, -String.reduceAppend]

theorem elsifBranch_ok (run : elsifBranch cond body at_ s = .ok c s') : IsBranch true body c := by
  obtain ⟨flags, truth, text⟩ := branch_ok run
  exact ⟨flags, truth, text⟩

theorem elseBranch_ok (run : elseBranch body at_ s = .ok c s') :
    c.flags = body.flags ∧ c.value = "else\x7b\n" ++ body.value ++ "\x7d\n" := by
  obtain ⟨code, s₁, made, ⟨⟩⟩ := M.cut run
  obtain ⟨opening, s₂, opened, made⟩ := M.cut made
  obtain ⟨level, s₃, -, ⟨⟩⟩ := M.cut made
  cases opened
  refine ⟨rfl, ?_⟩
  dsimp only
  rw [String.append_empty, String.append_assoc]
  rfl

/-- The branches after the first one, if there are any, are those of a Java statement. -/
def AreBranches (rest : Stmt) : Option Fragment → Prop
  | none => rest = .done
  | some c => rest.isDone = false ∧ c.value = rest.print ∧ rest.Marks c.flags

theorem joinBranches_ok {further : Bool} {first : Fragment} {rest : Option Fragment} {b r : Stmt}
    (is : IsBranch further body first) (text : body.value = b.print) (marks : b.Marks body.flags)
    (are : AreBranches r rest) : ∃ cond,
      (joinBranches first rest).value = (Stmt.branch further cond b r).print
        ∧ (Stmt.branch further cond b r).Marks (joinBranches first rest).flags := by
  obtain ⟨flags, cond, value⟩ := is
  rw [text] at value
  rw [← flags] at marks
  refine ⟨cond, ?_⟩
  cases rest with
  | none =>
    obtain rfl : r = .done := are
    refine ⟨congrArg (· ++ "\n") value, marks.jumps, marks.returns.trans ?_⟩
    simp [Stmt.marked, Stmt.isDone]
  | some c =>
    obtain ⟨more, textRest, marksRest⟩ := are
    refine ⟨congrArg₂ (· ++ ·) value textRest, fun j => ?_, ?_⟩
    · cases j <;> simp only [joinBranches] <;> split <;> simp [Jump.flag, Stmt.reported, more]
    · have both : (first.has .returns && c.has .returns) = (b.marked && r.marked) := by
        rw [Bool.eq_iff_iff, Bool.and_eq_true, Bool.and_eq_true, ← marks.returns, ← marksRest.returns,
          Fragment.has, Fragment.has, List.contains_iff_mem, List.contains_iff_mem]
      simp only [joinBranches, both, Stmt.marked, more, Bool.false_or]
      split <;> simp_all

theorem conditionalBlock_ok {first : Fragment} {rest : Option Fragment}
    (run : (conditionalBlock first rest).run s = .ok c s') {st : Stmt}
    (text : (joinBranches first rest).value = st.print) :
    c.flags = (joinBranches first rest).flags ∧ IsStmt st c.value := by
  obtain ⟨_, s₁, -, run⟩ := Plain.cut run
  obtain ⟨value, s₂, made, ⟨⟩⟩ := Plain.cut run
  rw [text] at made
  exact ⟨rfl, withDeclarations_ok made⟩

theorem plainBlock_ok (run : plainBlock body at_ s = .ok c s') :
    c.flags = body.flags ∧ c.value = braced body.value := by
  obtain ⟨_, s₁, -, ⟨⟩⟩ := M.cut run
  exact ⟨rfl, rfl⟩

theorem returnStatement_ok {exps : List Fragment}
    (run : (returnStatement exps at_).run s = .ok c s') (fine : s'.codeError = false) :
    ∃ value, c.value ++ ";\n" = (Stmt.return_ value).print ∧ (Stmt.return_ value).Marks c.flags := by
  unfold returnStatement at run
  obtain ⟨_, _, ⟨⟩, run⟩ := Plain.cut run
  split at run
  · obtain ⟨_, -, run⟩ := Plain.join_eq_ok.1 run
    split at run
    · cases run
      exact ⟨none, rfl, .of_calm (by simp) rfl rfl⟩
    · obtain ⟨⟨declares, listed⟩, _, -, ⟨⟩⟩ := Plain.cut run
      have marks (value : String) : (Stmt.return_ (some value)).Marks [.returns] := by
        refine ⟨fun j => ?_, by simp [Stmt.marked]⟩
        cases j <;> simp [Jump.flag, Stmt.reported]
      dsimp only
      split
      · refine ⟨some ("new Object[]\x7b" ++ Text.sliceTo listed (-2) ++ "\x7d"), ?_, marks _⟩
        have head : "return new Object[]\x7b" = "return " ++ "new Object[]\x7b" := rfl
        rw [head]
        simp only [Stmt.print, Option.getD_some, String.append_assoc, -String.reduceAppend]
      · exact ⟨some (Text.sliceTo listed (-2)), rfl, marks _⟩
  · obtain ⟨_, _, refused, ⟨⟩⟩ := Plain.cut run
    simp [report_failed rfl refused] at fine

end Blocks

end PerlJava.Compile
