import PerlJava.Proofs.Compile.LexicalScope
import PerlJava.Proofs.Compile.LoopJumps

/-!
# What the branches of a conditional have in common

A conditional assigns what all its branches assign, apart from what they declare themselves, and it
counts as one that returns if all of them do. An `else` that is missing is not looked at: the
branches that are there decide.

A method needs no `return null` at its end if its statements count as such that return. Then all
paths through them do, unless a mark says too much somewhere.
-/

namespace PerlJava.Compile

open Java
open Perl (Symbol)

/-! ### Branches -/

inductive BranchKind where
  | if_ (cond : Fragment)
  | unless_ (cond : Fragment)
  | elsif (cond : Fragment)
  | else_

def BranchKind.close (body : Fragment) (at_ : Position) : BranchKind → M Fragment
  | if_ cond => ifBranch cond body at_
  | unless_ cond => unlessBranch cond body at_
  | elsif cond => elsifBranch cond body at_
  | else_ => elseBranch body at_

/-- A branch that has been closed, with its statements and the level that ended there. -/
structure ClosedBranch where
  kind : BranchKind
  body : Fragment
  at_ : Position
  start : State
  finish : State
  level : Level
  code : Fragment
  innermost : readLevel start = .ok level start
  closed : kind.close body at_ start = .ok code finish

section Closed

variable {s s' : State} {level : Level} {body c : Fragment} {at_ : Position}

theorem readLevel_eq_ok : readLevel s = .ok level s ↔ ∃ outer outer',
    s.declared = level.declared :: outer ∧ s.assigned = level.assigned :: outer' := by
  unfold readLevel
  constructor
  · intro run
    split at run
    · next declared outer assigned outer' stack stack' =>
      cases run
      exact ⟨outer, outer', stack, stack'⟩
    · cases run
  · rintro ⟨outer, outer', stack, stack'⟩
    rw [stack, stack']

theorem readLevel_of_popLevel (run : popLevel s = .ok level s') : readLevel s = .ok level s := by
  obtain ⟨declared, s₁, first, run⟩ := M.cut run
  obtain ⟨assigned, s₂, second, ⟨⟩⟩ := M.cut run
  unfold popDeclared at first
  split at first
  · next stack =>
    cases first
    unfold popAssigned at second
    split at second
    · next stack' =>
      cases second
      exact readLevel_eq_ok.2 ⟨_, _, stack, stack'⟩
    · cases second
  · cases first

instance {γ : Type} {part : State → γ} {text : String} : Keeps part (withDeclarations c text) := by
  have text {p : Pending} : Keeps part (liftM p.text) := .lift
  unfold withDeclarations declarations
  infer_instance

instance {γ : Type} {part : State → γ} [Untold part] {cond : Option Fragment} {head tail : String} :
    Keeps part (branchHead cond head tail) := by
  unfold branchHead
  cases cond <;> infer_instance

/-- A branch ends the innermost level. It has the marks of its statements and what the level passes
on. -/
theorem branch_keeps {cond : Option Fragment} {head tail : String}
    (run : branch cond head tail body at_ s = .ok c s') :
    ∃ level, readLevel s = .ok level s ∧ c.flags = body.flags ∧ c.assigned = level.passedOn := by
  obtain ⟨opening, s₁, opened, run⟩ := M.cut run
  obtain ⟨level, s₂, closed, ⟨⟩⟩ := M.cut run
  obtain ⟨outer, outer', stack, stack'⟩ := readLevel_eq_ok.1 (readLevel_of_popLevel closed)
  have : Untold fun s : State => (s.declared, s.assigned) := ⟨fun _ _ => rfl⟩
  have same : Preserves (fun s => (s.declared, s.assigned)) (branchHead cond head tail) := .walk
  obtain ⟨declared, assigned⟩ := Prod.mk.inj (same _ _ _ opened)
  refine ⟨level, readLevel_eq_ok.2 ⟨outer, outer', ?_, ?_⟩, rfl, rfl⟩
  · exact declared.symm.trans stack
  · exact assigned.symm.trans stack'

theorem BranchKind.close_keeps {kind : BranchKind} (closed : kind.close body at_ s = .ok c s') :
    ∃ level, readLevel s = .ok level s ∧ c.flags = body.flags ∧ c.assigned = level.passedOn := by
  cases kind with
  | if_ | unless_ | elsif => exact branch_keeps closed
  | else_ =>
    obtain ⟨c, _, made, ⟨⟩⟩ := M.cut closed
    obtain ⟨level, innermost, kept⟩ := branch_keeps made
    exact ⟨level, innermost, kept⟩

end Closed

namespace ClosedBranch

def Assigns (b : ClosedBranch) (name : Option String) : Prop :=
  name ∈ b.level.assigned ∧ ¬∃ x, name = some x ∧ b.level.declared.contains x = true

def Returns (b : ClosedBranch) : Prop :=
  Flag.returns ∈ b.body.flags

/-- Each branch that is closed is one: there is a level that ends. -/
theorem of_closed {kind : BranchKind} {body code : Fragment} {at_ : Position} {s s' : State}
    (closed : kind.close body at_ s = .ok code s') :
    ∃ b : ClosedBranch, b.kind = kind ∧ b.body = body ∧ b.start = s ∧ b.code = code := by
  obtain ⟨level, innermost, -⟩ := BranchKind.close_keeps closed
  exact ⟨⟨kind, body, at_, s, s', level, code, innermost, closed⟩, rfl, rfl, rfl, rfl⟩

theorem code_keeps (b : ClosedBranch) :
    b.code.flags = b.body.flags ∧ b.code.assigned = b.level.passedOn := by
  obtain ⟨level, innermost, flags, assigned⟩ := BranchKind.close_keeps b.closed
  cases innermost.symm.trans b.innermost
  exact ⟨flags, assigned⟩

theorem mem_assigned (b : ClosedBranch) {name : Option String} :
    name ∈ b.code.assigned ↔ b.Assigns name := by
  rw [b.code_keeps.2, Level.passedOn, Assigns, List.mem_filter]
  cases name <;> simp

theorem mem_flags (b : ClosedBranch) : Flag.returns ∈ b.code.flags ↔ b.Returns := by
  rw [b.code_keeps.1, Returns]

end ClosedBranch

/-! ### Conditionals -/

/-- A branch, further ones with conditions of their own, and maybe an `else`. -/
structure Conditional where
  first : ClosedBranch
  others : List ClosedBranch
  last : Option ClosedBranch

namespace Conditional

def branches (c : Conditional) : List ClosedBranch :=
  c.first :: (c.others ++ c.last.toList)

/-- The branches after the first one, put together from the right. -/
def later (others : List ClosedBranch) (last : Option ClosedBranch) : Option Fragment :=
  others.foldr (fun b rest => some (joinBranches b.code rest)) (last.map (·.code))

def translate (c : Conditional) : Plain Fragment :=
  conditionalBlock c.first.code (later c.others c.last)

end Conditional

/-- Code has what all of some branches have in common. -/
structure Meets (branches : List ClosedBranch) (c : Fragment) : Prop where
  assigned (name : Option String) : name ∈ c.assigned ↔ ∀ b ∈ branches, b.Assigns name
  returns : Flag.returns ∈ c.flags ↔ ∀ b ∈ branches, b.Returns
  declares : c.declares = branches.flatMap (·.code.declares)

namespace Meets

variable {branches : List ClosedBranch} {c : Fragment} (b : ClosedBranch)

include b

theorem single : Meets [b] b.code := by
  constructor
  · intro name
    rw [List.forall_mem_singleton, b.mem_assigned]
  · rw [List.forall_mem_singleton, b.mem_flags]
  · rw [List.flatMap_singleton]

theorem alone : Meets [b] (joinBranches b.code none) :=
  ⟨(single b).assigned, (single b).returns, (single b).declares⟩

/-- A branch in front of others. -/
theorem join (meets : Meets branches c) : Meets (b :: branches) (joinBranches b.code (some c)) := by
  constructor
  · intro name
    rw [List.forall_mem_cons, ← meets.assigned, ← b.mem_assigned]
    simp [joinBranches]
  · rw [List.forall_mem_cons, ← meets.returns, ← b.mem_flags]
    simp only [joinBranches]
    split <;> simp_all [Fragment.has]
  · rw [List.flatMap_cons, ← meets.declares]
    rfl

end Meets

namespace Conditional

/-- The branches after the first one, if there are any, have been put together. -/
theorem later_meets (others : List ClosedBranch) (last : Option ClosedBranch) :
    match later others last with
    | none => others ++ last.toList = []
    | some c => Meets (others ++ last.toList) c := by
  induction others with
  | nil =>
    cases last with
    | none => rfl
    | some b => exact .single b
  | cons b others ih =>
    have step : later (b :: others) last = some (joinBranches b.code (later others last)) := rfl
    rw [step]
    cases rest : later others last with
    | none =>
      rw [rest] at ih
      rw [List.cons_append, ih]
      exact .alone b
    | some c =>
      rw [rest] at ih
      exact ih.join b

theorem joined_meets (c : Conditional) :
    Meets c.branches (joinBranches c.first.code (later c.others c.last)) := by
  have others := later_meets c.others c.last
  unfold branches
  cases rest : later c.others c.last with
  | none =>
    rw [rest] at others
    rw [others]
    exact .alone c.first
  | some code =>
    rw [rest] at others
    exact others.join c.first

/-- What a conditional makes of its branches: the names that all of them assign and do not declare are
added to those of the level around it, and it is marked to return if all of them are. It may fail only
if there is no level, or at declarations that a branch waits for. -/
def MeetsBranches (c : Conditional) (s : State) : Prop :=
  match c.translate.run s with
  | .ok code s' => ∃ here after outer, s.assigned = here :: outer ∧ s'.assigned = after :: outer
    ∧ (∀ name, name ∈ after ↔ name ∈ here ∨ ∀ b ∈ c.branches, b.Assigns name)
    ∧ (Flag.returns ∈ code.flags ↔ ∀ b ∈ c.branches, b.Returns)
  | .error .. => s.assigned = [] ∨ ∃ b ∈ c.branches, b.code.declares ≠ []

theorem meetsBranches (c : Conditional) (s : State) : c.MeetsBranches s := by
  unfold MeetsBranches
  split
  · next code s' run =>
    obtain ⟨_, s₁, assigns, run⟩ := Plain.cut run
    obtain ⟨value, s₂, made, ⟨⟩⟩ := Plain.cut run
    have kept := @Preserves.walk _ _ State.assigned _ _ _ _ _ made
    change changeAssigned _ s = _ at assigns
    unfold changeAssigned at assigns
    split at assigns
    · next here outer stack =>
      cases assigns
      refine ⟨here, _, outer, stack, kept, fun name => ?_, c.joined_meets.returns⟩
      rw [Scoping.mem_addNames, c.joined_meets.assigned, or_comm]
    · cases assigns
  · next run =>
    obtain failed | ⟨_, s₁, -, run⟩ := M.bind_eq_error.1 run
    · change changeAssigned _ s = _ at failed
      unfold changeAssigned at failed
      split at failed
      · cases failed
      · exact .inl (by assumption)
    · refine .inr ?_
      by_contra! none
      have empty : (joinBranches c.first.code (later c.others c.last)).declares = [] := by
        rw [c.joined_meets.declares]
        exact List.flatMap_eq_nil_iff.2 none
      simp [withDeclarations, empty] at run

/-- An `if` and its `else`: `x`, which both assign, counts as assigned, and `y` does not. -/
theorem assigned_in_both : ∃ (c : Conditional) (code : Fragment) (s : State),
    c.branches.map (·.level.assigned) = [[some "x", some "y"], [some "x"]]
      ∧ c.translate.run { declared := [{}], assigned := [[]] } = .ok code s
      ∧ s.assigned = [[some "x"]] :=
  let block (names : List (Option String)) : State := { declared := [{}, {}], assigned := [names, []] }
  ⟨⟨⟨.if_ { value := "true", shape := .scalar .boolean }, {}, {}, block ["x", "y"], _, _, _, rfl, rfl⟩,
    [], some ⟨.else_, {}, {}, block ["x"], _, _, _, rfl, rfl⟩⟩, _, _, rfl, rfl, rfl⟩

end Conditional

/-! ### Methods -/

/-- How a compilation may end: without an error, with methods that lack a `return null` at their end
only if their statements are marked to return. No path runs through such statements where no mark says
too much. -/
def ReturnsOnPaths (p : Parser) (text : String) (limit : Nat) (start : State) : Prop :=
  match compileWithin limit p text start with
  | .ok (some out) s => s.codeError = false → ∃ s₀ t,
    prepare start.options.tracing text start = .ok () s₀ ∧ t.kind = Symbol.file.text
      ∧ Forms [t] s₀ t.tokens s ∧ (Jobless t.tokens → InSourceOrder t out s
        ∧ ∀ part ∈ t.parts, part.isFunction = true → ∃ st, WrittenAs part st
          ∧ (st.marked = true → st.overstated false = false → ∀ way, st.Leaves way →
            way = .returned ∨ ∃ j ∈ st.merged, way = .jump j))
  | .ok none s => s.codeError = true
  | .error .. => True

theorem leaves_of_marked {st : Stmt} {way : Stmt.Way} (silent : st.reported = [])
    (marked : st.marked = true) (fair : st.overstated false = false) (leaves : st.Leaves way) :
    way = .returned ∨ ∃ j ∈ st.merged, way = .jump j := by
  cases way with
  | through => exact absurd leaves (Stmt.not_through fair Bool.false_ne_true.elim marked)
  | returned => exact .inl rfl
  | jump j =>
    obtain reported | merged := Stmt.mem_strays.1 leaves.mem_strays
    · rw [silent] at reported
      cases reported
    · exact .inr ⟨j, merged, rfl⟩

/-- A conditional has what its branches have in common; and a method that has no `return null` at its
end returns on all paths, where no mark says too much. -/
theorem branches_meet (p : Parser) (session : Session) (options : Options) (name text : String)
    (limit : Nat) :
    (∀ (c : Conditional) (s : State), c.MeetsBranches s)
      ∧ ReturnsOnPaths p text limit (State.ofFile session options name) := by
  refine ⟨Conditional.meetsBranches, ?_⟩
  refine compileWithin_ends fun done fine => ?_
  obtain ⟨s₀, t, _, prepared, kind, ⟨⟩, forms, inOrder⟩ := compileWithin_inOrder done fine
  refine ⟨s₀, t, prepared, kind, forms, fun jobless => ⟨inOrder jobless.free, fun part member _ => ?_⟩⟩
  obtain ⟨st, written, -, silent⟩ :=
    file_written_well kind (clear_prepare prepared) forms jobless fine part member
  exact ⟨st, written, fun marked fair way => leaves_of_marked silent marked fair⟩

/-- A conditional with one branch and no `else`: what the branch assigns counts as assigned, and a
method that it ends has no `return null`, although there is a path through it. -/
theorem lone_branch_counts : ∃ names text s,
    (do pushLevel
        pushLevel
        assign (some "x")
        let first ← ifBranch { value := "true", shape := .scalar .boolean }
          { value := "return 1;\n", flags := [.returns] } {}
        let body ← conditionalBlock first none
        let level ← innermost
        return (level.assigned, ← functionText "f" body) : M (List (Option String) × String))
      { currentFunction := some { arguments := [], results := [.scalar .integer] } } = .ok (names, text) s
      ∧ names = [some "x"]
      ∧ text = "public static Integer f(Object... pd_argv)\x7b\n"
        ++ (Stmt.branch false "true" (.return_ (some "1")) .done).print ++ "\x7d\n\n"
      ∧ (Stmt.branch false "true" (.return_ (some "1")) .done).Leaves .through :=
  ⟨_, _, _, rfl, rfl, rfl, .pass .done⟩

end PerlJava.Compile
