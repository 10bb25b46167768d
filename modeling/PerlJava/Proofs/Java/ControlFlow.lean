import Mathlib.Data.List.Basic

/-!
# Control flow of Java statements

A Java statement is looked at as far as its control flow goes: where it jumps, and what its blocks,
loops and branches hold. A jump outside of loops is a stray; there is no loop that it would leave or
continue. A statement may be left in several ways, one for each path through it: all conditions may
hold or not, at any time.

The marks that code has while it is generated say less: strays are forgotten where a conditional has
several branches, and a statement counts as one that returns if a conditional without an `else`
returns in all its branches, or if the body of a loop does that runs at least once. Where that does
not happen, a statement that is marked to return cannot be run through.
-/

namespace PerlJava.Java

/-- A jump to the end of a loop or to its next turn. -/
inductive Jump where
  | break_
  | continue_
deriving Repr, DecidableEq

def Jump.text : Jump → String
  | break_ => "break"
  | continue_ => "continue"

/-- A loop without its body. -/
inductive Loop where
  /-- The condition is looked at before each turn. -/
  | while_ (cond : String)
  /-- The condition is looked at after each turn. -/
  | doWhile (cond : String)
  /-- Each turn starts with some text. -/
  | for_ (fields start : String)
deriving Repr, DecidableEq

namespace Loop

def head : Loop → String
  | while_ cond => "while(" ++ cond ++ ")\x7b\n"
  | doWhile _ => "do\x7b\n"
  | for_ fields start => "for(" ++ fields ++ ")\x7b" ++ start ++ "\n"

def tail : Loop → String
  | while_ _ | for_ .. => "\x7d\n"
  | doWhile cond => "\x7dwhile(" ++ cond ++ ");\n"

/-- Whether the body of a loop is bound to run at least once. -/
def once : Loop → Bool
  | while_ _ | for_ .. => false
  | doWhile _ => true

end Loop

/-- A Java statement, as far as control flow goes. What follows the first branch of a conditional is
`otherwise`, a further `branch`, or `done`. -/
inductive Stmt where
  /-- Text that is run through. -/
  | text (text : String)
  | jump (j : Jump)
  /-- A return, with a value or without one. -/
  | return_ (value : Option String)
  | seq (first second : Stmt)
  | block (body : Stmt)
  | loop (l : Loop) (body : Stmt)
  /-- A branch of a conditional, which may be one that follows another. -/
  | branch (further : Bool) (cond : String) (body rest : Stmt)
  | otherwise (body : Stmt)
  | done
deriving Repr, DecidableEq

namespace Stmt

/-- A statement as Java writes it. -/
def print : Stmt → String
  | text t => t
  | jump j => j.text ++ ";\n"
  | return_ value => "return " ++ value.getD "null" ++ ";\n"
  | seq a b => a.print ++ b.print
  | block b => "\x7b\n" ++ b.print ++ "\x7d\n"
  | loop l b => l.head ++ b.print ++ l.tail
  | branch further cond b rest => (if further then "else if(" else "if(") ++ cond ++ ")\x7b\n"
    ++ b.print ++ "\x7d" ++ rest.print
  | otherwise b => "else\x7b\n" ++ b.print ++ "\x7d\n"
  | done => "\n"

def jumps : Stmt → List Jump
  | text _ | return_ _ | done => []
  | jump j => [j]
  | seq a b => a.jumps ++ b.jumps
  | block b | loop _ b | otherwise b => b.jumps
  | branch _ _ b rest => b.jumps ++ rest.jumps

def strays : Stmt → List Jump
  | text _ | return_ _ | done | loop .. => []
  | jump j => [j]
  | seq a b => a.strays ++ b.strays
  | block b | otherwise b => b.strays
  | branch _ _ b rest => b.strays ++ rest.strays

def isDone : Stmt → Bool
  | done => true
  | _ => false

/-- The strays that lie in no conditional with several branches. -/
def reported : Stmt → List Jump
  | text _ | return_ _ | done | loop .. => []
  | jump j => [j]
  | seq a b => a.reported ++ b.reported
  | block b | otherwise b => b.reported
  | branch _ _ b rest => if rest.isDone then b.reported else []

/-- The strays that lie in a conditional with several branches. -/
def merged : Stmt → List Jump
  | text _ | return_ _ | done | loop .. | jump _ => []
  | seq a b => a.merged ++ b.merged
  | block b | otherwise b => b.merged
  | branch _ _ b rest => if rest.isDone then b.merged else b.strays ++ rest.strays

/-- Whether a statement counts as one that returns. -/
def marked : Stmt → Bool
  | text _ | jump _ | done => false
  | return_ value => value.isSome
  | seq a b => a.marked || b.marked
  | block b | otherwise b => b.marked
  | loop l b => l.once && b.marked
  | branch _ _ b rest => b.marked && (rest.isDone || rest.marked)

theorem eq_done {st : Stmt} (is : st.isDone = true) : st = done := by
  cases st <;> first | rfl | cases is

/-- A stray lies in a conditional with several branches or does not. -/
theorem mem_strays {st : Stmt} {j : Jump} : j ∈ st.strays ↔ j ∈ st.reported ∨ j ∈ st.merged := by
  induction st with
  | text | return_ | done | loop | jump => simp [strays, reported, merged]
  | seq a b first second =>
    simp only [strays, reported, merged, List.mem_append, first, second]
    tauto
  | block b ih | otherwise b ih => exact ih
  | branch _ _ b rest ih _ =>
    cases is : rest.isDone with
    | true =>
      obtain rfl := eq_done is
      simpa [strays, reported, merged, isDone] using ih
    | false => simp [strays, reported, merged, is]

/-! ### Paths -/

/-- A way to leave a statement. -/
inductive Way where
  | through
  | jump (j : Jump)
  | returned
deriving Repr, DecidableEq

/-- A turn of a loop after which there may be another one. -/
def Way.Ends : Way → Prop
  | through | jump .continue_ => True
  | _ => False

/-- There is a path on which a statement is left in some way. -/
inductive Leaves : Stmt → Way → Prop where
  | text {t : String} : Leaves (text t) .through
  | jump {j : Jump} : Leaves (jump j) (.jump j)
  | return_ {value : Option String} : Leaves (return_ value) .returned
  | next {a b : Stmt} {way : Way} : Leaves a .through → Leaves b way → Leaves (seq a b) way
  | leave {a b : Stmt} {way : Way} : Leaves a way → way ≠ .through → Leaves (seq a b) way
  | block {b : Stmt} {way : Way} : Leaves b way → Leaves (block b) way
  | skip {l : Loop} {b : Stmt} : l.once = false → Leaves (loop l b) .through
  | again {l : Loop} {b : Stmt} {turn way : Way} : Leaves b turn → turn.Ends →
    Leaves (loop l b) way → Leaves (loop l b) way
  | last {l : Loop} {b : Stmt} {turn : Way} : Leaves b turn → turn.Ends → Leaves (loop l b) .through
  | break_ {l : Loop} {b : Stmt} : Leaves b (.jump .break_) → Leaves (loop l b) .through
  | out {l : Loop} {b : Stmt} : Leaves b .returned → Leaves (loop l b) .returned
  | branch {further : Bool} {cond : String} {b rest : Stmt} {way : Way} : Leaves b way →
    Leaves (branch further cond b rest) way
  | pass {further : Bool} {cond : String} {b rest : Stmt} {way : Way} : Leaves rest way →
    Leaves (branch further cond b rest) way
  | otherwise {b : Stmt} {way : Way} : Leaves b way → Leaves (otherwise b) way
  | done : Leaves done .through

/-- A path can be left only by a stray, other than through or by a return. -/
theorem Leaves.mem_strays {st : Stmt} {j : Jump} (leaves : Leaves st (.jump j)) : j ∈ st.strays := by
  generalize is : Way.jump j = way at leaves
  induction leaves with
  | text | return_ | skip | last | break_ | out | done => cases is
  | jump =>
    cases is
    exact List.mem_singleton_self j
  | next _ _ _ ih => exact List.mem_append_right _ (ih is)
  | leave _ _ ih | branch _ ih => exact List.mem_append_left _ (ih is)
  | block _ ih | otherwise _ ih => exact ih is
  | again _ _ _ _ ih => exact ih is
  | pass _ ih => exact List.mem_append_right _ (ih is)

/-- Whether the branches that follow have no `else` at their end. -/
def lacksElse : Stmt → Bool
  | done => true
  | branch _ _ _ rest => rest.lacksElse
  | _ => false

/-- Whether a mark says too much somewhere in a statement, which may continue a conditional: that of
a conditional without an `else`, or that of a loop whose body is bound to run but may be left. -/
def overstated (continues : Bool) : Stmt → Bool
  | text _ | jump _ | return_ _ | done => false
  | seq a b => a.overstated false || b.overstated false
  | block b | otherwise b => b.overstated false
  | loop l b => b.overstated false || (l.once && b.marked && !b.strays.isEmpty)
  | branch further cond b rest => b.overstated false || rest.overstated true
    || (!continues && rest.lacksElse && (branch further cond b rest).marked)

theorem Leaves.turn {l : Loop} {b : Stmt} (once : l.once = true)
    (leaves : Leaves (.loop l b) .through) : Leaves b .through ∨ ∃ j, Leaves b (.jump j) := by
  cases leaves with
  | skip never =>
    rw [once] at never
    cases never
  | @again _ _ turn _ first ends | @last _ _ turn first ends =>
    cases turn with
    | through => exact .inl first
    | jump j => exact .inr ⟨j, first⟩
    | returned => exact ends.elim
  | break_ first => exact .inr ⟨_, first⟩

/-- Where no mark says too much, a statement that counts as one that returns cannot be run through. -/
theorem not_through {st : Stmt} {continues : Bool} (fair : st.overstated continues = false)
    (ends : continues = true → st.lacksElse = false) (marked : st.marked = true) :
    ¬Leaves st .through := by
  induction st generalizing continues with
  | text | jump | done => cases marked
  | return_ => rintro ⟨⟩
  | seq a b first second =>
    obtain ⟨fairA, fairB⟩ := Bool.or_eq_false_iff.1 fair
    intro leaves
    cases leaves with
    | next before after =>
      obtain marked | marked := Bool.or_eq_true_iff.1 marked
      · exact first fairA Bool.false_ne_true.elim marked before
      · exact second fairB Bool.false_ne_true.elim marked after
    | leave _ other => exact other rfl
  | block b ih =>
    intro leaves
    cases leaves with
    | block inner => exact ih fair Bool.false_ne_true.elim marked inner
  | otherwise b ih =>
    intro leaves
    cases leaves with
    | otherwise inner => exact ih fair Bool.false_ne_true.elim marked inner
  | loop l b ih =>
    obtain ⟨once, marked⟩ := Bool.and_eq_true_iff.1 marked
    obtain ⟨fair, strays⟩ := Bool.or_eq_false_iff.1 fair
    have none : b.marked = true → b.strays = [] := by simpa [once] using strays
    intro leaves
    obtain through | ⟨j, jumps⟩ := leaves.turn once
    · exact ih fair Bool.false_ne_true.elim marked through
    · exact absurd jumps.mem_strays (by simp [none marked])
  | branch _ _ b rest ih ih' =>
    obtain ⟨inner, complete⟩ := Bool.or_eq_false_iff.1 fair
    obtain ⟨fair, fairRest⟩ := Bool.or_eq_false_iff.1 inner
    -- A conditional that counts as one that returns has an `else`.
    have elsewhere : rest.lacksElse = false := by
      cases continues with
      | true => exact ends rfl
      | false => simpa [marked] using complete
    obtain ⟨markedBody, markedRest⟩ := Bool.and_eq_true_iff.1 marked
    intro leaves
    cases leaves with
    | branch inner => exact ih fair Bool.false_ne_true.elim markedBody inner
    | pass later =>
      refine ih' fairRest (fun _ => elsewhere) ?_ later
      obtain isDone | marked := Bool.or_eq_true_iff.1 markedRest
      · rw [eq_done isDone] at elsewhere
        cases elsewhere
      · exact marked

end Stmt

end PerlJava.Java
