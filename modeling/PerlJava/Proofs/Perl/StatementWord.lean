import PerlJava.Proofs.Perl.BlockWord

/-!
# Statements in the words on the stack

Some symbols hold statements or what is made of them. Whatever stands below one of them on the stack
has no statement, condition or loop header that is still being read.
-/

namespace PerlJava.Perl

open LR (Valid Item)

/-- The symbols that hold statements, and those made of them. -/
def holders : List Symbol :=
  [.start, .file, .code, .function, .function_body, .statements, .statement_type, .block, .if_block,
    .elif, .elif_block]

def loopVariable : Bracket where
  opens x := x == .for_type
  closes x := x == .for_variable

/-- The symbols with a meaning for the context, but for the headers. -/
def contextual : List Symbol :=
  [.block, .if_block, .elif_block, .change_init, .for_type, .for_variable]

theorem contextual_named : contextual.all named = true := by
  decide

theorem contextual_of_closes {x : Symbol} (closes : scope.closes x = true) : x ∈ contextual := by
  have below : x.below? = some [.block_header] := eq_of_beq closes
  unfold Symbol.below? at below
  split at below <;> simp_all [contextual]

/-- Whether nothing in a word is still being read: no labels wait for their statement, no loop for
its variable, and each condition has ended. -/
def settled (w : List Symbol) : Bool :=
  !w.contains .labels_line && !w.contains .for_type && w.count .change_init % 2 == 0

theorem settled_iff {w : List Symbol} :
    settled w = true ↔ .labels_line ∉ w ∧ .for_type ∉ w ∧ w.count .change_init % 2 = 0 := by
  simp [settled, and_assoc]

theorem settled_reverse_append {u w : List Symbol} (first : settled u = true)
    (second : settled w = true) : settled (u.reverse ++ w) = true := by
  simp only [settled_iff, List.mem_append, List.mem_reverse, List.count_append,
    List.count_reverse, not_or] at *
  obtain ⟨label, loop, even⟩ := first
  obtain ⟨label', loop', even'⟩ := second
  exact ⟨⟨label, label'⟩, ⟨loop, loop'⟩, by omega⟩

/-- Whether a production that has a holder is for one, and nothing is being read before it. -/
def fitsHolder (name : Symbol) (right : List Symbol) : Bool :=
  (List.range right.length).all fun k =>
    !right[k]?.any holders.contains || (holders.contains name && settled (right.take k))

theorem all_fitsHolder : ruleList.all (fun rule => fitsHolder rule.1 rule.2) = true := by
  decide +kernel

theorem fitsHolder_spec {n k : Nat} {rule : Symbol × List Symbol} {x : Symbol}
    (found : rules[n]? = some rule) (next : rule.2[k]? = some x) (holder : x ∈ holders) :
    rule.1 ∈ holders ∧ settled (rule.2.take k) = true := by
  have fits := check_place (check_rule all_fitsHolder found) next
  simpa [next, holder] using fits

section Valid

variable {w : List Symbol} {i : Item} {x : Symbol}

/-- A production for a holder starts where nothing is being read. -/
theorem settled_base (valid : Valid rules w i) {rule : Symbol × List Symbol}
    (found : rules[i.production]? = some rule) (holder : rule.1 ∈ holders) :
    ∃ base, w = (rule.2.take i.dot).reverse ++ base ∧ settled base = true := by
  induction valid generalizing rule with
  | start => exact ⟨[], by simp, rfl⟩
  | @down w i n _ _ named parent ih =>
    obtain rfl := Option.some.inj (named.symm.trans found)
    refine ⟨w, by simp, ?_⟩
    obtain ⟨above, within, next⟩ := Item.nextIn_eq_some.1 parent
    obtain ⟨aboveHolder, first⟩ := fitsHolder_spec within next holder
    obtain ⟨base, rfl, second⟩ := ih within aboveHolder
    exact settled_reverse_append first second
  | across _ read ih =>
    obtain ⟨base, rfl, settled⟩ := ih found holder
    obtain ⟨_, same, read⟩ := Item.nextIn_eq_some.1 read
    obtain rfl := Option.some.inj (found.symm.trans same)
    exact ⟨base, by simp [List.take_add_one, read], settled⟩

theorem settled_of_next (valid : Valid rules w i) (next : i.nextIn rules = some x)
    (holder : x ∈ holders) : settled w = true := by
  obtain ⟨rule, found, next⟩ := Item.nextIn_eq_some.1 next
  obtain ⟨ruleHolder, first⟩ := fitsHolder_spec found next holder
  obtain ⟨base, rfl, second⟩ := settled_base valid found ruleHolder
  exact settled_reverse_append first second

theorem settled_of_top (valid : Valid rules (x :: w) i) (holder : x ∈ holders) :
    settled (x :: w) = true := by
  obtain ⟨j, below, next⟩ := valid.exists_next
  have single : settled [x] = true :=
    List.all_eq_true.1 (show holders.all (fun x => settled [x]) = true by decide) x holder
  exact settled_reverse_append single (settled_of_next below next holder)

theorem all_withoutStart : ruleList.all (fun rule => !rule.2.contains .start) = true := by
  decide +kernel

/-- The first production starts where all begins, and nowhere else. -/
theorem eq_nil_of_start (valid : Valid rules w ⟨0, 0⟩) : w = [] := by
  obtain ⟨-, empty⟩ | ⟨j, rule, -, found, next⟩ := valid.origin
  · exact empty
  · obtain rfl := Option.some.inj (rules_zero.symm.trans found)
    obtain ⟨above, within, next⟩ := Item.nextIn_eq_some.1 next
    have without := @check_rule (fun _ right => !right.contains .start) all_withoutStart _ _ within
    simp [List.mem_of_getElem? next] at without

end Valid

/-- Where nothing is being read, no loop waits for its variable. -/
theorem pending_loopVariable {w : List Symbol} (closed : Bool) (none : .for_type ∉ w) :
    loopVariable.pendingUnder closed w = 0 := by
  induction w generalizing closed with
  | nil => rfl
  | cons x w ih =>
    obtain ⟨other, rest⟩ := not_or.1 (mt List.mem_cons.2 none)
    rw [Bracket.pendingUnder, ih _ rest]
    simp [loopVariable, Ne.symm other]

end PerlJava.Perl
