import PerlJava.Proofs.Perl.ParserTable

/-!
# Blocks in the words on the stack

Some symbols open a level of scope, which the block above them closes. What may stand below and
above such symbols in a valid word follows from a check of every production.
-/

namespace PerlJava.Perl

open LR (Valid Item)

structure Bracket where
  opens : Symbol → Bool
  closes : Symbol → Bool

namespace Bracket

variable (b : Bracket)

/-- How much the symbols of a word have opened and not closed, if what stands above the word has
closed what its top opened or has not. -/
def pendingUnder (closed : Bool) : List Symbol → Nat
  | [] => 0
  | x :: w => (if b.opens x && !closed then 1 else 0) + pendingUnder (b.closes x) w

/-- How much the symbols of a word have opened and not closed. -/
def pending (w : List Symbol) : Nat :=
  b.pendingUnder false w

theorem pendingUnder_le (closed : Bool) (w : List Symbol) :
    b.pendingUnder closed w ≤ b.pending w := by
  cases w with
  | nil => exact Nat.le_refl _
  | cons x w =>
    rw [pending, pendingUnder, pendingUnder]
    cases closed
    · exact Nat.le_refl _
    · simp

theorem pending_cons (x : Symbol) (w : List Symbol) :
    b.pending (x :: w) = (if b.opens x then 1 else 0) + b.pendingUnder (b.closes x) w := by
  rw [pending, pendingUnder, Bool.not_false, Bool.and_true]

theorem pending_cons_of_other {x : Symbol} (opens : b.opens x = false) (closes : b.closes x = false)
    (w : List Symbol) : b.pending (x :: w) = b.pending w := by
  rw [pending_cons, opens, closes, if_neg Bool.false_ne_true, Nat.zero_add, pending]

theorem pendingUnder_append (closed : Bool) (u w : List Symbol) :
    b.pendingUnder closed (u ++ w)
      = b.pendingUnder closed u + b.pendingUnder (u.getLast?.elim closed b.closes) w := by
  induction u generalizing closed with
  | nil => simp [pendingUnder]
  | cons x u ih =>
    rw [List.cons_append, pendingUnder, pendingUnder, ih, Nat.add_assoc]
    cases u with
    | nil => rfl
    | cons y u => simp [List.getLast?_cons]

theorem pending_reverse_append (right base : List Symbol) :
    b.pending (right.reverse ++ base)
      = b.pending right.reverse + b.pendingUnder (right.head?.any b.closes) base := by
  rw [pending, pendingUnder_append, List.getLast?_reverse, pending]
  cases right.head? <;> rfl

end Bracket

/-- The symbols that may stand below a symbol, where that matters. -/
def Symbol.below? : Symbol → Option (List Symbol)
  | .block | .if_block | .elif_block => some [.block_header]
  | .statement_type => some [.statements]
  | .elif => some [.if_block, .elif_block]
  | _ => none

def headers : List Symbol :=
  [.block_header, .function_header, .sort_head]

def scope : Bracket where
  opens := headers.contains
  closes x := x.below? == some [.block_header]

def belowHeader : List Symbol :=
  [.statements, .if_block, .elif_block]

def afterHeader : List Symbol :=
  [.block, .elif_block, .ELSE, .ELSIF, .if_block, .IF, .UNLESS, .WHILE, .UNTIL, .DO, .FOR, .for_each,
    .loop_head, .MAPPER_LOOP, .reducer_init, .REDUCER_CODE, .REDUCER_OP, .REDUCER_CHANGE]

/-- Whether a production puts each of its symbols above one that may stand below it. -/
def fitsBelow (name : Symbol) (right : List Symbol) : Bool :=
  (List.range right.length).all fun k =>
    (right[k]?.bind (·.below?)).all fun allowed =>
      match k with
      | 0 => name.below?.any fun given => given.all allowed.contains
      | k + 1 => right[k]?.any allowed.contains

theorem all_fitsBelow : ruleList.all (fun rule => fitsBelow rule.1 rule.2) = true := by
  decide +kernel

/-- Whether a production goes on after each header that starts it or stands on what is below the
header of a block. -/
def fitsAfter (name : Symbol) (right : List Symbol) : Bool :=
  (!afterHeader.contains name || right.head?.any afterHeader.contains) &&
    (List.range right.length).all fun k =>
      !(right[k]? == some .block_header)
        || !(k == 0 || right[k - 1]?.any belowHeader.contains)
        || right[k + 1]?.any afterHeader.contains

theorem all_fitsAfter : ruleList.all (fun rule => fitsAfter rule.1 rule.2) = true := by
  decide +kernel

/-- Whether a production has a header below a block only at its start. -/
def fitsHeader (name : Symbol) (right : List Symbol) : Bool :=
  (!right.head?.any scope.closes || scope.closes name) &&
    (List.range right.length).all fun k =>
      !(right[k]? == some .block_header) || !right[k + 1]?.any scope.closes
        || (k == 0 && name.below?.any (·.all belowHeader.contains))

theorem all_fitsHeader : ruleList.all (fun rule => fitsHeader rule.1 rule.2) = true := by
  decide +kernel

/-- What has been checked at every place of a production holds at each. -/
theorem check_place {right : List Symbol} {check : Nat → Bool}
    (all : (List.range right.length).all check = true) {k : Nat} {x : Symbol}
    (found : right[k]? = some x) : check k = true := by
  obtain ⟨bound, -⟩ := List.getElem?_eq_some_iff.1 found
  exact List.all_eq_true.1 all k (List.mem_range.2 bound)

section Valid

variable {w : List Symbol} {i : Item} {x : Symbol}

theorem head_below {allowed : List Symbol} (valid : Valid rules w i)
    (next : i.nextIn rules = some x) (matters : x.below? = some allowed) :
    ∃ y ∈ allowed, w.head? = some y := by
  refine valid.next_induction (P := fun top x => ∀ allowed, x.below? = some allowed →
    ∃ y ∈ allowed, top = some y) ?_ ?_ ?_ next allowed matters
  · intro rule x found next allowed matters
    obtain rfl := Option.some.inj (rules_zero.symm.trans found)
    cases next
    cases matters
  · intro n rule top x found next given allowed matters
    have fits := check_place (check_rule all_fitsBelow found) next
    obtain ⟨narrower, same, within⟩ : ∃ narrower, rule.1.below? = some narrower
        ∧ ∀ y ∈ narrower, y ∈ allowed := by
      simpa [next, matters, Option.any_eq_true] using fits
    obtain ⟨y, member, top⟩ := given narrower same
    exact ⟨y, within y member, top⟩
  · intro n k rule y x found before next allowed matters
    have fits := check_place (check_rule all_fitsBelow found) next
    exact ⟨y, by simpa [next, matters, before] using fits, rfl⟩

theorem head_below_name {n : Nat} {rule : Symbol × List Symbol} {allowed : List Symbol}
    (valid : Valid rules w ⟨n, 0⟩) (found : rules[n]? = some rule)
    (matters : rule.1.below? = some allowed) : ∃ y ∈ allowed, w.head? = some y := by
  obtain ⟨rfl, -⟩ | ⟨j, _, parent, same, next⟩ := valid.origin
  · obtain rfl := Option.some.inj (rules_zero.symm.trans found)
    cases matters
  · obtain rfl := Option.some.inj (found.symm.trans same)
    exact head_below parent next matters

/-- After a header that may have a block above it something must come, and no `error`. -/
theorem next_after_header (valid : Valid rules (.block_header :: w) i)
    (below : w.head?.any belowHeader.contains = true) :
    ∃ x ∈ afterHeader, i.nextIn rules = some x := by
  generalize word : Symbol.block_header :: w = u at valid
  induction valid with
  | start => cases word
  | @down u i n rule _ found parent ih =>
    obtain ⟨x, after, next⟩ := ih word
    obtain rfl := Option.some.inj (parent.symm.trans next)
    have fits := check_rule all_fitsAfter found
    obtain ⟨y, first, after⟩ : ∃ y, rule.2.head? = some y ∧ y ∈ afterHeader := by
      simpa [fitsAfter, after, Option.any_eq_true] using (Bool.and_eq_true_iff.1 fits).1
    refine ⟨y, after, Item.nextIn_eq_some.2 ⟨rule, found, ?_⟩⟩
    rw [← List.head?_eq_getElem?, first]
  | @across w' i s valid read =>
    obtain ⟨rfl, rfl⟩ := List.cons.inj word
    obtain ⟨rule, found, read⟩ := Item.nextIn_eq_some.1 read
    have fits := check_place (Bool.and_eq_true_iff.1 (check_rule all_fitsAfter found)).2 read
    have starts : i.dot = 0 ∨ rule.2[i.dot - 1]?.any belowHeader.contains = true := by
      obtain ⟨n, _ | k⟩ := i
      · exact .inl rfl
      · refine .inr ?_
        have head := valid.head_eq
        simp only [LR.Rules.right, found, Option.map_some, Option.getD_some] at head
        simpa [← head] using below
    obtain ⟨y, next, after⟩ : ∃ y, rule.2[i.dot + 1]? = some y ∧ y ∈ afterHeader := by
      obtain zero | stands := starts
      · rw [zero] at read fits ⊢
        simpa [read, Option.any_eq_true] using fits
      · simpa [read, stands, Option.any_eq_true] using fits
    exact ⟨y, after, Item.nextIn_eq_some.2 ⟨rule, found, next⟩⟩

theorem head_below_header (valid : Valid rules (.block_header :: w) i)
    (next : i.nextIn rules = some x) (closes : scope.closes x = true) :
    w.head?.any belowHeader.contains = true := by
  generalize word : Symbol.block_header :: w = u at valid
  induction valid generalizing x with
  | start => cases word
  | @down u i n rule _ found parent ih =>
    refine ih parent ?_ word
    obtain ⟨_, same, first⟩ := Item.nextIn_eq_some.1 next
    obtain rfl := Option.some.inj (found.symm.trans same)
    have fits := (Bool.and_eq_true_iff.1 (check_rule all_fitsHeader found)).1
    simpa [List.head?_eq_getElem?, first, closes] using fits
  | @across w' i s valid read =>
    obtain ⟨rfl, rfl⟩ := List.cons.inj word
    obtain ⟨rule, found, read⟩ := Item.nextIn_eq_some.1 read
    obtain ⟨_, same, next⟩ := Item.nextIn_eq_some.1 next
    obtain rfl := Option.some.inj (found.symm.trans same)
    have fits := check_place (Bool.and_eq_true_iff.1 (check_rule all_fitsHeader found)).2 read
    obtain ⟨zero, allowed, matters, within⟩ : i.dot = 0 ∧ ∃ allowed, rule.1.below? = some allowed
        ∧ ∀ y ∈ allowed, y ∈ belowHeader := by
      simpa [read, next, closes, Option.any_eq_true] using fits
    obtain ⟨n, dot⟩ := i
    cases zero
    obtain ⟨y, member, top⟩ := head_below_name valid found matters
    simp [top, within y member]

end Valid

def named (x : Symbol) : Bool :=
  grammarRules.any (·.1.name == x)

theorem not_mem_of_terminal {x : Symbol} {xs : List Symbol} (all : xs.all named = true)
    (terminal : ∀ n rule, rules[n + 1]? = some rule → rule.1 ≠ x) : x ∉ xs := by
  intro member
  obtain ⟨production, within, name⟩ := List.any_eq_true.1 (List.all_eq_true.1 all x member)
  obtain ⟨n, at_⟩ := List.getElem?_of_mem within
  refine terminal n (production.1.name, production.1.symbols) ?_ (by simpa using name)
  rw [rules, List.getElem?_toArray, ruleList, List.getElem?_cons_succ, List.getElem?_map, at_]
  rfl

theorem headers_named : headers.all named = true := by
  decide

end PerlJava.Perl
