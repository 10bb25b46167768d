import PerlJava.Proofs.Compile.ElementStore

/-!
# Operators with assignment

An operator with assignment and the assignment of the operation work on the same place, but not on the
same fragment of code for it: one reads the variable, the other only has its text and type. What the
operators make of their operands does not depend on more.
-/

namespace PerlJava.Compile

open Java Compile.Tree

/-! ### Operands that count as the same -/

/-- Two fragments have the same text, type and truth, and no declaration shows them. -/
structure Alike (c c' : Fragment) : Prop where
  value : c.value = c'.value
  shape : c.shape = c'.shape
  condition : c.condition = c'.condition
  whole : c.bare = false ∧ c'.bare = false
  free : c.slot = none ∧ c'.slot = none

namespace Alike

variable {c c' : Fragment} (alike : Alike c c')
include alike

theorem head : c.head = c'.head := by
  rw [Fragment.head, Fragment.head, alike.shape]

theorem toNumberType (t : NumberType) : c.toNumberType t = c'.toNumberType t := by
  simp only [Fragment.toNumberType, alike.value, alike.shape, alike.head]

theorem toText : c.toText = c'.toText := by
  simp only [Fragment.toText, alike.value, alike.shape, alike.head]

theorem toBoolean : c.toBoolean = c'.toBoolean := by
  simp only [Fragment.toBoolean, Fragment.toBoolean.plain, Fragment.whole, alike.value,
    alike.condition, alike.head, alike.whole.1, alike.whole.2]

theorem changed (value : String) (shape : Shape) :
    Alike { c with value, shape } { c' with value, shape } :=
  ⟨rfl, rfl, alike.condition, alike.whole, alike.free⟩

theorem matched_sync {R : Fragment → Fragment → Prop} (related : R c c') :
    Matched R (sync c).run (sync c').run := by
  unfold sync
  rw [alike.free.1, alike.free.2]
  exact .pure related

theorem toNumber : Agree Alike c.toNumber c'.toNumber := by
  unfold Fragment.toNumber Fragment.toInteger Fragment.toDouble
  rw [alike.head, alike.shape, alike.toNumberType, alike.toNumberType]
  refine .after _ fun head => .after _ fun size => .ite ?_ (.ite ?_ (.pure alike))
  · exact .after _ fun text => .pure (alike.changed text _)
  · exact .after _ fun text => .pure (alike.changed text _)

theorem toWhole : Agree Alike c.toWhole c'.toWhole := by
  unfold Fragment.toWhole
  rw [alike.head]
  refine .after _ fun head => .ite (.pure alike) (.pure ?_)
  exact ⟨alike.value, rfl, alike.condition, alike.whole, alike.free⟩

theorem matched_asNumber : Matched Alike (asNumber c).run (asNumber c').run :=
  .bind (.lift alike.toNumber) fun number => matched_sync number number

theorem matched_asWhole : Matched Alike (asWhole c).run (asWhole c').run :=
  .bind (.lift alike.toWhole) fun whole => matched_sync whole whole

theorem matched_asRemainderOperand :
    Matched Alike (asRemainderOperand c).run (asRemainderOperand c').run := by
  unfold asRemainderOperand
  rw [alike.head]
  have long : Alike { c with shape := .scalar .long } { c' with shape := .scalar .long } :=
    ⟨alike.value, rfl, alike.condition, alike.whole, alike.free⟩
  exact .after _ fun head => .after _ fun width => .ite (long.matched_sync long) (.pure alike)

theorem wider (b : Fragment) : Compile.wider c b = Compile.wider c' b := by
  unfold Compile.wider
  rw [alike.head, alike.shape]

end Alike

/-! ### Operations -/

/-- Two results of operations: the same text, type and truth, and nothing else but marks, declarations
and positions. -/
structure Results (r r' : Fragment) : Prop extends Alike r r' where
  statement : r.statement = none ∧ r'.statement = none
  variable_ : r.variable_ = none ∧ r'.variable_ = none

/-- An operation makes the same of left operands that are alike. -/
def LeftAlike (f : Fragment → Fragment → Plain Fragment) : Prop :=
  ∀ c c' exp : Fragment, Alike c c' → Matched Results (f c exp).run (f c' exp).run

/-- What two operands bring along: declarations, marks and a position. -/
def Joined (code : Fragment) : Prop :=
  code = { declares := code.declares, flags := code.flags, position := code.position }

variable {c code r r' : Fragment} {f : Fragment → Fragment → Plain Fragment} {a : Access}
  {s s' : State} {α : Type} {native : List TypeName}

theorem joined_of_join {exp : Fragment} (joined : c.join exp = .ok code) : Joined code := by
  rw [join_eq_ok joined]
  rfl

section

variable (joined : Joined code)

include joined

theorem Joined.statement : code.statement = none := by
  rw [Joined] at joined
  rw [joined]

theorem Joined.shape : code.shape = .unset := by
  rw [Joined] at joined
  rw [joined]

theorem Joined.resultsWith {code' : Fragment} (joined' : Joined code')
    (value : String) (shape : Shape) (condition : Option String) :
    Results { code with value, shape, condition } { code' with value, shape, condition } := by
  rw [Joined] at joined joined'
  rw [joined, joined']
  exact ⟨⟨rfl, rfl, rfl, ⟨rfl, rfl⟩, ⟨rfl, rfl⟩⟩, ⟨rfl, rfl⟩, ⟨rfl, rfl⟩⟩

theorem Joined.results {code' : Fragment} (joined' : Joined code')
    (value : String) (shape : Shape) :
    Results { code with value, shape } { code' with value, shape } := by
  have results := joined.resultsWith joined' value shape none
  rw [Joined] at joined joined'
  have truth : code.condition = none := by rw [joined]
  have truth' : code'.condition = none := by rw [joined']
  rw [truth, truth']
  exact results

end

/-- An operation that joins and checks its operands first. -/
theorem leftAlike_of_rest {rest : Fragment → Fragment → Fragment → Plain Fragment}
    (begins : ∀ c exp, f c exp = do
      let code ← c.join exp
      checkBoth c exp
      rest code c exp)
    (matched : ∀ {code code' c c' exp}, Joined code → Joined code' → Alike c c' →
      Matched Results (rest code c exp).run (rest code' c' exp).run) : LeftAlike f := by
  intro c c' exp alike
  rw [begins, begins]
  refine .bind (R := fun code code' => Joined code ∧ Joined code') (.lift ?_) fun joined => ?_
  · intro code code' made made'
    exact ⟨joined_of_join made, joined_of_join made'⟩
  · refine .bind (.bind (.check c c' true) fun _ => .check exp exp true) fun _ => ?_
    exact matched joined.1 joined.2 alike

theorem leftAlike_arithmetic (op : String) : LeftAlike (arithmetic op) := by
  refine leftAlike_of_rest (fun _ _ => rfl) fun joined joined' alike => ?_
  refine .bind alike.matched_asNumber fun number => .after _ fun b => ?_
  rw [number.wider, number.value]
  exact .after _ fun shape => .pure (joined.results joined' _ _)

theorem leftAlike_division : LeftAlike division := by
  refine leftAlike_of_rest (fun _ _ => rfl) fun joined joined' alike => ?_
  refine .bind alike.matched_asNumber fun number => .after _ fun b => ?_
  rw [number.wider, number.value]
  refine .after _ fun shape => .after _ fun head => .after _ fun width => .ite ?_ ?_
  · exact .after _ fun b => .pure (joined.results joined' _ _)
  · exact .pure (joined.results joined' _ _)

theorem leftAlike_power : LeftAlike power := by
  refine leftAlike_of_rest (fun _ _ => rfl) fun joined joined' alike => ?_
  refine .bind alike.matched_asNumber fun number => .after _ fun b => ?_
  rw [number.value]
  exact .pure (joined.results joined' _ _)

theorem leftAlike_remainder : LeftAlike remainder := by
  refine leftAlike_of_rest (fun _ _ => rfl) fun joined joined' alike => ?_
  refine .bind alike.matched_asNumber fun number => .after _ fun b => ?_
  refine .bind number.matched_asRemainderOperand fun operand => .after _ fun b => ?_
  rw [operand.value, operand.shape]
  exact .pure (joined.results joined' _ _)

theorem leftAlike_repetition : LeftAlike repetition := by
  refine leftAlike_of_rest (fun _ _ => rfl) fun joined joined' alike => ?_
  rw [alike.toText]
  exact .after _ fun text => .after _ fun times => .pure (joined.results joined' _ _)

theorem leftAlike_bitwise (op : String) : LeftAlike (bitwise op) := by
  refine leftAlike_of_rest (fun _ _ => rfl) fun joined joined' alike => ?_
  refine .bind alike.matched_asWhole fun whole => .after _ fun b => ?_
  rw [whole.value, whole.shape]
  exact .pure (joined.results joined' _ _)

theorem leftAlike_concatenation : LeftAlike concatenation := by
  refine leftAlike_of_rest (fun _ _ => rfl) fun joined joined' alike => ?_
  rw [alike.head, alike.value]
  exact .after _ fun head => .ite (.pure (joined.results joined' _ _)) (.report rfl)

theorem leftAlike_logical (op function : String) (low : Bool) :
    LeftAlike (logical op function low) := by
  refine leftAlike_of_rest (fun _ _ => rfl) fun joined joined' alike => ?_
  rw [alike.toBoolean, alike.head, alike.shape, alike.value]
  refine .after _ fun truth => .after _ fun other => .after _ fun boolean => .ite ?_ ?_
  · exact .pure (joined.results joined' _ _)
  · exact .pure (joined.resultsWith joined' _ _ _)

/-! ### Assigning results -/

theorem matched_convert {target : Shape} (scalar : target.size = .ok 1)
    (alike : Alike r r') :
    Matched (fun p p' => p.1 = p'.1 ∧ p.2 = r ∧ p'.2 = r') (convert target r).run
      (convert target r').run := by
  have text {x : Except Fault String} : Matched
      (fun p p' : String × Fragment => p.1 = p'.1 ∧ p.2 = r ∧ p'.2 = r')
      (do return (← x, r) : Plain (String × Fragment)).run
      (do return (← x, r') : Plain (String × Fragment)).run :=
    .after _ fun text => .pure ⟨rfl, rfl, rfl⟩
  unfold convert
  refine .after _ fun head => .known scalar ?_
  rw [if_pos (beq_self_eq_true 1), if_pos (beq_self_eq_true 1)]
  simp only [alike.toBoolean, alike.toNumberType, alike.toText, alike.value]
  split
  all_goals first | exact text | exact .pure ⟨rfl, rfl, rfl⟩

/-- Two assignments have the same text and make the same statement. -/
structure SameStore (c c' : Fragment) : Prop where
  value : c.value = c'.value
  statement : c.statement = c'.statement

theorem matched_storeAt (scalar : a.shape.size = .ok 1) (id : VarId)
    (results : Results r r') :
    Matched SameStore (storeAt a id r false).run (storeAt a id r' false).run := by
  unfold storeAt
  refine .bind (.pure results) fun results => ?_
  refine .bind (R := fun code code' => Joined code ∧ Joined code') (.lift ?_) fun joined => ?_
  · intro code code' made made'
    exact ⟨joined_of_join made, joined_of_join made'⟩
  refine .after _ fun v => .after _ fun _ => ?_
  refine .bind (matched_convert scalar results.toAlike) ?_
  rintro ⟨value, r⟩ ⟨_, r'⟩ ⟨⟨⟩, ⟨⟩, ⟨⟩⟩
  dsimp only
  have copies : isCopied a r = isCopied a r' := by
    unfold isCopied
    rw [results.variable_.1, results.variable_.2]
  rw [copies]
  refine .after _ fun copied => .after _ fun s => .after _ fun joins => .ite ?_ ?_
  · exact .after _ fun _ => .pure ⟨rfl, joined.1.statement.trans joined.2.statement.symm⟩
  · exact .pure ⟨rfl, rfl⟩

theorem matched_tidiedAssign (scalar : a.shape.size = .ok 1)
    (results : Results r r') (tidy : String → String) :
    Matched SameStore (tidiedAssign a r false tidy).run (tidiedAssign a r' false tidy).run := by
  unfold tidiedAssign
  refine .bind (.check r r' false) fun _ => ?_
  cases a.base.variable_ with
  | none => exact .report rfl
  | some id =>
    have refuses : refuseReference a r = refuseReference a r' := by
      unfold refuseReference
      rw [results.head]
    have renamed : Results { r with value := tidy r'.value } { r' with value := tidy r'.value } :=
      ⟨⟨rfl, results.shape, results.condition, results.whole, results.free⟩, results.statement,
        results.variable_⟩
    have texts : Matched Results (withText r (tidy r'.value)).run (withText r' (tidy r'.value)).run := by
      unfold withText
      rw [results.value]
      exact .ite (.pure results) (renamed.matched_sync renamed)
    dsimp only
    rw [refuses, results.value]
    exact .after _ fun _ => .bind texts fun results => matched_storeAt scalar id results

/-- An assignment has the type of its place. -/
theorem Succeeds.tidiedAssign_shape {tidy : String → String}
    (done : Succeeds (tidiedAssign a r false tidy).run s c s') :
    c.shape = a.shape := by
  obtain ⟨_, _, -, done⟩ := done.bind
  cases named : a.base.variable_ with
  | none =>
    rw [named] at done
    exact absurd done (not_report_bind rfl)
  | some id =>
    rw [named] at done
    obtain ⟨_, _, -, done⟩ := done.bind
    obtain ⟨r, _, -, done⟩ := done.bind
    unfold storeAt at done
    obtain ⟨r, _, -, done⟩ := done.bind
    obtain ⟨code, _, -, done⟩ := done.bind
    obtain ⟨v, _, -, done⟩ := done.bind
    obtain ⟨_, _, -, done⟩ := done.bind
    obtain ⟨⟨value, r⟩, _, -, done⟩ := done.bind
    dsimp only at done
    obtain ⟨copied, _, -, done⟩ := done.bind
    obtain ⟨_, _, -, done⟩ := done.bind
    obtain ⟨joins, _, -, done⟩ := done.bind
    split at done
    · obtain ⟨_, _, -, done⟩ := done.bind
      rw [← done.pure.1]
    · rw [← done.pure.1]
      rfl

/-! ### Operators with assignment -/

/-- A step that cannot tell whether code is optimised does not change that either. -/
theorem tidy_of_plain {x : Plain α} {a : α} (ran : x.run s = .ok a s') :
    s'.tidy = s.tidy := by
  have := x.plain
  have same : x.run (s.optimizing s.options.optimizeCode)
      = mapState (·.optimizing s.options.optimizeCode) (x.run s) := Does.discreet.blind s _
  have still : s.optimizing s.options.optimizeCode = s := rfl
  rw [still, ran] at same
  have kept : s' = s'.optimizing s.options.optimizeCode := by injection same
  unfold State.tidy
  rw [kept]
  rfl

theorem Succeeds.mayChange {may : Bool} (done : Succeeds (mayChange a).run s may s') :
    s = s' ∧ may = true ∧ a.shape.size = .ok 1 := by
  unfold Compile.mayChange at done
  split at done
  · exact absurd done (not_report_bind rfl)
  · obtain ⟨v, s₁, ⟨-, ⟨⟩, -⟩, done⟩ := done.bind
    obtain ⟨assigned, s₂, ⟨-, ⟨⟩, -⟩, done⟩ := done.bind
    split at done
    · exact absurd done (not_report_bind rfl)
    · obtain ⟨head, s₃, first, done⟩ := done.bind
      obtain ⟨outermost, rfl⟩ := first.lift
      split at done
      · exact absurd done (not_report_bind rfl)
      · obtain ⟨size, s₄, sized, done⟩ := done.bind
        obtain ⟨size_eq, rfl⟩ := sized.lift
        obtain ⟨_, s₅, again, done⟩ := done.bind
        obtain ⟨-, rfl⟩ := again.lift
        split at done
        · exact absurd done (not_report_bind rfl)
        · next scalar =>
          obtain ⟨rfl, rfl⟩ := done.pure
          refine ⟨rfl, rfl, ?_⟩
          obtain ⟨ds, parts⟩ := parts_of_head outermost
          rw [Shape.size, parts] at size_eq ⊢
          cases size_eq
          simp at scalar
          simp [Except.map, scalar.1]

/-- Java's own operator changes a place of one of some types: a variable or an element of an array. -/
def OwnOperator (native : List TypeName) (a : Access) : Prop :=
  native ≠ [] ∧ isNativePlace a.base.shape = .ok true
    ∧ ∃ d, a.shape.head = .ok d ∧ d.isOneOf native = true

theorem gives_valueOf (free : a.base.slot = none) :
    Gives s (valueOf a) (readCode a) :=
  gives_sync (c := readCode a) free

theorem Succeeds.valueOf
    (done : Succeeds (valueOf a).run s c s') : readCode a = c ∧ (a.base.slot = none → s = s') := by
  unfold Compile.valueOf sync at done
  split at done
  · next occupied =>
    obtain ⟨_, _, -, done⟩ := done.bind
    exact ⟨done.pure.1, fun free => absurd (occupied.symm.trans free) (by simp)⟩
  · exact ⟨done.pure.1, fun _ => done.pure.2⟩

theorem Succeeds.ownOperator {own : Bool}
    (done : Succeeds (Pure.pure (!native.isEmpty) <&&> liftM (isNativePlace a.base.shape)
      <&&> (return (← a.shape.head).isOneOf native) : Plain Bool).run s own s') :
    s = s' ∧ (own = true ↔ OwnOperator native a) := by
  unfold OwnOperator
  obtain ⟨_, s₁, asked, ⟨none_, rfl, rfl⟩ | ⟨some_, done⟩⟩ := done.and
  · obtain ⟨rfl, rfl⟩ := asked.pure
    simp_all
  obtain ⟨rfl, rfl⟩ := asked.pure
  obtain ⟨place, s₂, asked, ⟨rfl, rfl, rfl⟩ | ⟨rfl, done⟩⟩ := done.and
  · obtain ⟨place, rfl⟩ := asked.lift
    simp [place]
  obtain ⟨place, rfl⟩ := asked.lift
  obtain ⟨head, s₃, asked, done⟩ := done.bind
  obtain ⟨head_eq, rfl⟩ := asked.lift
  obtain ⟨rfl, rfl⟩ := done.pure
  simp_all

/-- Java's own operator between a place and an expression of its type. The code has no type. -/
def ChangedByJava (op : String) (a : Access) (exp c : Fragment) (s s' : State) : Prop :=
  c.shape = .unset ∧ ∃ text, c.value = a.readText ++ " " ++ op ++ " " ++ text
    ∧ c.statement = some c.value
    ∧ (a.base.slot = none → Succeeds (converted a.shape exp).run s text s')

theorem Succeeds.startChange_cases {op : String} {exp : Fragment}
    {begun : Fragment ⊕ Fragment} (done : Succeeds (startChange op native f a exp).run s begun s') :
    a.shape.size = .ok 1 ∧ ((OwnOperator native a ∧ ∃ c, begun = .inl c
        ∧ ChangedByJava op a exp c s s')
      ∨ ¬OwnOperator native a ∧ ∃ r, begun = .inr r
        ∧ Succeeds (f { shape := a.shape, value := a.readText } exp).run s r s') := by
  unfold startChange at done
  obtain ⟨_, s₁, checked, done⟩ := done.bind
  obtain rfl := checked.check
  obtain ⟨_, s₂, allowed, done⟩ := done.bind
  obtain ⟨rfl, rfl, scalar⟩ := allowed.mayChange
  refine ⟨scalar, ?_⟩
  rw [if_pos rfl] at done
  obtain ⟨own, s₃, asked, done⟩ := done.bind
  obtain ⟨rfl, own_iff⟩ := asked.ownOperator
  cases own with
  | true =>
    rw [if_pos rfl] at done
    obtain ⟨c, s₄, read, done⟩ := done.bind
    obtain ⟨rfl, kept⟩ := read.valueOf
    obtain ⟨code, s₅, joining, done⟩ := done.bind
    obtain ⟨joined, rfl⟩ := joining.lift
    obtain ⟨text, s₆, converts, done⟩ := done.bind
    obtain ⟨rfl, rfl⟩ := done.pure
    exact .inl ⟨own_iff.1 rfl, _, rfl, (joined_of_join joined).shape, text, rfl, rfl,
      fun free => kept free ▸ converts⟩
  | false =>
    rw [if_neg Bool.false_ne_true] at done
    obtain ⟨r, s₄, made, done⟩ := done.bind
    obtain ⟨rfl, rfl⟩ := done.pure
    exact .inr ⟨fun own => Bool.false_ne_true (own_iff.2 own), r, rfl, made⟩

/-- What is left to do of an operator with assignment that has begun. -/
def finishChange (a : Access) (tidy : String → String) : Fragment ⊕ Fragment → Plain Fragment
  | .inl changed => return changed
  | .inr made => tidiedAssign a made false tidy

section Change

variable {op : String} {native : List TypeName} {f : Fragment → Fragment → Plain Fragment}
  {a : Access} {c exp : Fragment} {s s' : State}

theorem run_changeBy (s : State) : (changeBy op native f a exp).run s
    = (startChange op native f a exp >>= finishChange a s.tidy).run s := by
  refine Tidying.run_eq (y := fun tidy => startChange op native f a exp >>= finishChange a tidy)
    (congrArg (startChange op native f a exp >>= ·) (funext fun begun => ?_))
    (congrArg (startChange op native f a exp >>= ·) (funext fun begun => ?_)) s
  · cases begun with
    | inl changed => rfl
    | inr made => exact assignTo_on a made false
  · cases begun with
    | inl changed => rfl
    | inr made => exact assignTo_off a made false

theorem Succeeds.changeBy_cases (done : Succeeds (changeBy op native f a exp).run s c s') :
    a.shape.size = .ok 1 ∧ ((OwnOperator native a ∧ ChangedByJava op a exp c s s')
      ∨ ¬OwnOperator native a ∧ Succeeds (f { shape := a.shape, value := a.readText } exp
        >>= fun r => tidiedAssign a r false s.tidy).run s c s') := by
  have done : Succeeds (startChange op native f a exp >>= finishChange a s.tidy).run s c s' :=
    ⟨done.levels, run_changeBy s ▸ done.ran, done.fine⟩
  obtain ⟨begun, s₁, begins, done⟩ := done.bind
  obtain ⟨scalar, ⟨own, c, rfl, changed⟩ | ⟨other, r, rfl, made⟩⟩ := begins.startChange_cases
  · obtain ⟨rfl, rfl⟩ := done.pure
    exact ⟨scalar, .inl ⟨own, changed⟩⟩
  · exact ⟨scalar, .inr ⟨other, made.andThen done⟩⟩

theorem run_assignTo (s : State) :
    (assignTo a exp false).run s = (tidiedAssign a exp false s.tidy).run s :=
  Tidying.run_eq (assignTo_on a exp false) (assignTo_off a exp false) s

end Change

/-! ### The operators -/

theorem run_return {β : Type} (x : Tidying α) (g : α → β) :
    (do return g (← x) : Tidying β).run = (do return g (← x.run) : M β) := by
  funext s
  rw [M.bind_apply]
  unfold Tidying.run
  split
  · exact M.bind_apply ..
  · exact M.bind_apply ..

theorem run_change {text : String} (a : Access) (exp : Fragment) (p q r : Position) :
    (change native f ⟨#[(.access a, p), (.text text, q), (.code exp, r)]⟩).run
      = (do return .code (← (changeBy text native f a exp).run)) :=
  run_return (changeBy text native f a exp) Value.code

structure Compound where
  /-- The operator with assignment, as Perl writes it. -/
  assign : Perl.Symbol
  text : String
  /-- Java's own operator, and the types of the places that it changes. -/
  java : String := text
  native : List TypeName := []
  /-- The operation that is assigned to other places. -/
  operation : Fragment → Fragment → Plain Fragment
  alike : LeftAlike operation
  /-- The operator, as Perl writes it, the expressions with it and its operation. -/
  operator : Perl.Symbol
  operatorText : String
  kind : Perl.Symbol
  expanded : Fragment → Fragment → Plain Fragment := operation
  changes (a : Access) (exp : Fragment) (p q r : Position) :
    Acts ⟨.assignment, [.var_access, assign, .expression]⟩
      [(.access a, p), (.text text, q), (.code exp, r)]
      (do return .code (← (changeBy java native operation a exp).run)) := by
    exact fun a exp p q r => ⟨_, rfl, run_change a exp p q r⟩
  operates (c exp : Fragment) (p q r : Position) :
    Acts ⟨kind, [.expression, operator, .expression]⟩
      [(.code c, p), (.text operatorText, q), (.code exp, r)]
      (do return .code (← (expanded c exp).run)) := by
    exact fun c exp p q r => ⟨_, rfl, rfl⟩
  passes (c : Fragment) (p : Position) :
    Acts ⟨.expression, [kind]⟩ [(.code c, p)] (return .code c) := by
    exact fun c p => ⟨_, rfl, rfl⟩

/-- The operators with assignment. Those that shift stand for operators of two characters, of which
their operation has the first. -/
def compounds : List Compound := [
  { assign := .PLUSEQUAL, text := "+="
    operation := arithmetic "+", alike := leftAlike_arithmetic "+"
    operator := .PLUS, operatorText := "+", kind := .arithmetic },
  { assign := .MINUSEQUAL, text := "-="
    operation := arithmetic "-", alike := leftAlike_arithmetic "-"
    operator := .MINUS, operatorText := "-", kind := .arithmetic },
  { assign := .TIMESEQUAL, text := "*="
    operation := arithmetic "*", alike := leftAlike_arithmetic "*"
    operator := .TIMES, operatorText := "*", kind := .arithmetic },
  { assign := .DIVEQUAL, text := "/="
    operation := division, alike := leftAlike_division
    operator := .DIVIDE, operatorText := "/", kind := .arithmetic },
  { assign := .MODEQUAL, text := "%="
    operation := remainder, alike := leftAlike_remainder
    operator := .PERCENTAGE, operatorText := "%", kind := .arithmetic },
  { assign := .POWEQUAL, text := "**="
    operation := power, alike := leftAlike_power
    operator := .POW, operatorText := "**", kind := .arithmetic },
  { assign := .ANDEQUAL, text := "&=", native := [.integer, .long]
    operation := bitwise "&", alike := leftAlike_bitwise "&"
    operator := .AND, operatorText := "&", kind := .binary },
  { assign := .OREQUAL, text := "|=", native := [.integer, .long]
    operation := bitwise "|", alike := leftAlike_bitwise "|"
    operator := .OR, operatorText := "|", kind := .binary },
  { assign := .XOREQUAL, text := "^=", native := [.integer, .long]
    operation := bitwise "^", alike := leftAlike_bitwise "^"
    operator := .XOR, operatorText := "^", kind := .binary },
  { assign := .LSHIFTEQUAL, text := "<<=", native := [.integer, .long]
    operation := bitwise "<", alike := leftAlike_bitwise "<"
    operator := .LSHIFT, operatorText := "<<", kind := .binary, expanded := bitwise "<<" },
  { assign := .RSHIFTEQUAL, text := ">>=", native := [.integer, .long]
    operation := bitwise ">", alike := leftAlike_bitwise ">"
    operator := .RSHIFT, operatorText := ">>", kind := .binary, expanded := bitwise ">>" },
  { assign := .LANDEQUAL, text := "&&=", native := [.boolean]
    operation := logical "&&" "and" false, alike := leftAlike_logical "&&" "and" false
    operator := .LAND, operatorText := "&&", kind := .logical },
  { assign := .LOREQUAL, text := "||=", native := [.boolean]
    operation := logical "||" "or" false, alike := leftAlike_logical "||" "or" false
    operator := .LOR, operatorText := "||", kind := .logical },
  { assign := .PERIODEQUAL, text := ".=", java := "+=", native := [.string]
    operation := concatenation, alike := leftAlike_concatenation
    operator := .PERIOD, operatorText := ".", kind := .arithmetic
    changes a exp p q r := ⟨_, rfl, run_return (changeBy "+=" [.string] concatenation a exp) Value.code⟩ },
  { assign := .XEQUAL, text := "x="
    operation := repetition, alike := leftAlike_repetition
    operator := .X, operatorText := "x", kind := .arithmetic }]

theorem expanded_eq {k : Compound} (listed : k ∈ compounds) (shifts : k.operator ∉ [.LSHIFT, .RSHIFT]) :
    k.expanded = k.operation := by
  have all : ∀ k ∈ compounds, k.operator ∉ [.LSHIFT, .RSHIFT] → k.expanded = k.operation := by
    simp [compounds]
  exact all k listed shifts

namespace Compound

variable (k : Compound) (v e : Tree) (equals at_ : Position)

/-- The tree of a place that is changed by an operator with assignment. -/
def compound : Tree :=
  .node ⟨.assignment, [.var_access, k.assign, .expression]⟩ [v, .token k.text at_, e]

def expansion : Tree :=
  .node ⟨.assignment, [.var_access, .EQUALS, .expression]⟩ [v, .token "=" equals,
    .node ⟨.expression, [k.kind]⟩ [.node ⟨k.kind, [.expression, k.operator, .expression]⟩
      [.node ⟨.expression, [.var_access]⟩ [v], .token k.operatorText at_, e]]]

end Compound

section Trees

variable {k : Compound} {v e : Tree} {equals at_ place place' : Position} {a : Access}
  {c exp : Fragment} {s s₀ s₁ s' : State}

theorem Succeeds.of_node {production : Perl.Production} {ts : List Tree}
    {vs : List (Value × Position)} {x : M Fragment} (acts : Acts production vs (do return .code (← x)))
    (below : evalAll ts s = .ok vs s₁) (levels : s₁.context.Balanced)
    (done : Succeeds (node production ts).eval s (.code c, {}) s') : Succeeds x s₁ c s' := by
  obtain ⟨made, -⟩ := (eval_node_of_acts acts below).1 done.ran
  obtain ⟨_, _, made, ⟨⟩⟩ := M.cut made
  exact ⟨levels, made, done.fine⟩

theorem Succeeds.of_compound (first : v.eval s = .ok (.access a, place) s₀)
    (operand : e.eval s₀ = .ok (.code exp, place') s₁) (levels : s₁.context.Balanced)
    (done : Succeeds (k.compound v e at_).eval s (.code c, {}) s') :
    Succeeds (changeBy k.java k.native k.operation a exp).run s₁ c s' :=
  .of_node (k.changes a exp place at_ place') (evalAll_around k.text at_ first operand) levels done

theorem Succeeds.of_expansion (first : v.eval s = .ok (.access a, place) s₀)
    (again : v.Makes s₀ (.access a) place) (free : a.base.slot = none)
    (operand : e.eval s₀ = .ok (.code exp, place') s₁) (levels : s₁.context.Balanced)
    (done : Succeeds (k.expansion v e equals at_).eval s (.code c, {}) s') :
    Succeeds (k.expanded (readCode a) exp >>= fun r => tidiedAssign a r false s₁.tidy).run s₁ c s' := by
  have value : (node ⟨.expression, [.var_access]⟩ [v]).Makes s₀ (.code (readCode a)) {} :=
    makes_node rfl (.cons again .nil) ((Gives.lift rfl).bind ((gives_valueOf free).bind (.pure _)))
  have operands := evalAll_around k.operatorText at_ value operand
  obtain ⟨_, s₃, _, below, -⟩ := eval_node_eq_ok.1 done.ran
  obtain ⟨_, _, ⟨result, _⟩, first', passed, rfl⟩ := evalAll_around_cases below
  cases first.symm.trans first'
  obtain ⟨_, s₄, _, single, -⟩ := eval_node_eq_ok.1 passed
  obtain ⟨⟨_, _⟩, _, _, operated, ⟨⟩, rfl⟩ := evalAll_cons_eq_ok.1 single
  obtain ⟨made, rfl⟩ := (eval_node_of_acts (k.operates _ _ _ _ _) operands).1 operated
  obtain ⟨r, _, operation, ⟨⟩⟩ := M.cut made
  obtain ⟨⟨⟩, rfl⟩ := (eval_node_of_acts (k.passes r {}) single).1 passed
  have assigns : Acts ⟨.assignment, [.var_access, .EQUALS, .expression]⟩
      [(.access a, place), (.text "=", equals), (.code r, {})]
      (do return .code (← (assignTo a r false).run)) :=
    ⟨_, rfl, run_return (assignTo a r false) Value.code⟩
  obtain ⟨assigned, -⟩ := (eval_node_of_acts assigns below).1 done.ran
  obtain ⟨_, _, assigned, ⟨⟩⟩ := M.cut assigned
  rw [run_assignTo, tidy_of_plain operation] at assigned
  exact ⟨levels, Plain.bind_eq_ok.2 ⟨r, _, operation, assigned⟩, done.fine⟩

end Trees

/-! ### Increments and decrements -/

def IsWholeVariable (a : Access) : Prop :=
  ∃ d n, a.shape.head = .ok d ∧ d.isOneOf [.integer, .long] = true ∧ a.shape.size = .ok n
    ∧ a.base.shape.size = .ok n

theorem isWholeVariable_iff {d : Dim} {n m : Nat} (head : a.shape.head = .ok d)
    (size : a.shape.size = .ok n) (whole : a.base.shape.size = .ok m) :
    IsWholeVariable a ↔ d.isOneOf [.integer, .long] = true ∧ n = m := by
  constructor
  · rintro ⟨_, _, head', is, size', whole'⟩
    cases head.symm.trans head'
    cases size.symm.trans size'
    cases whole.symm.trans whole'
    exact ⟨is, rfl⟩
  · rintro ⟨is, rfl⟩
    exact ⟨d, n, head, is, size, whole⟩

section Steps

variable {op undo : String} {result : Option TypeName} {a : Access} {c : Fragment} {s s' : State}

theorem Succeeds.stepBefore_cases (done : Succeeds (stepBefore op a).run s c s') :
    c.statement = some c.value ∧ (IsWholeVariable a → c.value = op ++ op ++ a.readText) := by
  unfold stepBefore at done
  obtain ⟨_, _, -, done⟩ := done.bind
  obtain ⟨_, _, -, done⟩ := done.bind
  split at done
  · exact absurd done (not_report_bind rfl)
  obtain ⟨code, _, -, done⟩ := done.bind
  obtain ⟨head, _, asked, done⟩ := done.bind
  obtain ⟨head_eq, rfl⟩ := asked.lift
  split at done
  · obtain ⟨n, _, asked, done⟩ := done.bind
    obtain ⟨size, rfl⟩ := asked.lift
    obtain ⟨m, _, asked, done⟩ := done.bind
    obtain ⟨whole, rfl⟩ := asked.lift
    split at done
    · obtain ⟨value, _, asked, done⟩ := done.bind
      obtain ⟨rfl, rfl⟩ := asked.pure
      obtain ⟨rfl, rfl⟩ := done.pure
      exact ⟨rfl, fun _ => rfl⟩
    · next differ =>
      obtain ⟨value, _, -, done⟩ := done.bind
      obtain ⟨rfl, rfl⟩ := done.pure
      refine ⟨rfl, fun variable_ => absurd ?_ differ⟩
      exact beq_iff_eq.2 ((isWholeVariable_iff head_eq size whole).1 variable_).2
  · next other =>
    obtain ⟨number, _, -, done⟩ := done.bind
    obtain ⟨text, _, -, done⟩ := done.bind
    obtain ⟨value, _, -, done⟩ := done.bind
    obtain ⟨rfl, rfl⟩ := done.pure
    refine ⟨rfl, fun ⟨_, _, head', is, _⟩ => absurd ?_ other⟩
    cases head_eq.symm.trans head'
    exact is

theorem Succeeds.isWholeVariable {d : Dim} {own : Bool} (head : a.shape.head = .ok d)
    (done : Succeeds (Pure.pure (d.isOneOf [.integer, .long])
      <&&> (return (← a.shape.size) == (← a.base.shape.size)) : Plain Bool).run s own s') :
    s = s' ∧ (own = true ↔ IsWholeVariable a) := by
  obtain ⟨is, _, asked, ⟨rfl, rfl, rfl⟩ | ⟨rfl, done⟩⟩ := done.and
  · obtain ⟨other, rfl⟩ := asked.pure
    refine ⟨rfl, by simp, fun ⟨_, _, head', is, _⟩ => ?_⟩
    cases head.symm.trans head'
    exact absurd is (Bool.eq_false_iff.1 other)
  · obtain ⟨is, rfl⟩ := asked.pure
    obtain ⟨n, _, asked, done⟩ := done.bind
    obtain ⟨size, rfl⟩ := asked.lift
    obtain ⟨m, _, asked, done⟩ := done.bind
    obtain ⟨whole, rfl⟩ := asked.lift
    obtain ⟨rfl, rfl⟩ := done.pure
    rw [isWholeVariable_iff head size whole]
    simp [is]

/-- A step after the value is taken is Java's own, or an increment before it. -/
theorem Succeeds.stepAfter_cases (done : Succeeds (stepAfter op undo result a).run s c s') :
    (IsWholeVariable a ∧ c.statement = some (a.readText ++ op ++ op))
      ∨ ¬IsWholeVariable a ∧ ∃ stepped s₁, Succeeds (stepBefore "+" a).run s stepped s₁
        ∧ c.statement = some stepped.value := by
  unfold stepAfter at done
  obtain ⟨_, _, checked, done⟩ := done.bind
  obtain rfl := checked.check
  obtain ⟨_, _, first, done⟩ := done.bind
  obtain ⟨-, rfl⟩ := first.lift
  split at done
  · exact absurd done (not_report_bind rfl)
  obtain ⟨code, _, joining, done⟩ := done.bind
  obtain ⟨-, rfl⟩ := joining.lift
  obtain ⟨head, _, asked, done⟩ := done.bind
  obtain ⟨head_eq, rfl⟩ := asked.lift
  obtain ⟨own, _, asked, done⟩ := done.bind
  obtain ⟨rfl, own_iff⟩ := asked.isWholeVariable head_eq
  cases own with
  | true =>
    obtain ⟨rfl, -⟩ := done.pure
    exact .inl ⟨own_iff.1 rfl, rfl⟩
  | false =>
    obtain ⟨stepped, s₁, before, done⟩ := done.bind
    obtain ⟨_, _, -, done⟩ := done.bind
    obtain ⟨rfl, -⟩ := done.pure
    exact .inr ⟨fun variable_ => Bool.false_ne_true (own_iff.2 variable_), stepped, s₁, before, rfl⟩

theorem statements_of_whole (whole : IsWholeVariable a) {c' : Fragment} {s₁ s₂ : State}
    (before : Succeeds (stepBefore op a).run s c s₁)
    (after : Succeeds (stepAfter op undo result a).run s c' s₂) :
    c.statement = some (op ++ op ++ a.readText) ∧ c'.statement = some (a.readText ++ (op ++ op)) := by
  obtain ⟨statement, text⟩ := before.stepBefore_cases
  refine ⟨statement.trans (congrArg some (text whole)), ?_⟩
  obtain ⟨-, statement'⟩ | ⟨other, -⟩ := after.stepAfter_cases
  · rw [statement', String.append_assoc]
  · exact absurd whole other

/-- Any other place is incremented after its value is taken as before. -/
theorem statement_of_other (other : ¬IsWholeVariable a) {c' : Fragment} {s₁ s₂ : State}
    (before : Succeeds (stepBefore "+" a).run s c s₁)
    (after : Succeeds (stepAfter op undo result a).run s c' s₂) : c'.statement = c.statement := by
  obtain ⟨whole, -⟩ | ⟨-, stepped, _, again, statement⟩ := after.stepAfter_cases
  · exact absurd whole other
  · cases before.ran.symm.trans again.ran
    exact statement.trans before.stepBefore_cases.1.symm

/-- The tree of a step before the value of a place is taken. -/
def stepBeforeTree (op : Perl.Symbol) (text : String) (at_ : Position) (v : Tree) : Tree :=
  .node ⟨.arithmetic, [op, .var_access]⟩ [.token text at_, v]

/-- The tree of a step after the value of a place is taken. -/
def stepAfterTree (op : Perl.Symbol) (text : String) (at_ : Position) (v : Tree) : Tree :=
  .node ⟨.arithmetic, [.var_access, op]⟩ [v, .token text at_]

variable {v : Tree} {sym : Perl.Symbol} {text : String} {at_ place : Position} {s₀ : State}

theorem Succeeds.of_stepBefore (acts : Acts ⟨.arithmetic, [sym, .var_access]⟩
      [(.text text, at_), (.access a, place)] (do return .code (← (stepBefore op a).run)))
    (first : v.eval s = .ok (.access a, place) s₀) (levels : s₀.context.Balanced)
    (done : Succeeds (stepBeforeTree sym text at_ v).eval s (.code c, {}) s') :
    Succeeds (stepBefore op a).run s₀ c s' := by
  have last : evalAll [v] s = .ok [(.access a, place)] s₀ :=
    evalAll_cons_eq_ok.2 ⟨_, s₀, [], first, rfl, rfl⟩
  exact .of_node acts (evalAll_cons_eq_ok.2 ⟨_, s, _, rfl, last, rfl⟩) levels done

theorem Succeeds.of_stepAfter (acts : Acts ⟨.arithmetic, [.var_access, sym]⟩
      [(.access a, place), (.text text, at_)] (do return .code (← (stepAfter op undo result a).run)))
    (first : v.eval s = .ok (.access a, place) s₀) (levels : s₀.context.Balanced)
    (done : Succeeds (stepAfterTree sym text at_ v).eval s (.code c, {}) s') :
    Succeeds (stepAfter op undo result a).run s₀ c s' :=
  .of_node acts (evalAll_cons_eq_ok.2 ⟨_, s₀, _, first, rfl, rfl⟩) levels done

end Steps

/-! ### Expansions -/

theorem isPresent_of_size {shape : Shape} (scalar : shape.size = .ok 1) : shape.isPresent = true := by
  cases shape with
  | unset => cases scalar
  | word w =>
    cases w with
    | nil => cases scalar
    | cons x w => rfl
  | dims ds =>
    cases ds with
    | nil => cases scalar
    | cons d ds => rfl

/-- An operator with assignment has the text, the statement and the effect of the assignment of the
operation, unless it is Java's own, which has no type, or shifts. The steps of a place after its value
is taken are the statements that the steps before it are, up to Java's own operators; but of any other
place a decrement is the statement of an increment. -/
theorem compound_assignment_expands {name : String} {spot place place' : Position}
    {package : Option Package} {root exp : Fragment} {r r' s s₀ s₁ : State}
    {subscripts : List Subscript} {a : Access} {v e : Tree}
    (reads : Succeeds (readVariable name spot package).run r root r')
    (path : Path (root.mark .variable_) subscripts a)
    (first : v.eval s = .ok (.access a, place) s₀) (again : v.Makes s₀ (.access a) place)
    (operand : Succeeds e.eval s₀ (.code exp, place') s₁) (levels : s₁.context.Balanced) :
    (∀ k ∈ compounds, ∀ {at_ equals at' c c' s₂ s₃},
      Succeeds (k.compound v e at_).eval s (.code c, {}) s₂ →
      Succeeds (k.expansion v e equals at').eval s (.code c', {}) s₃ →
      c'.shape = a.shape ∧ a.shape.isPresent = true
        ∧ (OwnOperator k.native a → ChangedByJava k.java a exp c s₁ s₂)
        ∧ (¬OwnOperator k.native a → c.shape = a.shape ∧ (k.operator ∉ [.LSHIFT, .RSHIFT] →
          c.value = c'.value ∧ c.statement = c'.statement ∧ s₂ = s₃)))
    ∧ (∀ {p q c c' s₂ s₃},
      Succeeds (stepBeforeTree .PLUSPLUS "++" p v).eval s (.code c, {}) s₂ →
      Succeeds (stepAfterTree .PLUSPLUS "++" q v).eval s (.code c', {}) s₃ →
      (IsWholeVariable a → c.statement = some ("++" ++ a.readText)
          ∧ c'.statement = some (a.readText ++ "++"))
        ∧ (¬IsWholeVariable a → c'.statement = c.statement))
    ∧ (∀ {p q c c' s₂ s₃}, IsWholeVariable a →
      Succeeds (stepBeforeTree .MINUSMINUS "--" p v).eval s (.code c, {}) s₂ →
      Succeeds (stepAfterTree .MINUSMINUS "--" q v).eval s (.code c', {}) s₃ →
      c.statement = some ("--" ++ a.readText) ∧ c'.statement = some (a.readText ++ "--"))
    ∧ ∀ {p q c c' s₂ s₃}, ¬IsWholeVariable a →
      Succeeds (stepBeforeTree .PLUSPLUS "++" p v).eval s (.code c, {}) s₂ →
      Succeeds (stepAfterTree .MINUSMINUS "--" q v).eval s (.code c', {}) s₃ →
      c'.statement = c.statement := by
  obtain ⟨whole, free, truth, -⟩ := readVariable_found reads
  have base : a.base = root.mark .variable_ := path.base
  have slot : a.base.slot = none := base ▸ free
  have same : Alike { shape := a.shape, value := a.readText } (readCode a) := by
    have condition : a.base.condition = none := base ▸ truth
    have bare : a.base.bare = false := base ▸ whole
    exact ⟨rfl, rfl, condition.symm, ⟨rfl, bare⟩, ⟨rfl, slot⟩⟩
  have increment {p c s₂} (done : Succeeds (stepBeforeTree .PLUSPLUS "++" p v).eval s (.code c, {}) s₂) :
      Succeeds (stepBefore "+" a).run s₀ c s₂ := done.of_stepBefore ⟨_, rfl, rfl⟩ first operand.levels
  have decrement {q c s₂} (done : Succeeds (stepAfterTree .MINUSMINUS "--" q v).eval s (.code c, {}) s₂) :
      Succeeds (stepAfter "-" "+" (some .double) a).run s₀ c s₂ :=
    done.of_stepAfter ⟨_, rfl, rfl⟩ first operand.levels
  refine ⟨?_, fun before after => ?_, fun whole before after => ?_, fun other before after => ?_⟩
  · intro k listed at_ equals at' c c' s₂ s₃ one two
    have one := one.of_compound first operand.ran levels
    have two := two.of_expansion first again slot operand.ran levels
    obtain ⟨scalar, cases_⟩ := one.changeBy_cases
    obtain ⟨_, _, -, assigned⟩ := two.bind
    refine ⟨assigned.tidiedAssign_shape, isPresent_of_size scalar, fun own => ?_, fun other => ?_⟩
    · obtain ⟨-, changed⟩ | ⟨other, -⟩ := cases_
      · exact changed
      · exact absurd own other
    · obtain ⟨own, -⟩ | ⟨-, one⟩ := cases_
      · exact absurd own other
      obtain ⟨_, _, -, assigned⟩ := one.bind
      refine ⟨assigned.tidiedAssign_shape, fun shifts => ?_⟩
      rw [expanded_eq listed shifts] at two
      have matched := Matched.bind (k.alike _ _ exp same) fun results =>
        matched_tidiedAssign scalar results s₁.tidy
      obtain ⟨state, stored⟩ := matched _ _ _ _ _ one two
      exact ⟨stored.value, stored.statement, state⟩
  · have after := after.of_stepAfter ⟨_, rfl, rfl⟩ first operand.levels
    exact ⟨fun whole => statements_of_whole whole (increment before) after,
      fun other => statement_of_other other (increment before) after⟩
  · have before := before.of_stepBefore ⟨_, rfl, rfl⟩ first operand.levels
    exact statements_of_whole whole before (decrement after)
  · exact statement_of_other other (increment before) (decrement after)

def integerHash : State :=
  { (default : State) with
    vars := #[{ name := some "h", shape := .ofNames [.hash, .integer] }]
    declared := [.ofList [("h", 0)]]
    assigned := [[]] }

def literalTree (kind : Perl.Symbol) (text : String) : Tree :=
  .node ⟨.expression, [.value]⟩ [.node ⟨.value, [kind]⟩ [.token text {}]]

/-- The tree of `$h{'k'}`. -/
def hashElementTree : Tree :=
  .node ⟨.var_access, [.var_access, .LBRACE, .expression, .RBRACE]⟩
    [.node ⟨.var_access, [.variable_]⟩
      [.node ⟨.variable_, [.DOLLAR, .ID]⟩ [.token "$" {}, .token "h" {}]],
    .token "\x7b" {}, literalTree .STRING_QUOTE "k", .token "\x7d" {}]

def hashElement : Access where
  base := (hashCode "h" 0 (.ofNames [.hash, .integer])).mark .variable_
  value := "h"
  shape := .scalar .integer
  position := {}
  read := ".get(\"k\""
  store := ".put(\"k\","
  close := ")"
  ref := true

theorem succeeds_integerHash {x : M α} {a : α}
    (ran : x integerHash = .ok a s) (fine : s.codeError = false) : Succeeds x integerHash a s :=
  ⟨by decide, ran, fine⟩

/-- The code of `$h{'k'} /= 2` is that of `$h{'k'} = $h{'k'} / 2`. -/
theorem element_division_expands : ∃ k ∈ compounds, k.text = "/=" ∧ ∃ c c' s,
    Succeeds (k.compound hashElementTree (literalTree .INT_NUMBER "2") {}).eval integerHash
      (.code c, {}) s
    ∧ Succeeds (k.expansion hashElementTree (literalTree .INT_NUMBER "2") {} {}).eval integerHash
      (.code c', {}) s
    ∧ c.value = c'.value ∧ c.statement = c'.statement
    ∧ c.value = "h.put(\"k\",Pd.toInteger(h.get(\"k\") / (float)2))" := by
  have reads : Succeeds (readVariable "h" {} none).run integerHash
      (hashCode "h" 0 (.ofNames [.hash, .integer])) integerHash := succeeds_integerHash (by rfl) rfl
  have path : Path hashElement.base [inBraces "\"k\""] hashElement :=
    .step (.start rfl) (succeeds_integerHash (by rfl) rfl)
  have element : hashElementTree.Makes integerHash (.access hashElement) {} := by rfl
  obtain ⟨expands, -⟩ := compound_assignment_expands reads path element element
    (succeeds_integerHash (x := (literalTree .INT_NUMBER "2").eval) (by rfl) rfl) (by decide)
  have other : ¬OwnOperator compounds[3].native hashElement := fun own => own.1 rfl
  have one : ∃ c s, Succeeds (compounds[3].compound hashElementTree (literalTree .INT_NUMBER "2") {}).eval
      integerHash (.code c, {}) s ∧ c.value = "h.put(\"k\",Pd.toInteger(h.get(\"k\") / (float)2))" :=
    ⟨_, _, succeeds_integerHash (by rfl) rfl, by decide⟩
  have two : ∃ c s, Succeeds (compounds[3].expansion hashElementTree
      (literalTree .INT_NUMBER "2") {} {}).eval integerHash (.code c, {}) s :=
    ⟨_, _, succeeds_integerHash (by rfl) rfl⟩
  obtain ⟨c, s₂, one, text⟩ := one
  obtain ⟨c', s₃, two⟩ := two
  have listed : compounds[3] ∈ compounds := List.getElem_mem _
  obtain ⟨-, -, -, same⟩ := expands compounds[3] listed one two
  obtain ⟨value, statement, rfl⟩ := (same other).2 (by decide)
  exact ⟨compounds[3], listed, rfl, c, c', s₂, one, two, value, statement, text⟩

/-- Of the element `$h{'k'}`, a shift with assignment compares instead, and a decrement after the value
is taken increments. -/
theorem shift_compares_and_decrement_increments :
    (∃ k ∈ compounds, k.text = "<<="
      ∧ (k.compound hashElementTree (literalTree .INT_NUMBER "2") {}).textIn integerHash
        = "h.put(\"k\",h.get(\"k\") < 2)"
      ∧ (k.expansion hashElementTree (literalTree .INT_NUMBER "2") {} {}).textIn integerHash
        = "h.put(\"k\",h.get(\"k\") << 2)")
    ∧ (stepBeforeTree .MINUSMINUS "--" {} hashElementTree).textIn integerHash
      = "h.put(\"k\",h.get(\"k\") - 1)"
    ∧ (stepAfterTree .MINUSMINUS "--" {} hashElementTree).textIn integerHash
      = "Pd.toDouble(h.put(\"k\",h.get(\"k\") + 1)) + 1" :=
  ⟨⟨compounds[9], List.getElem_mem _, by decide⟩, by decide⟩

end PerlJava.Compile
