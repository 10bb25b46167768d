import PerlJava.Proofs.Compile.ParseTree
import PerlJava.Proofs.Java.Expression

/-!
# Operators keep their operands

Arithmetic expressions are written to Java operator by operator, without parentheses of their own.
Java reads them as the tree that the grammar has read, because the two precedence tables agree on
all operators but one pair: `|` and `^` bind equally here, and `^` binds tighter in Java. A minus in
front of another is the second exception, because the two grow together.
-/

namespace PerlJava.Perl

/-- The line of the precedence table on which a term stands. -/
def levelOf (x : Symbol) : Nat :=
  grammarPrecedence.findIdx (·.2.contains x)

def assocOf? (x : Symbol) : Option LR.Assoc :=
  (grammarPrecedence.find? (·.2.contains x)).map (·.1)

/-- The term whose precedence a production has: the one that it asks for, or its last one. -/
def termOf (p : Production) : Symbol :=
  ((grammarRules.lookup p).join.or
    (p.symbols.reverse.find? fun x => (assocOf? x).isSome)).getD .error

/-- The line of the precedence table that decides about a production. -/
def ruleLevel (p : Production) : Nat :=
  levelOf (termOf p)

end PerlJava.Perl

namespace PerlJava.Compile

open Java

/-- Arithmetic operators between two operands. -/
inductive ArithOp where
  | add
  | subtract
  | multiply
  | divide
  | remainder
  | bitAnd
  | bitOr
  | bitXor
  | shiftLeft
  | shiftRight
deriving Repr, DecidableEq

namespace ArithOp

def all : List ArithOp :=
  [add, subtract, multiply, divide, remainder, bitAnd, bitOr, bitXor, shiftLeft, shiftRight]

theorem mem_all (op : ArithOp) : op ∈ all := by
  cases op <;> decide

/-- The token of an operator. -/
def symbol : ArithOp → Perl.Symbol
  | add => .PLUS
  | subtract => .MINUS
  | multiply => .TIMES
  | divide => .DIVIDE
  | remainder => .PERCENTAGE
  | bitAnd => .AND
  | bitOr => .OR
  | bitXor => .XOR
  | shiftLeft => .LSHIFT
  | shiftRight => .RSHIFT

/-- How an operator is written, in Perl and in Java. -/
def text : ArithOp → String
  | add => "+"
  | subtract => "-"
  | multiply => "*"
  | divide => "/"
  | remainder => "%"
  | bitAnd => "&"
  | bitOr => "|"
  | bitXor => "^"
  | shiftLeft => "<<"
  | shiftRight => ">>"

def group : ArithOp → Perl.Symbol
  | add | subtract | multiply | divide | remainder => .arithmetic
  | bitAnd | bitOr | bitXor | shiftLeft | shiftRight => .binary

/-- The operator in Java. -/
def java : ArithOp → BinaryOp
  | add => .add
  | subtract => .subtract
  | multiply => .multiply
  | divide => .divide
  | remainder => .remainder
  | bitAnd => .bitAnd
  | bitOr => .bitOr
  | bitXor => .bitXor
  | shiftLeft => .shiftLeft
  | shiftRight => .shiftRight

def production (op : ArithOp) : Perl.Production :=
  ⟨op.group, [.expression, op.symbol, .expression]⟩

end ArithOp

/-- Arithmetic expressions, with the places of their tokens. -/
inductive Arith where
  | var (name : String) (sigil at_ : Position)
  | number (digits : String) (at_ : Position)
  | paren (inner : Arith) (opening closing : Position)
  | opposite (operand : Arith) (at_ : Position)
  | complement (operand : Arith) (at_ : Position)
  | binary (op : ArithOp) (left right : Arith) (at_ : Position)
deriving Repr, DecidableEq

namespace Arith

/-- The production of the outermost operator, if there is one. -/
def production? : Arith → Option Perl.Production
  | opposite .. => some ⟨.arithmetic, [.MINUS, .expression]⟩
  | complement .. => some ⟨.binary, [.NOT, .expression]⟩
  | binary op .. => some op.production
  | var .. | number .. | paren .. => none

/-- The parse tree of an expression. -/
def tree : Arith → Tree
  | var x sigil at_ => .scalar x sigil at_
  | number digits at_ =>
    .node ⟨.expression, [.value]⟩ [.node ⟨.value, [.INT_NUMBER]⟩ [.token digits at_]]
  | paren e opening closing => e.tree.parens opening closing
  | opposite e at_ =>
    .node ⟨.expression, [.arithmetic]⟩
      [.node ⟨.arithmetic, [.MINUS, .expression]⟩ [.token "-" at_, e.tree]]
  | complement e at_ =>
    .node ⟨.expression, [.binary]⟩ [.node ⟨.binary, [.NOT, .expression]⟩ [.token "~" at_, e.tree]]
  | binary op l r at_ =>
    .node ⟨.expression, [op.group]⟩ [.node op.production [l.tree, .token op.text at_, r.tree]]

/-- How tightly the precedence table holds an expression together; what has no operator outside is
held together most tightly. -/
def level (e : Arith) : Nat :=
  e.production?.elim Perl.grammarPrecedence.length Perl.ruleLevel

/-- An expression that is arranged as the precedence table asks for. -/
def Arranged : Arith → Prop
  | var .. | number .. => True
  | paren e .. => e.Arranged
  | e@(opposite operand _) | e@(complement operand _) => operand.Arranged ∧ e.level ≤ operand.level
  | e@(binary op l r _) => l.Arranged ∧ r.Arranged
    ∧ (e.level < l.level ∨ e.level = l.level ∧ Perl.assocOf? op.symbol = some .left)
    ∧ (e.level < r.level ∨ e.level = r.level ∧ Perl.assocOf? op.symbol = some .right)

/-- Whether an expression is arranged so can be decided. -/
instance decidableArranged : (e : Arith) → Decidable e.Arranged
  | var .. | number .. => inferInstanceAs (Decidable True)
  | paren e .. => decidableArranged e
  | opposite operand _ | complement operand _ =>
    have := decidableArranged operand
    inferInstanceAs (Decidable (_ ∧ _))
  | binary _ l r _ =>
    have := decidableArranged l
    have := decidableArranged r
    inferInstanceAs (Decidable (_ ∧ _ ∧ (_ ∨ _) ∧ (_ ∨ _)))

def vars : Arith → List String
  | var x .. => [x]
  | number .. => []
  | paren e .. | opposite e _ | complement e _ => e.vars
  | binary _ l r _ => l.vars ++ r.vars

/-- Whether the numbers of an expression are decimal digits. -/
def isDecimal : Arith → Bool
  | var .. => true
  | number digits _ => isNumber digits.toList
  | paren e .. | opposite e _ | complement e _ => e.isDecimal
  | binary _ l r _ => l.isDecimal && r.isDecimal

/-- The expression as a tree of Java, with other names for its variables. -/
def java (names : String → String) : Arith → Expr
  | var x .. => .name (names x).toList
  | number digits _ => .number digits.toList
  | paren e .. => .paren (e.java names)
  | opposite e _ => .unary .minus (e.java names)
  | complement e _ => .unary .complement (e.java names)
  | binary op l r _ => .binary op.java (l.java names) (r.java names)

/-- Whether no minus stands in front of another, and no operand of `^` is a `|` without
parentheses. -/
def isPlain : Arith → Bool
  | var .. | number .. => true
  | paren e .. | complement e _ => e.isPlain
  | opposite (opposite ..) _ => false
  | opposite e _ => e.isPlain
  | binary .bitXor (binary .bitOr ..) _ _ => false
  | binary _ l r _ => l.isPlain && r.isPlain

end Arith

/-! ### The type of a number -/

def widerType (t u : TypeName) : TypeName :=
  if t.width?.getD 0 > u.width?.getD 0 then t else u

def wholeType (t : TypeName) : TypeName :=
  if t = .integer ∨ t = .long then t else .integer

def remainderType (t : TypeName) : TypeName :=
  if t.width?.getD 0 > TypeName.long.width?.getD 0 then .long else t

def converts (t u : TypeName) : Bool :=
  (widerType t u).width?.getD 0 < TypeName.float.width?.getD 0

def ArithOp.type (t u : TypeName) : ArithOp → TypeName
  | add | subtract | multiply => widerType t u
  | divide => if converts t u then .float else widerType t u
  | remainder => remainderType t
  | bitAnd | bitOr | bitXor | shiftLeft | shiftRight => wholeType t

def Arith.type : Arith → TypeName
  | var .. | number .. => .integer
  | paren e .. | opposite e _ => e.type
  | complement e _ => wholeType e.type
  | binary op l r _ => op.type l.type r.type

def IsNumeric (t : TypeName) : Prop :=
  t = .integer ∨ t = .long ∨ t = .float

theorem ArithOp.isNumeric_type {t u : TypeName} (left : IsNumeric t) (right : IsNumeric u)
    (op : ArithOp) : IsNumeric (op.type t u) := by
  obtain rfl | rfl | rfl := left <;> obtain rfl | rfl | rfl := right <;> revert op <;>
    simp only [IsNumeric] <;> intro op <;> cases op <;> decide

theorem Arith.isNumeric_type (e : Arith) : IsNumeric e.type := by
  induction e with
  | var | number => exact .inl rfl
  | paren e _ _ ih => exact ih
  | opposite e _ ih => exact ih
  | complement e _ ih =>
    obtain numeric | numeric | numeric := ih <;> rw [type, numeric] <;> simp [IsNumeric, wholeType]
  | binary op l r _ left right => exact op.isNumeric_type left right

/-! ### The code of an operator -/

section Gives

variable {s : State} {t u : TypeName} {a b : Fragment}

theorem IsNumeric.ne_ref (numeric : IsNumeric t) : t ≠ .ref := by
  obtain rfl | rfl | rfl := numeric <;> decide

theorem IsNumeric.width (numeric : IsNumeric t) : (Dim.plain t).width = .ok (t.width?.getD 0) := by
  obtain rfl | rfl | rfl := numeric <;> rfl

section

variable (operand : Operand s t a) (numeric : IsNumeric t)

include operand numeric

theorem Operand.gives_asNumber : Gives s (asNumber a) a := by
  refine .bind (.lift ?_) operand.gives_sync
  have head := operand.head
  have size := operand.size
  obtain rfl | rfl | rfl := numeric <;>
    simp [Fragment.toNumber, head, size, Dim.is, Dim.name?, bind, Except.bind, pure, Except.pure]

theorem Operand.gives_asWhole : Gives s (asWhole a) { a with shape := .scalar (wholeType t) }
      ∧ Operand s (wholeType t) { a with shape := .scalar (wholeType t) } := by
  have operand' : Operand s (wholeType t) { a with shape := .scalar (wholeType t) } :=
    operand.changed rfl rfl rfl rfl
  refine ⟨.bind (.lift ?_) operand'.gives_sync, operand'⟩
  have head := operand.head
  have shape := operand.shape
  obtain rfl | rfl | rfl := numeric <;>
    simp [Fragment.toWhole, head, ← shape, Dim.isOneOf, Dim.name?, bind, Except.bind, pure,
      Except.pure, wholeType]

theorem Operand.gives_asRemainderOperand :
    Gives s (asRemainderOperand a) { a with shape := .scalar (remainderType t) } := by
  have changed : Operand s .long { a with shape := .scalar .long } :=
    operand.changed rfl rfl rfl rfl
  unfold asRemainderOperand
  refine .bind (.lift operand.head) (.bind (.lift numeric.width) ?_)
  have shape := operand.shape
  obtain rfl | rfl | rfl := numeric
  · simpa [remainderType, TypeName.width?, ← shape] using Gives.pure a
  · simpa [remainderType, TypeName.width?, ← shape] using Gives.pure a
  · simpa [remainderType, TypeName.width?] using changed.gives_sync

theorem gives_opposite :
    ∃ c, Gives s (opposite a) c ∧ Operand s t c ∧ c.value = "-" ++ a.value := by
  have changed : Operand s t { a with value := "-" ++ a.value } :=
    operand.changed rfl rfl rfl operand.shape
  refine ⟨_, ?_, changed, rfl⟩
  exact .bind (operand.gives_check numeric.ne_ref)
    (.bind (operand.gives_asNumber numeric) changed.gives_sync)

theorem gives_complement :
    ∃ c, Gives s (complement a) c ∧ Operand s (wholeType t) c ∧ c.value = "~" ++ a.value := by
  obtain ⟨whole, operand'⟩ := operand.gives_asWhole numeric
  have changed : Operand s (wholeType t)
      { a with shape := .scalar (wholeType t), value := "~" ++ a.value } :=
    operand'.changed rfl rfl rfl rfl
  exact ⟨_, .bind (operand.gives_check numeric.ne_ref) (.bind whole changed.gives_sync), changed, rfl⟩

end

def ArithOp.conversion (t u : TypeName) : ArithOp → String
  | divide => if converts t u then "(float)" else ""
  | _ => ""

variable (left : Operand s t a) (right : Operand s u b) (numeric : IsNumeric t)
  (numeric' : IsNumeric u)

include left right numeric numeric'

theorem wider_eq : wider a b = .ok (.scalar (widerType t u)) := by
  simp only [wider, left.head, right.head, bind, Except.bind, numeric.width, numeric'.width]
  simp only [pure, Except.pure, widerType]
  split <;> simp [left.shape, right.shape]

theorem gives_between {type : TypeName} {value : String} {f : Fragment → Plain Fragment}
    (gives : ∀ code : Fragment, Gives s (f code) { code with value, shape := .scalar type }) :
    ∃ c, Gives s (do
      let code ← a.join b
      checkBoth a b
      f code) c ∧ Operand s type c ∧ c.value = value := by
  obtain ⟨code, -, operand, joined⟩ := left.between right numeric.ne_ref numeric'.ne_ref
  exact ⟨_, joined (gives code), operand rfl rfl rfl rfl, rfl⟩

theorem gives_arithmetic (op : String) :
    ∃ c, Gives s (arithmetic op a b) c ∧ Operand s (widerType t u) c
      ∧ c.value = a.value ++ " " ++ op ++ " " ++ b.value := by
  refine gives_between left right numeric numeric' fun code => ?_
  refine .bind (left.gives_asNumber numeric) (.bind (right.gives_asNumber numeric') ?_)
  exact .bind (.lift (wider_eq left right numeric numeric')) (.pure _)

theorem gives_bitwise (op : String) : ∃ c, Gives s (bitwise op a b) c ∧ Operand s (wholeType t) c
      ∧ c.value = a.value ++ " " ++ op ++ " " ++ b.value := by
  refine gives_between left right numeric numeric' fun code => ?_
  exact .bind (left.gives_asWhole numeric).1 (.bind (right.gives_asWhole numeric').1 (.pure _))

theorem gives_remainder : ∃ c, Gives s (remainder a b) c ∧ Operand s (remainderType t) c
      ∧ c.value = a.value ++ " % " ++ b.value := by
  refine gives_between left right numeric numeric' fun code => ?_
  refine .bind (left.gives_asNumber numeric) (.bind (right.gives_asNumber numeric') ?_)
  exact .bind (left.gives_asRemainderOperand numeric)
    (.bind (right.gives_asRemainderOperand numeric') (.pure _))

theorem gives_division : ∃ c, Gives s (division a b) c ∧ Operand s (ArithOp.divide.type t u) c
      ∧ c.value = a.value ++ " / " ++ (if converts t u then "(float)" else "") ++ b.value := by
  refine gives_between left right numeric numeric' fun code => ?_
  have wide : IsNumeric (widerType t u) := ArithOp.add.isNumeric_type numeric numeric'
  refine .bind (left.gives_asNumber numeric) (.bind (right.gives_asNumber numeric') ?_)
  refine .bind (.lift (wider_eq left right numeric numeric')) ?_
  refine .bind (.lift (a := .plain (widerType t u)) rfl) (.bind (.lift wide.width) ?_)
  by_cases small : converts t u = true
  · have changed : Operand s u { b with value := "(float)" ++ b.value } :=
      right.changed rfl rfl rfl right.shape
    rw [if_pos (of_decide_eq_true small)]
    refine .bind changed.gives_sync ?_
    simp only [small, ArithOp.type, ↓reduceIte, String.append_assoc]
    exact .pure _
  · rw [if_neg (fun less => small (decide_eq_true less))]
    simp only [small, ArithOp.type, ↓reduceIte, String.append_empty, Bool.false_eq_true]
    exact .pure _

theorem ArithOp.makes {l r : Tree} {place place' : Position} (op : ArithOp) (at_ : Position)
    (first : l.Makes s (.code a) place) (second : r.Makes s (.code b) place') :
    ∃ c, (Tree.node op.production [l, .token op.text at_, r]).Makes s (.code c) {}
      ∧ Operand s (op.type t u) c
      ∧ c.value = a.value ++ " " ++ op.text ++ " " ++ (op.conversion t u ++ b.value) := by
  cases op with
  | add | subtract | multiply =>
    obtain ⟨c, gives, operand, value⟩ := gives_arithmetic left right numeric numeric' _
    exact ⟨c, Tree.makes_binaryBy _ at_ rfl first second gives, operand,
      by simp [value, conversion, text]⟩
  | divide =>
    obtain ⟨c, gives, operand, value⟩ := gives_division left right numeric numeric'
    refine ⟨c, Tree.makes_binary _ at_ rfl first second gives, operand, ?_⟩
    rw [value]
    simp [conversion, text, String.append_assoc]
  | remainder =>
    obtain ⟨c, gives, operand, value⟩ := gives_remainder left right numeric numeric'
    exact ⟨c, Tree.makes_binary _ at_ rfl first second gives, operand,
      by simp [value, conversion, text, String.append_assoc]⟩
  | bitAnd | bitOr | bitXor | shiftLeft | shiftRight =>
    obtain ⟨c, gives, operand, value⟩ := gives_bitwise left right numeric numeric' _
    exact ⟨c, Tree.makes_binary _ at_ rfl first second gives, operand,
      by simp [value, conversion, text]⟩

end Gives

namespace Arith

/-- The expression as it is written in Java: divisors may be converted. -/
def written (names : String → String) : Arith → Expr
  | var x .. => .name (names x).toList
  | number digits _ => .number digits.toList
  | paren e .. => .paren (e.written names)
  | opposite e _ => .unary .minus (e.written names)
  | complement e _ => .unary .complement (e.written names)
  | binary op l r _ =>
    .binary op.java (l.written names)
      (if op = .divide ∧ converts l.type r.type then .toFloat (r.written names)
        else r.written names)

/-- Over assigned integer variables an expression is written, and nothing else happens. -/
theorem makes_tree {s : State} {names : String → String} {e : Arith}
    (declared : ∀ x ∈ e.vars, Holds s x .integer (names x)) :
    ∃ c, e.tree.Makes s (.code c) {} ∧ Operand s e.type c
      ∧ c.value.toList = (e.written names).text := by
  induction e with
  | var x sigil at_ =>
    obtain ⟨c, makes, operand, value, -⟩ :=
      Tree.makes_scalar (declared x List.mem_cons_self) sigil at_
    exact ⟨c, makes, operand, by rw [value]; rfl⟩
  | number digits at_ =>
    refine ⟨{ value := digits, shape := .scalar .integer, position := at_ }, ?_,
      ⟨rfl, rfl, rfl, fun found => by cases found⟩, rfl⟩
    exact Tree.makes_passOn rfl (Tree.makes_node rfl (.cons (Tree.makes_token _ _) .nil)
      ((Gives.lift rfl).bind ((Gives.pure _).bind (.pure _))))
  | paren e opening closing ih =>
    obtain ⟨c, makes, operand, value⟩ := ih declared
    obtain ⟨c', makes', operand', value', -⟩ := Tree.makes_parens makes operand opening closing
    exact ⟨c', makes', operand', by simp [value', value, written, Expr.text]⟩
  | opposite e at_ ih =>
    obtain ⟨c, makes, operand, value⟩ := ih declared
    obtain ⟨c', gives, operand', value'⟩ := gives_opposite operand e.isNumeric_type
    refine ⟨c', Tree.makes_passOn rfl (Tree.makes_unary "-" at_ rfl makes gives), operand', ?_⟩
    simp [value', value, written, Expr.text, UnaryOp.text]
  | complement e at_ ih =>
    obtain ⟨c, makes, operand, value⟩ := ih declared
    obtain ⟨c', gives, operand', value'⟩ := gives_complement operand e.isNumeric_type
    refine ⟨c', Tree.makes_passOn rfl (Tree.makes_unary "~" at_ rfl makes gives), operand', ?_⟩
    simp [value', value, written, Expr.text, UnaryOp.text]
  | binary op l r at_ left right =>
    obtain ⟨declaredLeft, declaredRight⟩ := List.forall_mem_append.1 declared
    obtain ⟨a, makesLeft, operandLeft, valueLeft⟩ := left declaredLeft
    obtain ⟨b, makesRight, operandRight, valueRight⟩ := right declaredRight
    obtain ⟨c, makes, operand, value⟩ := op.makes operandLeft operandRight l.isNumeric_type
      r.isNumeric_type at_ makesLeft makesRight
    have passed : allActions.lookup ⟨.expression, [op.group]⟩
        = some (rule .expression [op.group] (passOn 1)).2 := by
      cases op <;> rfl
    refine ⟨c, Tree.makes_passOn passed makes, operand, ?_⟩
    rw [value]
    have spelled : op.java.text = op.text.toList := by cases op <;> decide
    by_cases conversion : op = .divide ∧ converts l.type r.type = true
    · obtain ⟨rfl, small⟩ := conversion
      simp [written, Expr.text, valueLeft, valueRight, spelled, ArithOp.conversion, small]
    · have nothing : op.conversion l.type r.type = "" := by
        cases op <;> simp_all [ArithOp.conversion]
      simp [written, Expr.text, valueLeft, valueRight, spelled, nothing, conversion]

/-! ### The two precedence tables -/

theorem ruleLevel_eq :
    (∀ op ∈ ArithOp.all, Perl.ruleLevel op.production = Perl.levelOf op.symbol)
      ∧ Perl.ruleLevel ⟨.arithmetic, [.MINUS, .expression]⟩ = Perl.levelOf .UNITARY
      ∧ Perl.ruleLevel ⟨.binary, [.NOT, .expression]⟩ = Perl.levelOf .NOT := by
  decide

theorem level_binary (op : ArithOp) (l r : Arith) (at_ : Position) :
    (binary op l r at_).level = Perl.levelOf op.symbol := by
  rw [level, production?, Option.elim_some, ruleLevel_eq.1 op op.mem_all]

theorem level_opposite (e : Arith) (at_ : Position) :
    (opposite e at_).level = Perl.levelOf .UNITARY := by
  rw [level, production?, Option.elim_some, ruleLevel_eq.2.1]

theorem level_complement (e : Arith) (at_ : Position) :
    (complement e at_).level = Perl.levelOf .NOT := by
  rw [level, production?, Option.elim_some, ruleLevel_eq.2.2]

theorem assocOf_symbol (op : ArithOp) : Perl.assocOf? op.symbol = some .left := by
  cases op <;> decide

/-- Operators between two operands bind less tightly than those in front of one. -/
theorem levelOf_lt_unary (op : ArithOp) :
    Perl.levelOf op.symbol < Perl.levelOf .UNITARY ∧ Perl.levelOf op.symbol < Perl.levelOf .NOT := by
  cases op <;> decide

/-- Where an operator may stand to the left or to the right of another without parentheses, it may
in Java, unless it is `|` to the left of `^`. Nothing but operators in front of one operand may so
stand to the right of a division. -/
theorem levels_compared : ∀ op ∈ ArithOp.all, ∀ op' ∈ ArithOp.all,
    (Perl.levelOf op.symbol ≤ Perl.levelOf op'.symbol → ¬ (op = .bitXor ∧ op' = .bitOr) →
        op.java.level ≤ op'.java.level)
      ∧ (Perl.levelOf op.symbol < Perl.levelOf op'.symbol →
        op.java.level < op'.java.level ∧ op ≠ .divide) := by
  decide

/-! ### Java reads what the grammar has read -/

end Arith

/-- What is written for an expression is read as that expression. -/
def Legible (e : Expr) : Prop :=
  e.Proper ∧ e.Separate

theorem Legible.read {e : Expr} (legible : Legible e) : readExpr e.text = some e :=
  readExpr_text legible.1 legible.2

namespace Arith

section Read

variable {names : String → String} {e l r : Arith} {at_ : Position} {op : ArithOp}

/-- Only operators between two operands are held together less tightly than a name. -/
theorem level_written (names : String → String) (e : Arith) :
    (e.written names).level = 12 ∨ ∃ op l r at_, e = binary op l r at_ := by
  cases e with
  | binary op l r at_ => exact .inr ⟨op, l, r, at_, rfl⟩
  | _ => exact .inl rfl

theorem level_written_binary :
    ((binary op l r at_).written names).level = op.java.level := rfl

theorem level_written_of_unary {n : Nat} (le : n ≤ e.level)
    (unary : ∀ op : ArithOp, Perl.levelOf op.symbol < n) : (e.written names).level = 12 := by
  obtain atom | ⟨op, l, r, at_, rfl⟩ := e.level_written names
  · exact atom
  · rw [level_binary] at le
    exact absurd le (Nat.not_le.2 (unary op))

theorem level_written_of_opposite (arranged : (opposite e at_).Arranged) :
    (e.written names).level = 12 :=
  level_written_of_unary (level_opposite e at_ ▸ arranged.2) fun op => (levelOf_lt_unary op).1

theorem level_written_of_complement (arranged : (complement e at_).Arranged) :
    (e.written names).level = 12 :=
  level_written_of_unary (level_complement e at_ ▸ arranged.2) fun op => (levelOf_lt_unary op).2

theorem level_written_left (arranged : (binary op l r at_).Arranged)
    (plain : (binary op l r at_).isPlain = true) : op.java.level ≤ (l.written names).level := by
  obtain atom | ⟨op', l', r', at_', rfl⟩ := l.level_written names
  · have := op.java.level_le_ten
    omega
  · have le : (binary op (binary op' l' r' at_') r at_).level ≤ (binary op' l' r' at_').level :=
      arranged.2.2.1.elim Nat.le_of_lt fun same => Nat.le_of_eq same.1
    rw [level_binary, level_binary] at le
    refine (levels_compared op op.mem_all op' op'.mem_all).1 le ?_
    rintro ⟨rfl, rfl⟩
    simp [isPlain] at plain

theorem level_written_right (arranged : (binary op l r at_).Arranged) :
    op.java.level < (r.written names).level
      ∧ (op = .divide → (r.written names).level = 12) := by
  obtain atom | ⟨op', l', r', at_', rfl⟩ := r.level_written names
  · have := op.java.level_le_ten
    exact ⟨by omega, fun _ => atom⟩
  · obtain lt | ⟨-, right⟩ := arranged.2.2.2
    · rw [level_binary, level_binary] at lt
      obtain ⟨lt, other⟩ := (levels_compared op op.mem_all op' op'.mem_all).2 lt
      exact ⟨lt, fun same => absurd same other⟩
    · rw [assocOf_symbol] at right
      cases right

theorem isPlain_left (plain : (binary op l r at_).isPlain = true) : l.isPlain = true := by
  unfold isPlain at plain
  split at plain <;> simp_all

theorem isPlain_right (plain : (binary op l r at_).isPlain = true) : r.isPlain = true := by
  unfold isPlain at plain
  split at plain <;> simp_all

theorem isPlain_opposite (plain : (opposite e at_).isPlain = true) :
    e.isPlain = true ∧ ∀ e' at_', e ≠ opposite e' at_' := by
  cases e <;> simp_all [isPlain]

/-- A minus does not grow together with what begins an operand, another minus apart. -/
theorem goesOn_minus {c : Char} (begins : isNamePart c = true ∨ c = '(' ∨ c = '~') :
    goesOn ['-'] c = false := by
  rw [Bool.eq_false_iff]
  intro grows
  obtain rfl | rfl | rfl : c = '-' ∨ c = '>' ∨ c = '=' := by
    simpa [goesOn, show isNamePart '-' = false by decide, longSymbols] using grows
  all_goals exact absurd begins (by decide)

/-- The first character of an operand that does not begin with a minus. -/
theorem head_written (named : ∀ x ∈ e.vars, isName (names x).toList = true)
    (decimal : e.isDecimal = true) (atom : (e.written names).level = 12)
    (other : ∀ e' at_', e ≠ opposite e' at_') {c : Char}
    (head : c ∈ (e.written names).text.head?) : isNamePart c = true ∨ c = '(' ∨ c = '~' := by
  cases e with
  | var x =>
    obtain ⟨d, rest, text, -, parts⟩ := parts_of_isName (named x List.mem_cons_self)
    rw [written, Expr.text, text] at head
    obtain rfl := Option.some.inj head
    exact .inl (parts d List.mem_cons_self)
  | number digits =>
    obtain ⟨d, rest, text, parts⟩ := parts_of_isNumber decimal
    rw [written, Expr.text, text] at head
    obtain rfl := Option.some.inj head
    exact .inl (parts d List.mem_cons_self)
  | paren e => exact .inr (.inl (Option.some.inj head).symm)
  | opposite e at_ => exact absurd rfl (other e at_)
  | complement e => exact .inr (.inr (Option.some.inj head).symm)
  | binary op l r =>
    have := op.java.level_le_ten
    rw [level_written_binary] at atom
    omega

/-- What is written needs no further parentheses in Java, and no operator grows together with its
operand. -/
theorem legible_written (named : ∀ x ∈ e.vars, isName (names x).toList = true)
    (decimal : e.isDecimal = true) (arranged : e.Arranged) (plain : e.isPlain = true) :
    Legible (e.written names) := by
  induction e with
  | var x => exact ⟨named x List.mem_cons_self, trivial⟩
  | number digits => exact ⟨decimal, trivial⟩
  | paren e _ _ ih => exact ih named decimal arranged plain
  | opposite e _ ih =>
    obtain ⟨plain, other⟩ := isPlain_opposite plain
    obtain ⟨proper, separate⟩ := ih named decimal arranged.1 plain
    have atom : (e.written names).level = 12 := level_written_of_opposite arranged
    exact ⟨⟨proper, atom⟩, separate, fun c head =>
      goesOn_minus (head_written (e := e) named decimal atom other head)⟩
  | complement e _ ih =>
    obtain ⟨proper, separate⟩ := ih named decimal arranged.1 plain
    exact ⟨⟨proper, level_written_of_complement arranged⟩, separate,
      fun c _ => goesOn_single (by decide) (by decide) c⟩
  | binary op l r _ left right =>
    simp only [isDecimal, Bool.and_eq_true] at decimal
    obtain ⟨properLeft, separateLeft⟩ := left (fun x member => named x (List.mem_append_left _ member))
      decimal.1 arranged.1 (isPlain_left plain)
    obtain ⟨properRight, separateRight⟩ := right
      (fun x member => named x (List.mem_append_right _ member)) decimal.2 arranged.2.1
      (isPlain_right plain)
    obtain ⟨rightLevel, divisor⟩ := level_written_right arranged
    refine ⟨⟨properLeft, ?_, level_written_left arranged plain, ?_⟩, separateLeft, ?_⟩
    · split
      · next conversion => exact ⟨properRight, divisor conversion.1⟩
      · exact properRight
    · split
      · exact Nat.lt_of_le_of_lt op.java.level_le_ten (by simp [Expr.level])
      · exact rightLevel
    · split <;> exact separateRight

end Read

end Arith

/-- An expression without the conversions of its operands. -/
def withoutConversions : Expr → Expr
  | .name t => .name t
  | .number t => .number t
  | .paren e => .paren (withoutConversions e)
  | .unary op e => .unary op (withoutConversions e)
  | .toFloat e => withoutConversions e
  | .binary op l r => .binary op (withoutConversions l) (withoutConversions r)
  | .choice c a b => .choice (withoutConversions c) (withoutConversions a) (withoutConversions b)
  | .call owner method a => .call owner method (withoutConversions a)
  | .call₂ owner method a b =>
    .call₂ owner method (withoutConversions a) (withoutConversions b)

theorem withoutConversions_written (names : String → String) (e : Arith) :
    withoutConversions (e.written names) = e.java names := by
  induction e with
  | var | number => rfl
  | paren e _ _ ih => exact congrArg Expr.paren ih
  | opposite e _ ih => exact congrArg (Expr.unary .minus) ih
  | complement e _ ih => exact congrArg (Expr.unary .complement) ih
  | binary op l r _ left right =>
    simp only [Arith.written, withoutConversions, left, Arith.java]
    split <;> simp [withoutConversions, right]

/-- Java reads the text of an arithmetic expression over assigned integer variables as the tree that
the precedence table of the grammar gives it, if no minus stands directly in front of another and no
`|` directly to the left of `^`. The expression is translated without an error. -/
theorem precedence_preserved (e : Arith) (s : State) (names : String → String)
    (declared : ∀ x ∈ e.vars, Holds s x .integer (names x) ∧ isName (names x).toList = true)
    (decimal : e.isDecimal = true) (arranged : e.Arranged) (plain : e.isPlain = true) :
    ∃ c, e.tree.eval s = .ok (.code c, {}) s
      ∧ (readExpr c.value.toList).map withoutConversions = some (e.java names) := by
  obtain ⟨c, makes, -, value⟩ := Arith.makes_tree fun x member => (declared x member).1
  have named := fun x member => (declared x member).2
  have read : readExpr c.value.toList = some (e.written names) := by
    rw [value]
    exact (Arith.legible_written named decimal arranged plain).read
  exact ⟨c, makes, by rw [read, Option.map_some, withoutConversions_written]⟩

/-- A shifted quotient with a sum in parentheses, a minus and a complement in it. -/
theorem precedence_preserved_quotient :
    ∃ c, (Arith.binary .shiftLeft
        (.binary .divide (.opposite (.var "a" {} {}) {})
          (.paren (.binary .add (.number "3" {}) (.complement (.var "b" {} {}) {}) {}) {} {}) {})
        (.var "b" {} {}) {}).tree.eval (.withScalars [("a", .integer), ("b", .integer)])
          = .ok (.code c, {}) (.withScalars [("a", .integer), ("b", .integer)])
      ∧ (readExpr c.value.toList).map withoutConversions
        = some (.binary .shiftLeft
            (.binary .divide (.unary .minus (.name ['a']))
              (.paren (.binary .add (.number ['3']) (.unary .complement (.name ['b'])))))
            (.name ['b'])) := by
  refine precedence_preserved _ (.withScalars [("a", .integer), ("b", .integer)]) id ?_ (by decide)
    (by decide) (by decide)
  intro x member
  obtain rfl | rfl : x = "a" ∨ x = "b" := by simpa [Arith.vars] using member
  · exact ⟨⟨0, by decide, rfl, rfl, rfl⟩, by decide⟩
  · exact ⟨⟨1, by decide, rfl, rfl, rfl⟩, by decide⟩

/-- Two expressions that Java reads as other trees: a minus in front of another becomes a decrement,
and `|` loses its right operand to `^`. -/
theorem precedence_lost : ∃ s : State,
    ∀ e ∈ [Arith.opposite (.opposite (.var "a" {} {}) {}) {},
        .binary .bitXor (.binary .bitOr (.var "a" {} {}) (.var "a" {} {}) {}) (.var "a" {} {}) {}],
      e.isDecimal = true ∧ e.Arranged
        ∧ (∀ x ∈ e.vars, Holds s x .integer x ∧ isName x.toList = true)
        ∧ ∃ c, e.tree.eval s = .ok (.code c, {}) s
          ∧ (readExpr c.value.toList).map withoutConversions ≠ some (e.java id) := by
  refine ⟨.withScalars [("a", .integer)], fun e either => ?_⟩
  have either : e = Arith.opposite (.opposite (.var "a" {} {}) {}) {} ∨ e = .binary .bitXor
      (.binary .bitOr (.var "a" {} {}) (.var "a" {} {}) {}) (.var "a" {} {}) {} := by
    simpa using either
  have declared : ∀ x ∈ e.vars, Holds (.withScalars [("a", .integer)]) x .integer (id x)
      ∧ isName x.toList = true := by
    intro x member
    obtain rfl : x = "a" := by obtain rfl | rfl := either <;> simpa [Arith.vars] using member
    exact ⟨⟨0, by decide, rfl, rfl, rfl⟩, by decide⟩
  obtain ⟨c, makes, -, value⟩ := Arith.makes_tree fun x member => (declared x member).1
  obtain rfl | rfl := either
  · exact ⟨by decide, by decide, declared, c, makes, by rw [value]; decide⟩
  · exact ⟨by decide, by decide, declared, c, makes, by rw [value]; decide⟩

end PerlJava.Compile
