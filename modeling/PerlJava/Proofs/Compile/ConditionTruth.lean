import PerlJava.Proofs.Compile.OperatorPrecedence

/-!
# Conditions keep their truth

Logical expressions over integers and truth values keep two texts, one for the value and one for the
truth. The text of the truth is evaluated as Java does, with the methods of the run-time library
taken at their word, and compared with the truth of the expression itself. They agree as long as
comparisons are between numbers that are not bare negations; an exclusive disjunction alone comes
out the other way round.
-/

namespace PerlJava.Java

/-! ### Values -/

/-- A value of a Java program: a truth value, a number, or an object that holds a number. -/
inductive JavaValue where
  | bool (b : Bool)
  | int (n : Int)
  | boxed (object : Nat) (n : Int)
deriving Repr, DecidableEq

namespace JavaValue

def number? : JavaValue → Option Int
  | bool _ => none
  | int n | boxed _ n => some n

def bool? : JavaValue → Option Bool
  | bool b => some b
  | int _ | boxed .. => none

def truth : JavaValue → Bool
  | bool b => b
  | int n | boxed _ n => n != 0

/-- Java's `==`: two objects are compared as objects, all else by numbers. -/
def equals : JavaValue → JavaValue → Option Bool
  | boxed object _, boxed object' _ => some (object == object')
  | v, w => do return (← v.number?) == (← w.number?)

end JavaValue

/-- What a condition is evaluated with: the values of the variables, and the object in which a
number is boxed when it has to be one. -/
structure Memory where
  value : List Char → JavaValue
  box : Int → Nat

def Memory.boxing (m : Memory) : JavaValue → JavaValue
  | .int n => .boxed (m.box n) n
  | v => v

/-- Where a number may be boxed so that every number has an object of its own. -/
def ownBox : Int → Nat
  | .ofNat n => 2 * n
  | .negSucc n => 2 * n + 1

theorem ownBox_injective : Function.Injective ownBox := by
  intro n k same
  cases n <;> cases k <;> simp only [ownBox] at same
  · exact congrArg Int.ofNat (by omega)
  · omega
  · omega
  · exact congrArg Int.negSucc (by omega)

/-- The memory in which variables of some types have some values. -/
def Memory.holding (types : String → TypeName) (env : String → Int) : Memory where
  value x :=
    let n := env (String.ofList x)
    if types (String.ofList x) = .boolean then .bool (n != 0) else .boxed (ownBox n) n
  box := ownBox

def decimalValue (digits : List Char) : Int :=
  digits.foldl (fun n c => 10 * n + (c.toNat - '0'.toNat : Nat)) 0

/-- The methods of the run-time library that conditions call with one argument. -/
def callMethod (method : List Char) (v : JavaValue) : Option JavaValue :=
  if method = ['e', 'v', 'a', 'l'] then some (.bool v.truth) else none

/-- The methods of the run-time library that conditions call with two arguments: the operand that
decides a disjunction or conjunction, or an exclusive disjunction. -/
def callMethod₂ (m : Memory) (method : List Char) (v w : JavaValue) : Option JavaValue :=
  if method = ['o', 'r'] then some (m.boxing (if v.truth then v else w))
  else if method = ['a', 'n', 'd'] then some (m.boxing (if v.truth then w else v))
  else if method = ['x', 'o', 'r'] then do return .bool ((← v.bool?) != (← w.bool?))
  else none

/-- The value of an operator between two operands, where conditions have one. -/
def BinaryOp.apply (v w : JavaValue) : BinaryOp → Option JavaValue
  | or => do return .bool ((← v.bool?) || (← w.bool?))
  | and => do return .bool ((← v.bool?) && (← w.bool?))
  | equal => (v.equals w).map .bool
  | notEqual => (v.equals w).map fun b => .bool !b
  | less => do return .bool ((← v.number?) < (← w.number?))
  | lessEq => do return .bool ((← v.number?) ≤ (← w.number?))
  | greater => do return .bool ((← v.number?) > (← w.number?))
  | greaterEq => do return .bool ((← v.number?) ≥ (← w.number?))
  | _ => none

/-- The value of an expression, where conditions have one. -/
def Expr.eval (m : Memory) : Expr → Option JavaValue
  | name x => some (m.value x)
  | number digits => some (.int (decimalValue digits))
  | paren e => e.eval m
  | unary .not e => do return .bool !(← (← e.eval m).bool?)
  | unary _ _ | toFloat _ => none
  | binary op l r => do op.apply (← l.eval m) (← r.eval m)
  | choice c a b => do if ← (← c.eval m).bool? then a.eval m else b.eval m
  | call owner method a => do
    if owner = ['P', 'd'] then callMethod method (← a.eval m) else none
  | call₂ owner method a b => do
    if owner = ['P', 'd'] then callMethod₂ m method (← a.eval m) (← b.eval m) else none

end PerlJava.Java

namespace PerlJava.Compile

open Java

/-! ### Logical expressions -/

/-- Comparisons of numbers. -/
inductive Comparison where
  | equal
  | notEqual
  | less
  | lessEq
  | greater
  | greaterEq
deriving Repr, DecidableEq

namespace Comparison

/-- The token of a comparison. -/
def symbol : Comparison → Perl.Symbol
  | equal => .NUM_EQ
  | notEqual => .NUM_NE
  | less => .NUM_LT
  | lessEq => .NUM_LE
  | greater => .NUM_GT
  | greaterEq => .NUM_GE

/-- How a comparison is written, in Perl and in Java. -/
def text : Comparison → String
  | equal => "=="
  | notEqual => "!="
  | less => "<"
  | lessEq => "<="
  | greater => ">"
  | greaterEq => ">="

def java : Comparison → BinaryOp
  | equal => .equal
  | notEqual => .notEqual
  | less => .less
  | lessEq => .lessEq
  | greater => .greater
  | greaterEq => .greaterEq

/-- Whether two numbers compare so. -/
def holds (a b : Int) : Comparison → Bool
  | equal => a == b
  | notEqual => a != b
  | less => a < b
  | lessEq => a ≤ b
  | greater => a > b
  | greaterEq => a ≥ b

end Comparison

/-- Conjunction and disjunction. -/
inductive Connective where
  | and
  | or
deriving Repr, DecidableEq

namespace Connective

def symbol : Connective → (low : Bool) → Perl.Symbol
  | and, false => .LAND
  | and, true => .LLAND
  | or, false => .LOR
  | or, true => .LLOR

/-- How a connective is written; Java writes those of high precedence alike. -/
def text : Connective → (low : Bool) → String
  | and, false => "&&"
  | and, true => "and"
  | or, false => "||"
  | or, true => "or"

def java : Connective → BinaryOp
  | and => .and
  | or => .or

def method : Connective → String
  | and => "and"
  | or => "or"

def apply (a b : Int) : Connective → Int
  | and => if a = 0 then a else b
  | or => if a = 0 then b else a

end Connective

/-- Logical expressions, with the places of their tokens. -/
inductive Test where
  | var (name : String) (sigil at_ : Position)
  | paren (inner : Test) (opening closing : Position)
  | compare (op : Comparison) (left right : Test) (at_ : Position)
  | not (low : Bool) (operand : Test) (at_ : Position)
  | connect (op : Connective) (low : Bool) (left right : Test) (at_ : Position)
  | xor (left right : Test) (at_ : Position)
deriving Repr, DecidableEq

def negationType (t : TypeName) : TypeName :=
  if t = .boolean then .boolean else .integer

def connectionType (t u : TypeName) : TypeName :=
  if t = .boolean ∨ u = .boolean then .boolean else .integer

namespace Test

/-- The production of the outermost operator, if there is one. -/
def production? : Test → Option Perl.Production
  | var .. | paren .. => none
  | compare op .. => some ⟨.comparations, [.expression, op.symbol, .expression]⟩
  | not low .. => some ⟨.logical, [if low then .LLNOT else .LNOT, .expression]⟩
  | connect op low .. => some ⟨.logical, [.expression, op.symbol low, .expression]⟩
  | xor .. => some ⟨.logical, [.expression, .LLXOR, .expression]⟩

/-- The parse tree of an expression. -/
def tree : Test → Tree
  | var x sigil at_ => .scalar x sigil at_
  | paren e opening closing => e.tree.parens opening closing
  | compare op l r at_ =>
    .node ⟨.expression, [.comparations]⟩
      [.node ⟨.comparations, [.expression, op.symbol, .expression]⟩
        [l.tree, .token op.text at_, r.tree]]
  | not low e at_ =>
    .node ⟨.expression, [.logical]⟩
      [.node ⟨.logical, [if low then .LLNOT else .LNOT, .expression]⟩
        [.token (if low then "not" else "!") at_, e.tree]]
  | connect op low l r at_ =>
    .node ⟨.expression, [.logical]⟩
      [.node ⟨.logical, [.expression, op.symbol low, .expression]⟩
        [l.tree, .token (op.text low) at_, r.tree]]
  | xor l r at_ =>
    .node ⟨.expression, [.logical]⟩
      [.node ⟨.logical, [.expression, .LLXOR, .expression]⟩ [l.tree, .token "xor" at_, r.tree]]

/-- How tightly the precedence table holds an expression together. -/
def level (e : Test) : Nat :=
  e.production?.elim Perl.grammarPrecedence.length Perl.ruleLevel

/-- Whether an expression begins with `not`, which may stand to the right of any operator. -/
def isLowNot : Test → Bool
  | not true .. => true
  | _ => false

/-- An expression that is arranged as the precedence table asks for. Comparisons do not group. -/
def Arranged : Test → Prop
  | var .. => True
  | paren e .. => e.Arranged
  | e@(compare _ l r _) =>
    l.Arranged ∧ r.Arranged ∧ e.level < l.level ∧ (e.level < r.level ∨ r.isLowNot)
  | e@(not _ operand _) => operand.Arranged ∧ (e.level ≤ operand.level ∨ operand.isLowNot)
  | e@(connect _ _ l r _) | e@(xor l r _) =>
    l.Arranged ∧ r.Arranged ∧ e.level ≤ l.level ∧ (e.level < r.level ∨ r.isLowNot)

/-- Whether an expression is arranged so can be decided. -/
instance decidableArranged : (e : Test) → Decidable e.Arranged
  | var .. => inferInstanceAs (Decidable True)
  | paren e .. => decidableArranged e
  | compare _ l r _ =>
    have := decidableArranged l
    have := decidableArranged r
    inferInstanceAs (Decidable (_ ∧ _ ∧ _ < _ ∧ (_ ∨ _)))
  | not _ operand _ =>
    have := decidableArranged operand
    inferInstanceAs (Decidable (_ ∧ (_ ∨ _)))
  | connect _ _ l r _ | xor l r _ =>
    have := decidableArranged l
    have := decidableArranged r
    inferInstanceAs (Decidable (_ ∧ _ ∧ _ ≤ _ ∧ (_ ∨ _)))

def vars : Test → List String
  | var x .. => [x]
  | paren e .. | not _ e _ => e.vars
  | compare _ l r _ | connect _ _ l r _ | xor l r _ => l.vars ++ r.vars

/-- The type of an expression, given those of its variables. -/
def type (types : String → TypeName) : Test → TypeName
  | var x .. => types x
  | paren e .. => e.type types
  | compare .. => .boolean
  | not _ e _ => negationType (e.type types)
  | connect _ _ l r _ => connectionType (l.type types) (r.type types)
  | xor .. => .integer

def ComparesIntegers (types : String → TypeName) : Test → Prop
  | var .. => True
  | paren e .. | not _ e _ => e.ComparesIntegers types
  | compare _ l r _ => l.ComparesIntegers types ∧ r.ComparesIntegers types
    ∧ l.type types = .integer ∧ r.type types = .integer
  | connect _ _ l r _ | xor l r _ => l.ComparesIntegers types ∧ r.ComparesIntegers types

/-- Whether an expression is a negation without parentheses. -/
def isNot : Test → Bool
  | not .. => true
  | _ => false

/-- Whether negations that are compared stand in parentheses. -/
def isBracketed : Test → Bool
  | var .. => true
  | paren e .. | not _ e _ => e.isBracketed
  | compare _ l r _ => l.isBracketed && r.isBracketed && !l.isNot && !r.isNot
  | connect _ _ l r _ | xor l r _ => l.isBracketed && r.isBracketed

/-- The value of an expression, given those of its variables; truth values are numbers. -/
def value (env : String → Int) : Test → Int
  | var x .. => env x
  | paren e .. => e.value env
  | compare op l r _ => if op.holds (l.value env) (r.value env) then 1 else 0
  | not _ e _ => if e.value env = 0 then 1 else 0
  | connect op _ l r _ => op.apply (l.value env) (r.value env)
  | xor l r _ => if l.value env = 0 ↔ r.value env = 0 then 0 else 1

/-- Whether an expression has no exclusive disjunction in it. -/
def isXorFree : Test → Bool
  | var .. => true
  | paren e .. | not _ e _ => e.isXorFree
  | compare _ l r _ | connect _ _ l r _ => l.isXorFree && r.isXorFree
  | xor .. => false

/-- The expression with all exclusive disjunctions negated. -/
def flipped : Test → Test
  | var x sigil at_ => var x sigil at_
  | paren e opening closing => paren e.flipped opening closing
  | compare op l r at_ => compare op l.flipped r.flipped at_
  | not low e at_ => not low e.flipped at_
  | connect op low l r at_ => connect op low l.flipped r.flipped at_
  | xor l r at_ => not false (xor l.flipped r.flipped at_) at_

theorem flipped_eq {e : Test} (free : e.isXorFree = true) : e.flipped = e := by
  induction e with
  | var => rfl
  | paren e _ _ ih => rw [flipped, ih free]
  | compare op l r _ left right =>
    simp only [isXorFree, Bool.and_eq_true] at free
    rw [flipped, left free.1, right free.2]
  | not low e _ ih => rw [flipped, ih free]
  | connect op low l r _ left right =>
    simp only [isXorFree, Bool.and_eq_true] at free
    rw [flipped, left free.1, right free.2]
  | xor => cases free

end Test

/-! ### The two texts -/

/-- The two expressions that the code of an expression consists of. -/
structure Written where
  value : Expr
  condition : Option Expr

def Written.truth (type : TypeName) (w : Written) : Expr :=
  w.condition.getD
    (if type = .boolean then w.value else .call ['P', 'd'] ['e', 'v', 'a', 'l'] w.value)

/-- An expression with parentheses around it, if it has low precedence. -/
def wrapped (low : Bool) (e : Expr) : Expr :=
  if low then .paren e else e

namespace Written

def compare (op : Comparison) (w w' : Written) : Written :=
  ⟨.binary op.java w.value w'.value, some (.binary op.java w.value w'.value)⟩

def negate (low : Bool) (t : TypeName) (w : Written) : Written :=
  let negated := .unary .not (wrapped low (w.truth t))
  ⟨if t = .boolean then negated
    else .choice (.paren (w.truth t)) (.number ['0']) (.number ['1']), some negated⟩

/-- What is written for a conjunction or disjunction of expressions of some types. -/
def connect (op : Connective) (low : Bool) (t u : TypeName) (w w' : Written) : Written :=
  let truth := .binary op.java (wrapped low (w.truth t)) (wrapped low (w'.truth u))
  if t = .boolean ∨ u = .boolean then ⟨truth, none⟩
  else ⟨.call₂ ['P', 'd'] op.method.toList w.value w'.value, some truth⟩

/-- What is written for an exclusive disjunction of expressions of some types. -/
def exclude (t u : TypeName) (w w' : Written) : Written :=
  ⟨.choice (.paren (.call₂ ['P', 'd'] ['x', 'o', 'r'] (w.truth t) (w'.truth u)))
    (.number ['0']) (.number ['1']), none⟩

end Written

/-- What is written in Java for an expression. -/
def Test.written (types : String → TypeName) (names : String → String) : Test → Written
  | var x .. => ⟨.name (names x).toList, none⟩
  | paren e .. =>
    ⟨.paren (e.written types names).value, (e.written types names).condition.map .paren⟩
  | compare op l r _ => .compare op (l.written types names) (r.written types names)
  | not low e _ => .negate low (e.type types) (e.written types names)
  | connect op low l r _ =>
    .connect op low (l.type types) (r.type types) (l.written types names) (r.written types names)
  | xor l r _ =>
    .exclude (l.type types) (r.type types) (l.written types names) (r.written types names)

def IsLogical (t : TypeName) : Prop :=
  t = .integer ∨ t = .boolean

/-- A name stands for an assigned integer or truth value, whose name in Java is one. -/
structure Readable (s : State) (x : String) (t : TypeName) (name : String) : Prop where
  holds : Holds s x t name
  named : isName name.toList = true
  logical : IsLogical t

structure Codes (s : State) (type : TypeName) (w : Written) (c : Fragment) : Prop where
  operand : Operand s type c
  value : c.value.toList = w.value.text
  condition : c.condition.map String.toList = w.condition.map Expr.text

/-- What is written as a condition is not empty, and a number that has to be tested does not begin
like a literal. -/
structure Written.Testable (type : TypeName) (w : Written) : Prop where
  condition {e : Expr} : w.condition = some e → e.text ≠ []
  value : type = .integer → w.condition = none →
    ∃ d rest, w.value.text = d :: rest ∧ Text.isDigit d = false ∧ d ≠ '\n'

section Gives

variable {s : State} {t u : TypeName} {a b : Fragment} {w w' : Written}

theorem Written.Testable.ne_empty (testable : w.Testable t) {e : Expr} {text : String}
    (found : w.condition = some e) (same : text.toList = e.text) : text ≠ "" := by
  rintro rfl
  exact testable.condition found same.symm

theorem Codes.toBoolean (codes : Codes s t w a) (logical : IsLogical t) (testable : w.Testable t) :
    ∃ text, a.toBoolean = .ok text ∧ text.toList = (w.truth t).text := by
  have whole : a.whole = .ok () := by simp [Fragment.whole, codes.operand.whole]
  have head := codes.operand.head
  have condition := codes.condition
  cases found : w.condition with
  | some e =>
    rw [found] at condition
    obtain ⟨text, there, same⟩ := Option.map_eq_some_iff.1 condition
    have nonempty := testable.ne_empty found same
    refine ⟨text, ?_, ?_⟩
    · simp [Fragment.toBoolean, whole, there, nonempty, bind, Except.bind, pure, Except.pure]
    · simp [Written.truth, found, same]
  | none =>
    rw [found] at condition
    have absent : a.condition = none := Option.map_eq_none_iff.1 condition
    obtain rfl | rfl := logical
    · obtain ⟨d, rest, text, digit, line⟩ := testable.value rfl found
      have other := digitsOnly_eq_false (codes.value.trans text) digit line
      refine ⟨"Pd.eval(" ++ a.value ++ ")", ?_, ?_⟩
      · simp [Fragment.toBoolean, Fragment.toBoolean.plain, whole, absent, head, Dim.name?, other,
          bind, Except.bind, pure, Except.pure]
      · simp [Written.truth, found, codes.value, Expr.text]
    · refine ⟨a.value, ?_, ?_⟩
      · simp [Fragment.toBoolean, Fragment.toBoolean.plain, whole, absent, head, Dim.name?,
          bind, Except.bind, pure, Except.pure]
      · simp [Written.truth, found, codes.value]

theorem IsLogical.ne_ref (logical : IsLogical t) : t ≠ .ref := by
  obtain rfl | rfl := logical <;> decide

theorem gives_compareNumbers (op : Comparison) (left : Codes s .integer w a)
    (right : Codes s .integer w' b) :
    ∃ c, Gives s (compareNumbers op.text a b) c
      ∧ Codes s .boolean (.compare op w w') c := by
  obtain ⟨code, -, operand, gives⟩ := left.operand.between right.operand (by decide) (by decide)
  let value := a.value ++ " " ++ op.text ++ " " ++ b.value
  have text : value.toList = (Expr.binary op.java w.value w'.value).text := by
    have spelled : op.java.text = op.text.toList := by cases op <;> decide
    simp [value, Expr.text, left.value, right.value, spelled]
  refine ⟨{ code with value, condition := some value, shape := .scalar .boolean }, gives ?_,
    operand rfl rfl rfl rfl, text, by simp [text, Written.compare]⟩
  exact .bind (left.operand.gives_asNumber (.inl rfl))
    (.bind (right.operand.gives_asNumber (.inl rfl)) (.pure _))

/-- Whether one of two operands is a truth value. -/
theorem gives_anyBoolean (left : Operand s t a) (right : Operand s u b) (logical : IsLogical t)
    (logical' : IsLogical u) :
    Gives s ((return (← a.head).is .boolean) <||> (return (← b.head).is .boolean)
      <||> (return !(← a.shape.agrees b.shape)))
      (decide (t = .boolean ∨ u = .boolean)) := by
  have first : Gives s (return (← a.head).is .boolean) (decide (t = .boolean)) := by
    refine .bind (.lift left.head) ?_
    obtain rfl | rfl := logical <;> exact .pure _
  have second : Gives s (return (← b.head).is .boolean) (decide (u = .boolean)) := by
    refine .bind (.lift right.head) ?_
    obtain rfl | rfl := logical' <;> exact .pure _
  refine first.bind ?_
  obtain rfl | rfl := logical
  · refine second.bind ?_
    obtain rfl | rfl := logical'
    · refine .bind (.lift (a := true) ?_) (.pure _)
      rw [left.shape, right.shape]
      rfl
    · exact .pure _
  · exact .pure _

/-- A disjunction or conjunction. -/
theorem gives_logical (op : Connective) (low : Bool) (left : Codes s t w a) (right : Codes s u w' b)
    (logical_ : IsLogical t) (logical' : IsLogical u) (testable : w.Testable t)
    (testable' : w'.Testable u) :
    ∃ c, Gives s (logical (op.text false) op.method low a b) c
      ∧ Codes s (connectionType t u) (.connect op low t u w w') c := by
  obtain ⟨code, unconditional, operand, gives⟩ :=
    left.operand.between right.operand logical_.ne_ref logical'.ne_ref
  obtain ⟨first, tested, firstText⟩ := left.toBoolean logical_ testable
  obtain ⟨second, tested', secondText⟩ := right.toBoolean logical' testable'
  let wrap (text : String) := if low then "(" ++ text ++ ")" else text
  let truth := wrap first ++ " " ++ op.text false ++ " " ++ wrap second
  have text : truth.toList
      = (Expr.binary op.java (wrapped low (w.truth t)) (wrapped low (w'.truth u))).text := by
    have spelled : op.java.text = (op.text false).toList := by cases op <;> decide
    cases low <;> simp [truth, wrap, wrapped, Expr.text, firstText, secondText, spelled]
  have tests := gives_anyBoolean left.operand right.operand logical_ logical'
  by_cases boolean : t = .boolean ∨ u = .boolean
  · rw [decide_eq_true boolean] at tests
    refine ⟨{ code with value := truth, shape := .scalar .boolean },
      gives (.bind (.lift tested) (.bind (.lift tested') (tests.bind (.pure _)))), ?_⟩
    simp only [connectionType, Written.connect, boolean, ↓reduceIte]
    exact ⟨operand rfl rfl rfl rfl, text, by simp [unconditional]⟩
  · rw [decide_eq_false boolean] at tests
    refine ⟨_, gives (.bind (.lift tested) (.bind (.lift tested') (tests.bind (.pure _)))), ?_⟩
    have integer : t = .integer := logical_.resolve_right fun same => boolean (.inl same)
    simp only [connectionType, Written.connect, boolean, ↓reduceIte]
    refine ⟨operand rfl rfl rfl (left.operand.shape.trans (by rw [integer])), ?_, ?_⟩
    · simp [Expr.text, left.value, right.value]
    · simp [← text, truth, wrap]

theorem gives_negation (low : Bool) (codes : Codes s t w a) (logical : IsLogical t)
    (testable : w.Testable t) :
    ∃ c, Gives s (negation low a) c
      ∧ Codes s (negationType t) (.negate low t w) c := by
  obtain ⟨tested, gives, testedText⟩ := codes.toBoolean logical testable
  let truth := if low then "!(" ++ tested ++ ")" else "!" ++ tested
  have text : truth.toList = (Expr.unary .not (wrapped low (w.truth t))).text := by
    cases low <;> simp [truth, wrapped, Expr.text, UnaryOp.text, testedText]
  have checked := codes.operand.gives_check logical.ne_ref
  obtain rfl | rfl := logical
  · have changed : Operand s .integer { a with
        value := "(" ++ tested ++ ")?0:1"
        condition := some truth
        shape := .scalar .integer } := codes.operand.changed rfl rfl rfl rfl
    refine ⟨_, checked.bind (.bind (.lift gives) (.bind (.lift codes.operand.head) changed.gives_sync)),
      changed, ?_, ?_⟩
    · simp [Written.negate, Expr.text, testedText]
    · simp [Written.negate, text]
  · have changed : Operand s .boolean
        { a with value := truth, condition := some truth, shape := .scalar .boolean } :=
      codes.operand.changed rfl rfl rfl rfl
    exact ⟨_, checked.bind (.bind (.lift gives) (.bind (.lift codes.operand.head) changed.gives_sync)),
      changed, by simp [Written.negate, text], by simp [Written.negate, text]⟩

theorem gives_exclusive (left : Codes s t w a) (right : Codes s u w' b) (logical : IsLogical t)
    (logical' : IsLogical u) (testable : w.Testable t) (testable' : w'.Testable u) :
    ∃ c, Gives s (exclusive a b) c
      ∧ Codes s .integer (.exclude t u w w') c := by
  obtain ⟨code, unconditional, operand, gives⟩ :=
    left.operand.between right.operand logical.ne_ref logical'.ne_ref
  obtain ⟨first, tested, firstText⟩ := left.toBoolean logical testable
  obtain ⟨second, tested', secondText⟩ := right.toBoolean logical' testable'
  refine ⟨_, gives (.bind (.lift tested) (.bind (.lift tested') (.pure _))),
    operand rfl rfl rfl rfl, ?_, by simp [unconditional, Written.exclude]⟩
  simp [Written.exclude, Expr.text, firstText, secondText]

end Gives

namespace Test

variable {s : State} {types : String → TypeName} {names : String → String} {e : Test}

variable (readable : ∀ x ∈ e.vars, Readable s x (types x) (names x))

include readable

theorem isLogical_type : IsLogical (e.type types) := by
  induction e with
  | var x => exact (readable x List.mem_cons_self).logical
  | paren e _ _ ih => exact ih readable
  | compare => exact .inr rfl
  | not low e =>
    rw [type, negationType]
    split <;> simp [IsLogical]
  | connect op low l r =>
    rw [type, connectionType]
    split <;> simp [IsLogical]
  | xor => exact .inl rfl

theorem testable_written : (e.written types names).Testable (e.type types) := by
  cases e with
  | var x =>
    refine ⟨fun found => ?_, fun _ _ => ?_⟩
    · cases found
    · obtain ⟨d, rest, text, digit, parts⟩ := parts_of_isName (readable x List.mem_cons_self).named
      refine ⟨d, rest, text, digit, ?_⟩
      rintro rfl
      exact absurd (parts _ List.mem_cons_self) (by decide)
  | paren e =>
    refine ⟨fun found => ?_, fun _ _ => ⟨'(', _, rfl, by decide, by decide⟩⟩
    obtain ⟨inner, -, rfl⟩ := Option.map_eq_some_iff.1 found
    exact List.cons_ne_nil _ _
  | compare op l r =>
    refine ⟨fun found => ?_, fun _ none => ?_⟩
    · cases found
      simp [Expr.text]
    · cases none
  | not low e =>
    refine ⟨fun found => ?_, fun _ none => ?_⟩
    · cases found
      exact List.cons_ne_nil _ _
    · cases none
  | connect op low l r =>
    rw [written, type, Written.connect, connectionType]
    split
    · refine ⟨fun found => ?_, fun integer _ => ?_⟩
      · cases found
      · cases integer
    · refine ⟨fun found => ?_, fun _ none => ?_⟩
      · cases found
        simp [Expr.text]
      · cases none
  | xor l r =>
    refine ⟨fun found => ?_, fun _ _ => ⟨'(', _, rfl, by decide, by decide⟩⟩
    cases found

/-- Over assigned variables a logical expression is written, and nothing else happens. -/
theorem makes_tree (compares : e.ComparesIntegers types) :
    ∃ c, e.tree.Makes s (.code c) {} ∧ Codes s (e.type types) (e.written types names) c := by
  induction e with
  | var x sigil at_ =>
    obtain ⟨c, makes, operand, value, condition⟩ :=
      Tree.makes_scalar (readable x List.mem_cons_self).holds sigil at_
    exact ⟨c, makes, operand, by rw [value]; rfl, by rw [condition]; rfl⟩
  | paren e opening closing ih =>
    obtain ⟨c, makes, codes⟩ := ih readable compares
    obtain ⟨c', makes', operand', value', condition'⟩ :=
      Tree.makes_parens makes codes.operand opening closing
    refine ⟨c', makes', operand', by simp [value', codes.value, written, Expr.text], ?_⟩
    have testable : (e.written types names).Testable (e.type types) := testable_written readable
    have same := codes.condition
    rw [condition', written]
    cases found : (e.written types names).condition with
    | none =>
      rw [found] at same
      rw [Option.map_eq_none_iff.1 same]
      rfl
    | some inner =>
      rw [found] at same
      obtain ⟨text, there, same⟩ := Option.map_eq_some_iff.1 same
      simp [there, testable.ne_empty found same, same, Expr.text]
  | compare op l r at_ left right =>
    obtain ⟨comparesLeft, comparesRight, integer, integer'⟩ := compares
    obtain ⟨readableLeft, readableRight⟩ := List.forall_mem_append.1 readable
    obtain ⟨a, makesLeft, codesLeft⟩ := left readableLeft comparesLeft
    obtain ⟨b, makesRight, codesRight⟩ := right readableRight comparesRight
    rw [integer] at codesLeft
    rw [integer'] at codesRight
    obtain ⟨c, gives, codes⟩ := gives_compareNumbers op codesLeft codesRight
    have found : allActions.lookup ⟨.comparations, [.expression, op.symbol, .expression]⟩
        = some (rule .comparations [.expression, op.symbol, .expression]
          (binaryBy compareNumbers)).2 := by
      cases op <;> rfl
    exact ⟨c, Tree.makes_passOn rfl (Tree.makes_binaryBy _ at_ found makesLeft makesRight gives),
      codes⟩
  | not low e at_ ih =>
    obtain ⟨a, makes, codes⟩ := ih readable compares
    obtain ⟨c, gives, codes'⟩ := gives_negation low codes (isLogical_type readable)
      (testable_written readable)
    have found : allActions.lookup ⟨.logical, [if low then .LLNOT else .LNOT, .expression]⟩
        = some (rule .logical [if low then .LLNOT else .LNOT, .expression]
          (unary (negation low))).2 := by
      cases low <;> rfl
    exact ⟨c, Tree.makes_passOn rfl (Tree.makes_unary _ at_ found makes gives), codes'⟩
  | connect op low l r at_ left right =>
    obtain ⟨readableLeft, readableRight⟩ := List.forall_mem_append.1 readable
    obtain ⟨a, makesLeft, codesLeft⟩ := left readableLeft compares.1
    obtain ⟨b, makesRight, codesRight⟩ := right readableRight compares.2
    obtain ⟨c, gives, codes⟩ := gives_logical op low codesLeft codesRight
      (isLogical_type readableLeft) (isLogical_type readableRight)
      (testable_written readableLeft) (testable_written readableRight)
    have found : allActions.lookup ⟨.logical, [.expression, op.symbol low, .expression]⟩
        = some (rule .logical [.expression, op.symbol low, .expression]
          (Compile.binary (Compile.logical (op.text false) op.method low))).2 := by
      cases op <;> cases low <;> rfl
    exact ⟨c, Tree.makes_passOn rfl (Tree.makes_binary _ at_ found makesLeft makesRight gives), codes⟩
  | xor l r at_ left right =>
    obtain ⟨readableLeft, readableRight⟩ := List.forall_mem_append.1 readable
    obtain ⟨a, makesLeft, codesLeft⟩ := left readableLeft compares.1
    obtain ⟨b, makesRight, codesRight⟩ := right readableRight compares.2
    obtain ⟨c, gives, codes⟩ := gives_exclusive codesLeft codesRight
      (isLogical_type readableLeft) (isLogical_type readableRight)
      (testable_written readableLeft) (testable_written readableRight)
    exact ⟨c, Tree.makes_passOn rfl (Tree.makes_binary _ at_ rfl makesLeft makesRight gives), codes⟩

end Test

/-! ### Java reads the two texts as they are meant -/

/-- Both texts of a piece of code are legible. -/
structure Written.Legible (w : Written) : Prop where
  value : Compile.Legible w.value
  condition {e : Expr} : w.condition = some e → Compile.Legible e

namespace Legible

variable {e e' : Expr}

theorem wrapped (low : Bool) (legible : Legible e) : Legible (wrapped low e) := by
  cases low <;> exact legible

theorem binary {op : BinaryOp} (left : Legible e) (right : Legible e') (leftLevel : op.level ≤ e.level)
    (rightLevel : op.level < e'.level) : Legible (.binary op e e') :=
  ⟨⟨left.1, right.1, leftLevel, rightLevel⟩, left.2, right.2⟩

theorem negated (legible : Legible e) (atom : e.level = 12) : Legible (.unary .not e) :=
  ⟨⟨legible.1, atom⟩, Expr.separate_not legible.1 legible.2⟩

theorem zeroOne (legible : Legible e) :
    Legible (.choice (.paren e) (.number ['0']) (.number ['1'])) :=
  ⟨⟨legible.1, (by decide : isNumber ['0'] = true), (by decide : isNumber ['1'] = true),
    by simp [Expr.level]⟩, legible.2, trivial, trivial⟩

theorem call₂ {method : List Char} (named : isName method = true) (first : Legible e)
    (second : Legible e') : Legible (.call₂ ['P', 'd'] method e e') :=
  ⟨⟨by decide, named, first.1, second.1⟩, first.2, second.2⟩

end Legible

theorem Written.Legible.truth {w : Written} (legible : w.Legible) (t : TypeName) :
    Compile.Legible (w.truth t) := by
  unfold Written.truth
  cases found : w.condition with
  | some e => exact legible.condition found
  | none =>
    rw [Option.getD_none]
    split
    · exact legible.value
    · exact ⟨⟨by decide, by decide, legible.value.1⟩, legible.value.2⟩

namespace Test

variable {s : State} {types : String → TypeName} {names : String → String} {e l r : Test}
variable {at_ : Position}

/-- How tightly Java holds the truth of an expression together. -/
def javaLevel : Test → Nat
  | compare op .. => op.java.level
  | connect op .. => op.java.level
  | var .. | paren .. | not .. | xor .. => 12

theorem level_truth (e : Test) :
    ((e.written types names).truth (e.type types)).level = e.javaLevel := by
  cases e with
  | var x =>
    simp only [written, Written.truth, Option.getD_none]
    split <;> rfl
  | paren e =>
    simp only [written, Written.truth]
    cases (e.written types names).condition with
    | some t => rfl
    | none =>
      rw [Option.map_none, Option.getD_none]
      split <;> rfl
  | compare | not => rfl
  | connect op low l r =>
    simp only [written, type, connectionType, Written.connect]
    split <;> rfl
  | xor => rfl

theorem level_compare (op : Comparison) : (compare op l r at_).level = Perl.levelOf op.symbol := by
  change Perl.ruleLevel ⟨.comparations, [.expression, op.symbol, .expression]⟩ = _
  cases op <;> decide

theorem level_not (low : Bool) :
    (not low e at_).level = Perl.levelOf (if low then .LLNOT else .LNOT) := by
  change Perl.ruleLevel ⟨.logical, [if low then .LLNOT else .LNOT, .expression]⟩ = _
  cases low <;> decide

theorem level_connect (op : Connective) (low : Bool) :
    (connect op low l r at_).level = Perl.levelOf (op.symbol low) := by
  change Perl.ruleLevel ⟨.logical, [.expression, op.symbol low, .expression]⟩ = _
  cases op <;> cases low <;> decide

theorem level_xor : (xor l r at_).level = Perl.levelOf .LLXOR := by
  change Perl.ruleLevel ⟨.logical, [.expression, .LLXOR, .expression]⟩ = _
  decide

/-- Connectives and exclusive disjunctions bind less tightly than comparisons, and these less than
negations. -/
theorem levelOf_compare (op : Comparison) :
    Perl.levelOf op.symbol < Perl.levelOf .LNOT ∧ Perl.levelOf .LLXOR < Perl.levelOf op.symbol
      ∧ ∀ (op' : Connective) (low : Bool), Perl.levelOf (op'.symbol low) < Perl.levelOf op.symbol := by
  refine ⟨by cases op <;> decide, by cases op <;> decide, fun op' low => ?_⟩
  cases op <;> cases op' <;> cases low <;> decide

theorem javaLevel_lt_compare (op : Connective) (op' : Comparison) :
    op.java.level < op'.java.level := by
  cases op <;> cases op' <;> decide

theorem javaLevel_connective (op op' : Connective) (low : Bool) :
    (Perl.levelOf (op.symbol false) ≤ Perl.levelOf (op'.symbol low) →
        op.java.level ≤ op'.java.level)
      ∧ (Perl.levelOf (op.symbol false) < Perl.levelOf (op'.symbol low) →
        op.java.level < op'.java.level) := by
  cases op <;> cases op' <;> cases low <;> decide

/-- What may stand to the left of a connective without parentheses may do so in Java. -/
theorem javaLevel_left {op : Connective} (arranged : (connect op false l r at_).Arranged) :
    op.java.level ≤ l.javaLevel := by
  cases l with
  | compare op' => exact Nat.le_of_lt (javaLevel_lt_compare op op')
  | connect op' low =>
    have le := arranged.2.2.1
    rw [level_connect, level_connect] at le
    exact (javaLevel_connective op op' low).1 le
  | _ => exact Nat.le_trans op.java.level_le_ten (by simp [javaLevel])

/-- What may stand to the right of a connective without parentheses may do so in Java. -/
theorem javaLevel_right {op : Connective} (arranged : (connect op false l r at_).Arranged) :
    op.java.level < r.javaLevel := by
  cases r with
  | compare op' => exact javaLevel_lt_compare op op'
  | connect op' low =>
    have lt := arranged.2.2.2.resolve_right (by simp [isLowNot])
    rw [level_connect, level_connect] at lt
    exact (javaLevel_connective op op' low).2 lt
  | _ => exact Nat.lt_of_le_of_lt op.java.level_le_ten (by simp [javaLevel])

/-- What may stand behind an exclamation mark without parentheses may do so in Java. -/
theorem javaLevel_not (arranged : (not false e at_).Arranged) : e.javaLevel = 12 := by
  have operand := arranged.2
  rw [level_not] at operand
  cases e with
  | compare op =>
    have le := operand.resolve_right (by simp [isLowNot])
    rw [level_compare] at le
    exact absurd le (Nat.not_le.2 (levelOf_compare op).1)
  | connect op low =>
    have le := operand.resolve_right (by simp [isLowNot])
    rw [level_connect] at le
    obtain ⟨lt, -, lt'⟩ := levelOf_compare .equal
    exact absurd le (Nat.not_le.2 (Nat.lt_trans (lt' op low) lt))
  | _ => rfl

/-- What is compared is held together tightly in Java. -/
theorem level_value {op : Comparison} (integer : e.type types = .integer) (plain : e.isNot = false)
    (lt : Perl.levelOf op.symbol < e.level) : (e.written types names).value.level = 12 := by
  cases e with
  | var | paren => rfl
  | compare => cases integer
  | not => cases plain
  | connect op' low =>
    rw [level_connect] at lt
    exact absurd lt (Nat.lt_asymm ((levelOf_compare op).2.2 op' low))
  | xor =>
    rw [level_xor] at lt
    exact absurd lt (Nat.lt_asymm (levelOf_compare op).2.1)

/-- Java reads the two texts of an expression as they are meant. -/
theorem legible_written (readable : ∀ x ∈ e.vars, Readable s x (types x) (names x))
    (arranged : e.Arranged) (compares : e.ComparesIntegers types) (bracketed : e.isBracketed = true) :
    (e.written types names).Legible := by
  induction e with
  | var x =>
    refine ⟨⟨(readable x List.mem_cons_self).named, trivial⟩, fun found => ?_⟩
    cases found
  | paren e _ _ ih =>
    have legible := ih readable arranged compares bracketed
    refine ⟨legible.value, fun found => ?_⟩
    obtain ⟨inner, there, rfl⟩ := Option.map_eq_some_iff.1 found
    have inside := legible.condition there
    exact ⟨inside.1, inside.2⟩
  | compare op l r _ left right =>
    obtain ⟨readableLeft, readableRight⟩ := List.forall_mem_append.1 readable
    obtain ⟨comparesLeft, comparesRight, integer, integer'⟩ := compares
    simp only [isBracketed, Bool.and_eq_true, Bool.not_eq_true'] at bracketed
    obtain ⟨⟨⟨bracketedLeft, bracketedRight⟩, plain⟩, plain'⟩ := bracketed
    obtain ⟨arrangedLeft, arrangedRight, lt, lt'⟩ := arranged
    rw [level_compare] at lt lt'
    have lt' := lt'.resolve_right fun low => by
      cases r <;> simp_all [isLowNot, isNot]
    have levels := op.java.level_le_ten
    have whole : Compile.Legible
        (.binary op.java (l.written types names).value (r.written types names).value) :=
      .binary (left readableLeft arrangedLeft comparesLeft bracketedLeft).value
        (right readableRight arrangedRight comparesRight bracketedRight).value
        (by rw [level_value integer plain lt]; omega) (by rw [level_value integer' plain' lt']; omega)
    refine ⟨whole, fun found => ?_⟩
    cases found
    exact whole
  | not low e _ ih =>
    have truth := (ih readable arranged.1 compares bracketed).truth (e.type types)
    have negated : Compile.Legible
        (.unary .not (wrapped low ((e.written types names).truth (e.type types)))) := by
      refine (truth.wrapped low).negated ?_
      cases low with
      | true => rfl
      | false => exact (level_truth e).trans (javaLevel_not arranged)
    refine ⟨?_, fun found => ?_⟩
    · rw [written, Written.negate]
      split
      · exact negated
      · exact truth.zeroOne
    · cases found
      exact negated
  | connect op low l r _ left right =>
    obtain ⟨readableLeft, readableRight⟩ := List.forall_mem_append.1 readable
    simp only [isBracketed, Bool.and_eq_true] at bracketed
    have legibleLeft := left readableLeft arranged.1 compares.1 bracketed.1
    have legibleRight := right readableRight arranged.2.1 compares.2 bracketed.2
    have levels := op.java.level_le_ten
    have truth : Compile.Legible (.binary op.java
        (wrapped low ((l.written types names).truth (l.type types)))
        (wrapped low ((r.written types names).truth (r.type types)))) := by
      refine .binary ((legibleLeft.truth _).wrapped low) ((legibleRight.truth _).wrapped low) ?_ ?_
      · cases low with
        | true => exact Nat.le_trans levels (by simp [wrapped, Expr.level])
        | false => exact Nat.le_trans (javaLevel_left arranged) (Nat.le_of_eq (level_truth l).symm)
      · cases low with
        | true => exact Nat.lt_of_le_of_lt levels (by simp [wrapped, Expr.level])
        | false => exact Nat.lt_of_lt_of_eq (javaLevel_right arranged) (level_truth r).symm
    rw [written, Written.connect]
    split
    · refine ⟨truth, fun found => ?_⟩
      cases found
    · refine ⟨.call₂ (by cases op <;> decide) legibleLeft.value legibleRight.value, fun found => ?_⟩
      cases found
      exact truth
  | xor l r _ left right =>
    obtain ⟨readableLeft, readableRight⟩ := List.forall_mem_append.1 readable
    simp only [isBracketed, Bool.and_eq_true] at bracketed
    have first := (left readableLeft arranged.1 compares.1 bracketed.1).truth (l.type types)
    have second := (right readableRight arranged.2.1 compares.2 bracketed.2).truth (r.type types)
    refine ⟨.zeroOne (.call₂ (by decide) first second), fun found => ?_⟩
    cases found

end Test

/-! ### Evaluation -/

/-- How a value of a type is represented in Java: a truth value by whether it is not zero, a number
by itself or by the object in which it is boxed. -/
inductive Represents (m : Memory) : TypeName → JavaValue → Int → Prop where
  | bool {n : Int} : Represents m .boolean (.bool (n != 0)) n
  | int {n : Int} : Represents m .integer (.int n) n
  | boxed {n : Int} : Represents m .integer (.boxed (m.box n) n) n

namespace Represents

variable {m : Memory} {t u : TypeName} {v w : JavaValue} {n k : Int}

theorem truth (represents : Represents m t v n) : v.truth = (n != 0) := by
  cases represents <;> rfl

section

variable (represents : Represents m .integer v n)

include represents

theorem number : v.number? = some n := by
  cases represents <;> rfl

theorem boxing : Represents m .integer (m.boxing v) n := by
  cases represents <;> exact .boxed

/-- Where numbers are boxed one to one, Java's `==` compares numbers. -/
theorem equals (represents' : Represents m .integer w k)
    (boxes : Function.Injective m.box) : v.equals w = some (n == k) := by
  cases represents <;> cases represents' <;> try rfl
  have same : (m.box n == m.box k) = (n == k) := by
    rw [Bool.eq_iff_iff, beq_iff_eq, beq_iff_eq]
    exact ⟨@boxes n k, congrArg m.box⟩
  exact congrArg some same

end

theorem compare (op : Comparison) (represents : Represents m .integer v n)
    (represents' : Represents m .integer w k) (boxes : Function.Injective m.box) :
    op.java.apply v w = some (.bool (op.holds n k)) := by
  have same := represents.equals represents' boxes
  have first := represents.number
  have second := represents'.number
  cases op <;> simp [Comparison.java, BinaryOp.apply, Comparison.holds, same, first, second, bne]

end Represents

/-- The two expressions of a piece of code have the value of an expression, and its truth. -/
structure Evaluates (m : Memory) (t : TypeName) (w : Written) (n : Int) : Prop where
  value : ∃ v, w.value.eval m = some v ∧ Represents m t v n
  truth : (w.truth t).eval m = some (.bool (n != 0))

namespace Evaluates

variable {m : Memory} {t u : TypeName} {w w' : Written} {n k : Int}

/-- Code without a condition of its own is tested by its value. -/
theorem of_value {v : JavaValue} (none : w.condition = none) (evaluated : w.value.eval m = some v)
    (represents : Represents m t v n) : Evaluates m t w n := by
  refine ⟨⟨v, evaluated, represents⟩, ?_⟩
  have truth := represents.truth
  rw [Written.truth, none, Option.getD_none]
  cases represents with
  | bool => exact evaluated
  | int | boxed =>
    simp only [reduceCtorEq, ↓reduceIte, Expr.eval, evaluated, Option.bind_eq_bind, Option.bind_some,
      callMethod, truth]

theorem of_condition {v : JavaValue} {e : Expr} (found : w.condition = some e)
    (evaluated : w.value.eval m = some v) (represents : Represents m t v n)
    (tested : e.eval m = some (.bool (n != 0))) : Evaluates m t w n :=
  ⟨⟨v, evaluated, represents⟩, by rw [Written.truth, found, Option.getD_some, tested]⟩

theorem wrapped (low : Bool) (evaluates : Evaluates m t w n) :
    (wrapped low (w.truth t)).eval m = some (.bool (n != 0)) := by
  cases low <;> exact evaluates.truth

theorem paren (evaluates : Evaluates m t w n) :
    Evaluates m t ⟨.paren w.value, w.condition.map .paren⟩ n := by
  obtain ⟨⟨v, evaluated, represents⟩, truth⟩ := evaluates
  cases found : w.condition with
  | none => exact of_value rfl evaluated represents
  | some e =>
    rw [Written.truth, found] at truth
    exact of_condition rfl evaluated represents truth

theorem compare (op : Comparison) (left : Evaluates m .integer w n) (right : Evaluates m .integer w' k)
    (boxes : Function.Injective m.box) :
    Evaluates m .boolean (.compare op w w') (if op.holds n k then 1 else 0) := by
  obtain ⟨⟨v, evaluated, represents⟩, -⟩ := left
  obtain ⟨⟨v', evaluated', represents'⟩, -⟩ := right
  have whole : (Expr.binary op.java w.value w'.value).eval m
      = some (.bool ((if op.holds n k then 1 else 0 : Int) != 0)) := by
    simp only [Expr.eval, evaluated, evaluated', Option.bind_eq_bind, Option.bind_some,
      represents.compare op represents' boxes]
    cases op.holds n k <;> rfl
  exact of_condition rfl whole .bool whole

theorem negate (low : Bool) (evaluates : Evaluates m t w n) (logical : IsLogical t) :
    Evaluates m (negationType t) (.negate low t w) (if n = 0 then 1 else 0) := by
  have negated : (Expr.unary .not (Compile.wrapped low (w.truth t))).eval m
      = some (.bool ((if n = 0 then 1 else 0 : Int) != 0)) := by
    simp only [Expr.eval, evaluates.wrapped low, Option.bind_eq_bind, Option.bind_some]
    by_cases zero : n = 0 <;> simp [zero, JavaValue.bool?]
  obtain rfl | rfl := logical
  · have chosen : (Expr.choice (.paren (w.truth .integer)) (.number ['0']) (.number ['1'])).eval m
        = some (.int (if n = 0 then 1 else 0)) := by
      simp only [Expr.eval, evaluates.truth, Option.bind_eq_bind, Option.bind_some]
      by_cases zero : n = 0 <;> simp [zero, JavaValue.bool?] <;> decide
    exact of_condition rfl chosen .int negated
  · exact of_condition rfl negated .bool negated

theorem connect (op : Connective) (low : Bool) (left : Evaluates m t w n) (right : Evaluates m u w' k)
    (logical : IsLogical t) (logical' : IsLogical u) :
    Evaluates m (connectionType t u) (.connect op low t u w w') (op.apply n k) := by
  have truth : (Expr.binary op.java (Compile.wrapped low (w.truth t))
      (Compile.wrapped low (w'.truth u))).eval m = some (.bool (op.apply n k != 0)) := by
    simp only [Expr.eval, left.wrapped low, right.wrapped low, Option.bind_eq_bind, Option.bind_some]
    cases op <;> by_cases zero : n = 0 <;>
      simp [zero, Connective.java, Connective.apply, BinaryOp.apply, JavaValue.bool?]
  by_cases boolean : t = .boolean ∨ u = .boolean
  · simp only [connectionType, Written.connect, boolean, ↓reduceIte]
    exact of_value rfl truth .bool
  · obtain rfl : t = .integer := logical.resolve_right fun same => boolean (.inl same)
    obtain rfl : u = .integer := logical'.resolve_right fun same => boolean (.inr same)
    obtain ⟨⟨v, evaluated, represents⟩, -⟩ := left
    obtain ⟨⟨v', evaluated', represents'⟩, -⟩ := right
    have called : (Expr.call₂ ['P', 'd'] op.method.toList w.value w'.value).eval m
        = some (m.boxing (match op with
          | .and => if v.truth then v' else v
          | .or => if v.truth then v else v')) := by
      cases op <;> simp [Expr.eval, evaluated, evaluated', Connective.method, callMethod₂]
    refine of_condition rfl called (Represents.boxing ?_) truth
    by_cases zero : n = 0
    · have untrue : v.truth = false := by simp [represents.truth, zero]
      cases op with
      | and =>
        have decided : Connective.and.apply n k = n := if_pos zero
        simpa [untrue, decided] using represents
      | or =>
        have decided : Connective.or.apply n k = k := if_pos zero
        simpa [untrue, decided] using represents'
    · have true_ : v.truth = true := by simp [represents.truth, zero]
      cases op with
      | and =>
        have decided : Connective.and.apply n k = k := if_neg zero
        simpa [true_, decided] using represents'
      | or =>
        have decided : Connective.or.apply n k = n := if_neg zero
        simpa [true_, decided] using represents

/-- An exclusive disjunction has the value of its negation. -/
theorem exclude (left : Evaluates m t w n) (right : Evaluates m u w' k) :
    Evaluates m .integer (.exclude t u w w')
      (if (if n = 0 ↔ k = 0 then 0 else 1 : Int) = 0 then 1 else 0) := by
  have evaluated : (Written.exclude t u w w').value.eval m
      = some (.int (if (if n = 0 ↔ k = 0 then 0 else 1 : Int) = 0 then 1 else 0)) := by
    have tested (n : Int) : (n != 0) = !decide (n = 0) := rfl
    simp only [Written.exclude, Expr.eval, left.truth, right.truth, Option.bind_eq_bind,
      Option.bind_some, tested]
    by_cases zero : n = 0 <;> by_cases zero' : k = 0 <;>
      simp [zero, zero', callMethod₂, JavaValue.bool?] <;> decide
  exact of_value rfl evaluated .int

end Evaluates

/-- A variable has a value in memory: a truth value as such, a number as the object in which it is
boxed. -/
def Stored (m : Memory) (t : TypeName) (name : String) (n : Int) : Prop :=
  m.value name.toList = if t = .boolean then .bool (n != 0) else .boxed (m.box n) n

/-- What is written for an expression has its value, with exclusive disjunctions negated. -/
theorem Test.evaluates {s : State} {m : Memory} {types : String → TypeName}
    {names : String → String} {env : String → Int} {e : Test}
    (readable : ∀ x ∈ e.vars, Readable s x (types x) (names x))
    (stored : ∀ x ∈ e.vars, Stored m (types x) (names x) (env x))
    (boxes : Function.Injective m.box) (compares : e.ComparesIntegers types) :
    Evaluates m (e.type types) (e.written types names) (e.flipped.value env) := by
  induction e with
  | var x =>
    have stored := stored x List.mem_cons_self
    refine .of_value rfl (congrArg some stored) ?_
    rw [type, flipped, value]
    obtain integer | boolean := (readable x List.mem_cons_self).logical
    · rw [integer]
      exact .boxed
    · rw [boolean]
      exact .bool
  | paren e _ _ ih => exact (ih readable stored compares).paren
  | compare op l r _ left right =>
    obtain ⟨comparesLeft, comparesRight, integer, integer'⟩ := compares
    obtain ⟨readableLeft, readableRight⟩ := List.forall_mem_append.1 readable
    obtain ⟨storedLeft, storedRight⟩ := List.forall_mem_append.1 stored
    have first := left readableLeft storedLeft comparesLeft
    have second := right readableRight storedRight comparesRight
    rw [integer] at first
    rw [integer'] at second
    exact first.compare op second boxes
  | not low e _ ih => exact (ih readable stored compares).negate low (isLogical_type readable)
  | connect op low l r _ left right =>
    obtain ⟨readableLeft, readableRight⟩ := List.forall_mem_append.1 readable
    obtain ⟨storedLeft, storedRight⟩ := List.forall_mem_append.1 stored
    have first := left readableLeft storedLeft compares.1
    have second := right readableRight storedRight compares.2
    exact first.connect op low second (isLogical_type readableLeft) (isLogical_type readableRight)
  | xor l r _ left right =>
    obtain ⟨readableLeft, readableRight⟩ := List.forall_mem_append.1 readable
    obtain ⟨storedLeft, storedRight⟩ := List.forall_mem_append.1 stored
    exact (left readableLeft storedLeft compares.1).exclude
      (right readableRight storedRight compares.2)

/-- The text that tests a logical expression, and what Java makes of it: the truth of the expression
with exclusive disjunctions negated. -/
theorem Test.tests {s : State} {m : Memory} {types : String → TypeName} {names : String → String}
    {env : String → Int} {e : Test} (readable : ∀ x ∈ e.vars, Readable s x (types x) (names x))
    (stored : ∀ x ∈ e.vars, Stored m (types x) (names x) (env x))
    (boxes : Function.Injective m.box) (arranged : e.Arranged)
    (compares : e.ComparesIntegers types) (bracketed : e.isBracketed = true) :
    ∃ c text t, e.tree.eval s = .ok (.code c, {}) s ∧ c.toBoolean = .ok text
      ∧ readExpr text.toList = some t ∧ t.eval m = some (.bool (e.flipped.value env != 0)) := by
  obtain ⟨c, makes, codes⟩ := makes_tree readable compares
  obtain ⟨text, tested, same⟩ := codes.toBoolean (isLogical_type readable) (testable_written readable)
  have legible := (legible_written readable arranged compares bracketed).truth (e.type types)
  refine ⟨c, text, _, makes, tested, by rw [same]; exact legible.read, ?_⟩
  exact (evaluates readable stored boxes compares).truth

theorem stored_holding (types : String → TypeName) (env : String → Int) (x : String) :
    Stored (.holding types env) (types x) x (env x) := by
  simp [Stored, Memory.holding]

/-- A condition keeps its truth. The text that tests a logical expression over assigned integers and
truth values is true in Java exactly when the expression is, if it has no exclusive disjunction,
compares only integers, with negations in parentheses, and equal numbers are boxed in one object. The
expression is translated without an error. -/
theorem condition_truth_kept (e : Test) (s : State) (m : Memory) (types : String → TypeName)
    (names : String → String) (env : String → Int)
    (readable : ∀ x ∈ e.vars, Readable s x (types x) (names x))
    (stored : ∀ x ∈ e.vars, Stored m (types x) (names x) (env x))
    (boxes : ∀ n k : Int, m.box n = m.box k → n = k) (arranged : e.Arranged)
    (compares : e.ComparesIntegers types) (bracketed : e.isBracketed = true)
    (free : e.isXorFree = true) :
    ∃ c text t, e.tree.eval s = .ok (.code c, {}) s ∧ c.toBoolean = .ok text
      ∧ readExpr text.toList = some t ∧ t.eval m = some (.bool (e.value env != 0)) := by
  have tests := Test.tests readable stored boxes arranged compares bracketed
  rwa [Test.flipped_eq free] at tests

/-- A disjunction of a conjunction with a negated comparison in it and of a `not`. -/
theorem condition_truth_kept_disjunction :
    ∃ c text t,
      (Test.connect .or true
        (.connect .and false (.not false (.paren (.compare .equal (.var "a" {} {}) (.var "b" {} {}) {})
          {} {}) {}) (.var "c" {} {}) {})
        (.not true (.var "a" {} {}) {}) {}).tree.eval
          (.withScalars [("a", .integer), ("b", .integer), ("c", .boolean)])
        = .ok (.code c, {}) (.withScalars [("a", .integer), ("b", .integer), ("c", .boolean)])
      ∧ c.toBoolean = .ok text ∧ readExpr text.toList = some t
      ∧ t.eval (.holding (fun x => if x = "c" then .boolean else .integer)
          fun x => if x = "a" then 7 else 1) = some (.bool true) := by
  refine condition_truth_kept _ (.withScalars [("a", .integer), ("b", .integer), ("c", .boolean)])
    (.holding (fun x => if x = "c" then .boolean else .integer) fun x => if x = "a" then 7 else 1)
    (fun x => if x = "c" then .boolean else .integer) id (fun x => if x = "a" then 7 else 1) ?_
    (fun x _ => stored_holding _ _ x) ownBox_injective
    (by decide) ⟨⟨⟨trivial, trivial, rfl, rfl⟩, trivial⟩, trivial⟩ (by decide) (by decide)
  intro x member
  obtain rfl | rfl | rfl : x = "a" ∨ x = "b" ∨ x = "c" := by
    simp [Test.vars] at member
    grind
  · exact ⟨⟨0, by decide, rfl, rfl, rfl⟩, by decide, .inl rfl⟩
  · exact ⟨⟨1, by decide, rfl, rfl, rfl⟩, by decide, .inl rfl⟩
  · exact ⟨⟨2, by decide, rfl, rfl, rfl⟩, by decide, .inr rfl⟩

/-- An exclusive disjunction is tested the wrong way round, for all values of its operands. A negation
without parentheses loses its comparison: what is left is a number where a truth value should be. -/
theorem condition_truth_lost :
    ∃ s types, (∀ x ∈ ["a", "b"], Readable s x (types x) x)
      ∧ (∃ e : Test, e.vars = ["a", "b"] ∧ e.Arranged ∧ e.ComparesIntegers types
        ∧ ∀ env, ∃ c text t, e.tree.eval s = .ok (.code c, {}) s ∧ c.toBoolean = .ok text
          ∧ readExpr text.toList = some t
          ∧ t.eval (.holding types env) = some (.bool !(e.value env != 0)))
      ∧ (∃ e : Test, e.vars = ["a", "b"] ∧ e.Arranged ∧ e.ComparesIntegers types
        ∧ ∀ env, env "a" ≠ 0 → ∃ c text t, e.tree.eval s = .ok (.code c, {}) s
          ∧ c.toBoolean = .ok text ∧ readExpr text.toList = some t
          ∧ t.eval (.holding types env) = some (.int 0)) := by
  have readable : ∀ x ∈ ["a", "b"],
      Readable (.withScalars [("a", .integer), ("b", .integer)]) x .integer x := by
    intro x member
    obtain rfl | rfl : x = "a" ∨ x = "b" := by simpa using member
    · exact ⟨⟨0, by decide, rfl, rfl, rfl⟩, by decide, .inl rfl⟩
    · exact ⟨⟨1, by decide, rfl, rfl, rfl⟩, by decide, .inl rfl⟩
  refine ⟨.withScalars [("a", .integer), ("b", .integer)], fun _ => .integer, readable,
    ⟨.xor (.var "a" {} {}) (.var "b" {} {}) {}, rfl, by decide, ⟨trivial, trivial⟩, ?_⟩,
    ⟨.compare .equal (.not false (.var "a" {} {}) {}) (.var "b" {} {}) {}, rfl, by decide,
      ⟨trivial, trivial, rfl, rfl⟩, ?_⟩⟩
  · intro env
    obtain ⟨c, text, t, made, tested, read, evaluated⟩ :=
      Test.tests (e := .xor (.var "a" {} {}) (.var "b" {} {}) {}) readable
        (fun x _ => stored_holding _ env x) ownBox_injective (by decide)
        ⟨trivial, trivial⟩ rfl
    refine ⟨c, text, t, made, tested, read, evaluated.trans ?_⟩
    simp only [Test.flipped, Test.value]
    by_cases same : env "a" = 0 ↔ env "b" = 0 <;> simp [same]
  · intro env nonzero
    obtain ⟨c, makes, codes⟩ := Test.makes_tree
      (e := .compare .equal (.not false (.var "a" {} {}) {}) (.var "b" {} {}) {}) readable
      ⟨trivial, trivial, rfl, rfl⟩
    obtain ⟨text, tested, same⟩ := codes.toBoolean (.inr rfl) (Test.testable_written readable)
    -- The colon of the choice reaches over the comparison.
    have read : readExpr text.toList = some (.choice
        (.paren (.call ['P', 'd'] ['e', 'v', 'a', 'l'] (.name ['a']))) (.number ['0'])
        (.binary .equal (.number ['1']) (.name ['b']))) := by
      rw [same]
      decide
    refine ⟨c, text, _, makes, tested, read, ?_⟩
    have value : (env "a" != 0) = true := by simpa using nonzero
    simp [Expr.eval, Memory.holding, callMethod, JavaValue.truth, JavaValue.bool?, value, decimalValue]

end PerlJava.Compile
