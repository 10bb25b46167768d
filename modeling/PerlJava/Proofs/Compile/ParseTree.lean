import PerlJava.Compile.Parser

/-!
# Parse trees

The value of a parse tree is made from its leaves upwards by the actions of its productions, in the
order in which the parser makes its reductions. Expressions of scalar types that only read assigned
variables leave the state as it is: `Gives` says what such a step results in, and `Operand` what is
known about the fragment that an expression has become.
-/

namespace PerlJava.Compile

open Java

/-- A parse tree: a token, or a production with a tree for each symbol of its right side. -/
inductive Tree where
  | token (text : String) (at_ : Position)
  | node (production : Perl.Production) (children : List Tree)

namespace Tree

mutual

def eval : Tree → M (Value × Position)
  | token text at_ => return (.text text, at_)
  | node production children => do
    let values ← evalAll children
    match allActions.lookup production with
    | some action => return (← action.run ⟨values.toArray⟩, {})
    | none => throw .inconsistent

def evalAll : List Tree → M (List (Value × Position))
  | [] => return []
  | t :: ts => return (← t.eval) :: (← evalAll ts)

end

def textIn (t : Tree) (s : State) : String :=
  match t.eval s with
  | .ok (.code c, _) _ => c.value
  | _ => ""

theorem eval_node_eq_ok {production : Perl.Production} {ts : List Tree} {v : Value} {at_ : Position}
    {s s' : State} : (node production ts).eval s = .ok (v, at_) s' ↔
      ∃ vs s₁ action, evalAll ts s = .ok vs s₁ ∧ allActions.lookup production = some action
        ∧ action.run ⟨vs.toArray⟩ s₁ = .ok v s' ∧ at_ = {} := by
  rw [eval, M.bind_eq_ok]
  constructor
  · rintro ⟨vs, s₁, below, acts⟩
    cases found : allActions.lookup production with
    | none =>
      rw [found] at acts
      cases acts
    | some action =>
      rw [found] at acts
      obtain ⟨_, _, made, ⟨⟩⟩ := M.cut acts
      exact ⟨vs, s₁, action, below, rfl, made, rfl⟩
  · rintro ⟨vs, s₁, action, below, found, made, rfl⟩
    refine ⟨vs, s₁, below, ?_⟩
    rw [found]
    exact M.bind_eq_ok.2 ⟨v, s', made, rfl⟩

/-- A production makes something of the values of its symbols. -/
def Acts (production : Perl.Production) (vs : List (Value × Position)) (f : M Value) : Prop :=
  ∃ action, allActions.lookup production = some action ∧ action.run ⟨vs.toArray⟩ = f

theorem eval_node_of_acts {production : Perl.Production} {ts : List Tree}
    {vs : List (Value × Position)} {f : M Value} {v : Value} {at_ : Position} {s s₁ s' : State}
    (acts : Acts production vs f) (below : evalAll ts s = .ok vs s₁) :
    (node production ts).eval s = .ok (v, at_) s' ↔ f s₁ = .ok v s' ∧ at_ = {} := by
  obtain ⟨action, found, rfl⟩ := acts
  rw [eval_node_eq_ok]
  constructor
  · rintro ⟨_, _, _, below', found', made, rfl⟩
    cases below.symm.trans below'
    cases found.symm.trans found'
    exact ⟨made, rfl⟩
  · rintro ⟨made, rfl⟩
    exact ⟨vs, s₁, action, below, found, made, rfl⟩

theorem evalAll_cons_eq_ok {t : Tree} {ts : List Tree} {vs : List (Value × Position)} {s s' : State} :
    evalAll (t :: ts) s = .ok vs s' ↔
      ∃ v s₁ rest, t.eval s = .ok v s₁ ∧ evalAll ts s₁ = .ok rest s' ∧ vs = v :: rest := by
  rw [evalAll, M.bind_eq_ok]
  constructor
  · rintro ⟨v, s₁, first, after⟩
    obtain ⟨rest, _, others, ⟨⟩⟩ := M.cut after
    exact ⟨v, s₁, rest, first, others, rfl⟩
  · rintro ⟨v, s₁, rest, first, others, rfl⟩
    exact ⟨v, s₁, first, M.bind_eq_ok.2 ⟨rest, s', others, rfl⟩⟩

section Around

variable {t u : Tree} {s s' : State}

/-- The trees around a token are evaluated from left to right. -/
theorem evalAll_around {x y : Value × Position} {s₁ : State} (text : String) (at_ : Position)
    (first : t.eval s = .ok x s₁) (second : u.eval s₁ = .ok y s') :
    evalAll [t, token text at_, u] s = .ok [x, (.text text, at_), y] s' := by
  have last : evalAll [u] s₁ = .ok [y] s' := evalAll_cons_eq_ok.2 ⟨y, s', [], second, rfl, rfl⟩
  have others : evalAll [token text at_, u] s₁ = .ok [(.text text, at_), y] s' :=
    evalAll_cons_eq_ok.2 ⟨_, s₁, _, rfl, last, rfl⟩
  exact evalAll_cons_eq_ok.2 ⟨x, s₁, _, first, others, rfl⟩

theorem evalAll_around_cases {text : String} {at_ : Position} {vs : List (Value × Position)}
    (all : evalAll [t, token text at_, u] s = .ok vs s') :
    ∃ x s₁ y, t.eval s = .ok x s₁ ∧ u.eval s₁ = .ok y s' ∧ vs = [x, (.text text, at_), y] := by
  obtain ⟨x, s₁, _, first, others, rfl⟩ := evalAll_cons_eq_ok.1 all
  obtain ⟨_, _, _, ⟨⟩, last, rfl⟩ := evalAll_cons_eq_ok.1 others
  obtain ⟨y, _, _, second, ⟨⟩, rfl⟩ := evalAll_cons_eq_ok.1 last
  exact ⟨x, s₁, y, first, second, rfl⟩

end Around

end Tree

/-- A step results in a value and leaves the state as it is. -/
def Gives {α : Type} (s : State) (x : Plain α) (a : α) : Prop :=
  x.run s = .ok a s

namespace Gives

variable {α β : Type} {s : State} {x : Plain α} {f : α → Plain β} {a : α} {b : β}

protected theorem pure (a : α) : Gives s (pure a) a := rfl

protected theorem read : Gives s read s.veiled := rfl

theorem lift {x : Except Fault α} (made : x = .ok a) : Gives s (liftM x) a := by
  subst made
  rfl

theorem run_bind (first : Gives s x a) : (x >>= f).run s = (f a).run s := by
  unfold Gives at first
  rw [Plain.run_bind, M.bind_apply, first]

protected theorem bind (first : Gives s x a) (second : Gives s (f a) b) : Gives s (x >>= f) b :=
  first.run_bind.trans second

end Gives

theorem gives_check {s : State} {c : Fragment} (whole : c.bare = false)
    (assigned : ∀ {id}, c.variable_ = some id →
      isAssignedIn s.assigned (s.vars.getD id {}).name false = true) :
    Gives s (check c false) () := by
  have noAccess : c.whole = .ok () := by simp [Fragment.whole, whole]
  unfold check
  refine .bind (.lift noAccess) ?_
  cases found : c.variable_ with
  | none => exact .pure ()
  | some id =>
    refine .bind (.bind .read (.pure _)) (.bind (.bind .read (.pure _)) ?_)
    rw [State.vars_cloaked, State.assigned_cloaked, if_pos (assigned found)]
    exact .pure ()

def Tree.Makes (s : State) (t : Tree) (v : Value) (at_ : Position) : Prop :=
  t.eval s = .ok (v, at_) s

namespace Tree

variable {s : State} {name : Perl.Symbol} {symbols : List Perl.Symbol}

theorem makes_token (text : String) (at_ : Position) : (token text at_).Makes s (.text text) at_ :=
  rfl

/-- Trees have values in a state, and leave the state as it is. -/
def MakeAll (s : State) (ts : List Tree) (vs : List (Value × Position)) : Prop :=
  evalAll ts s = .ok vs s

theorem MakeAll.nil : MakeAll s [] [] := rfl

theorem MakeAll.cons {t : Tree} {ts : List Tree} {v : Value} {at_ : Position}
    {vs : List (Value × Position)} (first : t.Makes s v at_) (rest : MakeAll s ts vs) :
    MakeAll s (t :: ts) ((v, at_) :: vs) := by
  have first : t.eval s = .ok (v, at_) s := first
  have rest : evalAll ts s = .ok vs s := rest
  simp [MakeAll, evalAll, M.bind_apply, first, rest]

theorem makes_node {f : PlainAction} {ts : List Tree} {vs : List (Value × Position)} {v : Value}
    (found : allActions.lookup ⟨name, symbols⟩ = some (rule name symbols f).2)
    (below : MakeAll s ts vs) (acts : Gives s (f ⟨vs.toArray⟩) v) :
    (node ⟨name, symbols⟩ ts).Makes s v {} := by
  have below : evalAll ts s = .ok vs s := below
  have acts : (f ⟨vs.toArray⟩).run s = .ok v s := acts
  simp [Makes, eval, M.bind_apply, below, found, rule, acts]

theorem makes_passOn {t : Tree} {v : Value} {at_ : Position}
    (found : allActions.lookup ⟨name, symbols⟩ = some (rule name symbols (passOn 1)).2)
    (below : t.Makes s v at_) : (node ⟨name, symbols⟩ [t]).Makes s v {} :=
  makes_node found (.cons below .nil) (.pure v)

variable {left right t : Tree} {a b c : Fragment} {place place' : Position}

theorem makes_binary {f : Fragment → Fragment → Plain Fragment} (text : String) (at_ : Position)
    (found : allActions.lookup ⟨name, symbols⟩ = some (rule name symbols (binary f)).2)
    (first : left.Makes s (.code a) place) (second : right.Makes s (.code b) place')
    (acts : Gives s (f a b) c) :
    (node ⟨name, symbols⟩ [left, token text at_, right]).Makes s (.code c) {} :=
  makes_node found (.cons first (.cons (makes_token text at_) (.cons second .nil)))
    ((Gives.lift rfl).bind ((Gives.lift rfl).bind (acts.bind (.pure _))))

/-- An operator between two expressions that is written as in Perl. -/
theorem makes_binaryBy {f : String → Fragment → Fragment → Plain Fragment} (text : String)
    (at_ : Position)
    (found : allActions.lookup ⟨name, symbols⟩ = some (rule name symbols (binaryBy f)).2)
    (first : left.Makes s (.code a) place) (second : right.Makes s (.code b) place')
    (acts : Gives s (f text a b) c) :
    (node ⟨name, symbols⟩ [left, token text at_, right]).Makes s (.code c) {} :=
  makes_node found (.cons first (.cons (makes_token text at_) (.cons second .nil)))
    ((Gives.lift rfl).bind ((Gives.lift rfl).bind ((Gives.lift rfl).bind (acts.bind (.pure _)))))

theorem makes_unary {f : Fragment → Plain Fragment} (text : String) (at_ : Position)
    (found : allActions.lookup ⟨name, symbols⟩ = some (rule name symbols (unary f)).2)
    (operand : t.Makes s (.code a) place) (acts : Gives s (f a) c) :
    (node ⟨name, symbols⟩ [token text at_, t]).Makes s (.code c) {} :=
  makes_node found (.cons (makes_token text at_) (.cons operand .nil))
    ((Gives.lift rfl).bind (acts.bind (.pure _)))

end Tree

/-! ### Operands -/

/-- The code of an expression of a scalar type that may be read in a state. -/
structure Operand (s : State) (type : TypeName) (c : Fragment) : Prop where
  whole : c.bare = false
  /-- No declaration shows the expression. -/
  free : c.slot = none
  shape : c.shape = .scalar type
  assigned {id : VarId} : c.variable_ = some id →
    isAssignedIn s.assigned (s.vars.getD id {}).name false = true

namespace Operand

variable {s : State} {type : TypeName} {a b c : Fragment}

section

variable (operand : Operand s type c)

include operand

theorem gives_whole : Gives s (liftM c.whole) () :=
  .lift (by simp [Fragment.whole, operand.whole])

theorem head : c.head = .ok (.plain type) := by
  rw [Fragment.head, operand.shape]
  rfl

theorem size : c.shape.size = .ok 1 := by
  rw [operand.shape]
  rfl

theorem gives_check (value : type ≠ .ref) : Gives s (check c true) () := by
  have noReference :
      Gives s (do if (← c.head).is .ref then report .refOperation c.position []) () := by
    refine .bind (.lift operand.head) ?_
    rw [if_neg (by simpa [Dim.is, Dim.name?] using value)]
    exact .pure ()
  unfold check
  refine .bind operand.gives_whole ?_
  cases found : c.variable_ with
  | none => exact noReference
  | some id =>
    refine .bind (.bind .read (.pure _)) (.bind (.bind .read (.pure _)) ?_)
    rw [State.vars_cloaked, State.assigned_cloaked, if_pos (operand.assigned found)]
    exact noReference

theorem gives_sync : Gives s (sync c) c := by
  unfold sync
  rw [operand.free]
  exact .pure c

theorem changed {c' : Fragment} {type' : TypeName}
    (bare : c'.bare = c.bare) (slot : c'.slot = c.slot) (variable_ : c'.variable_ = c.variable_)
    (shape : c'.shape = .scalar type') : Operand s type' c' where
  whole := bare.trans operand.whole
  free := slot.trans operand.free
  shape := shape
  assigned found := operand.assigned (variable_.symm.trans found)

end

/-- An operator between two operands begins by joining and checking them. -/
theorem between (left : Operand s type a) {type' : TypeName} (right : Operand s type' b)
    (value : type ≠ .ref) (value' : type' ≠ .ref) :
    ∃ code, code.condition = none
      ∧ (∀ {c : Fragment} {type : TypeName}, c.bare = code.bare → c.slot = code.slot →
        c.variable_ = code.variable_ → c.shape = .scalar type → Operand s type c)
      ∧ ∀ {f : Fragment → Plain Fragment} {c : Fragment}, Gives s (f code) c → Gives s (do
        let code ← a.join b
        checkBoth a b
        f code) c := by
  refine ⟨_, rfl, ?_, fun gives => .bind (.lift (by rw [Fragment.join, left.whole, right.whole]; rfl))
    (.bind (.bind (left.gives_check value) (right.gives_check value')) gives)⟩
  intro c type bare slot variable_ shape
  exact ⟨bare, slot, shape, fun found => by cases variable_.symm.trans found⟩

end Operand

/-! ### Variables and parentheses -/

def Holds (s : State) (x : String) (type : TypeName) (name : String) : Prop :=
  ∃ id, lookupIn s.declared x = some id ∧ (s.vars.getD id {}).name = some name
    ∧ (s.vars.getD id {}).shape = .scalar type ∧ isAssignedIn s.assigned (some name) false = true

/-- A state in which scalar variables of some types have been declared, outside of blocks. -/
def State.withScalars (vars : List (String × TypeName)) : State :=
  { (default : State) with
    vars := (vars.map fun (x, type) => { name := some x, shape := .scalar type }).toArray
    declared := [.ofList (vars.zipIdx.map fun ((x, _), id) => (x, id))]
    assigned := [[]] }

namespace Tree

def scalar (x : String) (sigil at_ : Position) : Tree :=
  node ⟨.expression, [.var_access]⟩ [node ⟨.var_access, [.variable_]⟩
    [node ⟨.variable_, [.DOLLAR, .ID]⟩ [token "$" sigil, token x at_]]]

def parens (t : Tree) (opening closing : Position) : Tree :=
  node ⟨.expression, [.LPAREN, .expression, .RPAREN]⟩ [token "(" opening, t, token ")" closing]

variable {s : State} {type : TypeName}

theorem makes_scalar {x name : String} (holds : Holds s x type name) (sigil at_ : Position) :
    ∃ c, (scalar x sigil at_).Makes s (.code c) {} ∧ Operand s type c ∧ c.value = name
      ∧ c.condition = none := by
  obtain ⟨id, declared, named, shape, assigned⟩ := holds
  let v := s.vars.getD id {}
  let found : Fragment := {
    value := name
    shape := .scalar type
    results := v.elements.getD []
    position := at_
    variable_ := some id }
  have operand : Operand s type found := by
    refine ⟨rfl, rfl, rfl, fun same => ?_⟩
    obtain rfl := Option.some.inj same
    rwa [named]
  have reads : Gives s (readVariable x at_ none) found := by
    unfold readVariable
    refine .bind (a := some id) (.bind .read (by rw [State.declared_cloaked, declared]; exact .pure _)) ?_
    refine .bind (a := v) (.bind .read (.pure _)) ?_
    refine .bind (.lift (a := .scalar type) (by rw [shape]; rfl)) ?_
    simp only [named, found, v]
    exact .pure _
  have variable_ : (node ⟨.variable_, [.DOLLAR, .ID]⟩ [token "$" sigil, token x at_]).Makes s
      (.code found) {} :=
    makes_node rfl (.cons (makes_token _ _) (.cons (makes_token _ _) .nil))
      ((Gives.lift rfl).bind (reads.bind (.pure _)))
  let place : Access := {
    base := found.mark .variable_
    value := name
    shape := .scalar type
    position := at_ }
  have access : (node ⟨.var_access, [.variable_]⟩
      [node ⟨.variable_, [.DOLLAR, .ID]⟩ [token "$" sigil, token x at_]]).Makes s (.access place) {} :=
    makes_node rfl (.cons variable_ .nil)
      ((Gives.lift rfl).bind ((Gives.lift rfl).bind (.pure _)))
  let c : Fragment := { place.base with
    ref := place.ref
    shape := place.shape
    position := place.position
    value := place.readText
    declares := place.base.declares ++ place.declares }
  have operand : Operand s type c := operand.changed rfl rfl rfl rfl
  refine ⟨c, ?_, operand, by simp [c, place, Access.readText], rfl⟩
  exact makes_node rfl (.cons access .nil)
    ((Gives.lift rfl).bind (operand.gives_sync.bind (.pure _)))

/-- Parentheses stand around the text of an expression, and around its truth. -/
theorem makes_parens {t : Tree} {c : Fragment} {place : Position} (inner : t.Makes s (.code c) place)
    (operand : Operand s type c) (opening closing : Position) :
    ∃ c', (parens t opening closing).Makes s (.code c') {} ∧ Operand s type c'
      ∧ c'.value = "(" ++ c.value ++ ")"
      ∧ c'.condition = c.condition.map fun text =>
        if text.isEmpty then text else "(" ++ text ++ ")" := by
  let c' : Fragment := { c with position := closing, value := "(" ++ c.value ++ ")" }
  have around : Operand s type c' := operand.changed rfl rfl rfl operand.shape
  refine ⟨{ c' with condition := c.condition.map fun text =>
      if text.isEmpty then text else "(" ++ text ++ ")" }, ?_,
    around.changed rfl rfl rfl around.shape, rfl, rfl⟩
  refine makes_node rfl (.cons (makes_token "(" opening) (.cons inner
    (.cons (makes_token ")" closing) .nil))) ?_
  refine .bind (.lift rfl) (.bind (.lift rfl) (.bind (.lift rfl) ?_))
  exact .bind around.gives_sync (.bind around.gives_whole (.pure _))

end Tree

end PerlJava.Compile
