import PerlJava.Proofs.Compile.MarkedStatement

/-!
# The statements of a tree

Every tree of a statement that has been formed without mappers and reducers has the code of a Java
statement with its marks. The jumps of that statement are the tokens `last` and `next` of the tree,
in their order.
-/

namespace PerlJava.Compile

open Java
open Perl (Symbol Production rules)

/-! ### Values -/

section Sound

variable {ts : List Built} {s s' : State} {read : List Token}

/-- Trees that spell the right side of a production are sound as arguments of its action. -/
theorem sound_builtArgs {σ : Spelling} {symbols : List Symbol}
    (kinds : ts.map (·.kind) = symbols.map (·.text)) (sound : ∀ t ∈ ts, SoundSymbol σ t.symbol) :
    Args.Sound σ symbols (Built.args ts) := by
  have same : Built.args ts = ⟨((ts.map (·.symbol)).map fun s =>
      (s.value.getD .nothing, s.token.elim {} (·.position))).toArray⟩ := by
    rw [Built.args, List.map_map]
    exact congrArg (fun l => Args.mk l.toArray)
      (List.map_congr_left fun t _ => (Built.entry_symbol t).symm)
  rw [same]
  refine sound_args ?_ fun s member => ?_
  · rw [List.map_map, ← kinds]
    exact List.map_congr_left fun t _ => t.kind_symbol
  · obtain ⟨t, among, rfl⟩ := List.mem_map.1 member
    exact sound t among

/-- Errors stay, so there are none before a step that ends without one. -/
theorem Candid.fine {α : Type} {x : M α} {a : α} (candid : Candid x) (run : x s = .ok a s')
    (fine : s'.codeError = false) : s.codeError = false := by
  obtain ⟨new, printing⟩ := candid.printing s
  rw [run] at printing
  have failed : s'.codeError = (s.codeError || anyError new) := printing.failed
  rw [fine, eq_comm, Bool.or_eq_false_iff] at failed
  exact failed.1

theorem Reads.fine (reads : Reads s read s') (fine : s'.codeError = false) : s.codeError = false := by
  induction reads with
  | nothing => exact fine
  | token next _ ih => exact Candid.fine (Does.candid .plain) next (ih fine)
  | trace written _ ih => exact Candid.fine (Does.candid .plain) written (ih fine)

theorem Forms.fine (forms : Forms ts s read s') (fine : s'.codeError = false) :
    s.codeError = false := by
  induction forms with
  | nothing reads => exact reads.fine fine
  | token _ _ ih => exact ih fine
  | @node production action children _ _ _ _ _ _ _ _ _ _ _ acts _ ih ih' =>
    exact ih ((action.does (Built.args children)).candid.fine acts (ih' fine))

end Sound

/-! ### Jumps -/

def jumpOf? (t : Token) : Option Jump :=
  if t.kind = Symbol.LAST.text then some .break_
  else if t.kind = Symbol.NEXT.text then some .continue_
  else none

/-- The jumps that a tree stands for, from left to right. -/
def Built.jumps (t : Built) : List Jump :=
  t.tokens.filterMap jumpOf?

theorem Built.filterMap_allTokens (ts : List Built) :
    (Built.allTokens ts).filterMap jumpOf? = ts.flatMap (·.jumps) := by
  induction ts with
  | nil => rfl
  | cons t ts ih => rw [Built.allTokens, List.filterMap_append, ih, List.flatMap_cons, Built.jumps]

theorem Built.jumps_node (production : Production) (children : List Built) (v : Value) :
    (Built.node production children v).jumps = children.flatMap (·.jumps) := by
  rw [Built.jumps, Built.tokens, Built.filterMap_allTokens]

theorem Built.jumps_single {production : Production} {t : Built} {v : Value} {js : List Jump}
    (jumps : t.jumps = js) : (Built.node production [t] v).jumps = js := by
  rw [jumps_node, List.flatMap_singleton, jumps]

def Built.code? (t : Built) : Option Fragment :=
  match t.value with
  | .code c => some c
  | _ => none

/-! ### Productions -/

/-- The words that label mappers, reducers and their parts. -/
def jobWords : List Symbol :=
  [.MAPPER_CODE, .REDUCER_CODE, .MAPPER_LOOP, .REDUCER_OP, .REDUCER_CHANGE, .REDUCER_KEY,
    .REDUCER_VALUE]

def jobSymbols : List Symbol :=
  [.mapper_init, .reducer_init, .loop_head] ++ jobWords

/-- There are no labels of mappers and reducers among some tokens. -/
def Jobless (tokens : List Token) : Prop :=
  ∀ t ∈ tokens, ∀ x ∈ jobWords, t.kind ≠ x.text

/-- A token that the reader delivers, but no label of a mapper or reducer. -/
def Ordinary (t : Token) : Prop :=
  Perl.Readable t ∧ ∀ x ∈ jobWords, t.kind ≠ x.text

def controlSymbols : List Symbol :=
  [.LAST, .NEXT, .special_statement, .statement_type, .statements, .block, .if_block, .elif,
    .elif_block, .code, .function, .function_body, .file]

def isPlain (x : Symbol) : Bool :=
  !controlSymbols.contains x

/-- What productions there are for the symbols of statements, besides those of mappers and reducers.
All symbols inside a plain one are plain. -/
def statementFits (name : Symbol) (symbols : List Symbol) : Bool :=
  match name with
  | .special_statement => [[.LAST], [.NEXT], [.RETURN, .LPAREN, .list, .RPAREN], [.RETURN, .list],
      [.RETURN]].contains symbols
  | .statements => [[], [.statements, .statement_type]].contains symbols
  | .statement_type => [[.labels_line, .list, .post_block, .SEMI, .line_comment],
      [.labels_line, .multi_equals, .post_block, .SEMI, .line_comment], [.special_statement, .SEMI],
      [.block_header, .block], [.LBRACE, .block_header, .statements, .RBRACE], [.COMMENT],
      [.SEMI, .line_comment], [.PACKAGE, .ID, .SEMI], [.JAVA_LINE], [.JAVA_IMPORT], [.error, .SEMI],
      [.declare, .TYPE], [.declare, .dimension, .TYPE],
      [.declare, .REF, .dimension, .TYPE]].contains symbols
  | .block => [[.if_block, .elif], [.WHILE, .change_init, .LPAREN, .expression, .RPAREN,
      .change_init, .LBRACE, .statements, .RBRACE], [.UNTIL, .change_init, .LPAREN, .expression,
      .RPAREN, .change_init, .LBRACE, .statements, .RBRACE], [.DO, .LBRACE, .statements, .RBRACE,
      .WHILE, .change_init, .LPAREN, .expression, .RPAREN, .change_init, .SEMI], [.DO, .LBRACE,
      .statements, .RBRACE, .UNTIL, .change_init, .LPAREN, .expression, .RPAREN, .change_init,
      .SEMI], [.FOR, .LPAREN, .opt_list, .change_init, .SEMI, .opt_list, .SEMI, .opt_list, .RPAREN,
      .change_init, .LBRACE, .statements, .RBRACE], [.for_each, .LBRACE, .statements,
      .RBRACE]].contains symbols
  | .if_block => [[.IF, .LPAREN, .expression, .RPAREN, .LBRACE, .statements, .RBRACE],
      [.UNLESS, .LPAREN, .expression, .RPAREN, .LBRACE, .statements, .RBRACE]].contains symbols
  | .elif => [[], [.block_header, .elif_block, .elif],
      [.block_header, .ELSE, .LBRACE, .statements, .RBRACE]].contains symbols
  | .elif_block => symbols == [.ELSIF, .change_init, .LPAREN, .expression, .RPAREN, .change_init,
      .LBRACE, .statements, .RBRACE]
  | .for_each => [[.FOR, .for_type, .for_variable, .LPAREN, .expression, .RPAREN],
      [.FOR, .LPAREN, .expression, .RPAREN]].contains symbols
  | .LAST | .NEXT => false
  | x => !isPlain x || symbols.all isPlain

theorem all_statementFits : allActions.all (fun (rule, _) => rule.symbols.any jobSymbols.contains
    || !jobSymbols.contains rule.name && statementFits rule.name rule.symbols) = true := by
  decide +kernel

/-! ### Outlines -/

def At (symbols : List Symbol) (children : List Built) (x : Symbol) (t : Built) : Prop :=
  ∃ i : Nat, symbols[i]? = some x ∧ children[i]? = some t

/-- A Java statement has the control flow that a tree asks for. Any statement may stand in a block
after declarations. -/
inductive Outlined : Built → Stmt → Prop where
  | empty {v : Value} : Outlined (.node ⟨.statements, []⟩ [] v) (.text "")
  | more {t u : Built} {v : Value} {a b : Stmt} : Outlined t a → Outlined u b →
    Outlined (.node ⟨.statements, [.statements, .statement_type]⟩ [t, u] v) (.seq a b)
  | plain {symbols : List Symbol} {children : List Built} {v : Value} {text : String} :
    symbols.all isPlain = true → Outlined (.node ⟨.statement_type, symbols⟩ children v) (.text text)
  | special {t u : Built} {v : Value} {st : Stmt} : Outlined t st →
    Outlined (.node ⟨.statement_type, [.special_statement, .SEMI]⟩ [t, u] v) st
  | last {t : Built} {v : Value} :
    Outlined (.node ⟨.special_statement, [.LAST]⟩ [t] v) (.jump .break_)
  | next {t : Built} {v : Value} :
    Outlined (.node ⟨.special_statement, [.NEXT]⟩ [t] v) (.jump .continue_)
  | return_ {symbols : List Symbol} {children : List Built} {v : Value} {value : Option String} :
    Outlined (.node ⟨.special_statement, .RETURN :: symbols⟩ children v) (.return_ value)
  | headed {t u : Built} {v : Value} {st : Stmt} : Outlined u st →
    Outlined (.node ⟨.statement_type, [.block_header, .block]⟩ [t, u] v) st
  | block {symbols : List Symbol} {children : List Built} {v : Value} {t : Built} {b : Stmt} :
    At symbols children .statements t → Outlined t b →
    Outlined (.node ⟨.statement_type, symbols⟩ children v) (.block b)
  | loop {symbols : List Symbol} {children : List Built} {v : Value} {t : Built} {b : Stmt}
    {l : Loop} : At symbols children .statements t → Outlined t b →
    Outlined (.node ⟨.block, symbols⟩ children v) (.loop l b)
  | conditional {t u : Built} {v : Value} {cond : String} {b r : Stmt} : Outlined t b →
    Outlined u r → Outlined (.node ⟨.block, [.if_block, .elif]⟩ [t, u] v) (.branch false cond b r)
  | branch {name : Symbol} {symbols : List Symbol} {children : List Built} {v : Value} {t : Built}
    {b : Stmt} : name = .if_block ∨ name = .elif_block → At symbols children .statements t →
    Outlined t b → Outlined (.node ⟨name, symbols⟩ children v) b
  | done {v : Value} : Outlined (.node ⟨.elif, []⟩ [] v) .done
  | further {header t u : Built} {v : Value} {cond : String} {b r : Stmt} : Outlined t b →
    Outlined u r → Outlined (.node ⟨.elif, [.block_header, .elif_block, .elif]⟩ [header, t, u] v)
      (.branch true cond b r)
  | otherwise {symbols : List Symbol} {children : List Built} {v : Value} {t : Built} {b : Stmt} :
    At symbols children .statements t → Outlined t b →
    Outlined (.node ⟨.elif, symbols⟩ children v) (.otherwise b)
  | declared {t : Built} {front : String} {st : Stmt} : Outlined t st →
    Outlined t (.block (.seq (.text front) st))

/-- The code of a tree, if it has any, is that of a Java statement with its marks. -/
structure Renders (t : Built) (st : Stmt) : Prop where
  outlined : Outlined t st
  text : t.statementText = st.print
  jumps : st.jumps = t.jumps
  marks : st.Marks (t.code?.elim [] (·.flags))

theorem Renders.code {t : Built} {st : Stmt} (renders : Renders t st) {c : Fragment}
    (value : t.value = .code c) : c.value = st.print ∧ st.Marks c.flags := by
  obtain ⟨-, text, -, marks⟩ := renders
  rw [Built.statementText, value] at text
  rw [Built.code?, value] at marks
  exact ⟨text, marks⟩

/-- A tree is a branch, maybe one that follows another, with the code of a Java statement. -/
def RendersBranch (further : Bool) (t : Built) : Prop :=
  ∃ c body b, t.value = .code c ∧ IsBranch further body c ∧ Outlined t b ∧ body.value = Stmt.print b
    ∧ b.jumps = t.jumps ∧ b.Marks body.flags

/-- What the trees of a symbol are in Java: those of statements are Java statements, and those that
are plain have no jumps. Mappers and reducers are left out. -/
def Built.RenderedAs (t : Built) : Symbol → Prop
  | .mapper_init | .reducer_init | .loop_head | .MAPPER_CODE | .REDUCER_CODE | .MAPPER_LOOP
  | .REDUCER_OP | .REDUCER_CHANGE | .REDUCER_KEY | .REDUCER_VALUE => False
  | .code | .function | .function_body | .file => True
  | .LAST => t.jumps = [.break_]
  | .NEXT => t.jumps = [.continue_]
  | .statements | .statement_type | .block => ∃ st, Renders t st
  | .special_statement => ∃ c st, t.value = .code c ∧ Outlined t st ∧ c.value ++ ";\n" = Stmt.print st
    ∧ st.jumps = t.jumps ∧ st.Marks c.flags
  | .if_block => RendersBranch false t
  | .elif_block => RendersBranch true t
  | .elif => ∃ r, Outlined t r ∧ AreBranches r t.code? ∧ r.jumps = t.jumps
  | .for_each => t.jumps = [] ∧ ∀ c, t.value = .code c → IsForHead c
  | _ => t.jumps = []

def Built.Rendered (t : Built) : Prop :=
  ∀ x : Symbol, t.kind = x.text → t.RenderedAs x

namespace Built.RenderedAs

variable {t : Built} {x : Symbol}

theorem not_job (is : t.RenderedAs x) : x ∉ jobSymbols := by
  intro member
  simp only [jobSymbols, jobWords, List.cons_append, List.nil_append, List.mem_cons,
    List.not_mem_nil, or_false] at member
  rcases member with rfl | rfl | rfl | rfl | rfl | rfl | rfl | rfl | rfl | rfl <;> exact is

theorem jumps_eq_nil (is : t.RenderedAs x) (plain : isPlain x = true) : t.jumps = [] := by
  unfold Built.RenderedAs at is
  split at is <;> first | exact is | exact is.1 | exact is.elim | cases plain

theorem of_plain (plain : isPlain x = true) (noJob : x ∉ jobSymbols) (noHead : x ≠ .for_each)
    (none : t.jumps = []) : t.RenderedAs x := by
  unfold Built.RenderedAs
  split <;> first
    | exact none
    | exact absurd (by decide) noJob
    | exact absurd rfl noHead
    | cases plain

end Built.RenderedAs

/-- The trees below a production are what those of its symbols are. -/
structure RenderedBelow (symbols : List Symbol) (children : List Built) : Prop where
  kinds : children.map (·.kind) = symbols.map (·.text)
  inner : ∀ t ∈ children, t.Rendered
  sound : Args.Sound .java symbols (Built.args children)

namespace RenderedBelow

variable {symbols : List Symbol} {children : List Built} {i : Nat} {x : Symbol} {t : Built}
  (below : RenderedBelow symbols children)

include below

theorem child (here : symbols[i]? = some x) :
    ∃ t, children[i]? = some t ∧ t.RenderedAs x ∧ (Built.args children).value (i + 1) = t.value := by
  have kind := congrArg (·[i]?) below.kinds
  simp only [List.getElem?_map, here, Option.map_some] at kind
  obtain ⟨t, found, same⟩ := Option.map_eq_some_iff.1 kind
  refine ⟨t, found, below.inner t (List.mem_of_getElem? found) x same, ?_⟩
  simp [Args.value, Built.args, found]

theorem symbol (there : children[i]? = some t) : ∃ x, symbols[i]? = some x ∧ t.RenderedAs x := by
  have kind := congrArg (·[i]?) below.kinds
  simp only [List.getElem?_map, there, Option.map_some] at kind
  obtain ⟨x, here, same⟩ := Option.map_eq_some_iff.1 kind.symm
  exact ⟨x, here, below.inner t (List.mem_of_getElem? there) x same.symm⟩

theorem no_job : symbols.any jobSymbols.contains = false := by
  refine Bool.eq_false_iff.2 fun job => ?_
  obtain ⟨x, member, isJob⟩ := List.any_eq_true.1 job
  obtain ⟨i, here⟩ := List.getElem?_of_mem member
  obtain ⟨t, -, is, -⟩ := below.child here
  exact is.not_job (List.contains_iff_mem.1 isJob)

theorem no_jumps (plain : symbols.all isPlain = true) : children.flatMap (·.jumps) = [] := by
  refine List.flatMap_eq_nil_iff.2 fun t member => ?_
  obtain ⟨i, there⟩ := List.getElem?_of_mem member
  obtain ⟨x, here, is⟩ := below.symbol there
  exact is.jumps_eq_nil (List.all_eq_true.1 plain x (List.mem_of_getElem? here))

theorem jumps_eq (there : children[i]? = some t)
    (plain : (symbols.eraseIdx i).all isPlain = true) : children.flatMap (·.jumps) = t.jumps := by
  have bound := (List.getElem?_eq_some_iff.1 there).1
  have others : (children.eraseIdx i).flatMap (·.jumps) = [] := by
    refine List.flatMap_eq_nil_iff.2 fun u member => ?_
    obtain ⟨k, other, there⟩ := List.mem_eraseIdx_iff_getElem?.1 member
    obtain ⟨x, here, is⟩ := below.symbol there
    exact is.jumps_eq_nil (List.all_eq_true.1 plain x
      (List.mem_eraseIdx_iff_getElem?.2 ⟨k, other, here⟩))
  rw [List.eraseIdx_eq_take_drop_succ, List.flatMap_append, List.append_eq_nil_iff] at others
  rw [← List.take_append_drop i children, List.drop_eq_getElem_cons bound, List.flatMap_append,
    List.flatMap_cons, others.1, others.2, List.append_nil, List.nil_append,
    (List.getElem?_eq_some_iff.1 there).2]

theorem body {c : Fragment}
    (code : (Built.args children).code (i + 1) = .ok c) (here : symbols[i]? = some .statements)
    (plain : (symbols.eraseIdx i).all isPlain = true) :
    ∃ t st, At symbols children .statements t ∧ Outlined t st ∧ c.value = st.print
      ∧ st.jumps = children.flatMap (·.jumps) ∧ st.Marks c.flags := by
  obtain ⟨t, there, ⟨st, renders⟩, value⟩ := below.child here
  rw [Args.code_eq_ok, value] at code
  obtain ⟨text, marks⟩ := renders.code code
  exact ⟨t, st, ⟨i, here, there⟩, renders.outlined, text,
    renders.jumps.trans (below.jumps_eq there plain).symm, marks⟩

end RenderedBelow

/-! ### Nodes -/

section Nodes

variable {symbols : List Symbol} {children : List Built} {v : Value} {c : Fragment} {action : Action}
  {s s' : State}

/-- A statement of a tree may stand in a block after declarations. -/
theorem renders_of_isStmt {production : Production} {st : Stmt}
    (outlined : Outlined (.node production children (.code c)) st) (is : IsStmt st c.value)
    (jumps : st.jumps = children.flatMap (·.jumps)) (marks : st.Marks c.flags) :
    ∃ st, Renders (.node production children (.code c)) st := by
  rw [← Built.jumps_node production children (.code c)] at jumps
  obtain same | ⟨front, same⟩ := is
  · exact ⟨st, outlined, same, jumps, marks⟩
  · refine ⟨_, @Outlined.declared _ front _ outlined, same, jumps, fun j => marks.jumps j, ?_⟩
    rw [Built.code?, Built.value]
    exact marks.returns.trans (by simp [Stmt.marked])

theorem Args.code?_eq {p : Args} {i : Nat} {t : Built} (value : p.value i = t.value) :
    p.code? i = t.code? := by
  cases made : t.value <;> simp [Args.code?, Built.code?, value, made]

theorem RendersBranch.join {further : Bool} {t : Built} (first : RendersBranch further t) {rest : Built}
    {r : Stmt} (are : AreBranches r rest.code?) (value : t.value = .code c) :
    ∃ cond b, Outlined t b ∧ b.jumps = t.jumps
      ∧ (joinBranches c rest.code?).value = (Stmt.branch further cond b r).print
      ∧ (Stmt.branch further cond b r).Marks (joinBranches c rest.code?).flags := by
  obtain ⟨c', body, b, same, is, outlined, text, jumps, marks⟩ := first
  obtain rfl : c' = c := Value.code.inj (same.symm.trans value)
  obtain ⟨cond, joined, joinedMarks⟩ := joinBranches_ok is text marks are
  exact ⟨cond, b, outlined, jumps, joined, joinedMarks⟩

/-- A conditional of a branch and those that follow it. -/
theorem renders_conditional {first rest : Built} {code : Fragment}
    (below : RenderedBelow [.if_block, .elif] [first, rest])
    (value : (Built.args [first, rest]).code 1 = .ok code)
    (made : (conditionalBlock code ((Built.args [first, rest]).code? 2)).run s = .ok c s') :
    ∃ st, Renders (.node ⟨.block, [.if_block, .elif]⟩ [first, rest] (.code c)) st := by
  obtain ⟨_, ⟨⟩, isFirst, -⟩ := below.child (i := 0) rfl
  obtain ⟨_, ⟨⟩, ⟨r, outlined', are, jumps'⟩, second⟩ := below.child (i := 1) rfl
  rw [Args.code?_eq second] at made
  obtain ⟨cond, b, outlined, jumps, text, marks⟩ :=
    RendersBranch.join isFirst are (Args.code_eq_ok.1 value)
  obtain ⟨flags, is⟩ := conditionalBlock_ok made text
  refine renders_of_isStmt (.conditional outlined outlined') is ?_ (flags ▸ marks)
  rw [Stmt.jumps, jumps, jumps']
  simp

theorem withBody_ok {f : Fragment → Fragment → Position → M Fragment} {i j k : Nat} {p : Args}
    (acts : withBody f i j k p s = .ok v s') : ∃ head body c s₁, p.code j = .ok body
      ∧ f head body (p.at_ k) s₁ = .ok c s' ∧ v = .code c := by
  obtain ⟨head, _, -, acts⟩ := M.cut acts
  obtain ⟨body, _, code, acts⟩ := M.cut acts
  obtain ⟨c, _, made, ⟨⟩⟩ := M.cut acts
  exact ⟨head, body, c, _, (Plain.lift_eq_ok.1 code).1, made, rfl⟩

theorem marks_jump (j : Jump) : (Stmt.jump j).Marks [j.flag] := by
  refine ⟨fun k => ?_, by cases j <;> simp [Jump.flag, Stmt.marked]⟩
  cases j <;> cases k <;> simp [Jump.flag, Stmt.reported]

theorem renders_return (below : RenderedBelow (.RETURN :: symbols) children) {exps : List Fragment}
    {at_ : Position} (made : (returnStatement exps at_).run s = .ok c s')
    (fine : s'.codeError = false) (plain : symbols.all isPlain = true) :
    (Built.node ⟨.special_statement, .RETURN :: symbols⟩ children (.code c)).RenderedAs
      .special_statement := by
  obtain ⟨value, text, marks⟩ := returnStatement_ok made fine
  refine ⟨c, .return_ value, rfl, .return_, text, ?_, marks⟩
  rw [Built.jumps_node, below.no_jumps (by rw [List.all_cons, plain]; rfl)]
  rfl

/-- A statement of expressions says nothing about where it is left. -/
theorem plainStatement_calm (sound : Args.Sound .java symbols (Built.args children))
    (run : plainStatement (Built.args children) s = .ok v s') :
    ∀ c, v = .code c → ∀ f ∈ c.flags, f.Calm := by
  rintro c rfl
  obtain ⟨exps, s₁, codes, run⟩ := M.cut run
  obtain ⟨_, _, made, ⟨⟩⟩ := M.cut run
  have := Fact.mk (Args.Sound.codes_ok ⟨_, sound⟩ (Plain.lift_eq_ok.1 codes).1)
  have step (control comment : Option Fragment) (at_ : Position) :
      Expression .java fun _ => finishStatement exps control comment at_ := by
    unfold finishStatement
    infer_instance
  exact (((step _ _ _).concur false s₁ (.java s₁)).2 c s' made).2.2.calm

theorem declareTypes_flags {labels : List Label} {shape : Shape} {at_ : Position}
    (run : (declareTypes labels shape at_).run s = .ok c s') : c.flags = [] := by
  obtain ⟨_, _, -, ⟨⟩⟩ := Plain.cut run
  rfl

variable (below : RenderedBelow symbols children)

include below

theorem renders_plain (plain : symbols.all isPlain = true)
    (calm : ∀ c, v = .code c → ∀ f ∈ c.flags, f.Calm) :
    ∃ st, Renders (.node ⟨.statement_type, symbols⟩ children v) st := by
  refine ⟨.text (Built.node ⟨.statement_type, symbols⟩ children v).statementText, .plain plain, rfl,
    ?_, .of_calm (fun f member => ?_) rfl rfl⟩
  · rw [Built.jumps_node, below.no_jumps plain]
    rfl
  · cases v with
    | code c => exact calm c rfl f member
    | _ => cases member

theorem renders_unmarked (plain : symbols.all isPlain = true) (none : c.flags = []) :
    ∃ st, Renders (.node ⟨.statement_type, symbols⟩ children (.code c)) st := by
  refine renders_plain below plain ?_
  rintro _ ⟨⟩
  simp [none]

theorem renders_loop {i : Nat} {b : Fragment}
    (code : (Built.args children).code (i + 1) = .ok b) (loop : ∃ l, IsLoop l b c)
    (here : symbols[i]? = some .statements) (plain : (symbols.eraseIdx i).all isPlain = true) :
    ∃ st, Renders (.node ⟨.block, symbols⟩ children (.code c)) st := by
  obtain ⟨l, loop⟩ := loop
  obtain ⟨t, st, at_, outlined, text, jumps, marks⟩ := below.body code here plain
  exact renders_of_isStmt (.loop at_ outlined) (loop.text st text) jumps (loop.marks marks)

theorem renders_branch {name : Symbol} {further : Bool}
    {i : Nat} {b : Fragment} (code : (Built.args children).code (i + 1) = .ok b)
    (is : IsBranch further b c) (named : name = .if_block ∨ name = .elif_block)
    (here : symbols[i]? = some .statements) (plain : (symbols.eraseIdx i).all isPlain = true) :
    RendersBranch further (.node ⟨name, symbols⟩ children (.code c)) := by
  obtain ⟨t, st, at_, outlined, text, jumps, marks⟩ := below.body code here plain
  exact ⟨c, b, st, rfl, is, .branch named at_ outlined, text,
    jumps.trans (Built.jumps_node _ _ _).symm, marks⟩

/-- What productions there are, without mappers and reducers. -/
theorem RenderedBelow.fits {x : Symbol} (found : allActions.lookup ⟨x, symbols⟩ = some action) :
    x ∉ jobSymbols ∧ statementFits x symbols = true := by
  have fits := List.all_eq_true.1 all_statementFits _ (OrderedMap.mem_of_lookup found)
  simp only [below.no_job, Bool.false_or, Bool.and_eq_true, Bool.not_eq_true'] at fits
  refine ⟨fun member => ?_, fits.2⟩
  rw [List.contains_iff_mem.2 member] at fits
  cases fits.1

variable (acts : action.run (Built.args children) s = .ok v s')

include acts

theorem block_rendered (found : allActions.lookup ⟨.block, symbols⟩ = some action) :
    ∃ st, Renders (.node ⟨.block, symbols⟩ children v) st := by
  have fits := (below.fits found).2
  simp only [statementFits, List.contains_iff_mem, List.mem_cons, List.not_mem_nil, or_false] at fits
  obtain rfl | rfl | rfl | rfl | rfl | rfl | rfl := fits
  · obtain ⟨first, rest, rfl, -, -⟩ := eq_pair below.kinds
    cases found
    obtain ⟨code, _, value, acts⟩ := Plain.cut acts
    obtain ⟨c, _, made, ⟨⟩⟩ := Plain.cut acts
    exact renders_conditional below (Plain.lift_eq_ok.1 value).1 made
  · cases found
    obtain ⟨cond, body, c, _, code, made, rfl⟩ := withBody_ok acts
    exact renders_loop below code (whileLoop_ok made) rfl rfl
  · cases found
    obtain ⟨cond, body, c, _, code, made, rfl⟩ := withBody_ok acts
    exact renders_loop below code (untilLoop_ok made) rfl rfl
  · cases found
    obtain ⟨cond, body, c, _, code, made, rfl⟩ := withBody_ok acts
    exact renders_loop below code (doWhileLoop_ok made) rfl rfl
  · cases found
    obtain ⟨cond, body, c, _, code, made, rfl⟩ := withBody_ok acts
    exact renders_loop below code (doUntilLoop_ok made) rfl rfl
  · cases found
    obtain ⟨init, _, -, acts⟩ := M.cut acts
    obtain ⟨conds, _, -, acts⟩ := M.cut acts
    obtain ⟨steps, _, -, acts⟩ := M.cut acts
    obtain ⟨body, _, code, acts⟩ := M.cut acts
    obtain ⟨c, _, made, ⟨⟩⟩ := M.cut acts
    exact renders_loop below (Plain.lift_eq_ok.1 code).1 (forLoop_ok made) rfl rfl
  · cases found
    obtain ⟨head, _, first, acts⟩ := M.cut acts
    obtain ⟨body, _, code, acts⟩ := M.cut acts
    obtain ⟨c, _, made, ⟨⟩⟩ := M.cut acts
    obtain ⟨t, -, ⟨-, isHead⟩, value⟩ := below.child (i := 0) rfl
    have first := Args.code_eq_ok.1 (Plain.lift_eq_ok.1 first).1
    obtain ⟨x, there, -, calm⟩ := below.sound.of_value first (by simp)
    cases there
    exact renders_loop below (Plain.lift_eq_ok.1 code).1
      (foreachLoop_ok (calm (by decide)) (isHead head (value.symm.trans first)) made) rfl rfl

theorem if_block_rendered (found : allActions.lookup ⟨.if_block, symbols⟩ = some action) :
    RendersBranch false (.node ⟨.if_block, symbols⟩ children v) := by
  have fits := (below.fits found).2
  simp only [statementFits, List.contains_iff_mem, List.mem_cons, List.not_mem_nil, or_false] at fits
  obtain rfl | rfl := fits
  · cases found
    obtain ⟨cond, body, c, _, code, made, rfl⟩ := withBody_ok acts
    exact renders_branch below code (ifBranch_ok made) (.inl rfl) rfl rfl
  · cases found
    obtain ⟨cond, body, c, _, code, made, rfl⟩ := withBody_ok acts
    exact renders_branch below code (unlessBranch_ok made) (.inl rfl) rfl rfl

theorem elif_block_rendered (found : allActions.lookup ⟨.elif_block, symbols⟩ = some action) :
    RendersBranch true (.node ⟨.elif_block, symbols⟩ children v) := by
  have fits := (below.fits found).2
  simp only [statementFits, beq_iff_eq] at fits
  subst fits
  cases found
  obtain ⟨cond, body, c, _, code, made, rfl⟩ := withBody_ok acts
  exact renders_branch below code (elsifBranch_ok made) (.inr rfl) rfl rfl

theorem elif_rendered (found : allActions.lookup ⟨.elif, symbols⟩ = some action) :
    (Built.node ⟨.elif, symbols⟩ children v).RenderedAs .elif := by
  have fits := (below.fits found).2
  simp only [statementFits, List.contains_iff_mem, List.mem_cons, List.not_mem_nil, or_false] at fits
  obtain rfl | rfl | rfl := fits
  · obtain rfl := List.map_eq_nil_iff.1 below.kinds
    cases found
    cases acts
    exact ⟨.done, .done, rfl, rfl⟩
  · obtain ⟨header, first, rest, rfl⟩ : ∃ t u w, children = [t, u, w] := by
      have length := congrArg List.length below.kinds
      simpa [List.length_eq_three] using length
    cases found
    obtain ⟨code, _, value, ⟨⟩⟩ := Plain.cut acts
    obtain ⟨_, ⟨⟩, noJumps, -⟩ := below.child (i := 0) rfl
    obtain ⟨_, ⟨⟩, isFirst, -⟩ := below.child (i := 1) rfl
    obtain ⟨_, ⟨⟩, ⟨r, outlined', are, jumps'⟩, third⟩ := below.child (i := 2) rfl
    rw [Args.code?_eq third]
    obtain ⟨cond, b, outlined, jumps, text, marks⟩ :=
      RendersBranch.join isFirst are (Args.code_eq_ok.1 (Plain.lift_eq_ok.1 value).1)
    refine ⟨.branch true cond b r, .further outlined outlined', ⟨rfl, text, marks⟩, ?_⟩
    have none : header.jumps = [] := noJumps
    rw [Stmt.jumps, jumps, jumps', Built.jumps_node]
    simp [none]
  · cases found
    obtain ⟨body, _, code, acts⟩ := M.cut acts
    obtain ⟨c, _, made, ⟨⟩⟩ := M.cut acts
    obtain ⟨t, st, at_, outlined, text, jumps, marks⟩ :=
      below.body (Plain.lift_eq_ok.1 code).1 rfl rfl
    obtain ⟨flags, value⟩ := elseBranch_ok made
    rw [text] at value
    refine ⟨.otherwise st, .otherwise at_ outlined, ⟨rfl, value, ?_⟩,
      jumps.trans (Built.jumps_node _ _ _).symm⟩
    rw [flags]
    exact ⟨marks.jumps, marks.returns⟩

theorem for_each_rendered
    (found : allActions.lookup ⟨.for_each, symbols⟩ = some action) (fine : s'.codeError = false) :
    (Built.node ⟨.for_each, symbols⟩ children v).RenderedAs .for_each := by
  have fits := (below.fits found).2
  simp only [statementFits, List.contains_iff_mem, List.mem_cons, List.not_mem_nil, or_false] at fits
  refine ⟨(Built.jumps_node _ _ _).trans (below.no_jumps ?_), fun c value => ?_⟩
  · obtain rfl | rfl := fits <;> rfl
  obtain rfl : v = .code c := value
  obtain rfl | rfl := fits
  · cases found
    obtain ⟨variable_, _, -, acts⟩ := M.cut acts
    obtain ⟨exp, _, -, acts⟩ := M.cut acts
    obtain ⟨c, _, made, ⟨⟩⟩ := M.cut acts
    exact foreachHead_ok made fine
  · cases found
    obtain ⟨exp, _, -, acts⟩ := Plain.cut acts
    obtain ⟨c, _, made, ⟨⟩⟩ := Plain.cut acts
    exact repeatHead_ok made fine

theorem special_statement_rendered
    (found : allActions.lookup ⟨.special_statement, symbols⟩ = some action) (fine : s'.codeError = false) :
    (Built.node ⟨.special_statement, symbols⟩ children v).RenderedAs .special_statement := by
  have fits := (below.fits found).2
  simp only [statementFits, List.contains_iff_mem, List.mem_cons, List.not_mem_nil, or_false] at fits
  obtain rfl | rfl | rfl | rfl | rfl := fits
  · obtain ⟨t, rfl⟩ := List.length_eq_one_iff.1 (by simpa using congrArg List.length below.kinds)
    obtain ⟨_, ⟨⟩, jumps, -⟩ := below.child (i := 0) rfl
    cases found
    cases acts
    exact ⟨_, .jump .break_, rfl, .last, rfl, (Built.jumps_single jumps).symm, marks_jump _⟩
  · obtain ⟨t, rfl⟩ := List.length_eq_one_iff.1 (by simpa using congrArg List.length below.kinds)
    obtain ⟨_, ⟨⟩, jumps, -⟩ := below.child (i := 0) rfl
    cases found
    cases acts
    exact ⟨_, .jump .continue_, rfl, .next, rfl, (Built.jumps_single jumps).symm, marks_jump _⟩
  · cases found
    obtain ⟨exps, _, -, acts⟩ := Plain.cut acts
    obtain ⟨c, _, made, ⟨⟩⟩ := Plain.cut acts
    exact renders_return below made fine rfl
  · cases found
    obtain ⟨exps, _, -, acts⟩ := Plain.cut acts
    split at acts
    · obtain ⟨c, _, made, ⟨⟩⟩ := Plain.cut acts
      exact renders_return below made fine rfl
    · cases acts
  · cases found
    obtain ⟨c, _, made, ⟨⟩⟩ := Plain.cut acts
    exact renders_return below made fine rfl

theorem statements_rendered (found : allActions.lookup ⟨.statements, symbols⟩ = some action) :
    ∃ st, Renders (.node ⟨.statements, symbols⟩ children v) st := by
  have fits := (below.fits found).2
  simp only [statementFits, List.contains_iff_mem, List.mem_cons, List.not_mem_nil, or_false] at fits
  obtain rfl | rfl := fits
  · obtain rfl := List.map_eq_nil_iff.1 below.kinds
    cases found
    cases acts
    exact ⟨.text "", .empty, rfl, rfl, .of_calm (by simp [Built.code?, Built.value]) rfl rfl⟩
  · obtain ⟨row, last, rfl, -, -⟩ := eq_pair below.kinds
    obtain ⟨_, ⟨⟩, ⟨a, first⟩, -⟩ := below.child (i := 0) rfl
    obtain ⟨_, ⟨⟩, ⟨b, second⟩, value⟩ := below.child (i := 1) rfl
    cases found
    obtain ⟨c, _, code, acts⟩ := Plain.cut acts
    obtain ⟨all, _, made, ⟨⟩⟩ := Plain.cut acts
    obtain ⟨text, marks⟩ := first.code (Args.code_eq_ok.1 (Plain.lift_eq_ok.1 code).1)
    rw [Args.code?_eq value] at made
    obtain ⟨joined, flags⟩ := appendStatement_ok made
    refine ⟨.seq a b, .more first.outlined second.outlined, ?_, ?_, fun j => ?_, ?_⟩
    · have lastText : last.code?.elim "" (·.value) = b.print := by
        rw [← second.text, Built.code?, Built.statementText]
        cases last.value <;> rfl
      change all.value = _
      rw [joined, lastText, text, Stmt.print]
    · rw [Stmt.jumps, first.jumps, second.jumps, Built.jumps_node]
      simp
    · exact (flags _).trans
        ((or_congr (marks.jumps j) (second.marks.jumps j)).trans List.mem_append.symm)
    · refine (flags _).trans ((or_congr marks.returns second.marks.returns).trans ?_)
      rw [Stmt.marked, Bool.or_eq_true]

theorem statement_type_rendered
    (found : allActions.lookup ⟨.statement_type, symbols⟩ = some action) :
    ∃ st, Renders (.node ⟨.statement_type, symbols⟩ children v) st := by
  have fits := (below.fits found).2
  simp only [statementFits, List.contains_iff_mem, List.mem_cons, List.not_mem_nil, or_false] at fits
  obtain rfl | rfl | rfl | rfl | rfl | rfl | rfl | rfl | rfl | rfl | rfl | rfl | rfl | rfl := fits
  · cases found
    exact renders_plain below rfl (plainStatement_calm below.sound acts)
  · cases found
    exact renders_plain below rfl (plainStatement_calm below.sound acts)
  · obtain ⟨special, semi, rfl, -, -⟩ := eq_pair below.kinds
    obtain ⟨_, ⟨⟩, ⟨c, st, value, outlined, text, jumps, marks⟩, -⟩ := below.child (i := 0) rfl
    cases found
    obtain ⟨c', _, code, ⟨⟩⟩ := Plain.cut acts
    have code : special.value = .code c' := Args.code_eq_ok.1 (Plain.lift_eq_ok.1 code).1
    obtain rfl : c' = c := Value.code.inj (code.symm.trans value)
    refine ⟨st, .special outlined, text, ?_, marks⟩
    rw [jumps, Built.jumps_node, below.jumps_eq (i := 0) rfl rfl]
  · obtain ⟨header, block, rfl, -, -⟩ := eq_pair below.kinds
    obtain ⟨_, ⟨⟩, ⟨st, renders⟩, -⟩ := below.child (i := 1) rfl
    cases found
    cases acts
    refine ⟨st, .headed renders.outlined, renders.text, ?_, renders.marks⟩
    rw [renders.jumps, Built.jumps_node, below.jumps_eq (i := 1) rfl rfl]
  · cases found
    obtain ⟨body, _, code, acts⟩ := M.cut acts
    obtain ⟨c, _, made, ⟨⟩⟩ := M.cut acts
    obtain ⟨t, st, at_, outlined, text, jumps, marks⟩ :=
      below.body (Plain.lift_eq_ok.1 code).1 rfl rfl
    obtain ⟨flags, value⟩ := plainBlock_ok made
    rw [text] at value
    refine renders_of_isStmt (.block at_ outlined) (.inl value) jumps ?_
    rw [flags]
    exact ⟨marks.jumps, marks.returns⟩
  · cases found
    obtain ⟨_, _, -, ⟨⟩⟩ := Plain.cut acts
    exact renders_unmarked below rfl rfl
  · cases found
    cases acts
    refine renders_plain below rfl fun c value => ?_
    obtain ⟨x, there, -, calm⟩ := below.sound.of_value value (by simp)
    cases there
    exact calm (by decide)
  · cases found
    obtain ⟨_, _, -, acts⟩ := Plain.cut acts
    obtain ⟨_, _, -, ⟨⟩⟩ := Plain.cut acts
    exact renders_unmarked below rfl rfl
  · cases found
    obtain ⟨_, _, -, ⟨⟩⟩ := Plain.cut acts
    exact renders_unmarked below rfl rfl
  · cases found
    obtain ⟨_, _, -, acts⟩ := Plain.cut acts
    obtain ⟨_, _, -, ⟨⟩⟩ := Plain.cut acts
    exact renders_unmarked below rfl rfl
  · cases found
    cases acts
    exact renders_unmarked below rfl rfl
  · cases found
    obtain ⟨labels, _, -, acts⟩ := Plain.cut acts
    obtain ⟨type, _, -, acts⟩ := Plain.cut acts
    obtain ⟨c, _, made, ⟨⟩⟩ := Plain.cut acts
    exact renders_unmarked below rfl (declareTypes_flags made)
  all_goals
    cases found
    obtain ⟨labels, _, -, acts⟩ := Plain.cut acts
    obtain ⟨dims, _, -, acts⟩ := Plain.cut acts
    obtain ⟨type, _, -, acts⟩ := Plain.cut acts
    obtain ⟨c, _, made, ⟨⟩⟩ := Plain.cut acts
    exact renders_unmarked below rfl (declareTypes_flags made)

/-- Code that has been made of trees without jobs is what that of its symbol is. -/
theorem node_rendered {x : Symbol}
    (found : allActions.lookup ⟨x, symbols⟩ = some action) (fine : s'.codeError = false) :
    (Built.node ⟨x, symbols⟩ children v).Rendered := by
  intro y kind
  obtain rfl : x = y := Perl.Symbol.text_injective _ _ kind
  obtain ⟨noJob, fits⟩ := below.fits found
  cases plain : isPlain x with
  | true =>
    by_cases head : x = .for_each
    · subst head
      exact for_each_rendered below acts found fine
    · refine .of_plain plain noJob head ((Built.jumps_node _ _ _).trans (below.no_jumps ?_))
      unfold statementFits at fits
      split at fits
      case h_11 => simpa [plain] using fits
      all_goals first | exact absurd rfl head | cases plain
  | false =>
    have control : x ∈ controlSymbols := by simpa [isPlain] using plain
    simp only [controlSymbols, List.mem_cons, List.not_mem_nil, or_false] at control
    obtain rfl | rfl | rfl | rfl | rfl | rfl | rfl | rfl | rfl | rfl | rfl | rfl | rfl := control
    · cases fits
    · cases fits
    · exact special_statement_rendered below acts found fine
    · exact statement_type_rendered below acts found
    · exact statements_rendered below acts found
    · exact block_rendered below acts found
    · exact if_block_rendered below acts found
    · exact elif_rendered below acts found
    · exact elif_block_rendered below acts found
    all_goals trivial

end Nodes

/-! ### Trees -/

theorem told_named : ((controlSymbols ++ jobSymbols ++ [Symbol.for_each]).filter fun x =>
    !([Symbol.LAST, .NEXT] ++ jobWords).contains x).all Perl.named = true := by
  decide

theorem token_rendered {t : Token} (terminal : Terminal t.kind)
    (jobless : ∀ x ∈ jobWords, t.kind ≠ x.text) : (Built.token t).Rendered := by
  intro x kind
  have alone : (Built.token t).jumps = (jumpOf? t).toList := by
    rw [Built.jumps, Built.tokens, List.filterMap_cons, List.filterMap_nil]
    cases jumpOf? t <;> rfl
  have kind : t.kind = x.text := kind
  have noName := Perl.not_mem_of_terminal told_named fun n rule found same =>
    terminal n rule found (by rw [same]; exact kind.symm)
  by_cases last : x = .LAST
  · subst last
    rw [Built.RenderedAs, alone, jumpOf?, if_pos kind]
    rfl
  by_cases next : x = .NEXT
  · subst next
    rw [Built.RenderedAs, alone, jumpOf?, if_neg (by rw [kind]; decide), if_pos kind]
    rfl
  have noWord : x ∉ jobWords := fun member => jobless x member kind
  have plain : x ∉ controlSymbols ++ jobSymbols ++ [.for_each] := fun member =>
    noName (List.mem_filter.2 ⟨member, by simp [last, next, noWord]⟩)
  simp only [List.mem_append, not_or, List.mem_singleton] at plain
  refine .of_plain (by simp [isPlain, plain.1.1]) plain.1.2 plain.2 ?_
  have other {y : Symbol} (differs : x ≠ y) : t.kind ≠ y.text := fun same =>
    differs (Perl.Symbol.text_injective _ _ (kind.symm.trans same))
  rw [alone, jumpOf?, if_neg (other last), if_neg (other next)]
  rfl

/-- Trees that are formed without errors and without jobs are what those of their symbols are. -/
theorem Forms.rendered {ts : List Built} {s s' : State} {read : List Token} (forms : Forms ts s read s')
    (ordinary : ∀ t ∈ Built.allTokens ts, Ordinary t) (fine : s'.codeError = false) :
    ∀ t ∈ ts, SoundSymbol .java t.symbol ∧ t.Rendered := by
  induction forms with
  | nothing => exact fun _ => (absurd · List.not_mem_nil)
  | token terminal _ ih =>
    rw [Built.allTokens, Built.tokens] at ordinary
    obtain ⟨⟨readable, noJob⟩, others⟩ := List.forall_mem_cons.1 ordinary
    exact List.forall_mem_cons.2
      ⟨⟨soundSymbol_ahead (.token readable), token_rendered terminal noJob⟩, ih others fine⟩
  | @node production action children ts v _ s₁ s₂ _ _ _ below kinds found acts rest ih ih' =>
    rw [Built.allTokens, Built.tokens] at ordinary
    have fineHere := rest.fine fine
    have fineBelow : s₁.codeError = false :=
      (action.does (Built.args children)).candid.fine acts fineHere
    have inner := ih (fun t member => ordinary t (List.mem_append_left _ member)) fineBelow
    have sound := sound_builtArgs kinds fun t member => (inner t member).1
    have rendered := fun t member => (inner t member).2
    refine List.forall_mem_cons.2 ⟨⟨fun x kind => ?_,
      node_rendered ⟨kinds, rendered, sound⟩ acts found fineHere⟩, ?_⟩
    · obtain rfl : production.name = x := Perl.Symbol.text_injective _ _ kind
      exact (run_spelt found sound (.java s₁) acts (fun _ _ => .java _) fun _ _ => .java _).2.2.2
    · exact ih' (fun t member => ordinary t (List.mem_append_right _ member)) fine

end PerlJava.Compile
