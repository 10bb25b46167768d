import PerlJava.Proofs.Compile.ParsedTree
import PerlJava.Proofs.Compile.StepLogic

/-!
# The order of the emitted code

The grammar of a file is recursive to the right, and each of its parts puts code in front of what the
class has so far. So the code of the class has the parts in the order in which they are written: its
functions are the texts of the functions of the file, and what is outside of them are the texts of
its statements, each of them once.
-/

namespace PerlJava.Compile

open Java (Fragment)
open Perl (Symbol rules)

/-! ### The parts of a file -/

/-- The symbols that stand for a file or a row of its parts. -/
def groupings : List Symbol :=
  [.file, .code, .function, .statements]

namespace Built

mutual

/-- The parts of a tree: the trees inside that group no others, from left to right. -/
def parts : Built → List Built
  | token t => [token t]
  | node production children value =>
    if groupings.contains production.name then allParts children
    else [node production children value]

def allParts : List Built → List Built
  | [] => []
  | t :: ts => t.parts ++ allParts ts

end

mutual

theorem allTokens_parts : (t : Built) → allTokens t.parts = t.tokens
  | token t => by rw [parts, allTokens_singleton]
  | node production children value => by
    rw [parts]
    split
    · rw [allTokens_allParts children, tokens]
    · exact allTokens_singleton _

theorem allTokens_allParts : (ts : List Built) → allTokens (allParts ts) = allTokens ts
  | [] => rfl
  | t :: ts => by
    rw [allParts, allTokens_append, allTokens_parts t, allTokens_allParts ts, allTokens]

end

def isFunction (t : Built) : Bool :=
  t.kind == Symbol.function_body.text

def functionText (t : Built) : String :=
  match t.value with
  | .text text => text
  | _ => ""

def statementText (t : Built) : String :=
  match t.value with
  | .code c => c.value
  | _ => ""

/-- The texts of the functions among some parts, one after the other. -/
def functionTexts (ts : List Built) : String :=
  String.join ((ts.filter (·.isFunction)).map (·.functionText))

/-- The texts of the statements among some parts, one after the other. -/
def statementTexts (ts : List Built) : String :=
  String.join ((ts.filter (!·.isFunction)).map (·.statementText))

theorem functionTexts_append (ts us : List Built) :
    functionTexts (ts ++ us) = functionTexts ts ++ functionTexts us := by
  rw [functionTexts, List.filter_append, List.map_append, String.join_append]
  rfl

theorem statementTexts_append (ts us : List Built) :
    statementTexts (ts ++ us) = statementTexts ts ++ statementTexts us := by
  rw [statementTexts, List.filter_append, List.map_append, String.join_append]
  rfl

end Built

/-! ### Nodes -/

/-- What is known about a node that has been formed. -/
structure Formed (x : Symbol) (symbols : List Symbol) (children : List Built) (v : Value)
    (s s' : State) : Prop where
  kinds : children.map (·.kind) = symbols.map (·.text)
  made : ∃ action s₁ s₂ before after, Forms children s before s₁
    ∧ allActions.lookup ⟨x, symbols⟩ = some action
    ∧ action.run (Built.args children) s₁ = .ok v s₂ ∧ Reads s₂ after s'

variable {t : Built} {s s' : State} {read : List Token}

theorem Forms.node_of_kind {x : Symbol}
    (forms : Forms [t] s read s') (kind : t.kind = x.text) (named : Perl.named x = true) :
    ∃ symbols children v, t = .node ⟨x, symbols⟩ children v
      ∧ Formed x symbols children v s s' := by
  cases forms with
  | token terminal _ =>
    have absent := @Perl.not_mem_of_terminal x [x] (by simp [named]) fun n rule found same =>
      terminal n rule found (by rw [same]; exact kind.symm)
    exact absurd List.mem_cons_self absent
  | @node production action children _ v _ s₁ s₂ _ before after below kinds found acts rest =>
    cases rest with
    | nothing reads =>
      obtain ⟨name, symbols⟩ := production
      obtain rfl : name = x := Perl.Symbol.text_injective _ _ kind
      exact ⟨symbols, children, v, rfl, kinds, action, s₁, s₂, before, after, below, found, acts,
        reads⟩

/-! ### Code that is kept -/

/-- While only tokens are read, all that most steps can see stays as it is. -/
theorem Reads.veiled (reads : Reads s read s') :
    s'.veiled = s.veiled := by
  have : Untold State.veiled := ⟨fun _ _ => rfl⟩
  have tells (notices : List Perl.Notice) (token : Option Token) :
      Preserves State.veiled (tell notices token) := by
    unfold tell print
    exact .walk
  induction reads with
  | nothing => rfl
  | token next _ ih =>
    obtain ⟨reading, s₁, advanced, told⟩ := M.cut next
    obtain ⟨_, s₂, told, ⟨⟩⟩ := M.cut told
    unfold advance at advanced
    split at advanced <;> cases advanced
    have kept := tells reading.notices reading.token _ _ _ told
    exact ih.trans kept
  | trace written _ ih =>
    cases written
    exact ih

/-- While only tokens are read, what most steps can see of a state stays as it is. -/
theorem Reads.same {α : Type} (reads : Reads s read s')
    (view : State → α) (visible : ∀ s : State, view s.veiled = view s) : view s' = view s := by
  rw [← visible s', reads.veiled, visible]

/-- The symbols around the parts of a file that are not in a block. -/
def outermost : List Symbol :=
  [.file, .code, .function]

def jobHeads : List Symbol :=
  [.mapper_init, .reducer_init]

/-- The labels that heads of mappers and reducers start with. -/
def jobLabels : List Symbol :=
  [.MAPPER_CODE, .REDUCER_CODE]

def JobFree (tokens : List Token) : Prop :=
  ∀ t ∈ tokens, ∀ x ∈ jobLabels, t.kind ≠ x.text

/-- Whether an effect that may write code belongs to a production of the outermost symbols or of a
job, which has a label; no other production has an outermost symbol inside. -/
def writesFit (e : Effect) (name : Symbol) (symbols : List Symbol) : Bool :=
  (!e.writesCode || outermost.contains name || symbols.any jobHeads.contains)
    && (outermost.contains name || !symbols.any outermost.contains)
    && (!jobHeads.contains name || symbols.any jobLabels.contains)
    && !jobLabels.contains name

theorem all_writesFit : allActions.all
    (fun (rule, action) => writesFit action.effect rule.name rule.symbols) = true := by
  decide +kernel

section Written

variable {ts : List Built} {s s' : State} {read : List Token}

theorem Forms.of_mem (forms : Forms ts s read s') {t : Built} (member : t ∈ ts) :
    ∃ s₁ s₂ some_, Forms [t] s₁ some_ s₂ := by
  obtain ⟨before, after, rfl⟩ := List.append_of_mem member
  obtain ⟨_, _, s₁, -, -, rest⟩ := forms.split
  rw [← List.singleton_append] at rest
  obtain ⟨_, _, s₂, -, one, -⟩ := rest.split
  exact ⟨s₁, s₂, _, one⟩

theorem Built.mem_allTokens {t : Built} (member : t ∈ ts) {token : Token} (inside : token ∈ t.tokens) :
    token ∈ Built.allTokens ts := by
  obtain ⟨before, after, rfl⟩ := List.append_of_mem member
  rw [allTokens_append, allTokens]
  exact List.mem_append_right _ (List.mem_append_left _ inside)

/-- Some tree is for a symbol that is among those of a production. -/
theorem exists_of_kinds {symbols : List Symbol} (kinds : ts.map (·.kind) = symbols.map (·.text))
    {x : Symbol} (member : x ∈ symbols) : ∃ t ∈ ts, t.kind = x.text :=
  List.mem_map.1 (kinds ▸ List.mem_map_of_mem member)

theorem Forms.not_jobFree (forms : Forms ts s read s') {t : Built} (member : t ∈ ts)
    {x : Symbol} (head : x ∈ jobHeads) (kind : t.kind = x.text) :
    ¬JobFree (Built.allTokens ts) := by
  intro free
  have named : jobHeads.all Perl.named = true := by decide
  obtain ⟨s₁, s₂, _, one⟩ := forms.of_mem member
  obtain ⟨symbols, children, v, rfl, kinds, action, _, _, _, _, below, found, -⟩ :=
    one.node_of_kind kind (List.all_eq_true.1 named x head)
  have fits := check_listed all_writesFit found
  simp only [writesFit, Bool.and_eq_true] at fits
  obtain ⟨⟨-, labelled⟩, -⟩ := fits
  have labelled : symbols.any jobLabels.contains = true := by simpa [head] using labelled
  obtain ⟨y, inside, label⟩ := List.any_eq_true.1 labelled
  obtain ⟨u, child, isLabel⟩ := exists_of_kinds kinds inside
  obtain ⟨_, _, _, leaf⟩ := below.of_mem child
  cases leaf with
  | @token token =>
    refine free token (Built.mem_allTokens member (Built.mem_allTokens child ?_)) y
      (List.contains_iff_mem.1 label) isLabel
    exact List.mem_cons_self
  | @node production _ _ _ _ _ _ _ _ _ _ _ _ listed =>
    have fits := check_listed all_writesFit listed
    obtain rfl : production.name = y := Perl.Symbol.text_injective _ _ isLabel
    simp only [writesFit, label, Bool.not_true, Bool.and_false, Bool.false_eq_true] at fits

theorem Forms.written (forms : Forms ts s read s') (free : JobFree (Built.allTokens ts))
    (inner : ∀ t ∈ ts, ∀ x ∈ outermost, t.kind ≠ x.text) : s'.written = s.written := by
  induction forms with
  | nothing reads =>
    exact reads.same State.written fun _ => rfl
  | token _ _ ih =>
    refine ih (fun t member => free t ?_) fun t member => inner t (List.mem_cons_of_mem _ member)
    rw [Built.allTokens]
    exact List.mem_append_right _ member
  | @node production action children ts v s s₁ s₂ s' _ _ below kinds found acts rest ih ih' =>
    rw [Built.allTokens] at free
    have freeBelow : JobFree (Built.allTokens children) := fun t member =>
      free t (List.mem_append_left _ member)
    have fits := check_listed all_writesFit found
    have notOuter : outermost.contains production.name = false := by
      refine Bool.eq_false_iff.2 fun outer => ?_
      exact inner _ List.mem_cons_self _ (List.contains_iff_mem.1 outer) rfl
    simp only [writesFit, notOuter, Bool.or_false, Bool.false_or, Bool.and_eq_true,
      Bool.not_eq_true'] at fits
    obtain ⟨⟨⟨writes, inside⟩, -⟩, -⟩ := fits
    have noJob : production.symbols.any jobHeads.contains = false := by
      refine Bool.eq_false_iff.2 fun job => ?_
      obtain ⟨x, member, head⟩ := List.any_eq_true.1 job
      obtain ⟨t, child, kind⟩ := exists_of_kinds kinds member
      exact below.not_jobFree child (List.contains_iff_mem.1 head) kind freeBelow
    have silent : action.effect.writesCode = false := by simpa [noJob] using writes
    have kept : s₂.written = s₁.written := by
      have kept := (action.does (Built.args children)).code silent s₁
      rwa [acts] at kept
    have first : s₁.written = s.written := by
      refine ih freeBelow fun t child x outer kind => ?_
      obtain ⟨y, member, same⟩ := List.mem_map.1 (kinds ▸ List.mem_map_of_mem child)
      obtain rfl : y = x := Perl.Symbol.text_injective _ _ (same.trans kind)
      exact Bool.eq_false_iff.1 inside
        (List.any_eq_true.2 ⟨y, member, List.contains_iff_mem.2 outer⟩)
    have last := ih' (fun t member => free t (List.mem_append_right _ member)) fun t member =>
      inner t (List.mem_cons_of_mem _ member)
    exact last.trans (kept.trans first)

end Written

/-! ### The rows of parts -/

/-- The productions of the symbols that group parts, and of functions. -/
def groupFits (name : Symbol) (symbols : List Symbol) : Bool :=
  match name with
  | .file => symbols == [.code]
  | .code => symbols == [.statements, .function]
  | .function => symbols == [] || symbols == [.function_body, .code]
  | .function_body => symbols == [.function_header, .LBRACE, .statements, .RBRACE]
  | .statements => symbols == [] || symbols == [.statements, .statement_type]
  | _ => true

theorem all_groupFits : allActions.all
    (fun (rule, _) => groupFits rule.name rule.symbols) = true := by
  decide +kernel

section Rows

variable {s s' : State} {read : List Token}

/-- One more statement adds its text and its marks. -/
theorem appendStatement_ok {statements all : Fragment} {statement : Option Fragment}
    (run : (appendStatement statements statement).run s = .ok all s') :
    all.value = statements.value ++ statement.elim "" (·.value)
      ∧ ∀ f, f ∈ all.flags ↔ f ∈ statements.flags ∨ f ∈ statement.elim [] (·.flags) := by
  unfold appendStatement at run
  cases statement with
  | none =>
    cases run
    exact ⟨(String.append_empty).symm, by simp⟩
  | some st =>
    simp only at run
    obtain ⟨_, _, ⟨⟩, run⟩ := Plain.cut run
    split at run
    · obtain ⟨_, _, -, ⟨⟩⟩ := Plain.cut run
      exact ⟨rfl, fun _ => Java.Flag.mem_union⟩
    · cases run
      exact ⟨rfl, fun _ => Java.Flag.mem_union⟩

variable {t : Built} {x : Symbol} {ts : List Built}

theorem Forms.fits_of_kind (forms : Forms [t] s read s') (kind : t.kind = x.text)
    (named : Perl.named x = true) : ∃ symbols children v, t = .node ⟨x, symbols⟩ children v
      ∧ groupFits x symbols = true ∧ Formed x symbols children v s s' := by
  obtain ⟨symbols, children, v, rfl, formed⟩ := forms.node_of_kind kind named
  obtain ⟨-, action, _, _, _, _, -, found, -⟩ := id formed
  exact ⟨symbols, children, v, rfl,
    List.all_eq_true.1 all_groupFits _ (OrderedMap.mem_of_lookup found), formed⟩

theorem parts_of_group {symbols : List Symbol} {children : List Built} {v : Value}
    (group : x ∈ groupings) :
    (Built.node ⟨x, symbols⟩ children v).parts = Built.allParts children := by
  rw [Built.parts, if_pos (List.contains_iff_mem.2 group)]

theorem allParts_pair (t u : Built) : Built.allParts [t, u] = t.parts ++ u.parts := by
  rw [Built.allParts, Built.allParts, Built.allParts, List.append_nil]

theorem Forms.group (forms : Forms [t] s read s') (kind : t.kind = x.text) (group : x ∈ groupings) :
    ∃ symbols children v, t = .node ⟨x, symbols⟩ children v ∧ t.parts = Built.allParts children
      ∧ groupFits x symbols = true ∧ Formed x symbols children v s s' := by
  have named : groupings.all Perl.named = true := by decide
  obtain ⟨symbols, children, v, rfl, fits⟩ :=
    forms.fits_of_kind kind (List.all_eq_true.1 named x group)
  exact ⟨symbols, children, v, rfl, parts_of_group group, fits⟩

theorem Forms.pair {u : Built} (forms : Forms [t, u] s read s') :
    ∃ s₁ first second, Forms [t] s first s₁ ∧ Forms [u] s₁ second s' := by
  rw [← List.singleton_append] at forms
  obtain ⟨first, second, s₁, -, one, other⟩ := forms.split
  exact ⟨s₁, first, second, one, other⟩

theorem eq_pair {y : Symbol} (kinds : ts.map (·.kind) = [x, y].map (·.text)) :
    ∃ t u, ts = [t, u] ∧ t.kind = x.text ∧ u.kind = y.text := by
  obtain ⟨t, rest, rfl, first, kinds⟩ := List.map_eq_cons_iff.1 kinds
  obtain ⟨u, rest, rfl, second, kinds⟩ := List.map_eq_cons_iff.1 kinds
  obtain rfl := List.map_eq_nil_iff.1 kinds
  exact ⟨t, u, rfl, first, second⟩

theorem Built.parts_of_kind (kind : t.kind = x.text) (other : x ∉ groupings) :
    t.parts = [t] := by
  cases t with
  | token t => rfl
  | node production children v =>
    obtain rfl : production.name = x := Perl.Symbol.text_injective _ _ kind
    rw [parts, if_neg fun group => other (List.contains_iff_mem.1 group)]

theorem statements_value (t : Built) {s s' : State} {read : List Token}
    (kind : t.kind = Symbol.statements.text) (forms : Forms [t] s read s') :
    ∃ c, t.value = .code c ∧ c.value = String.join (t.parts.map (·.statementText))
      ∧ ∀ x ∈ t.parts, x.kind = Symbol.statement_type.text := by
  obtain ⟨symbols, children, v, rfl, parts, fits, kinds, action, s₁, s₂, _, _, below, found, acts, -⟩ :=
    forms.group kind (by decide)
  rw [parts]
  obtain rfl | rfl : symbols = [] ∨ symbols = [.statements, .statement_type] := by
    simpa [groupFits] using fits
  · obtain rfl := List.map_eq_nil_iff.1 kinds
    cases found
    cases acts
    exact ⟨{}, rfl, rfl, fun _ => (absurd · List.not_mem_nil)⟩
  · obtain ⟨row, last, rfl, rowKind, lastKind⟩ := eq_pair kinds
    obtain ⟨_, _, _, first, -⟩ := below.pair
    obtain ⟨c, value, text, all⟩ := statements_value row rowKind first
    have lastParts : last.parts = [last] := Built.parts_of_kind lastKind (by decide)
    cases found
    obtain ⟨c', _, code, acts⟩ := Plain.cut acts
    obtain ⟨joined, _, appended, ⟨⟩⟩ := Plain.cut acts
    obtain rfl : c' = c := by
      have code : row.value = .code c' := Args.code_eq_ok.1 (Plain.lift_eq_ok.1 code).1
      exact Value.code.inj (code.symm.trans value)
    have lastText : ((Built.args [row, last]).code? 2).elim "" (·.value) = last.statementText := by
      have second : (Built.args [row, last]).value 2 = last.value := rfl
      rw [Args.code?, second, Built.statementText]
      cases last.value <;> rfl
    refine ⟨joined, rfl, ?_, fun x member => ?_⟩
    · rw [(appendStatement_ok appended).1, text, lastText, allParts_pair, lastParts,
        List.map_append, String.join_append, List.map_singleton]
      exact congrArg _ (String.empty_append).symm
    · rw [allParts_pair, lastParts] at member
      obtain earlier | rfl := by simpa using member
      · exact all x earlier
      · exact lastKind
termination_by sizeOf t

theorem JobFree.of_mem (free : JobFree (Built.allTokens ts))
    (member : t ∈ ts) : JobFree t.tokens :=
  fun token inside => free token (Built.mem_allTokens member inside)

/-- What is no part of the outermost rows of a file writes no code of the class. -/
theorem Forms.keeps (forms : Forms [t] s read s')
    (kind : t.kind = x.text) (inner : x ∉ outermost) (free : JobFree t.tokens) :
    s'.written = s.written := by
  refine forms.written (Built.allTokens_singleton t ▸ free) fun u member y outer same => ?_
  obtain rfl := List.mem_singleton.1 member
  exact inner (Perl.Symbol.text_injective _ _ (kind.symm.trans same) ▸ outer)

theorem checkLoopMarks_value {c c' : Fragment}
    (run : (checkLoopMarks c).run s = .ok c' s') : c'.value = c.value ∧ s'.written = s.written := by
  have kept := (checkLoopMarks c).plain.code rfl s
  rw [run] at kept
  refine ⟨?_, kept⟩
  unfold checkLoopMarks at run
  obtain ⟨_, -, run⟩ := Plain.join_eq_ok.1 run
  obtain ⟨_, -, ⟨⟩⟩ := Plain.join_eq_ok.1 run
  rfl

def IsMethod (t : Built) : Prop :=
  t.isFunction = true ∧ ∃ name body s s', functionText name body s = .ok t.functionText s'

def PartsOfFile (ts : List Built) : Prop :=
  ∀ t ∈ ts, t.kind = Symbol.statement_type.text ∨ IsMethod t

theorem PartsOfFile.append {us : List Built} (first : PartsOfFile ts) (second : PartsOfFile us) :
    PartsOfFile (ts ++ us) :=
  fun t member => (List.mem_append.1 member).elim (first t) (second t)

theorem texts_of_row (all : ∀ t ∈ ts, t.kind = Symbol.statement_type.text) :
    Built.statementTexts ts = String.join (ts.map (·.statementText))
      ∧ Built.functionTexts ts = "" := by
  have noFunction : ∀ t ∈ ts, t.isFunction = false := by
    intro t member
    rw [Built.isFunction, all t member]
    decide
  constructor
  · rw [Built.statementTexts, List.filter_eq_self.2 fun t member => by rw [noFunction t member]; rfl]
  · rw [Built.functionTexts,
      List.filter_eq_nil_iff.2 fun t member => by rw [noFunction t member]; decide]
    rfl

theorem texts_of_function (isFunction : t.isFunction = true) :
    Built.statementTexts [t] = "" ∧ Built.functionTexts [t] = t.functionText := by
  constructor
  · rw [Built.statementTexts, List.filter_cons_of_neg (by simp [isFunction])]
    rfl
  · rw [Built.functionTexts, List.filter_cons_of_pos isFunction]
    exact String.empty_append

theorem Forms.isMethod (forms : Forms [t] s read s')
    (kind : t.kind = Symbol.function_body.text) : IsMethod t := by
  obtain ⟨symbols, children, v, rfl, fits, -, action, s₁, s₂, _, _, -, found, acts, -⟩ :=
    forms.fits_of_kind kind (by decide)
  obtain rfl : symbols = [.function_header, .LBRACE, .statements, .RBRACE] := by
    simpa [groupFits] using fits
  cases found
  obtain ⟨name, _, -, acts⟩ := M.cut acts
  obtain ⟨body, _, -, acts⟩ := M.cut acts
  obtain ⟨text, _, made, ⟨⟩⟩ := M.cut acts
  exact ⟨beq_iff_eq.2 kind, name, body, _, _, made⟩

mutual

/-- Code puts its statements and its functions in front of what the class has. -/
theorem code_written (t : Built) {s s' : State} {read : List Token}
    (kind : t.kind = Symbol.code.text) (forms : Forms [t] s read s')
    (free : JobFree t.tokens) :
    s'.written = (Built.statementTexts t.parts ++ s.globalCode,
      Built.functionTexts t.parts ++ s.functionsCode) ∧ PartsOfFile t.parts := by
  obtain ⟨symbols, children, v, rfl, parts, fits, kinds, action, s₁, s₂, _, _, below, found, acts,
    reads⟩ := forms.group kind (by decide)
  obtain rfl : symbols = [.statements, .function] := by simpa [groupFits] using fits
  obtain ⟨row, rest, rfl, rowKind, restKind⟩ := eq_pair kinds
  obtain ⟨s₀, _, _, first, second⟩ := below.pair
  rw [Built.tokens] at free
  cases found
  obtain ⟨c, _, isCode, acts⟩ := M.cut acts
  obtain ⟨c', s₃, checked, acts⟩ := M.cut acts
  obtain ⟨own, _, isText, acts⟩ := M.cut acts
  obtain ⟨_, _, ⟨⟩, ⟨⟩⟩ := M.cut acts
  obtain ⟨code, rfl⟩ := Plain.lift_eq_ok.1 isCode
  obtain ⟨function, rfl⟩ := Plain.lift_eq_ok.1 isText
  have code : row.value = .code c := Args.code_eq_ok.1 code
  have function : rest.value = .text own := Args.text_eq_ok.1 function
  obtain ⟨c₀, value, text, all⟩ := statements_value row rowKind first
  obtain rfl : c₀ = c := Value.code.inj (value.symm.trans code)
  have kept := first.keeps rowKind (by decide) (free.of_mem List.mem_cons_self)
  obtain ⟨others, functions, written, partsOfRest⟩ :=
    function_written rest restKind second (free.of_mem (by simp)) function
  obtain ⟨ofStatements, noFunctions⟩ := texts_of_row all
  obtain ⟨marks, checkedCode⟩ := checkLoopMarks_value checked
  have after : s'.written = (c'.value ++ s₃.globalCode, own ++ s₃.functionsCode) :=
    reads.same State.written fun _ => rfl
  obtain ⟨global₀, functions₀⟩ := Prod.mk.inj kept
  obtain ⟨global₁, functions₁⟩ := Prod.mk.inj written
  obtain ⟨global₃, functions₃⟩ := Prod.mk.inj checkedCode
  have row : PartsOfFile row.parts := fun t member => .inl (all t member)
  rw [parts, allParts_pair, after, marks, text,
    Built.statementTexts_append, Built.functionTexts_append, ofStatements, noFunctions, functions,
    global₃, functions₃, global₁, functions₁, global₀, functions₀, String.empty_append,
    String.append_assoc, String.append_assoc]
  exact ⟨rfl, row.append partsOfRest⟩
termination_by sizeOf t

theorem function_written (t : Built) {s s' : State} {read : List Token}
    (kind : t.kind = Symbol.function.text) (forms : Forms [t] s read s')
    (free : JobFree t.tokens) {own : String} (value : t.value = .text own) :
    ∃ others, Built.functionTexts t.parts = own ++ others
      ∧ s'.written = (Built.statementTexts t.parts ++ s.globalCode, others ++ s.functionsCode)
      ∧ PartsOfFile t.parts := by
  obtain ⟨symbols, children, v, rfl, parts, fits, kinds, action, s₁, s₂, _, _, below, found, acts,
    reads⟩ := forms.group kind (by decide)
  rw [Built.tokens] at free
  rw [parts]
  obtain rfl | rfl : symbols = [] ∨ symbols = [.function_body, .code] := by
    simpa [groupFits] using fits
  · obtain rfl := List.map_eq_nil_iff.1 kinds
    cases found
    cases acts
    cases value
    have before := below.written free fun t member => absurd member List.not_mem_nil
    have kept : s'.written = s.written := (reads.same State.written fun _ => rfl).trans before
    refine ⟨"", rfl, ?_, fun t member => absurd member List.not_mem_nil⟩
    rw [kept, String.empty_append]
    exact congrArg (·, _) String.empty_append.symm
  · obtain ⟨body, code, rfl, bodyKind, codeKind⟩ := eq_pair kinds
    obtain ⟨s₀, _, _, first, second⟩ := below.pair
    obtain ⟨written, partsOfCode⟩ := code_written code codeKind second (free.of_mem (by simp))
    have kept := first.keeps bodyKind (by decide) (free.of_mem (by simp))
    cases found
    cases acts
    have isMethod := first.isMethod bodyKind
    have value : body.value = .text own := value
    have own_ : body.functionText = own := by rw [Built.functionText, value]
    obtain ⟨noStatements, ofFunction⟩ := texts_of_function isMethod.1
    have after : s'.written = s₁.written := reads.same State.written fun _ => rfl
    obtain ⟨global₀, functions₀⟩ := Prod.mk.inj kept
    have alone : PartsOfFile [body] := fun t member => .inr (List.mem_singleton.1 member ▸ isMethod)
    rw [allParts_pair, Built.parts_of_kind bodyKind (by decide), Built.functionTexts_append,
      Built.statementTexts_append, noStatements, ofFunction, own_, after, written, global₀,
      functions₀, String.empty_append]
    exact ⟨_, rfl, rfl, alone.append partsOfCode⟩
termination_by sizeOf t

end

end Rows

/-! ### The class of a file -/

/-- Code outside functions as a member of a class. There is none where there is nothing to run. -/
def startMember (isMain : Bool) (code : String) : String :=
  if isMain then "public static void main(String[] ARGV)\x7b\n" ++ code ++ "\x7d\n\n"
  else if code = "" then ""
  else "static\x7b\n" ++ code ++ "\x7d\n\n"

namespace State

def argumentsLine (s : State) : String :=
  if s.options.mainClass then s.className ++ ".ARGV=ARGV;\n" else ""

def IsClassText (s : State) (functions code text : String) : Prop :=
  ∃ paths, s.imports.mapM s.importPaths.get? = some paths
    ∧ text = s.packageCode
      ++ ("import perldoop.*;\n" ++ String.join (paths.map ("import " ++ · ++ ";\n")) ++ "\n")
      ++ "\n\npublic class " ++ s.className
      ++ (if s.superclass = "" then "" else " extends " ++ s.superclass) ++ "\x7b\n"
      ++ s.attributes ++ "\n\n" ++ functions ++ startMember s.options.mainClass code ++ "\x7d"

end State

section File

variable {s s' : State} {read : List Token}

theorem forIn_find_ok (find : String → Option String) (line : String → String)
    {f : String → String → Plain (ForInStep String)}
    (each : ∀ {name text step s s'}, (f name text).run s = .ok step s' →
      s' = s ∧ ∃ found, find name = some found ∧ step = .yield (text ++ line found))
    {names : List String} {text all : String} (run : (forIn names text f).run s = .ok all s') :
    s' = s ∧ ∃ found, names.mapM find = some found ∧ all = text ++ String.join (found.map line) := by
  induction names generalizing text with
  | nil =>
    cases run
    exact ⟨rfl, [], rfl, String.append_empty.symm⟩
  | cons name names ih =>
    rw [List.forIn_cons] at run
    obtain ⟨step, s₁, first, run⟩ := Plain.cut run
    obtain ⟨rfl, one, found, rfl⟩ := each first
    obtain ⟨rfl, others, all_, rfl⟩ := ih run
    refine ⟨rfl, one :: others, by simp [List.mapM_cons, found, all_], ?_⟩
    rw [List.map_cons, String.join_cons, String.append_assoc]

/-- The imports are the paths of the names that have been asked for, in their order. -/
theorem importLines_ok {text : String} (run : importLines.run s = .ok text s') :
    s' = s ∧ ∃ paths, s.imports.mapM s.importPaths.get? = some paths
      ∧ text = "import perldoop.*;\n" ++ String.join (paths.map ("import " ++ · ++ ";\n")) ++ "\n" := by
  unfold importLines at run
  obtain ⟨_, _, ⟨⟩, run⟩ := Plain.cut run
  obtain ⟨lines, _, loop, ⟨⟩⟩ := Plain.cut run
  obtain ⟨rfl, paths, found, rfl⟩ := forIn_find_ok s.importPaths.get? ("import " ++ · ++ ";\n")
    (fun {name text step s₁ s₂} run => by
      dsimp only at run
      split at run
      · next path found =>
        cases run
        exact ⟨rfl, path, found, by simp only [String.append_assoc]⟩
      · cases run) loop
  exact ⟨rfl, paths, found, rfl⟩

theorem classText_ok {text : String} (run : classText.run s = .ok text s') :
    s' = s ∧ s.IsClassText s.functionsCode s.globalCode text := by
  unfold classText at run
  obtain ⟨_, _, ⟨⟩, run⟩ := Plain.cut run
  obtain ⟨imports, _, lines, ⟨⟩⟩ := Plain.cut run
  obtain ⟨same, paths, found, rfl⟩ := importLines_ok lines
  have start : (if s.options.mainClass then
        "public static void main(String[] ARGV)\x7b\n" ++ s.globalCode ++ "\x7d\n\n"
      else if !s.globalCode.isEmpty then "static\x7b\n" ++ s.globalCode ++ "\x7d\n\n"
      else "") = startMember s.options.mainClass s.globalCode := by
    cases empty : s.globalCode.isEmpty <;> simp [startMember, ← String.isEmpty_iff, empty]
  have parent : (if s.superclass.isEmpty then "" else " extends " ++ s.superclass)
      = if s.superclass = "" then "" else " extends " ++ s.superclass := by
    simp only [String.isEmpty_iff]
  refine ⟨same, paths, found, ?_⟩
  rw [← start, ← parent]
  rfl

theorem State.argumentsLine_keepingArguments (s : State) :
    s.keepingArguments.argumentsLine = s.argumentsLine := by
  unfold argumentsLine keepingArguments
  split <;> rfl

theorem State.written_keepingArguments (s : State) :
    s.keepingArguments.written = (s.argumentsLine ++ s.globalCode, s.functionsCode) := by
  unfold argumentsLine keepingArguments
  split
  · rfl
  · exact congrArg (·, _) String.empty_append.symm

theorem finishFile_ok {text : String} (run : finishFile s = .ok text s') :
    s'.written = (s'.argumentsLine ++ s.globalCode, s.functionsCode)
      ∧ s'.IsClassText s'.functionsCode s'.globalCode text := by
  obtain ⟨_, s₁, ⟨⟩, run⟩ := M.cut run
  obtain ⟨_, s₂, made, run⟩ := M.cut run
  obtain ⟨_, s₃, published, ⟨⟩⟩ := M.cut run
  obtain ⟨rfl, isText⟩ := classText_ok made
  -- offering the file to others changes only what is offered
  have offers : Keeps (fun s => { s with packages := {} }) publishIfPackage :=
    .publishIfPackage fun _ _ => rfl
  have same := offers.preserves _ _ _ published
  have written := congrArg State.written same
  have written : s'.written = s.keepingArguments.written := written
  have line := congrArg State.argumentsLine same
  have line : s'.argumentsLine = s.keepingArguments.argumentsLine := line
  have isClass := congrArg (State.IsClassText · s'.functionsCode s'.globalCode text) same
  refine ⟨?_, Eq.mpr isClass ?_⟩
  · rw [written, line, s.argumentsLine_keepingArguments, s.written_keepingArguments]
  · obtain ⟨global, functions⟩ := Prod.mk.inj written
    rw [functions, global]
    exact isText

end File

/-! ### A compilation -/

/-- The code of a class has the functions and the statements of a tree in their order, and each of
them once. -/
structure InSourceOrder (t : Built) (text : String) (s : State) : Prop where
  parts : PartsOfFile t.parts
  functions : s.functionsCode = Built.functionTexts t.parts
  code : s.globalCode = s.argumentsLine ++ Built.statementTexts t.parts
  text : s.IsClassText s.functionsCode s.globalCode text

section

variable (kind : t.kind = Symbol.file.text)

include kind

variable (forms : Forms [t] s read s')

include forms

theorem Forms.file : ∃ code text s₁ s₂ first last, t = .node ⟨.file, [.code]⟩ [code] (.text text)
      ∧ code.kind = Symbol.code.text ∧ t.parts = code.parts ∧ Forms [code] s first s₁
      ∧ finishFile s₁ = .ok text s₂ ∧ Reads s₂ last s' := by
  obtain ⟨symbols, children, v, rfl, parts, fits, kinds, action, s₁, s₂, _, _, below, found, acts,
    reads⟩ := forms.group kind (by decide)
  obtain rfl : symbols = [.code] := by simpa [groupFits] using fits
  obtain ⟨code, rest, rfl, codeKind, kinds⟩ := List.map_eq_cons_iff.1 kinds
  obtain rfl := List.map_eq_nil_iff.1 kinds
  cases found
  obtain ⟨text, _, finished, ⟨⟩⟩ := M.cut acts
  refine ⟨code, text, s₁, s₂, _, _, rfl, codeKind, ?_, below, finished, reads⟩
  rw [parts, Built.allParts, Built.allParts, List.append_nil]

theorem file_isClassText :
    ∃ text, t.value = .text text ∧ s'.IsClassText s'.functionsCode s'.globalCode text := by
  obtain ⟨code, text, s₁, s₂, _, _, rfl, -, -, -, finished, reads⟩ := forms.file kind
  obtain ⟨-, isText⟩ := finishFile_ok finished
  have after : s'.written = s₂.written := reads.same State.written fun _ => rfl
  obtain ⟨global, functions⟩ := Prod.mk.inj after
  have isClass : s'.IsClassText s'.functionsCode s'.globalCode text
      = s₂.IsClassText s'.functionsCode s'.globalCode text :=
    reads.same (State.IsClassText · s'.functionsCode s'.globalCode text) fun _ => rfl
  refine ⟨text, rfl, Eq.mpr isClass ?_⟩
  rw [functions, global]
  exact isText

theorem file_text (empty : s.written = ("", "")) :
    ∃ text, t.value = .text text ∧ (JobFree t.tokens → InSourceOrder t text s') := by
  obtain ⟨text, value, isText⟩ := file_isClassText kind forms
  refine ⟨text, value, fun free => ?_⟩
  obtain ⟨code, _, s₁, s₂, _, _, rfl, codeKind, same, below, finished, reads⟩ := forms.file kind
  rw [Built.tokens] at free
  obtain ⟨written, partsOfFile⟩ := code_written code codeKind below (free.of_mem List.mem_cons_self)
  obtain ⟨made, -⟩ := finishFile_ok finished
  have after : s'.written = s₂.written := reads.same State.written fun _ => rfl
  have line : s'.argumentsLine = s₂.argumentsLine := reads.same State.argumentsLine fun _ => rfl
  obtain ⟨global₀, functions₀⟩ := Prod.mk.inj empty
  obtain ⟨global₁, functions₁⟩ := Prod.mk.inj written
  obtain ⟨global₂, functions₂⟩ := Prod.mk.inj made
  obtain ⟨global, functions⟩ := Prod.mk.inj after
  rw [global₀, String.append_empty] at global₁
  rw [functions₀, String.append_empty] at functions₁
  refine ⟨same ▸ partsOfFile, ?_, ?_, isText⟩
  · rw [same, functions, functions₂, functions₁]
  · rw [same, line, global, global₂, global₁]

end

section Compile

variable {p : Parser} {text name : String} {limit : Nat} {session : Session} {options : Options}

theorem compileWithin_inOrder {out : Option String}
    (done : compileWithin limit p text (.ofFile session options name) = .ok out s)
    (fine : s.codeError = false) :
    ∃ s₀ t class_, prepare options.tracing text (.ofFile session options name) = .ok () s₀
      ∧ t.kind = Symbol.file.text ∧ out = some class_ ∧ Forms [t] s₀ t.tokens s
      ∧ (JobFree t.tokens → InSourceOrder t class_ s) := by
  obtain ⟨s₀, t, prepared, kind, rfl, forms⟩ :=
    compileWithin_forms (balanced_ofFile session options name) done fine
  have : Does .plain (prepare options.tracing text) := inferInstance
  have written : s₀.written = _ := prepared ▸ this.code rfl (.ofFile session options name)
  obtain ⟨class_, value, inOrder⟩ := file_text kind forms written
  exact ⟨s₀, t, class_, prepared, kind, congrArg (classText? ∘ some) value, forms, inOrder⟩

/-- A compilation without an error results in a class. -/
theorem compileWithin_ends {P : String → State → Prop}
    (made : ∀ {out s}, compileWithin limit p text (.ofFile session options name) = .ok (some out) s →
      s.codeError = false → P out s) :
    match compileWithin limit p text (.ofFile session options name) with
    | .ok (some out) s => s.codeError = false → P out s
    | .ok none s => s.codeError = true
    | .error .. => True := by
  split
  · next done => exact made done
  · next s done =>
    cases fine : s.codeError with
    | true => rfl
    | false => obtain ⟨_, _, _, _, _, ⟨⟩, _⟩ := compileWithin_inOrder done fine
  · trivial

end Compile

/-- How a compilation may end: with the text of a class that has the code in the order of the text
that has been read, unless mappers or reducers are in it; or without one, after an error. -/
def EmittedInOrder (p : Parser) (text : String) (limit : Nat) (start : State) : Prop :=
  match compileWithin limit p text start with
  | .ok (some out) s => s.codeError = false → ∃ s₀ t,
    prepare start.options.tracing text start = .ok () s₀ ∧ t.kind = Symbol.file.text
      ∧ Forms [t] s₀ t.tokens s ∧ Built.allTokens t.parts = t.tokens
      ∧ (JobFree t.tokens → InSourceOrder t out s)
  | .ok none s => s.codeError = true
  | .error .. => True

/-- The code of any class without mappers and reducers has the functions and the statements of the
file, in their order and each of them once. -/
theorem code_emitted_in_source_order (p : Parser) (session : Session) (options : Options)
    (name text : String) (limit : Nat) :
    EmittedInOrder p text limit (State.ofFile session options name) := by
  refine compileWithin_ends fun done fine => ?_
  obtain ⟨s₀, t, _, prepared, kind, ⟨⟩, forms, inOrder⟩ := compileWithin_inOrder done fine
  exact ⟨s₀, t, prepared, kind, forms, t.allTokens_parts, inOrder⟩

end PerlJava.Compile
