import PerlJava.Proofs.Compile.FormedStatement

/-!
# Jumps and loops

The jumps of a file are its `last` and `next`, in their order and in the loops that the file has
around them. One that has no loop around it is reported, unless it lies in a conditional with several
branches: there its mark is forgotten.
-/

namespace PerlJava.Compile

open Java
open Perl (Symbol rules)

/-! ### The tokens of a tree -/

section Tokens

variable {s s' : State} {read : List Token}

theorem Reads.readable (reads : Reads s read s') (clear : s.reader.Clear) :
    s'.reader.Clear ∧ ∀ t ∈ read, Perl.Readable t := by
  induction reads with
  | nothing => exact ⟨clear, fun _ => (absurd · List.not_mem_nil)⟩
  | token next _ ih =>
    obtain ⟨clear, first⟩ := nextToken_ok clear next
    obtain ⟨clear, others⟩ := ih clear
    exact ⟨clear, List.forall_mem_append.2
      ⟨fun t member => first t (Option.mem_toList.1 member), others⟩⟩
  | trace written _ ih =>
    cases written
    exact ih clear

theorem Forms.readable {ts : List Built} (forms : Forms ts s read s') (clear : s.reader.Clear) :
    s'.reader.Clear ∧ ∀ t ∈ read, Perl.Readable t := by
  induction forms with
  | nothing reads => exact reads.readable clear
  | token _ _ ih => exact ih clear
  | @node _ action children _ _ _ s₁ s₂ _ _ _ _ _ _ acts _ ih ih' =>
    obtain ⟨clear, first⟩ := ih clear
    have kept : s₂.reader = s₁.reader := (action.does (Built.args children)).detached.reader acts
    obtain ⟨clear, others⟩ := ih' (kept ▸ clear)
    exact ⟨clear, List.forall_mem_append.2 ⟨first, others⟩⟩

theorem clear_prepare {tracing : Option Tracing} {text : String} {u : Unit}
    (prepared : prepare tracing text s = .ok u s') : s'.reader.Clear := by
  obtain ⟨_, s₁, -, started⟩ := M.cut prepared
  exact clear_startReading started

end Tokens

/-! ### The parts of a file -/

section Parts

variable {s s' : State} {read : List Token}

/-- A report that is made on a condition is made if it holds. -/
theorem not_of_report {c : Prop} [Decidable c] {m : Message} {at_ : Option Position}
    {names : Diagnostic.Names} (isError : m.isWarning = false)
    (run : (if c then report m at_ names else pure ()).run s = .ok () s')
    (fine : s'.codeError = false) : ¬c := by
  intro holds
  rw [if_pos holds] at run
  rw [report_failed isError run] at fine
  cases fine

theorem checkLoopMarks_ok {c c' : Fragment} (run : (checkLoopMarks c).run s = .ok c' s')
    (fine : s'.codeError = false) : (∀ j : Jump, j.flag ∉ c.flags) ∧ c'.value = c.value
      ∧ c'.has .returns = c.has .returns := by
  unfold checkLoopMarks at run
  obtain ⟨s₁, next, run⟩ := Plain.join_eq_ok.1 run
  obtain ⟨s₂, last, ⟨⟩⟩ := Plain.join_eq_ok.1 run
  have fine₁ : s₁.codeError = false := (Plain.plain _).candid.fine last fine
  have noLast := not_of_report rfl last fine
  have noNext := not_of_report rfl next fine₁
  refine ⟨fun j => ?_, rfl, ?_⟩
  · cases j with
    | break_ => simpa [Fragment.has, Jump.flag] using noLast
    | continue_ => simpa [Fragment.has, Jump.flag] using noNext
  · simp [Fragment.has, List.contains_eq_mem]

/-- A function has become a method, which is left by a `return null` unless its statements are marked
to return. -/
theorem functionText_ok {name text : String} {body : Fragment}
    (run : functionText name body s = .ok text s') (fine : s'.codeError = false) :
    (∀ j : Jump, j.flag ∉ body.flags) ∧ ∃ type, text = "public static " ++ type ++ " " ++ name
      ++ "(Object... pd_argv)" ++ "\x7b\n" ++ body.value
      ++ (if body.has .returns then "" else "return null;\n") ++ "\x7d\n\n" := by
  obtain ⟨_, s₁, -, run⟩ := M.cut run
  obtain ⟨body', s₂, checked, run⟩ := Plain.cut run
  obtain ⟨noJumps, value, returns⟩ := checkLoopMarks_ok checked ((Plain.plain _).candid.fine run fine)
  obtain ⟨_, _, ⟨⟩, run⟩ := Plain.cut run
  split at run
  · obtain ⟨type, _, -, run⟩ := Plain.cut run
    obtain ⟨_, _, -, ⟨⟩⟩ := Plain.cut run
    exact ⟨noJumps, type, by rw [value, returns]⟩
  · cases run

/-- A part of a file is written as a Java statement: a statement as it is, and a function as a method
around it, which is left by a `return null` unless the statement is marked to return. -/
inductive WrittenAs : Built → Stmt → Prop where
  | statement {t : Built} {st : Stmt} : t.kind = Symbol.statement_type.text → Outlined t st →
    t.statementText = st.print → WrittenAs t st
  | function {symbols : List Symbol} {children : List Built} {row : Built} {type name : String}
    {st : Stmt} : At symbols children .statements row → Outlined row st →
    WrittenAs (.node ⟨.function_body, symbols⟩ children (.text ("public static " ++ type ++ " " ++ name
      ++ "(Object... pd_argv)" ++ "\x7b\n" ++ st.print
      ++ (if st.marked then "" else "return null;\n") ++ "\x7d\n\n"))) st

/-- A part of a file has its jumps, none of which is reported. -/
structure WellWritten (t : Built) (st : Stmt) : Prop where
  written : WrittenAs t st
  jumps : st.jumps = t.jumps
  silent : st.reported = []

theorem reported_eq_nil {st : Stmt} {flags : List Flag} (marks : st.Marks flags)
    (none : ∀ j : Jump, j.flag ∉ flags) : st.reported = [] :=
  List.eq_nil_iff_forall_not_mem.2 fun j member => none j ((marks.jumps j).2 member)

/-- Where trees are formed without errors of what the reader delivers, without labels of jobs. -/
structure FormsWell (ts : List Built) (s : State) (read : List Token) (s' : State) : Prop where
  forms : Forms ts s read s'
  ordinary : ∀ t ∈ Built.allTokens ts, Ordinary t
  fine : s'.codeError = false

namespace FormsWell

variable {ts : List Built} {t u : Built}

theorem rendered (well : FormsWell ts s read s') (member : t ∈ ts) :
    SoundSymbol .java t.symbol ∧ t.Rendered :=
  well.forms.rendered well.ordinary well.fine t member

theorem pair (well : FormsWell [t, u] s read s') :
    ∃ s₁ first second, FormsWell [t] s first s₁ ∧ FormsWell [u] s₁ second s' := by
  obtain ⟨forms, ordinary, fine⟩ := well
  obtain ⟨s₁, first, second, one, other⟩ := forms.pair
  have tokens : Built.allTokens [t, u] = Built.allTokens [t] ++ Built.allTokens [u] :=
    Built.allTokens_append [t] [u]
  rw [tokens] at ordinary
  obtain ⟨here, there⟩ := List.forall_mem_append.1 ordinary
  exact ⟨s₁, first, second, ⟨one, here, other.fine fine⟩, other, there, fine⟩

/-- A tree of a symbol with productions has trees below it, and an action that ends without an
error. -/
theorem node {x : Symbol} (well : FormsWell [t] s read s') (kind : t.kind = x.text)
    (named : Perl.named x = true) : ∃ symbols children v action s₁ s₂ before,
      t = .node ⟨x, symbols⟩ children v ∧ groupFits x symbols = true
      ∧ children.map (·.kind) = symbols.map (·.text) ∧ FormsWell children s before s₁
      ∧ allActions.lookup ⟨x, symbols⟩ = some action
      ∧ action.run (Built.args children) s₁ = .ok v s₂ ∧ s₂.codeError = false := by
  obtain ⟨forms, ordinary, fine⟩ := well
  obtain ⟨symbols, children, v, rfl, fits, kinds, action, s₁, s₂, before, _, below, found, acts, reads⟩ :=
    forms.fits_of_kind kind named
  have fine := reads.fine fine
  rw [Built.allTokens_singleton, Built.tokens] at ordinary
  exact ⟨symbols, children, v, action, s₁, s₂, before, rfl, fits, kinds,
    ⟨below, ordinary, (action.does _).candid.fine acts fine⟩, found, acts, fine⟩

end FormsWell

theorem statements_written_well (t : Built) {s s' : State} {read : List Token}
    (kind : t.kind = Symbol.statements.text) (well : FormsWell [t] s read s')
    (none : ∀ j : Jump, j.flag ∉ t.code?.elim [] (·.flags)) : ∀ u ∈ t.parts, ∃ st, WellWritten u st := by
  obtain ⟨symbols, children, v, action, s₁, s₂, _, rfl, fits, kinds, below, found, acts, -⟩ :=
    well.node kind (by decide)
  rw [parts_of_group (by decide)]
  obtain rfl | rfl : symbols = [] ∨ symbols = [.statements, .statement_type] := by
    simpa [groupFits] using fits
  · obtain rfl := List.map_eq_nil_iff.1 kinds
    exact fun _ => (absurd · List.not_mem_nil)
  · obtain ⟨row, last, rfl, rowKind, lastKind⟩ := eq_pair kinds
    obtain ⟨_, _, _, first, second⟩ := below.pair
    have lastParts : last.parts = [last] := Built.parts_of_kind lastKind (by decide)
    cases found
    obtain ⟨c, _, code, acts⟩ := Plain.cut acts
    obtain ⟨all, _, appended, ⟨⟩⟩ := Plain.cut acts
    have code : row.value = .code c := Args.code_eq_ok.1 (Plain.lift_eq_ok.1 code).1
    have marks (j : Jump) := ((appendStatement_ok appended).2 j.flag).not.1 (none j)
    rw [allParts_pair, lastParts]
    refine List.forall_mem_append.2 ⟨?_, List.forall_mem_singleton.2 ?_⟩
    · refine statements_written_well row rowKind first fun j => ?_
      rw [Built.code?, code]
      exact fun member => marks j (.inl member)
    · obtain ⟨st, renders⟩ := (second.rendered List.mem_cons_self).2 _ lastKind
      refine ⟨st, .statement lastKind renders.outlined renders.text, renders.jumps,
        reported_eq_nil renders.marks fun j member => marks j (.inr ?_)⟩
      rwa [Args.code?_eq (t := last) rfl]
termination_by sizeOf t

/-- A function whose statements have no marks of jumps. -/
theorem function_body_written_well {t : Built} (kind : t.kind = Symbol.function_body.text)
    (well : FormsWell [t] s read s') : ∃ st, WellWritten t st := by
  obtain ⟨symbols, children, v, action, s₁, s₂, _, rfl, fits, kinds, below, found, acts, fine⟩ :=
    well.node kind (by decide)
  obtain rfl : symbols = [.function_header, .LBRACE, .statements, .RBRACE] := by
    simpa [groupFits] using fits
  have rendered : RenderedBelow [.function_header, .LBRACE, .statements, .RBRACE] children :=
    ⟨kinds, fun _ member => (below.rendered member).2,
      sound_builtArgs kinds fun _ member => (below.rendered member).1⟩
  cases found
  obtain ⟨name, _, -, acts⟩ := M.cut acts
  obtain ⟨body, _, code, acts⟩ := M.cut acts
  obtain ⟨text, _, made, ⟨⟩⟩ := M.cut acts
  obtain ⟨row, st, at_, outlined, value, jumps, marks⟩ :=
    rendered.body (Plain.lift_eq_ok.1 code).1 rfl rfl
  obtain ⟨noJumps, type, rfl⟩ := functionText_ok made fine
  have marked : body.has .returns = st.marked := by
    rw [Bool.eq_iff_iff, ← marks.returns, Fragment.has, List.contains_iff_mem]
  refine ⟨st, ?_, jumps.trans (Built.jumps_node _ _ _).symm, reported_eq_nil marks noJumps⟩
  rw [value, marked]
  exact .function at_ outlined

mutual

theorem code_written_well (t : Built) {s s' : State} {read : List Token}
    (kind : t.kind = Symbol.code.text) (well : FormsWell [t] s read s') :
    ∀ u ∈ t.parts, ∃ st, WellWritten u st := by
  obtain ⟨symbols, children, v, action, s₁, s₂, _, rfl, fits, kinds, below, found, acts, fine⟩ :=
    well.node kind (by decide)
  rw [parts_of_group (by decide)]
  obtain rfl : symbols = [.statements, .function] := by simpa [groupFits] using fits
  obtain ⟨row, rest, rfl, rowKind, restKind⟩ := eq_pair kinds
  obtain ⟨s₀, _, _, first, second⟩ := below.pair
  cases found
  obtain ⟨c, _, code, acts⟩ := M.cut acts
  obtain ⟨c', s₃, checked, acts⟩ := M.cut acts
  obtain ⟨own, _, text, acts⟩ := M.cut acts
  obtain ⟨_, _, ⟨⟩, ⟨⟩⟩ := M.cut acts
  obtain ⟨-, rfl⟩ := Plain.lift_eq_ok.1 text
  obtain ⟨noJumps, -, -⟩ := checkLoopMarks_ok checked fine
  have code : row.value = .code c := Args.code_eq_ok.1 (Plain.lift_eq_ok.1 code).1
  rw [allParts_pair]
  refine List.forall_mem_append.2 ⟨statements_written_well row rowKind first ?_,
    function_written_well rest restKind second⟩
  rw [Built.code?, code]
  exact noJumps
termination_by sizeOf t

theorem function_written_well (t : Built) {s s' : State} {read : List Token}
    (kind : t.kind = Symbol.function.text) (well : FormsWell [t] s read s') :
    ∀ u ∈ t.parts, ∃ st, WellWritten u st := by
  obtain ⟨symbols, children, v, action, s₁, s₂, _, rfl, fits, kinds, below, -⟩ :=
    well.node kind (by decide)
  rw [parts_of_group (by decide)]
  obtain rfl | rfl : symbols = [] ∨ symbols = [.function_body, .code] := by
    simpa [groupFits] using fits
  · obtain rfl := List.map_eq_nil_iff.1 kinds
    exact fun _ => (absurd · List.not_mem_nil)
  · obtain ⟨body, code, rfl, bodyKind, codeKind⟩ := eq_pair kinds
    obtain ⟨s₀, _, _, first, second⟩ := below.pair
    rw [allParts_pair, Built.parts_of_kind bodyKind (by decide)]
    exact List.forall_mem_append.2 ⟨List.forall_mem_singleton.2 (function_body_written_well bodyKind first),
      code_written_well code codeKind second⟩
termination_by sizeOf t

end

theorem file_written_well {t : Built} (kind : t.kind = Symbol.file.text) (clear : s.reader.Clear)
    (forms : Forms [t] s t.tokens s') (jobless : Jobless t.tokens) (fine : s'.codeError = false) :
    ∀ u ∈ t.parts, ∃ st, WellWritten u st := by
  have readable := (forms.readable clear).2
  obtain ⟨code, text, s₁, s₂, first, last, rfl, codeKind, same, below, finished, reads⟩ :=
    forms.file kind
  rw [Built.tokens] at readable jobless
  rw [same]
  have : Does .writes finishFile := inferInstance
  exact code_written_well code codeKind ⟨below, fun t member => ⟨readable t member, jobless t member⟩,
    this.candid.fine finished (reads.fine fine)⟩

end Parts

theorem Jobless.free {tokens : List Token} (jobless : Jobless tokens) : JobFree tokens := by
  intro t member x label
  refine jobless t member x ?_
  simp only [jobLabels, List.mem_cons, List.not_mem_nil, or_false] at label
  obtain rfl | rfl := label <;> decide

/-- How a compilation may end: without an error, with a class in which all jumps of the text stand.
One outside of loops lies in a conditional with several branches. -/
def JumpsInLoops (p : Parser) (text : String) (limit : Nat) (start : State) : Prop :=
  match compileWithin limit p text start with
  | .ok (some out) s => s.codeError = false → ∃ s₀ t,
    prepare start.options.tracing text start = .ok () s₀ ∧ t.kind = Symbol.file.text
      ∧ Forms [t] s₀ t.tokens s ∧ (Jobless t.tokens → InSourceOrder t out s ∧ ∀ part ∈ t.parts,
        ∃ st, WrittenAs part st ∧ st.jumps = part.jumps ∧ st.reported = []
          ∧ (st.merged = [] → st.strays = []))
  | .ok none s => s.codeError = true
  | .error .. => True

/-- Each `last` and `next` of a class without mappers and reducers lies in a loop, or else in a
conditional with several branches. -/
theorem jumps_lie_in_loops (p : Parser) (session : Session) (options : Options)
    (name text : String) (limit : Nat) :
    JumpsInLoops p text limit (State.ofFile session options name) := by
  refine compileWithin_ends fun done fine => ?_
  obtain ⟨s₀, t, _, prepared, kind, ⟨⟩, forms, inOrder⟩ := compileWithin_inOrder done fine
  refine ⟨s₀, t, prepared, kind, forms, fun jobless => ⟨inOrder jobless.free, fun part member => ?_⟩⟩
  obtain ⟨st, written, jumps, silent⟩ :=
    file_written_well kind (clear_prepare prepared) forms jobless fine part member
  refine ⟨st, written, jumps, silent, fun none => List.eq_nil_iff_forall_not_mem.2 fun j stray => ?_⟩
  obtain reported | merged := Stmt.mem_strays.1 stray
  · exact absurd reported (by simp [silent])
  · exact absurd merged (by simp [none])

/-- A conditional that breaks in both its branches, outside of loops: nothing is reported. -/
theorem breaks_of_branches_unreported : ∃ code s,
    (do pushLevel
        let first ← ifBranch { value := "true", shape := .scalar .boolean }
          { value := "break;\n", flags := [.last] } {}
        pushLevel
        let rest ← elseBranch { value := "break;\n", flags := [.last] } {}
        checkLoopMarks (← conditionalBlock first rest) : M Fragment) {} = .ok code s
      ∧ s.codeError = false
      ∧ code.value = (Stmt.branch false "true" (.jump .break_) (.otherwise (.jump .break_))).print :=
  ⟨_, _, rfl, rfl, rfl⟩

end PerlJava.Compile
