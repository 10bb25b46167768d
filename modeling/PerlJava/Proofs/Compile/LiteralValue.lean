import PerlJava.Compile.Parser
import PerlJava.Proofs.Compile.StepLogic
import PerlJava.Proofs.Java.Interpolation
import PerlJava.Proofs.Perl.ScannerProgress

/-!
# The values of literals

The text of a string or of a regular expression becomes a Java literal, or literals with operands
between them, and the code around it does not depend on the text. What is stored to an element of a
hash or of a list is read as a template once more, which takes backslashes away.
-/

namespace PerlJava

open Perl Java.Literal

def literalSymbols : List Symbol :=
  [.STRING_QUOTE, .STRING_DOUBLE_QUOTE, .M_REGEX, .S_REGEX, .Y_REGEX]

/-- The rules that recognise strings and regular expressions. -/
def literalRules : List Rule :=
  [.quotedString, .doubleQuotedString, .matching, .substitution, .transliteration]

def Token.Scanned (t : Token) : Prop :=
  ∃ s asName s', Scanner.step asName s = some (.token t, s')

/-- Characters and escapes between double quotes have no quote to be escaped. -/
theorem escapeCharsList_flatten {units : List (List Char)}
    (all : ∀ unit ∈ units, (∃ c, unit = [c] ∧ c ≠ '"' ∧ c ≠ '\\') ∨ ∃ c, unit = ['\\', c]) :
    escapeCharsList ['"'] false units.flatten = units.flatten := by
  induction units with
  | nil => rfl
  | cons unit units ih =>
    simp only [List.forall_mem_cons] at all
    obtain ⟨⟨c, rfl, quote, backslash⟩ | ⟨c, rfl⟩, others⟩ := all
    · have later : (c == '\\') = false := by simpa using backslash
      simp [escapeCharsList, quote, later, ih others]
    · simp [escapeCharsList, ih others]

namespace Token.Scanned

variable {t : Token} {k : Symbol} (scanned : t.Scanned)

include scanned

/-- A string or a regular expression comes from a rule for such texts. -/
theorem exists_rule (literal : k ∈ literalSymbols) (kind : t.kind = k.text) :
    ∃ r ∈ literalRules, ∃ asName text, r.pattern.Admits text
      ∧ Scanner.lexeme? asName text r = some (k.text, t.value) := by
  obtain ⟨s, asName, s', step⟩ := scanned
  let otherKinds :=
    ["COMMENT", "FLOAT_NUMBER", "INT_NUMBER", "CMD", "JAVA_IMPORT", "JAVA_LINE", "XEQUAL"]
  have symbols : literalSymbols.all (fun k => literalKinds.contains k.text
      && !otherKinds.contains k.text) = true := by decide
  have known := List.all_eq_true.1 symbols k literal
  rw [← kind] at known ⊢
  have isLiteral : t.kind ∈ literalKinds := by simpa using (Bool.and_eq_true_iff.1 known).1
  have notOther : t.kind ∉ otherKinds := by simpa using (Bool.and_eq_true_iff.1 known).2
  obtain ⟨comment, -⟩ | ⟨r, asName, text, notWord, admits, lexeme⟩ :=
    (Scanner.step_stepped step).origin.of_literal (List.mem_cons_of_mem _ isLiteral)
  · exact absurd (comment ▸ List.mem_cons_self) notOther
  · refine ⟨r, ?_, asName, text, admits, lexeme⟩
    have other {kind value : String} (among : kind ∈ otherKinds)
        (lexeme : some (kind, value) = some (t.kind, t.value)) : r ∈ literalRules :=
      absurd ((Prod.mk.inj (Option.some.inj lexeme)).1 ▸ among) notOther
    cases r with
    | quotedString | doubleQuotedString | matching | substitution | transliteration => decide
    | floatNumber | intNumber | command | javaImport | javaLine | repeatAssign =>
      exact other (by decide) lexeme
    | word => exact absurd rfl notWord
    | _ => cases lexeme

theorem newline_notMem (literal : k ∈ literalSymbols)
    (kind : t.kind = k.text) : '\n' ∉ t.value.toList := by
  obtain ⟨r, isLiteral, asName, text, admits, lexeme⟩ := scanned.exists_rule literal kind
  have rules : literalRules.all (·.pattern.avoids '\n') = true := by decide
  have free := admits.not_mem (List.all_eq_true.1 rules r isLiteral)
  obtain value | value : t.value = Scanner.inside text ∨ t.value = String.ofList text := by
    simp only [literalRules, List.mem_cons, List.not_mem_nil, or_false] at isLiteral
    obtain rfl | rfl | rfl | rfl | rfl := isLiteral
      <;> simp [← (Prod.mk.inj (Option.some.inj lexeme)).2]
  · rw [value, Scanner.inside, String.toList_ofList]
    exact fun member => free (List.mem_of_mem_drop (List.dropLast_subset _ member))
  · rwa [value, String.toList_ofList]

/-- No quote between double quotes stands for itself. -/
theorem escapeCharsList_eq (kind : t.kind = Symbol.STRING_DOUBLE_QUOTE.text) :
    escapeCharsList ['"'] false t.value.toList = t.value.toList := by
  obtain ⟨r, isLiteral, asName, text, admits, lexeme⟩ := scanned.exists_rule (by decide) kind
  obtain rfl : r = .doubleQuotedString := by
    cases r <;> simp_all [literalRules, Scanner.lexeme?, Symbol.text]
  obtain ⟨_, _, rfl, before, last⟩ := admits.of_append
  obtain ⟨_, _, rfl, first, middle⟩ := before.of_append
  obtain rfl := first.eq_of_char
  obtain rfl := last.eq_of_char
  obtain ⟨units, rfl, all⟩ := middle.of_many
  obtain ⟨-, value⟩ := Prod.mk.inj (Option.some.inj lexeme)
  rw [show t.value.toList = units.flatten by simp [← value, Scanner.inside]]
  refine escapeCharsList_flatten fun unit member => ?_
  obtain plain | escape := (all unit member).of_orElse
  · obtain ⟨c, rfl, other⟩ := plain.of_one
    have other : c ≠ '"' ∧ c ≠ '\\' ∧ c ≠ '\n' := by
      simpa [CharSet.contains, ClassItem.contains] using other
    exact .inl ⟨c, rfl, other.1, other.2.1⟩
  · obtain ⟨_, _, rfl, backslash, any⟩ := escape.of_append
    obtain rfl := backslash.eq_of_char
    obtain ⟨c, rfl, -⟩ := any.of_one
    exact .inr ⟨c, rfl⟩

end Token.Scanned

def Java.Fragment.texts (c : Java.Fragment) : List String :=
  c.value :: (c.condition.toList ++ c.statement.toList)

namespace Compile

open Java

variable {s s' : State}

/-! ### Texts of literals -/

theorem interpolate_ok {text result : String} (run : (interpolate text).run s = .ok result s') :
    s = s' ∧ ∃ typeOf?, Literal.interpolate typeOf? text = .ok result := by
  obtain ⟨_, _, ⟨⟩, run⟩ := Plain.cut run
  obtain ⟨done, same⟩ := Plain.lift_eq_ok.1 run
  exact ⟨same, _, done⟩

/-- A regular expression becomes a text that may stand between the outer quotes. -/
theorem spliced_regexText {text result : String} (oneLine : '\n' ∉ text.toList)
    (run : (regexText text).run s = .ok result s') : Spliced result.toList := by
  obtain ⟨-, typeOf?, done⟩ := interpolate_ok run
  refine spliced_interpolate ⟨quotedParts true text.toList, ?_, fits_quotedParts oneLine⟩ done
  simp [escapeChars, fixEscapes, escapeCharsList_fixEscapesList]

theorem concatenation_quotedText {text result : String} (oneLine : '\n' ∉ text.toList)
    (run : (quotedText text).run s = .ok result s') : Concatenation result.toList := by
  cases run
  have body := @body_quotedParts false _ oneLine
  rw [← fixEscapesList_escapeCharsList] at body
  simpa [fixEscapes, escapeChars] using Concatenation.literal body

theorem concatenation_doubleQuotedText {text result : String} (oneLine : '\n' ∉ text.toList)
    (escaped : escapeCharsList ['"'] false text.toList = text.toList)
    (run : (doubleQuotedText text).run s = .ok result s') : Concatenation result.toList := by
  obtain ⟨inner, _, run, ⟨⟩⟩ := Plain.cut run
  obtain ⟨-, typeOf?, done⟩ := interpolate_ok run
  have spliced : Spliced (fixEscapes false text).toList := by
    refine ⟨quotedParts false text.toList, ?_, fits_quotedParts oneLine⟩
    rw [← fixEscapesList_escapeCharsList, escaped, fixEscapes, String.toList_ofList]
  simpa using (spliced_interpolate spliced done).concatenation

/-! ### The code around literals -/

abbrev Frame := String × String

def Frame.around (frame : Frame) (literal : String) : String :=
  frame.1 ++ literal ++ frame.2

def FramesLiteral (s : State) (f : String → Position → Plain Fragment) : Prop :=
  ∃ frames : List Frame, ∀ regex at_ c s', (f regex at_).run s = .ok c s' →
    c.texts = frames.map (·.around ("\"" ++ regex ++ "\""))

theorem regexClass_run (s : State) :
    regexClass.run s = .ok (if s.options.jregex then "JRegex" else "Regex") s := rfl

theorem framesLiteral_matching (negated : Bool) (exp : Fragment) :
    FramesLiteral s (matching negated exp) := by
  let lib := if s.options.jregex then "JRegex" else "Regex"
  let text := exp.toText.toOption.getD ""
  let frame (call : String) : Frame := (call ++ "(" ++ text ++ ", ", ")")
  refine ⟨if negated then [frame ("!" ++ lib ++ ".match"), frame ("!" ++ lib ++ ".match")]
    else [frame (lib ++ ".matchAvc"), frame (lib ++ ".match")], ?_⟩
  intro regex at_ c s' run
  obtain ⟨_, _, named, run⟩ := Plain.cut run
  cases (regexClass_run s).symm.trans named
  obtain ⟨code, _, joined, run⟩ := Plain.cut run
  obtain ⟨_, _, -, run⟩ := Plain.cut run
  obtain ⟨t, _, made, run⟩ := Plain.cut run
  obtain ⟨joined, -⟩ := Plain.lift_eq_ok.1 joined
  obtain ⟨made, -⟩ := Plain.lift_eq_ok.1 made
  have same : text = t := by simp [text, made, Except.toOption]
  cases negated <;> cases run <;>
    simp [Fragment.texts, Frame.around, frame, same, join_eq_ok joined, lib, ← String.toList_inj]

/-- Whether what a fragment reads is an element of a hash or of a list, or the whole of it. -/
def readsCollection (s : State) (c : Fragment) : Bool :=
  match c.variable_ with
  | none => false
  | some id =>
    match (s.vars.getD id {}).shape.head with
    | .ok d => d.name? == some .hash || d.name? == some .list
    | .error _ => false

theorem storeInto_of_scalar {c : Fragment} {exp result : String}
    (scalar : readsCollection s c = false)
    (run : (storeInto c exp).run s = .ok result s') : result = c.value ++ " = " ++ exp := by
  obtain ⟨_, s₁, whole, run⟩ := Plain.cut run
  obtain ⟨-, rfl⟩ := Plain.lift_eq_ok.1 whole
  unfold readsCollection at scalar
  split at run
  · cases run
  · next id read =>
    obtain ⟨_, _, ⟨⟩, run⟩ := Plain.cut run
    obtain ⟨d, s₁, found, run⟩ := Plain.cut run
    obtain ⟨head, rfl⟩ := Plain.lift_eq_ok.1 found
    obtain ⟨stored, -⟩ := Plain.lift_eq_ok.1 run
    rw [State.vars_cloaked] at head
    simp only [read] at scalar
    rw [head] at scalar
    obtain ⟨notHash, notList⟩ := Bool.or_eq_false_iff.1 scalar
    unfold Edit.storeInto at stored
    split at stored
    · next hash => simp [hash] at notHash
    · next list => simp [list] at notList
    · cases stored
      rfl

def stringCode (value : String) : Fragment :=
  { value, shape := .scalar .string }

/-- The text that a conversion to a scalar puts around a string. -/
def scalarFrame : Option TypeName → Frame
  | some .boolean => ("Pd.eval(", ")")
  | some .integer => ("Integer.parseInt(", ")")
  | some .long => ("Long.parseLong(", ")")
  | some .float => ("Float.parseFloat(", ")")
  | some .double => ("Double.parseDouble(", ")")
  | _ => ("", "")

theorem toBoolean_stringCode {value : String} (spelt : digitsOnly.matchesStart value = false) :
    (stringCode value).toBoolean = .ok ("Pd.eval(" ++ value ++ ")") := by
  have plain : Fragment.toBoolean.plain (stringCode value) = if digitsOnly.matchesStart value then
      .ok (if value == "0" then "false" else "true") else .ok ("Pd.eval(" ++ value ++ ")") := rfl
  rw [spelt] at plain
  exact plain

theorem converted_string_of_scalar {target : Shape} {value result : String} {head : Dim}
    (headed : target.head = .ok head)
    (scalar : target.size = .ok 1) (spelt : digitsOnly.matchesStart value = false)
    (run : (converted target (stringCode value)).run s = .ok result s') :
    result = (scalarFrame head.name?).around value := by
  obtain ⟨made, s₁, run, ⟨⟩⟩ := Plain.cut run
  unfold convert at run
  obtain ⟨_, s₂, found, run⟩ := Plain.cut run
  obtain ⟨_, s₃, sized, run⟩ := Plain.cut run
  obtain rfl := Except.ok.inj (headed.symm.trans (Plain.lift_eq_ok.1 found).1)
  obtain rfl := Except.ok.inj (scalar.symm.trans (Plain.lift_eq_ok.1 sized).1)
  rw [if_pos (show ((1 : Nat) == 1) = true from rfl)] at run
  split at run
  case h_1 named =>
    rw [toBoolean_stringCode spelt] at run
    cases run
    rw [named]
    rfl
  case h_7 notBoolean notInteger notLong notFloat notDouble _ =>
    cases run
    have none_ : scalarFrame head.name? = ("", "") := by
      unfold scalarFrame
      split
      · exact absurd ‹_› notBoolean
      · exact absurd ‹_› notInteger
      · exact absurd ‹_› notLong
      · exact absurd ‹_› notFloat
      · exact absurd ‹_› notDouble
      · rfl
    simp [none_, Frame.around, stringCode]
  case h_6 named =>
    cases run
    simp [named, scalarFrame, Frame.around, stringCode]
  all_goals
    next named =>
      cases run
      rw [named]
      rfl

theorem converted_string_of_collection {target : Shape} {value result : String}
    (collection : target.size ≠ .ok 1)
    (run : (converted target (stringCode value)).run s = .ok result s') : result = value := by
  obtain ⟨made, s₁, run, ⟨⟩⟩ := Plain.cut run
  unfold convert at run
  obtain ⟨head, s₂, -, run⟩ := Plain.cut run
  obtain ⟨size, s₃, sized, run⟩ := Plain.cut run
  obtain ⟨sized, -⟩ := Plain.lift_eq_ok.1 sized
  rw [if_neg (by simpa [sized] using collection)] at run
  have kept {s s' : State} {made : String × Fragment}
      (run : (agreed target false (stringCode value)).run s = .ok made s') : made.1 = value := by
    unfold agreed at run
    obtain ⟨same, _, -, run⟩ := Plain.cut run
    cases same with
    | true =>
      cases run
      rfl
    | false =>
      obtain ⟨_, _, -, run⟩ := Plain.cut run
      obtain ⟨_, _, -, run⟩ := Plain.cut run
      obtain ⟨_, _, -, ⟨⟩⟩ := Plain.cut run
      rfl
  split at run
  · exact kept run
  · exact kept run
  · exact kept run

/-- A conversion puts the same text around every string expression. -/
theorem exists_frame_converted (target : Shape) : ∃ frame : Frame, ∀ {s s' : State}
    {value result : String}, digitsOnly.matchesStart value = false →
    (converted target (stringCode value)).run s = .ok result s' →
    result = frame.around value := by
  by_cases scalar : target.size = .ok 1
  · cases headed : target.head with
    | ok head => exact ⟨_, fun spelt run => converted_string_of_scalar headed scalar spelt run⟩
    | error e =>
      refine ⟨("", ""), fun spelt run => ?_⟩
      obtain ⟨_, _, run, -⟩ := Plain.cut run
      obtain ⟨_, _, found, -⟩ := Plain.cut run
      cases (headed.symm.trans (Plain.lift_eq_ok.1 found).1)
  · refine ⟨("", ""), fun spelt run => ?_⟩
    simpa [Frame.around] using converted_string_of_collection scalar run

theorem framesLiteral_changeByRegex (function : String) (c : Fragment)
    (scalar : readsCollection s c = false) : FramesLiteral s (changeByRegex function c) := by
  let lib := if s.options.jregex then "JRegex" else "Regex"
  obtain ⟨frame, converts⟩ := exists_frame_converted c.shape
  let call := lib ++ "." ++ function ++ "(" ++ c.toText.toOption.getD "" ++ ", "
  let whole : Frame := (c.value ++ " = " ++ frame.1 ++ call, ")" ++ frame.2)
  refine ⟨[whole, whole], fun regex at_ result s' run => ?_⟩
  unfold changeByRegex at run
  obtain ⟨_, _, ⟨⟩, run⟩ := Plain.cut run
  obtain ⟨code, s₁, lifted, run⟩ := Plain.cut run
  obtain ⟨joined, rfl⟩ := Plain.lift_eq_ok.1 lifted
  obtain ⟨_, s₁, checked, run⟩ := Plain.cut run
  obtain ⟨s₂, isVariable, run⟩ := Plain.join_eq_ok.1 run
  obtain ⟨size, s₃, sized, run⟩ := Plain.cut run
  obtain ⟨-, rfl⟩ := Plain.lift_eq_ok.1 sized
  obtain ⟨s₃, isScalar, run⟩ := Plain.join_eq_ok.1 run
  obtain ⟨text, s₄, lifted, run⟩ := Plain.cut run
  obtain ⟨made, rfl⟩ := Plain.lift_eq_ok.1 lifted
  obtain ⟨exp, s₄, changed, run⟩ := Plain.cut run
  obtain ⟨value, s₅, stored, ⟨⟩⟩ := Plain.cut run
  -- Nothing on the way changes the table of variables, so the place is still a scalar.
  have : Untold fun s : State => s.vars := ⟨fun _ _ => rfl⟩
  have : Unplaced fun s : State => s.vars := ⟨fun _ _ => rfl⟩
  have checks : Preserves (·.vars) (check c true) := .walk
  have keeps {d : Fragment} : Preserves (·.vars) (converted c.shape d) := .walk
  have reported (m : Message) (at_ : Position) {p : Prop} [Decidable p] :
      Preserves (·.vars) (if p then report m at_ [] else pure ()) := .walk
  have vars : s₄.vars = s.vars :=
    calc s₄.vars = s₃.vars := keeps _ _ _ changed
      _ = s₂.vars := reported _ _ _ _ _ isScalar
      _ = s₁.vars := reported _ _ _ _ _ isVariable
      _ = s.vars := checks _ _ _ checked
  have scalar : readsCollection s₄ c = false := by rwa [readsCollection, vars]
  have same : c.toText.toOption.getD "" = text := by simp [made, Except.toOption]
  have spelt : digitsOnly.matchesStart
      (lib ++ "." ++ function ++ "(" ++ text ++ ", \"" ++ regex ++ "\")") = false := by
    obtain ⟨rest, begins⟩ : ∃ rest, (lib ++ "." ++ function ++ "(" ++ text ++ ", \"" ++ regex
        ++ "\")").toList = (if s.options.jregex then 'J' else 'R') :: rest := by
      cases jregex : s.options.jregex <;> simp [lib, jregex]
    refine digitsOnly_eq_false begins ?_ ?_ <;> cases s.options.jregex <;> decide
  rw [storeInto_of_scalar scalar stored, converts spelt changed]
  simp [Fragment.texts, Frame.around, whole, call, same, join_eq_ok joined, lib, ← String.toList_inj]

/-! ### The productions of literals -/

/-- The productions that read strings and regular expressions. -/
def literalProductions : List Production :=
  [⟨.value, [.STRING_QUOTE]⟩, ⟨.value, [.STRING_DOUBLE_QUOTE]⟩,
    ⟨.regex, [.expression, .STR_NO_REX, .M_REGEX]⟩, ⟨.regex, [.expression, .STR_REX, .M_REGEX]⟩,
    ⟨.regex, [.expression, .STR_REX, .S_REGEX]⟩, ⟨.regex, [.expression, .STR_REX, .Y_REGEX]⟩]

theorem mem_literalProductions {production : Production} {action : Action} {k : Symbol}
    (found : allActions.lookup production = some action) (literal : k ∈ literalSymbols)
    (reads : k ∈ production.symbols) : production ∈ literalProductions := by
  have all : allActions.all (fun (production, _) => literalProductions.contains production
      || production.symbols.all fun k => !literalSymbols.contains k) = true := by
    decide +kernel
  have known := List.all_eq_true.1 all _ (OrderedMap.mem_of_lookup found)
  simp only [Bool.or_eq_true, List.contains_eq_mem, decide_eq_true_eq, List.all_eq_true,
    Bool.not_eq_true', decide_eq_false_iff_not] at known
  exact known.resolve_right fun none => none k reads literal

/-- Whether a regular expression changes an element of a hash or of a list. -/
def changesElement (s : State) (k : Symbol) (others : List (Value × Position)) : Bool :=
  [Symbol.S_REGEX, .Y_REGEX].contains k && match others with
    | (.code c, _) :: _ => readsCollection s c
    | _ => false

/-- An action gives code that contains a literal, and what is around it does not depend on the text
of the literal. -/
def BuildsLiteral (s : State) (k : Symbol) (f : Token → M Value) : Prop :=
  ∃ frames : List Frame, ∀ t v s', t.kind = k.text → t.Scanned → f t s = .ok v s' →
    ∃ c literal, v = .code c ∧ Concatenation literal.toList
      ∧ c.texts = frames.map (·.around literal)

def argsBefore (others : List (Value × Position)) (t : Token) : Args :=
  ⟨(others ++ [(Value.text t.value, t.position)]).toArray⟩

theorem buildsLiteral_literal {k : Symbol} {text : String → Plain String}
    (concatenation : ∀ {t : Token} {s s' result}, t.kind = k.text → t.Scanned →
      (text t.value).run s = .ok result s' → Concatenation result.toList) :
    BuildsLiteral s k fun t => (literal .string text (argsBefore [] t)).run := by
  refine ⟨[("", "")], fun t v s' kind scanned run => ?_⟩
  obtain ⟨_, _, ⟨⟩, run⟩ := Plain.cut run
  obtain ⟨value, s₁, made, ⟨⟩⟩ := Plain.cut run
  refine ⟨_, value, rfl, concatenation kind scanned made, ?_⟩
  simp [Fragment.texts, Frame.around]

theorem buildsLiteral_onRegex {k : Symbol} {others : List (Value × Position)}
    {f : Fragment → String → Position → Plain Fragment} (literal : k ∈ literalSymbols)
    (two : others.length = 2)
    (frames : ∀ c at_ more, others = (.code c, at_) :: more → FramesLiteral s (f c)) :
    BuildsLiteral s k fun t => (onRegex f (argsBefore others t)).run := by
  obtain _ | ⟨⟨first, at_⟩, _ | ⟨second, _ | ⟨third, more⟩⟩⟩ := others <;> simp at two
  cases first with
  | code c =>
    obtain ⟨frames, framed⟩ := frames c at_ _ rfl
    refine ⟨frames, fun t v s' kind scanned run => ?_⟩
    obtain ⟨_, _, ⟨⟩, run⟩ := Plain.cut run
    obtain ⟨regex, s₁, made, run⟩ := Plain.cut run
    obtain ⟨_, _, ⟨⟩, run⟩ := Plain.cut run
    obtain ⟨code, s₂, built, ⟨⟩⟩ := Plain.cut run
    have spliced := spliced_regexText (scanned.newline_notMem literal kind) made
    obtain ⟨rfl, -⟩ := interpolate_ok made
    refine ⟨code, "\"" ++ regex ++ "\"", rfl, ?_, framed _ _ _ _ built⟩
    simpa using spliced.concatenation
  | _ =>
    refine ⟨[], fun t v s' kind scanned run => ?_⟩
    obtain ⟨_, _, ⟨⟩, run⟩ := Plain.cut run
    obtain ⟨regex, s₁, made, run⟩ := Plain.cut run
    obtain ⟨_, _, ⟨⟩, run⟩ := Plain.cut run

/-- Whatever a string or a regular expression contains, what its production makes of it is a Java
literal, or literals with operands between them, inside code that does not depend on it; but an
element of a hash or of a list must not be changed by it. The text of a string between single quotes
becomes the body of one literal. -/
theorem literals_well_formed {production : Production} {action : Action} {k : Symbol}
    {others : List (Value × Position)} {s : State}
    (found : allActions.lookup production = some action) (isLiteral : k ∈ literalSymbols)
    (reads : k ∈ production.symbols) (all : others.length + 1 = production.symbols.length)
    (scalar : changesElement s k others = false) :
    BuildsLiteral s k (fun t => action.run (argsBefore others t))
    ∧ ∀ text : String, '\n' ∉ text.toList →
      Body (fixEscapes false (escapeChars ['"'] text)).toList := by
  constructor
  · have known := mem_literalProductions found isLiteral reads
    have change {function : String} (changes : k ∈ [Symbol.S_REGEX, .Y_REGEX])
        (c : Fragment) (at_ : Position) (more : List (Value × Position))
        (same : others = (.code c, at_) :: more) : FramesLiteral s (changeByRegex function c) := by
      subst same
      refine framesLiteral_changeByRegex function c ?_
      simpa [changesElement, changes] using scalar
    have acts {other : Action} (is : allActions.lookup production = some other) : other = action :=
      Option.some.inj (is.symm.trans found)
    simp only [literalProductions, List.mem_cons, List.not_mem_nil, or_false] at known
    obtain rfl | rfl | rfl | rfl | rfl | rfl := known
    · obtain rfl := @acts (rule .value [.STRING_QUOTE] (literal .string quotedText)).2 rfl
      obtain rfl := List.mem_singleton.1 reads
      obtain rfl := List.length_eq_zero_iff.1 (Nat.succ.inj all)
      exact buildsLiteral_literal fun kind scanned run =>
        concatenation_quotedText (scanned.newline_notMem isLiteral kind) run
    · obtain rfl :=
        @acts (rule .value [.STRING_DOUBLE_QUOTE] (literal .string doubleQuotedText)).2 rfl
      obtain rfl := List.mem_singleton.1 reads
      obtain rfl := List.length_eq_zero_iff.1 (Nat.succ.inj all)
      exact buildsLiteral_literal fun kind scanned run =>
        concatenation_doubleQuotedText (scanned.newline_notMem isLiteral kind)
          (scanned.escapeCharsList_eq kind) run
    · obtain rfl :=
        @acts (rule .regex [.expression, .STR_NO_REX, .M_REGEX] (onRegex (matching true))).2 rfl
      exact buildsLiteral_onRegex isLiteral (Nat.succ.inj all) fun c _ _ _ =>
        framesLiteral_matching true c
    · obtain rfl :=
        @acts (rule .regex [.expression, .STR_REX, .M_REGEX] (onRegex (matching false))).2 rfl
      exact buildsLiteral_onRegex isLiteral (Nat.succ.inj all) fun c _ _ _ =>
        framesLiteral_matching false c
    · obtain rfl :=
        @acts (rule .regex [.expression, .STR_REX, .S_REGEX] (onRegex (changeByRegex "s"))).2 rfl
      have last : ∀ k ∈ [Symbol.expression, .STR_REX, .S_REGEX], k ∈ literalSymbols →
          k ∈ [Symbol.S_REGEX, .Y_REGEX] := by decide
      exact buildsLiteral_onRegex isLiteral (Nat.succ.inj all) (change (last k reads isLiteral))
    · obtain rfl :=
        @acts (rule .regex [.expression, .STR_REX, .Y_REGEX] (onRegex (changeByRegex "tr"))).2 rfl
      have last : ∀ k ∈ [Symbol.expression, .STR_REX, .Y_REGEX], k ∈ literalSymbols →
          k ∈ [Symbol.S_REGEX, .Y_REGEX] := by decide
      exact buildsLiteral_onRegex isLiteral (Nat.succ.inj all) (change (last k reads isLiteral))
  · intro text oneLine
    have body := @body_quotedParts false _ oneLine
    rw [← fixEscapesList_escapeCharsList] at body
    simpa [fixEscapes, escapeChars] using body

def digitSubstitution : Token :=
  ⟨"S_REGEX", "s/\\d/x/", 1, 0⟩

theorem scanned_digitSubstitution : digitSubstitution.Scanned := by
  have found : (Scanner.step false (.ofText "s/\\d/x/")).map (·.1)
      = some (.token digitSubstitution) := by
    decide
  obtain ⟨⟨_, s'⟩, step, rfl⟩ := Option.map_eq_some_iff.1 found
  exact ⟨_, false, s', step⟩

/-- What stands before the token in a substitution in a string. -/
def inString (value : String) : List (Value × Position) :=
  [(.code { value, shape := .scalar .string, variable_ := some 0 }, {}), (.text "=~", {})]

/-- What the production of a substitution makes of the token. -/
def substituted (shape : Shape) (value : String) : EStateM.Result Stop State Value :=
  (onRegex (changeByRegex "s") (argsBefore (inString value) digitSubstitution)).run
    { vars := #[{ shape }] }

theorem exists_code {result : EStateM.Result Stop State Value} (value : String)
    (has : (match result with | .ok (.code c) _ => c.value == value | _ => false) = true) :
    ∃ c s', result = .ok (.code c) s' ∧ c.value = value := by
  split at has
  · exact ⟨_, _, rfl, eq_of_beq has⟩
  · cases has

/-- A substitution in a string variable assigns the result to the variable. -/
theorem literals_well_formed_assignment : ∃ c s' frames literal,
    substituted (.scalar .string) "t" = .ok (.code c) s'
      ∧ c.value = "t = Regex.s(t, \"s/\\\\d/x/\")" ∧ Concatenation literal.toList
      ∧ c.texts = List.map (Frame.around · literal) frames := by
  obtain ⟨c, s', run, value⟩ : ∃ c s', substituted (.scalar .string) "t" = .ok (.code c) s'
      ∧ c.value = "t = Regex.s(t, \"s/\\\\d/x/\")" :=
    exists_code _ (by decide)
  obtain ⟨⟨frames, built⟩, -⟩ :=
    @literals_well_formed ⟨.regex, [.expression, .STR_REX, .S_REGEX]⟩ _ .S_REGEX (inString "t")
      { vars := #[{ shape := .scalar .string }] } rfl (by decide) (by decide) rfl rfl
  obtain ⟨_, literal, ⟨⟩, concatenation, texts⟩ :=
    built digitSubstitution (.code c) s' rfl scanned_digitSubstitution run
  exact ⟨c, s', frames, literal, run, value, concatenation, texts⟩

/-- In a substitution in an element of a hash, the backslash that escapes another is lost. -/
theorem literal_unescaped : ∃ c s',
    substituted (.ofNames [.hash, .string]) "h.get(\"k\")" = .ok (.code c) s'
      ∧ c.value = "h.put(\"k\",Regex.s(h.get(\"k\"), " ++ "\"s/\\d/x/\"" ++ "))"
      ∧ ¬ Concatenation "\"s/\\d/x/\"".toList := by
  obtain ⟨c, s', run, value⟩ : ∃ c s',
      substituted (.ofNames [.hash, .string]) "h.get(\"k\")" = .ok (.code c) s'
        ∧ c.value = "h.put(\"k\",Regex.s(h.get(\"k\"), " ++ "\"s/\\d/x/\"" ++ "))" :=
    exists_code _ (by decide)
  refine ⟨c, s', run, value, fun concatenation => ?_⟩
  have noEscape : ¬ isEscape 'd' = true := by decide
  have plain : ∀ d ∈ ['s', '/'], isPlain d = true := List.all_eq_true.1 (by decide)
  generalize same : "\"s/\\d/x/\"".toList = text at concatenation
  cases concatenation with
  | literal body =>
    exact noEscape (body.isEscape_of_append ['s', '/'] plain (List.cons.inj same.symm).2)
  | plus body =>
    exact noEscape (body.isEscape_of_append ['s', '/'] plain (List.cons.inj same.symm).2)

end Compile

end PerlJava
