import PerlJava.Proofs.Java.OuterParens

/-!
# Arguments of a call

How Java code is cut into the arguments of a call. Brackets of every kind open and close, those of
type arguments too; string literals hide what is in them; and a comma outside all brackets separates
two arguments. `Single` texts are one argument. A text stays one without the parentheses at its ends
if and only if these enclose one.
-/

namespace PerlJava.Java

/-! ### Reading code -/

/-- Where code is being read: outside string literals, maybe right behind a word, inside one, or
behind a backslash in one. -/
inductive CodeMode where
  | code (afterWord : Bool)
  | literal
  | escape
deriving Repr, DecidableEq

/-- How far code has been read: the brackets that are open, innermost first, and where that is. -/
structure CodeReading where
  opened : List Char := []
  mode : CodeMode := .code false
deriving Repr, DecidableEq

namespace CodeReading

def opening? : Char → Option Char
  | ')' => some '('
  | ']' => some '['
  | '}' => some '{'
  | '>' => some '<'
  | _ => none

/-- Whether a character opens a bracket. Type arguments follow the name of the type at once, while
comparisons stand between blanks. -/
def opens (afterWord : Bool) (c : Char) : Bool :=
  c == '(' || c == '[' || c == '{' || (c == '<' && afterWord)

/-- Whether a character cannot be read: it would close another bracket than the innermost one, or it is
a comma outside all of them. -/
def misplaced (opened : List Char) (c : Char) : Bool :=
  c == ')' || c == ']' || c == '}' || (c == ',' && opened.isEmpty)

/-- Reads a character outside string literals. -/
def code (opened : List Char) (afterWord : Bool) (c : Char) : Option CodeReading :=
  if c = '"' then some { opened, mode := .literal }
  else if opens afterWord c then some { opened := c :: opened }
  else if (opening? c).isSome && opening? c == opened.head? then some { opened := opened.tail }
  else if misplaced opened c then none
  else some { opened, mode := .code (c.isAlphanum || c == '_') }

def step (r : CodeReading) (c : Char) : Option CodeReading :=
  match r.mode with
  | .escape => some { r with mode := .literal }
  | .literal =>
    some { r with
      mode := if c = '"' then .code false else if c = '\\' then .escape else .literal }
  | .code afterWord => code r.opened afterWord c

/-- Outside string literals and brackets. -/
def isOutside : CodeReading → Bool
  | ⟨[], .code _⟩ => true
  | _ => false

/-- How many arguments a call has whose arguments are read, if so many have begun. -/
def arguments (r : CodeReading) (n : Nat) : List Char → Option Nat
  | [] => none
  | c :: rest =>
    if r.isOutside && c == ')' then some n
    else if r.isOutside && c == ',' then arguments {} (n + 1) rest
    else (step r c).bind fun r => arguments r n rest

end CodeReading

/-- The number of arguments of a call, from the code behind its opening parenthesis on. -/
def argumentCount (text : String) : Option Nat :=
  if text.toList.head? = some ')' then some 0 else CodeReading.arguments {} 1 text.toList

/-- A text is one argument: its brackets are closed in order, and no comma stands outside them. -/
def Single (text : String) : Prop :=
  text ≠ "" ∧ ∃ afterWord, text.toList.foldlM CodeReading.step {} = some ⟨[], .code afterWord⟩

instance (text : String) : Decidable (Single text) :=
  inferInstanceAs (Decidable (_ ∧ _))

example : argumentCount "f(a, b), new Map<String,Integer>(), \"(,\") + 1" = some 3 := by decide

namespace CodeReading

section Around

variable {base opened opened' : List Char} {afterWord : Bool} {mode mode' : CodeMode} {c : Char}
  {r : CodeReading}

/-- What a character that is read outside string literals does. -/
theorem code_cases (read : code opened afterWord c = some r) :
    (c = '"' ∧ r = ⟨opened, .literal⟩)
      ∨ (c ≠ '"' ∧ opens afterWord c = true ∧ r = ⟨c :: opened, .code false⟩)
      ∨ (c ≠ '"' ∧ opens afterWord c = false
        ∧ ∃ o, opening? c = some o ∧ opened = o :: r.opened ∧ r.mode = .code false)
      ∨ (c ≠ '"' ∧ opens afterWord c = false ∧ (∀ o, opening? c = some o → opened.head? ≠ some o)
        ∧ misplaced opened c = false ∧ r = ⟨opened, .code (c.isAlphanum || c == '_')⟩) := by
  unfold code at read
  split at read
  · next quote => exact .inl ⟨quote, (Option.some.inj read).symm⟩
  next quote =>
  split at read
  · next opens => exact .inr (.inl ⟨quote, opens, (Option.some.inj read).symm⟩)
  next opens =>
  have opens := Bool.eq_false_iff.2 opens
  split at read
  · next closes =>
    simp only [Bool.and_eq_true, beq_iff_eq] at closes
    obtain ⟨o, closed⟩ := Option.isSome_iff_exists.1 closes.1
    obtain ⟨outer, rfl⟩ := List.head?_eq_some_iff.1 (closes.2.symm.trans closed)
    cases read
    exact .inr (.inr (.inl ⟨quote, opens, o, closed, rfl, rfl⟩))
  next closes =>
  split at read
  · cases read
  next fits =>
  refine .inr (.inr (.inr ⟨quote, opens, fun o closed innermost => closes ?_,
    Bool.eq_false_iff.2 fits, (Option.some.inj read).symm⟩))
  rw [closed, innermost]
  simp

private theorem code_closes {o : Char} (closed : opening? c = some o) :
    code (o :: opened) afterWord c = some { opened } := by
  have quote : c ≠ '"' := by
    rintro rfl
    cases closed
  have opens : opens afterWord c = false := by
    unfold opening? at closed
    split at closed
    · rfl
    · rfl
    · rfl
    · rfl
    · cases closed
  simp [code, quote, opens, closed]

private theorem code_other (quote : c ≠ '"') (opens : opens afterWord c = false)
    (closes : ∀ o, opening? c = some o → opened.head? ≠ some o) (fits : misplaced opened c = false) :
    code opened afterWord c = some ⟨opened, .code (c.isAlphanum || c == '_')⟩ := by
  have other : ((opening? c).isSome && opening? c == opened.head?) = false := by
    cases closed : opening? c with
    | none => rfl
    | some o => simpa [beq_eq_false_iff_ne] using (closes o closed).symm
  simp [code, quote, opens, other, fits]

/-- A word leaves all brackets as they are. -/
theorem foldlM_word {text : List Char} (word : ∀ c ∈ text, c.isAlphanum = true) :
    text.foldlM step ⟨opened, .code true⟩ = some ⟨opened, .code true⟩ := by
  induction text with
  | nil => rfl
  | cons c text ih =>
    simp only [List.forall_mem_cons] at word
    have other {d : Char} (symbol : d.isAlphanum = false) : c ≠ d := by
      rintro rfl
      rw [word.1] at symbol
      cases symbol
    have opens : opens true c = false := by
      simp [CodeReading.opens, @other '(' rfl, @other '[' rfl, @other '{' rfl, @other '<' rfl]
    have closes : opening? c = none := by
      unfold opening?
      split
      · exact absurd rfl (other rfl)
      · exact absurd rfl (other rfl)
      · exact absurd rfl (other rfl)
      · exact absurd rfl (other rfl)
      · rfl
    have fits : misplaced opened c = false := by
      simp [misplaced, @other ')' rfl, @other ']' rfl, @other '}' rfl, @other ',' rfl]
    have read : step ⟨opened, .code true⟩ c = some ⟨opened, .code (c.isAlphanum || c == '_')⟩ :=
      code_other (other rfl) opens (by simp [closes]) fits
    rw [List.foldlM_cons, read, word.1]
    exact ih word.2

/-- Brackets around some code do not change how it is read, if they are not those of type arguments. -/
theorem step_around (around : base.head? ≠ some '<')
    (read : step ⟨opened, mode⟩ c = some ⟨opened', mode'⟩) :
    step ⟨opened ++ base, mode⟩ c = some ⟨opened' ++ base, mode'⟩ := by
  cases mode with
  | escape =>
    cases read
    rfl
  | literal =>
    cases read
    rfl
  | code afterWord =>
    change code (opened ++ base) afterWord c = _
    obtain ⟨rfl, ⟨⟩⟩ | ⟨quote, opens, ⟨⟩⟩ | ⟨-, -, o, closed, rfl, rfl⟩
      | ⟨quote, opens, closes, fits, ⟨⟩⟩ := code_cases read
    · rfl
    · simp [code, quote, opens]
    · exact code_closes closed
    · refine code_other quote opens (fun o closed innermost => ?_) ?_
      · cases opened with
        | cons inner opened => exact closes o closed innermost
        | nil =>
          unfold opening? at closed
          split at closed <;> cases closed
          · cases fits
          · cases fits
          · cases fits
          · exact around innermost
      · simp only [misplaced, Bool.or_eq_false_iff, Bool.and_eq_false_iff] at fits ⊢
        refine ⟨fits.1, fits.2.imp_right fun some_ => ?_⟩
        cases opened with
        | nil => cases some_
        | cons => rfl

private theorem foldlM_around {text : List Char} (around : base.head? ≠ some '<')
    (read : text.foldlM step ⟨opened, mode⟩ = some ⟨opened', mode'⟩) :
    text.foldlM step ⟨opened ++ base, mode⟩ = some ⟨opened' ++ base, mode'⟩ := by
  induction text generalizing opened mode with
  | nil =>
    cases read
    rfl
  | cons c text ih =>
    obtain ⟨⟨middle, between⟩, first, read⟩ := Option.bind_eq_some_iff.1 read
    rw [List.foldlM_cons, step_around around first]
    exact ih read

end Around

/-! ### Counting -/

section Count

variable {r r' : CodeReading} {c : Char} {n : Nat} {text rest : List Char} {afterWord : Bool}

private theorem step_outside (outside : r.isOutside = true) (ends : c = ')' ∨ c = ',') :
    step r c = none := by
  unfold isOutside at outside
  split at outside
  · obtain rfl | rfl := ends <;> rfl
  · cases outside

/-- What can be read neither ends the arguments nor separates two of them. -/
private theorem arguments_step (read : step r c = some r') :
    arguments r n (c :: rest) = arguments r' n rest := by
  have inside {d : Char} (ends : d = ')' ∨ d = ',') : ¬(r.isOutside && c == d) = true := by
    intro both
    simp only [Bool.and_eq_true, beq_iff_eq] at both
    obtain ⟨outside, rfl⟩ := both
    rw [step_outside outside ends] at read
    cases read
  rw [arguments, if_neg (inside (.inl rfl)), if_neg (inside (.inr rfl)), read]
  rfl

theorem arguments_append (read : text.foldlM step r = some r') :
    arguments r n (text ++ rest) = arguments r' n rest := by
  induction text generalizing r with
  | nil =>
    cases read
    rfl
  | cons c text ih =>
    obtain ⟨middle, first, read⟩ := Option.bind_eq_some_iff.1 read
    rw [List.cons_append, arguments_step first, ih read]

end Count

end CodeReading

/-! ### Single arguments -/

namespace Single

variable {text before after : String}

private theorem ne_empty (single : Single text) : text ≠ "" :=
  single.1

/-- What is read around one argument: `before` opens some brackets, and `after` closes them. -/
theorem enclosed {base : List Char} (single : Single text)
    (opens : before.toList.foldlM CodeReading.step {} = some ⟨base, .code false⟩)
    (closes : ∀ afterWord, ∃ afterWord',
      after.toList.foldlM CodeReading.step ⟨base, .code afterWord⟩ = some ⟨[], .code afterWord'⟩)
    (around : base.head? ≠ some '<') : Single (before ++ text ++ after) := by
  obtain ⟨some_, afterWord, read⟩ := single
  obtain ⟨afterWord', closed⟩ := closes afterWord
  refine ⟨fun none => some_ ?_, afterWord', ?_⟩
  · exact (String.append_eq_empty_iff.1 (String.append_eq_empty_iff.1 none).1).2
  · have inside := CodeReading.foldlM_around around read
    rw [List.nil_append] at inside
    simp only [String.toList_append, List.foldlM_append, opens, Option.bind_eq_bind,
      Option.bind_some, inside, closed]

theorem followed (single : Single text)
    (closes : ∀ afterWord, ∃ afterWord',
      after.toList.foldlM CodeReading.step ⟨[], .code afterWord⟩ = some ⟨[], .code afterWord'⟩) :
    Single (text ++ after) := by
  have whole := @enclosed text "" after [] single rfl closes nofun
  rwa [String.empty_append] at whole

/-- One argument in a call of a function with it alone, or in parentheses. -/
theorem called (single : Single text)
    (opens : before.toList.foldlM CodeReading.step {} = some ⟨['('], .code false⟩) :
    Single (before ++ text ++ ")") :=
  single.enclosed opens (by decide) (by decide)

end Single

/-! ### Lists of arguments -/

/-- A text is a list of some arguments. -/
inductive Listed : Nat → String → Prop where
  | none : Listed 0 ""
  | one {text : String} : Single text → Listed 1 text
  | more {n : Nat} {text next : String} : Listed (n + 1) text → Single next →
    Listed (n + 2) (text ++ ", " ++ next)

namespace Listed

variable {n : Nat} {text : String}

private theorem head?_ne (listed : Listed (n + 1) text) :
    ∃ c rest, text.toList = c :: rest ∧ c ≠ ')' := by
  generalize size : n + 1 = m at listed
  induction listed generalizing n with
  | none => cases size
  | @one text single =>
    cases chars : text.toList with
    | nil => exact absurd (String.toList_eq_nil_iff.1 chars) single.ne_empty
    | cons c rest =>
      refine ⟨c, rest, rfl, ?_⟩
      rintro rfl
      obtain ⟨afterWord, read⟩ := single.2
      rw [chars] at read
      cases read
  | more _ _ ih =>
    obtain ⟨c, rest, chars, other⟩ := ih rfl
    rw [String.toList_append, String.toList_append, chars, List.append_assoc]
    exact ⟨c, _, rfl, other⟩

private theorem arguments_eq (listed : Listed (n + 1) text) : ∃ afterWord, ∀ begun rest,
    CodeReading.arguments {} begun (text.toList ++ rest)
      = CodeReading.arguments ⟨[], .code afterWord⟩ (begun + n) rest := by
  generalize size : n + 1 = m at listed
  induction listed generalizing n with
  | none => cases size
  | one single =>
    cases size
    obtain ⟨afterWord, read⟩ := single.2
    exact ⟨afterWord, fun begun rest => CodeReading.arguments_append read⟩
  | @more n text next _ single ih =>
    cases size
    obtain ⟨afterWord, read⟩ := single.2
    obtain ⟨behind, counted⟩ := ih rfl
    refine ⟨afterWord, fun begun rest => ?_⟩
    have separated (more : List Char) : CodeReading.arguments ⟨[], .code behind⟩ (begun + n)
        (',' :: ' ' :: more) = CodeReading.arguments {} (begun + (n + 1)) more := by
      change CodeReading.arguments {} (begun + n + 1) (' ' :: more) = _
      exact CodeReading.arguments_step rfl
    have chars : (text ++ ", " ++ next).toList ++ rest
        = text.toList ++ (',' :: ' ' :: (next.toList ++ rest)) := by
      simp
    rw [chars, counted, separated, CodeReading.arguments_append read]

/-- A list has as many arguments as are counted up to the parenthesis behind it. -/
theorem argumentCount_eq (listed : Listed n text) (rest : String) :
    argumentCount (text ++ ")" ++ rest) = some n := by
  unfold argumentCount
  cases n with
  | zero =>
    cases listed
    simp
  | succ n =>
    obtain ⟨c, chars, same, other⟩ := listed.head?_ne
    obtain ⟨afterWord, counted⟩ := listed.arguments_eq
    have first : (text ++ ")" ++ rest).toList.head? ≠ some ')' := by
      simpa [same] using other
    rw [if_neg first, String.toList_append, String.toList_append, List.append_assoc, counted,
      Nat.add_comm]
    rfl

/-- A list with one more argument in front. -/
theorem cons {first : String} (single : Single first) (listed : Listed (n + 1) text) :
    Listed (n + 2) (first ++ (", " ++ text)) := by
  generalize size : n + 1 = m at listed
  induction listed generalizing n with
  | none => cases size
  | one next =>
    cases size
    rw [← String.append_assoc]
    exact .more (.one single) next
  | more _ next ih =>
    cases size
    rw [← String.append_assoc, ← String.append_assoc, ← String.append_assoc]
    exact .more (by simpa only [String.append_assoc] using ih rfl) next

theorem length_pos (listed : Listed (n + 1) text) : 0 < text.length := by
  obtain ⟨c, rest, chars, -⟩ := listed.head?_ne
  rw [← String.length_toList, chars]
  exact Nat.succ_pos _

end Listed

/-- Code behind the call does not count. -/
theorem argumentCount_append {text : String} {n : Nat} (counted : argumentCount text = some n)
    (rest : String) : argumentCount (text ++ rest) = some n := by
  have goesOn {r : CodeReading} {begun : Nat} {chars : List Char}
      (counted : r.arguments begun chars = some n) :
      r.arguments begun (chars ++ rest.toList) = some n := by
    induction chars generalizing r begun with
    | nil => cases counted
    | cons c chars ih =>
      rw [List.cons_append]
      rw [CodeReading.arguments] at counted ⊢
      split at counted
      · next ends =>
        rw [if_pos ends]
        exact counted
      · next ends =>
        rw [if_neg ends]
        split at counted
        · next separates =>
          rw [if_pos separates]
          exact ih counted
        · next separates =>
          rw [if_neg separates]
          obtain ⟨r', read, counted⟩ := Option.bind_eq_some_iff.1 counted
          exact Option.bind_eq_some_iff.2 ⟨r', read, ih counted⟩
  unfold argumentCount at counted ⊢
  rw [String.toList_append]
  cases chars : text.toList with
  | nil =>
    rw [chars] at counted
    cases counted
  | cons c more =>
    rw [chars] at counted
    rw [List.cons_append, List.head?_cons] at *
    split at counted
    · next ends =>
      rw [if_pos ends]
      exact counted
    · next ends =>
      rw [if_neg ends]
      exact goesOn counted

/-! ### Parentheses at the ends -/

/-- Where a text begins and ends with a parenthesis, the first one stays open up to the last, and no
comma stands right inside it. -/
def EndsEnclose (text : String) : Prop :=
  ∀ inner, text.toList = '(' :: (inner ++ [')']) → inner ≠ [] ∧ ∀ before c rest,
    inner ++ [')'] = before ++ c :: rest → ∃ opened mode,
      before.foldlM CodeReading.step ⟨['('], .code false⟩ = some ⟨opened ++ ['('], mode⟩
        ∧ (opened = [] → ∀ afterWord, mode = .code afterWord → c ≠ ',')

namespace CodeReading

section Inside

variable {opened opened' : List Char} {mode mode' : CodeMode} {c : Char}

/-- Inside a parenthesis that stays open, all but a comma right inside it is read as without it. -/
private theorem step_inside (read : step ⟨opened ++ ['('], mode⟩ c = some ⟨opened' ++ ['('], mode'⟩)
    (noComma : opened = [] → ∀ afterWord, mode = .code afterWord → c ≠ ',') :
    step ⟨opened, mode⟩ c = some ⟨opened', mode'⟩ := by
  cases mode with
  | escape =>
    simp only [step, Option.some.injEq, mk.injEq, List.append_cancel_right_eq] at read ⊢
    exact read
  | literal =>
    simp only [step, Option.some.injEq, mk.injEq, List.append_cancel_right_eq] at read ⊢
    exact read
  | code afterWord =>
    change code opened afterWord c = _
    obtain ⟨rfl, same⟩ | ⟨quote, opens, same⟩ | ⟨-, -, o, closed, same, rfl⟩
      | ⟨quote, opens, closes, fits, same⟩ := code_cases read
    · simp only [mk.injEq, List.append_cancel_right_eq] at same
      obtain ⟨rfl, rfl⟩ := same
      rfl
    · rw [mk.injEq, ← List.cons_append, List.append_cancel_right_eq] at same
      obtain ⟨rfl, rfl⟩ := same
      simp [code, quote, opens]
    · dsimp only at same
      rw [← List.cons_append, List.append_cancel_right_eq] at same
      rw [same]
      exact code_closes closed
    · simp only [mk.injEq, List.append_cancel_right_eq] at same
      obtain ⟨rfl, rfl⟩ := same
      refine code_other quote opens (fun o closed innermost => ?_) ?_
      · refine closes o closed ?_
        obtain ⟨outer, rfl⟩ := List.head?_eq_some_iff.1 innermost
        rfl
      · simp only [misplaced, Bool.or_eq_false_iff, Bool.and_eq_false_iff] at fits ⊢
        refine ⟨fits.1, ?_⟩
        cases opened' with
        | nil => exact .inl (beq_eq_false_iff_ne.2 (noComma rfl _ rfl))
        | cons => exact .inr rfl

private theorem foldlM_inside {inner : List Char} (inside : ∀ before c rest,
      inner ++ [')'] = before ++ c :: rest → ∃ opened' mode',
        before.foldlM step ⟨opened ++ ['('], mode⟩ = some ⟨opened' ++ ['('], mode'⟩
          ∧ (opened' = [] → ∀ afterWord, mode' = .code afterWord → c ≠ ',')) :
    ∃ opened' mode', inner.foldlM step ⟨opened, mode⟩ = some ⟨opened', mode'⟩ := by
  induction inner generalizing opened mode with
  | nil => exact ⟨opened, mode, rfl⟩
  | cons c inner ih =>
    obtain ⟨_, _, same, noComma⟩ := inside [] c _ rfl
    simp only [List.foldlM_nil, Option.pure_def, Option.some.injEq, mk.injEq,
      List.append_cancel_right_eq] at same
    obtain ⟨rfl, rfl⟩ := same
    obtain ⟨d, rest, more⟩ : ∃ d rest, inner ++ [')'] = d :: rest :=
      List.exists_cons_of_ne_nil (by simp)
    obtain ⟨middle, between, first, -⟩ := inside [c] d rest (by rw [List.cons_append, more]; rfl)
    have first : step ⟨opened ++ ['('], mode⟩ c = some ⟨middle ++ ['('], between⟩ := by
      simpa using first
    obtain ⟨opened', mode', read⟩ := @ih middle between fun before d rest parts => by
      obtain ⟨opened', mode', read, noComma⟩ :=
        inside (c :: before) d rest (by rw [List.cons_append, parts]; rfl)
      rw [List.foldlM_cons, first] at read
      exact ⟨opened', mode', read, noComma⟩
    refine ⟨opened', mode', ?_⟩
    rw [List.foldlM_cons, step_inside first noComma]
    exact read

/-- A parenthesis that closes all that is open closes one outside string literals. -/
private theorem step_closesAll {afterWord : Bool}
    (read : step ⟨opened ++ ['('], mode⟩ ')' = some ⟨[], .code afterWord⟩) :
    opened = [] ∧ ∃ afterWord', mode = .code afterWord' := by
  cases mode with
  | escape => simp [step] at read
  | literal => simp [step] at read
  | code afterWord' =>
    refine ⟨?_, afterWord', rfl⟩
    obtain ⟨quote, -⟩ | ⟨-, opens, -⟩ | ⟨-, -, o, -, same, -⟩ | ⟨-, -, -, fits, -⟩ := code_cases read
    · cases quote
    · cases opens
    · exact (List.append_eq_singleton_iff.1 same).elim (·.1) fun none => absurd none.2 (by simp)
    · cases fits

end Inside

end CodeReading

section Ends

variable {inner : List Char}

theorem Single.endsEnclose (single : Single (String.ofList inner)) :
    EndsEnclose (String.ofList ('(' :: (inner ++ [')']))) := by
  obtain ⟨some_, afterWord, read⟩ := single
  rw [String.toList_ofList] at read
  intro other same
  obtain rfl : inner = other := by simpa using same
  refine ⟨fun empty => some_ (by rw [empty]), fun before c rest parts => ?_⟩
  -- What comes next stands inside, or is the last parenthesis.
  obtain ⟨later, rfl, next⟩ : ∃ later, inner = before ++ later
      ∧ (c = ')' ∨ ∃ later', later = c :: later') := by
    obtain ⟨more, rfl, tail⟩ | ⟨more, rfl, tail⟩ := List.append_eq_append_iff.1 parts
    · obtain ⟨rfl, same⟩ : more = [] ∧ ')' = c := by
        cases more with
        | nil => exact ⟨rfl, (List.cons.inj tail).1⟩
        | cons d more => simp at tail
      exact ⟨[], by simp, .inl same.symm⟩
    · cases more with
      | nil => exact ⟨[], rfl, .inl (List.cons.inj tail).1⟩
      | cons d more => exact ⟨d :: more, rfl, .inr ⟨more, by rw [(List.cons.inj tail).1]⟩⟩
  rw [List.foldlM_append] at read
  obtain ⟨⟨opened, mode⟩, first, read⟩ := Option.bind_eq_some_iff.1 read
  have around : ['('].head? ≠ some '<' := by decide
  refine ⟨opened, mode, CodeReading.foldlM_around around first, ?_⟩
  rintro rfl word rfl rfl
  obtain comma | ⟨later', rfl⟩ := next
  · cases comma
  · cases read

theorem EndsEnclose.single (enclose : EndsEnclose (String.ofList ('(' :: (inner ++ [')']))))
    (single : Single (String.ofList ('(' :: (inner ++ [')'])))) : Single (String.ofList inner) := by
  obtain ⟨some_, inside⟩ := enclose inner String.toList_ofList
  obtain ⟨opened, mode, read⟩ := @CodeReading.foldlM_inside [] (.code false) inner inside
  obtain ⟨-, afterWord, whole⟩ := single
  have around : ['('].head? ≠ some '<' := by decide
  have behind := CodeReading.foldlM_around around read
  rw [String.toList_ofList] at whole
  change (inner ++ [')']).foldlM CodeReading.step ⟨[] ++ ['('], .code false⟩ = _ at whole
  rw [List.foldlM_append, behind] at whole
  obtain ⟨rfl, afterWord', rfl⟩ := CodeReading.step_closesAll (by simpa using whole)
  refine ⟨fun none => some_ ?_, afterWord', by rwa [String.toList_ofList]⟩
  simpa using congrArg String.toList none

end Ends

namespace Fragment

/-- An argument stays one without the parentheses at its ends if and only if they enclose one. -/
theorem single_stripParens_iff (c : Fragment) (single : Single c.value) :
    Single c.stripParens.value ↔ EndsEnclose c.value := by
  obtain ⟨same, bare⟩ | ⟨inner, text, same⟩ := c.stripParens_cases
  · rw [same]
    exact ⟨fun _ inner text => absurd text (bare inner), fun _ => single⟩
  · rw [text] at single ⊢
    rw [same]
    exact ⟨fun inside => inside.endsEnclose, fun enclose => enclose.single single⟩

end Fragment

end PerlJava.Java
