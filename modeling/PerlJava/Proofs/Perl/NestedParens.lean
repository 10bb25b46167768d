import Mathlib.Data.List.Forall2
import PerlJava.Proofs.Perl.InsertedParens

/-!
# Nesting of the parentheses put in

Code in which brackets nest is given parentheses around the arguments of its calls. The brackets of
the result nest as well, and what is put in is closed by what is put in, exactly if no bracket closes
around a call that is still open and no statement ends in a bracket inside such a call.
-/

namespace PerlJava.Perl.Parens

/-! ### Nested brackets -/

def Piece.isGiven (x : Piece) : Bool :=
  x.given?.isSome

/-- The brackets that are open after a token, innermost first. What closes a bracket is of its kind,
and put in if the bracket was. -/
def meet (opened : List Piece) (x : Piece) : Option (List Piece) :=
  if isOpening x.token.kind then some (x :: opened)
  else
    match opening? x.token.kind, opened with
    | none, _ => some opened
    | some kind, o :: outer =>
      if o.token.kind == kind && o.isGiven == x.isGiven then some outer else none
    | some _, [] => none

/-- Brackets close in the order they were opened in, innermost first, and all of them close. -/
def WellNested (pieces : List Piece) : Prop :=
  pieces.foldlM meet [] = some []

instance (pieces : List Piece) : Decidable (WellNested pieces) :=
  inferInstanceAs (Decidable (_ = _))

/-- No call without parentheses is that of a package's function, which counts as two calls. -/
def Unqualified (arities : Arities) (tokens : List Token) : Prop :=
  ∀ before colons t after, tokens = before ++ colons :: t :: after → colons.kind = "TWO_COLON" →
    isBareCall arities (some colons) t after.head? = false

/-- No call is open around a bracket. -/
def CallsInside (opened : List Opened) : Prop :=
  ∀ o ∈ opened.dropWhile (·.isCall), o.isCall = false

/-- What closes a bracket finds no call open inside it, and what ends a statement finds none around a
bracket. -/
structure Fits (opened : List Opened) (t : Token) : Prop where
  bracket : opening? t.kind ≠ none → ∀ o ∈ opened.head?, o.isCall = false
  statement : t.kind = "SEMI" → CallsInside opened

/-- Each token that is still to come fits what is open when it is met. -/
def AllFit (arities : Arities) : List Token → Progress → Prop
  | [], _ => True
  | t :: rest, p => Fits p.opened t ∧ ∀ p' ∈ step arities p t rest.head?, AllFit arities rest p'

section Meet

variable {opened outer : List Piece} {x : Piece} {t : Token}

private theorem meet_opening (opens : isOpening x.token.kind = true) :
    meet opened x = some (x :: opened) :=
  if_pos opens

private theorem opening?_of_isOpening {kind : String} (opens : isOpening kind = true) :
    opening? kind = none := by
  simp only [isOpening, Bool.or_eq_true, beq_iff_eq] at opens
  obtain (rfl | rfl) | rfl := opens <;> rfl

private theorem isOpening_of_opening? {kind closed : String} (closes : opening? kind = some closed) :
    isOpening kind = false := by
  rw [← Bool.not_eq_true]
  intro opens
  rw [opening?_of_isOpening opens] at closes
  cases closes

private theorem meet_other (opens : isOpening x.token.kind = false)
    (closes : opening? x.token.kind = none) : meet opened x = some opened := by
  simp [meet, opens, closes]

private theorem meet_closing {o : Piece} {kind : String} (closes : opening? x.token.kind = some kind) :
    meet (o :: outer) x
      = if o.token.kind == kind && o.isGiven == x.isGiven then some outer else none := by
  simp [meet, isOpening_of_opening? closes, closes]

/-- A token opens a bracket, leaves all as it is or closes the innermost bracket. -/
theorem meet_cases {after : List Piece} (met : meet opened x = some after) :
    (isOpening x.token.kind = true ∧ after = x :: opened)
      ∨ (isOpening x.token.kind = false ∧ opening? x.token.kind = none ∧ after = opened)
      ∨ ∃ o, opened = o :: after ∧ opening? x.token.kind = some o.token.kind
        ∧ o.isGiven = x.isGiven := by
  unfold meet at met
  split at met
  · next opens =>
    cases met
    exact .inl ⟨opens, rfl⟩
  · next opens =>
    split at met
    · next closes =>
      cases met
      exact .inr (.inl ⟨Bool.eq_false_iff.2 opens, closes, rfl⟩)
    · next kind o outer closes =>
      split at met
      · next same =>
        cases met
        simp only [Bool.and_eq_true, beq_iff_eq] at same
        exact .inr (.inr ⟨o, rfl, same.1.symm ▸ closes, same.2⟩)
      · cases met
    · cases met

end Meet

/-! ### What nesting means -/

section Nested

/-- Brackets nest still when it is forgotten which of them were put in. -/
theorem foldlM_meet_forget {pieces opened after : List Piece}
    (nested : pieces.foldlM meet opened = some after) :
    (pieces.map fun x => Piece.given x.token).foldlM meet (opened.map fun x => .given x.token)
      = some (after.map fun x => .given x.token) := by
  induction pieces generalizing opened with
  | nil =>
    cases nested
    rfl
  | cons x pieces ih =>
    obtain ⟨inner, met, nested⟩ := Option.bind_eq_some_iff.1 nested
    have step : meet (opened.map fun x => .given x.token) (.given x.token)
        = some (inner.map fun x => .given x.token) := by
      obtain ⟨opens, rfl⟩ | ⟨opens, closes, rfl⟩ | ⟨o, rfl, closes, -⟩ := meet_cases met
      · exact @meet_opening _ (.given x.token) opens
      · exact @meet_other _ (.given x.token) opens closes
      · rw [List.map_cons, @meet_closing _ (.given x.token) _ _ closes]
        exact if_pos (by simp [Piece.token, Piece.isGiven, Piece.given?])
    rw [List.map_cons, List.foldlM_cons, step]
    exact ih nested

/-- A bracket that does not stay open is closed, and what stands before that closes what it opens. -/
theorem closed_of_foldlM {rest inner outer after : List Piece} {x : Piece}
    (ran : rest.foldlM meet (inner ++ x :: outer) = some after) (short : after.length ≤ outer.length) :
    ∃ between c later, rest = between ++ c :: later ∧ between.foldlM meet inner = some []
      ∧ opening? c.token.kind = some x.token.kind ∧ x.isGiven = c.isGiven := by
  induction rest generalizing inner with
  | nil =>
    cases ran
    simp only [List.length_append, List.length_cons] at short
    omega
  | cons c rest ih =>
    obtain ⟨middle, met, ran⟩ := Option.bind_eq_some_iff.1 ran
    have goOn {inner' : List Piece} (same : middle = inner' ++ x :: outer)
        (step : meet inner c = some inner') : ∃ between c' later, c :: rest = between ++ c' :: later
          ∧ between.foldlM meet inner = some [] ∧ opening? c'.token.kind = some x.token.kind
          ∧ x.isGiven = c'.isGiven := by
      rw [same] at ran
      obtain ⟨between, c', later, rfl, nested, closes, kind⟩ := ih ran
      refine ⟨c :: between, c', later, rfl, ?_, closes, kind⟩
      rw [List.foldlM_cons, step]
      exact nested
    obtain ⟨opens, rfl⟩ | ⟨opens, closes, rfl⟩ | ⟨o, is, closes, kind⟩ := meet_cases met
    · exact goOn rfl (meet_opening opens)
    · exact goOn rfl (meet_other opens closes)
    · cases inner with
      | nil =>
        cases is
        exact ⟨[], c, rest, rfl, rfl, closes, kind⟩
      | cons y inner =>
        cases is
        exact goOn rfl ((meet_closing closes).trans (if_pos (by simp [kind])))

/-- Behind a parenthesis that was put in comes another that closes it, at the same depth: the
brackets between the two nest. -/
theorem WellNested.closed {pieces before after : List Piece} {l : Token} (nested : WellNested pieces)
    (parts : pieces = before ++ .added l :: after) (opens : l.kind = "LPAREN") :
    ∃ between r later, after = between ++ .added r :: later ∧ r.kind = "RPAREN"
      ∧ WellNested between := by
  rw [WellNested, parts, List.foldlM_append] at nested
  obtain ⟨outer, -, nested⟩ := Option.bind_eq_some_iff.1 nested
  rw [List.foldlM_cons, @meet_opening _ (.added l) (by rw [Piece.token, opens]; rfl)] at nested
  obtain ⟨between, c, later, rfl, inside, closes, kind⟩ :=
    @closed_of_foldlM after [] outer [] (.added l) nested (Nat.zero_le _)
  rw [Piece.token, opens] at closes
  cases c with
  | given r => cases kind
  | added r =>
    refine ⟨between, r, later, rfl, ?_, inside⟩
    unfold opening? at closes
    split at closes
    · simp at closes
    · simp at closes
    · next kind => exact kind
    · cases closes

end Nested

/-! ### What is open -/

/-- The brackets that are open behind some tokens, last first. -/
def openBehind (done : List Piece) : Option (List Piece) :=
  done.reverse.foldlM meet []

private theorem openBehind_cons (x : Piece) (done : List Piece) :
    openBehind (x :: done) = (openBehind done).bind (meet · x) := by
  simp [openBehind, List.foldlM_append]

/-- What stands for something open among the tokens done. -/
def Stands : Opened → Piece → Prop
  | .bracket kind, x => x.isGiven = true ∧ x.token.kind = kind
  | .call _, x => x.isGiven = false ∧ x.token.kind = "LPAREN"

theorem Stands.isGiven {o : Opened} {x : Piece} (stands : Stands o x) : x.isGiven = !o.isCall := by
  cases o <;> exact stands.1

/-- What is open at a place is open among the tokens done, and around it there are only brackets that
were given; the tokens to come close the brackets that were given. -/
structure Tracks (rest : List Token) (p : Progress) (inner outer : List Piece) : Prop where
  done : openBehind p.done = some (inner ++ outer)
  stands : List.Forall₂ Stands p.opened inner
  given : ∀ x ∈ outer, x.isGiven = true
  closes : (rest.map Piece.given).foldlM meet ((inner ++ outer).filter (·.isGiven)) = some []

section Close

variable {opened : List Opened} {inner outer : List Piece} {done : List Piece} {r : Token}

private theorem openBehind_append_none (later : List Piece) (broken : openBehind done = none) :
    openBehind (later ++ done) = none := by
  induction later with
  | nil => exact broken
  | cons x later ih => rw [List.cons_append, openBehind_cons, ih]; rfl

private theorem filter_given (given : ∀ x ∈ outer, x.isGiven = true) :
    outer.filter (·.isGiven) = outer :=
  List.filter_eq_self.2 given

private theorem given_of_no_call (stands : List.Forall₂ Stands opened inner)
    (noCall : ∀ o ∈ opened, o.isCall = false) : ∀ x ∈ inner, x.isGiven = true := by
  induction stands with
  | nil => exact fun _ => (absurd · List.not_mem_nil)
  | cons first _ ih =>
    simp only [List.forall_mem_cons] at noCall ⊢
    exact ⟨by rw [first.isGiven, noCall.1]; rfl, ih noCall.2⟩

theorem openBehind_closing (closes : r.kind = "RPAREN") (stands : List.Forall₂ Stands opened inner)
    (given : ∀ x ∈ outer, x.isGiven = true) (behind : openBehind done = some (inner ++ outer)) :
    (CallsInside opened → openBehind (List.replicate (opened.countP (·.isCall)) (.added r) ++ done)
        = some ((inner ++ outer).filter (·.isGiven)))
      ∧ (¬CallsInside opened →
        openBehind (List.replicate (opened.countP (·.isCall)) (.added r) ++ done) = none) := by
  have shut : opening? (Piece.added r).token.kind = some "LPAREN" := by
    change opening? r.kind = _
    rw [closes]
    rfl
  induction stands generalizing done with
  | nil => exact ⟨fun _ => behind.trans (congrArg some (filter_given given).symm),
      fun outside => absurd (fun _ => (absurd · List.not_mem_nil)) outside⟩
  | @cons o x opened inner first rest ih =>
    cases o with
    | call n =>
      have popped : openBehind (.added r :: done) = some (inner ++ outer) := by
        rw [openBehind_cons, behind, Option.bind_some, List.cons_append, meet_closing shut, if_pos]
        rw [first.1, first.2]
        rfl
      have calls : (Opened.call n :: opened).countP (·.isCall) = opened.countP (·.isCall) + 1 := by
        rw [List.countP_cons_of_pos rfl]
      have filtered : ((x :: inner) ++ outer).filter (·.isGiven)
          = (inner ++ outer).filter (·.isGiven) := by
        rw [List.cons_append, List.filter_cons_of_neg (by simp [first.1])]
      have same : CallsInside (.call n :: opened) ↔ CallsInside opened := Iff.rfl
      rw [calls, List.replicate_succ', List.append_assoc, List.singleton_append, filtered, same]
      exact ih popped
    | bracket kind =>
      have inside : CallsInside (.bracket kind :: opened) ↔ ∀ o ∈ opened, o.isCall = false := by
        simp [CallsInside, Opened.isCall]
      have calls : (Opened.bracket kind :: opened).countP (·.isCall) = opened.countP (·.isCall) := by
        rw [List.countP_cons_of_neg (by simp [Opened.isCall])]
      rw [calls, inside]
      refine ⟨fun noCall => ?_, fun some_ => ?_⟩
      · have all : ∀ y ∈ (x :: inner) ++ outer, y.isGiven = true := by
          simp only [List.cons_append, List.forall_mem_cons, List.forall_mem_append]
          exact ⟨first.1, given_of_no_call rest noCall, given⟩
        rw [List.countP_eq_zero.2 fun o member => Bool.eq_false_iff.1 (noCall o member),
          filter_given all]
        exact behind
      · have positive : opened.countP (·.isCall) ≠ 0 := by
          intro zero
          refine some_ fun o member => Bool.eq_false_iff.2 (List.countP_eq_zero.1 zero o member)
        obtain ⟨n, more⟩ := Nat.exists_eq_succ_of_ne_zero positive
        rw [more, List.replicate_succ', List.append_assoc, List.singleton_append]
        refine openBehind_append_none _ ?_
        rw [openBehind_cons, behind, Option.bind_some, List.cons_append, meet_closing shut, if_neg]
        rw [first.1]
        simp [Piece.isGiven, Piece.given?]

end Close

/-! ### Steps -/

section Step

variable {arities : Arities} {p p' : Progress} {t : Token} {rest : List Token}
  {inner outer : List Piece}

theorem Fits.of_other (closes : opening? t.kind = none) (statement : t.kind ≠ "SEMI") :
    Fits p.opened t :=
  ⟨fun shuts => absurd closes shuts, fun ends => absurd ends statement⟩

/-- What is open after a step that fits, and that a step that does not fit breaks the nesting. -/
def Follows (rest : List Token) (fits : Prop) (p : Progress) : Prop :=
  (fits → ∃ inner outer, Tracks rest p inner outer) ∧ (¬fits → openBehind p.done = none)

theorem Tracks.follows {fits : Prop} (tracks : Tracks rest p inner outer) (fit : fits) :
    Follows rest fits p :=
  ⟨fun _ => ⟨inner, outer, tracks⟩, fun unfit => absurd fit unfit⟩

theorem Tracks.met (tracks : Tracks (t :: rest) p inner outer) :
    ∃ g, meet ((inner ++ outer).filter (·.isGiven)) (.given t) = some g
      ∧ (rest.map Piece.given).foldlM meet g = some [] := by
  have closes := tracks.closes
  rw [List.map_cons, List.foldlM_cons] at closes
  exact Option.bind_eq_some_iff.1 closes

/-- A token that is no bracket is taken over alone. -/
theorem Tracks.alone (tracks : Tracks (t :: rest) p inner outer) (opens : isOpening t.kind = false)
    (closes : opening? t.kind = none) {opened : List Opened}
    (stands : List.Forall₂ Stands opened inner) :
    Tracks rest { done := .given t :: p.done, last := some t, opened } inner outer := by
  obtain ⟨g, met, later⟩ := tracks.met
  rw [@meet_other _ (.given t) opens closes] at met
  cases met
  refine ⟨?_, stands, tracks.given, later⟩
  rw [openBehind_cons, tracks.done, Option.bind_some, @meet_other _ (.given t) opens closes]

theorem Tracks.call (tracks : Tracks (t :: rest) p inner outer) (opens : isOpening t.kind = false)
    (closes : opening? t.kind = none) (n : Int) :
    Tracks rest {
      done := .added (t.beside "LPAREN" "(") :: .given t :: p.done
      last := some t
      opened := .call n :: p.opened } (.added (t.beside "LPAREN" "(") :: inner) outer := by
  obtain ⟨done, stands, given, later⟩ := tracks.alone opens closes tracks.stands
  refine ⟨?_, .cons ⟨rfl, rfl⟩ stands, given, later⟩
  rw [openBehind_cons, done, Option.bind_some, meet_opening rfl]
  rfl

theorem Tracks.opening (tracks : Tracks (t :: rest) p inner outer) (opens : isOpening t.kind = true) :
    Tracks rest { done := .given t :: p.done, last := some t, opened := .bracket t.kind :: p.opened }
      (.given t :: inner) outer := by
  obtain ⟨g, met, later⟩ := tracks.met
  rw [@meet_opening _ (.given t) opens] at met
  cases met
  refine ⟨?_, .cons ⟨rfl, rfl⟩ tracks.stands, tracks.given, later⟩
  rw [openBehind_cons, tracks.done, Option.bind_some, @meet_opening _ (.given t) opens]
  rfl

/-- What closes a bracket that was given and lies inside all calls. -/
theorem Tracks.closing {x : Piece} {kind : String} (tracks : Tracks (t :: rest) p (x :: inner) outer)
    (given : x.isGiven = true) (closes : opening? t.kind = some kind) {opened : List Opened}
    (stands : List.Forall₂ Stands opened inner) : x.token.kind = kind
      ∧ Tracks rest { done := .given t :: p.done, last := some t, opened } inner outer := by
  obtain ⟨g, met, later⟩ := tracks.met
  rw [List.cons_append, List.filter_cons_of_pos given, @meet_closing _ (.given t) _ _ closes] at met
  split at met
  · next same =>
    cases met
    refine ⟨beq_iff_eq.1 (Bool.and_eq_true_iff.1 same).1, ?_, stands, tracks.given, later⟩
    rw [openBehind_cons, tracks.done, Option.bind_some, List.cons_append,
      @meet_closing _ (.given t) _ _ closes, if_pos same]
  · cases met

theorem Tracks.lastArgument {x : Piece} {n : Int} (tracks : Tracks (t :: rest) p (x :: inner) outer)
    (call : Stands (.call n) x) (comma : t.kind = "COMMA") {opened : List Opened}
    (stands : List.Forall₂ Stands opened inner) : Tracks rest
      { done := .given t :: .added (t.beside "RPAREN" ")") :: p.done, last := some t, opened }
      inner outer := by
  have opens : isOpening (Piece.given t).token.kind = false := by rw [Piece.token, comma]; rfl
  have closes : opening? (Piece.given t).token.kind = none := by rw [Piece.token, comma]; rfl
  obtain ⟨g, met, later⟩ := tracks.met
  rw [meet_other opens closes] at met
  cases met
  rw [List.cons_append, List.filter_cons_of_neg (by simp [call.1])] at later
  refine ⟨?_, stands, tracks.given, later⟩
  have shut : opening? (Piece.added (t.beside "RPAREN" ")")).token.kind = some "LPAREN" := rfl
  rw [openBehind_cons, openBehind_cons, tracks.done, Option.bind_some, List.cons_append,
    meet_closing shut, if_pos (by rw [call.1, call.2]; rfl), Option.bind_some, meet_other opens closes]

/-- The end of a statement closes all calls. -/
theorem Tracks.closeAll (tracks : Tracks (t :: rest) p inner outer) (statement : t.kind = "SEMI") :
    Follows rest (Fits p.opened t) (step.closeAll p t) := by
  have opens : isOpening (Piece.given t).token.kind = false := by rw [Piece.token, statement]; rfl
  have closes : opening? (Piece.given t).token.kind = none := by rw [Piece.token, statement]; rfl
  have closing : (t.beside "RPAREN" ")").kind = "RPAREN" := rfl
  obtain ⟨inside, outside⟩ := openBehind_closing closing tracks.stands tracks.given tracks.done
  refine ⟨fun fits => ⟨[], (inner ++ outer).filter (·.isGiven), ?_, .nil, ?_, ?_⟩, fun unfit => ?_⟩
  · rw [step.closeAll, List.cons_append, openBehind_cons, inside (fits.statement statement),
      Option.bind_some, meet_other opens closes]
    rfl
  · exact fun x member => (List.mem_filter.1 member).2
  · obtain ⟨g, met, later⟩ := tracks.met
    rw [meet_other opens closes] at met
    cases met
    rw [List.nil_append, List.filter_filter]
    simpa using later
  · have around : ¬CallsInside p.opened := fun calls =>
      unfit ⟨fun shuts => absurd closes shuts, fun _ => calls⟩
    rw [step.closeAll, List.cons_append, openBehind_cons, outside around]
    rfl

/-- A closing bracket where nothing is open closes one from before the statement. -/
theorem Tracks.outside (tracks : Tracks (t :: rest) p inner outer) (is : p.opened = [])
    (opens : isOpening t.kind = false) : ∃ outer, Tracks rest
      { done := .given t :: p.done, last := some t, opened := p.opened } [] outer := by
  have stands := tracks.stands
  rw [is] at stands
  cases stands
  obtain ⟨g, met, later⟩ := tracks.met
  rw [List.nil_append, filter_given tracks.given] at met
  have given : ∀ x ∈ g, x.isGiven = true := by
    obtain ⟨opens', -⟩ | ⟨-, -, rfl⟩ | ⟨o, is, -⟩ := meet_cases met
    · exact absurd opens' (Bool.eq_false_iff.1 opens)
    · exact tracks.given
    · exact fun x member => tracks.given x (by rw [is]; exact List.mem_cons_of_mem _ member)
  refine ⟨g, ?_, by rw [is]; exact .nil, given, ?_⟩
  · rw [openBehind_cons, tracks.done, Option.bind_some]
    exact met
  · rw [List.nil_append, filter_given given]
    exact later

/-- A token that opens nothing and does not close the innermost bracket: if it closes another, a call
is open inside that. -/
theorem Tracks.other (tracks : Tracks (t :: rest) p inner outer) (opens : isOpening t.kind = false)
    (statement : t.kind ≠ "SEMI")
    (innermost : ∀ kind, opening? t.kind = some kind → p.opened.head? ≠ some (.bracket kind)) :
    Follows rest (Fits p.opened t)
      { done := .given t :: p.done, last := some t, opened := p.opened } := by
  cases closes : opening? t.kind with
  | none => exact (tracks.alone opens closes tracks.stands).follows (.of_other closes statement)
  | some kind =>
    cases is : p.opened with
    | nil =>
      obtain ⟨outer, tracked⟩ := tracks.outside is opens
      rw [is] at tracked
      exact tracked.follows ⟨fun _ _ => (nomatch ·), fun ends => absurd ends statement⟩
    | cons o opened =>
      have stands := tracks.stands
      rw [is] at stands
      obtain ⟨x, inner, first, below, rfl⟩ := List.forall₂_cons_left_iff.1 stands
      cases o with
      | bracket inside =>
        have same := (tracks.closing first.1 closes below).1
        rw [first.2] at same
        exact absurd (by rw [is, same]; rfl) (innermost kind closes)
      | call n =>
        refine ⟨fun fits => ?_, fun _ => ?_⟩
        · cases fits.bracket (by simp [closes]) (.call n) rfl
        · rw [openBehind_cons, tracks.done, Option.bind_some, List.cons_append,
            @meet_closing _ (.given t) _ _ closes,
            if_neg (by rw [first.1]; simp [Piece.isGiven, Piece.given?])]

/-- The name of a function is no bracket and ends no statement. -/
theorem kind_of_isFunction (function : isFunction arities t = true) :
    isOpening t.kind = false ∧ opening? t.kind = none ∧ t.kind ≠ "SEMI" := by
  have other {kind : String} (noId : kind ≠ "ID") (noNative : nativeArity? kind = none) :
      t.kind ≠ kind := by
    rintro rfl
    rw [isFunction_eq_false noId noNative] at function
    cases function
  have bracket := @other "LBRACKET" (by decide) rfl
  have brace := @other "LBRACE" (by decide) rfl
  have paren := @other "LPAREN" (by decide) rfl
  refine ⟨by simp [isOpening, bracket, brace, paren], ?_, other (by decide) rfl⟩
  unfold opening?
  split
  · next kind => exact absurd kind (other (by decide) rfl)
  · next kind => exact absurd kind (other (by decide) rfl)
  · next kind => exact absurd kind (other (by decide) rfl)
  · rfl

private theorem callsOpened?_own {calls : List Opened}
    (unqualified : p.last.any (·.kind == "TWO_COLON") = false)
    (opened : callsOpened? arities p t = some calls) : ∃ n, calls = [.call n] := by
  unfold callsOpened? at opened
  split at opened
  · simp only [unqualified, Bool.false_and, Bool.false_eq_true, if_false] at opened
    split at opened <;> exact ⟨_, (Option.some.inj opened).symm⟩
  · obtain ⟨n, -, same⟩ := Option.map_eq_some_iff.1 opened
    exact ⟨n, same.symm⟩

theorem Taken.follows (taken : Taken arities p t rest.head? p')
    (tracks : Tracks (t :: rest) p inner outer)
    (unqualified : isBareCall arities p.last t rest.head? = true →
      p.last.any (·.kind == "TWO_COLON") = false) : Follows rest (Fits p.opened t) p' := by
  have stands := tracks.stands
  cases taken with
  | call bare opened =>
    obtain ⟨opens, closes, statement⟩ := kind_of_isFunction (isFunction_of_isBareCall bare)
    obtain ⟨n, rfl⟩ := callsOpened?_own (unqualified bare) opened
    exact (tracks.call opens closes n).follows (.of_other closes statement)
  | opening _ opens =>
    have statement : t.kind ≠ "SEMI" := by
      rintro kind
      rw [kind] at opens
      cases opens
    exact (tracks.opening opens).follows (.of_other (opening?_of_isOpening opens) statement)
  | closing _ is closes =>
    rw [is] at stands
    obtain ⟨x, inner, first, below, rfl⟩ := List.forall₂_cons_left_iff.1 stands
    refine (tracks.closing first.1 closes below).2.follows ⟨fun _ o member => ?_, fun ends => ?_⟩
    · rw [is] at member
      cases member
      rfl
    · rw [ends] at closes
      cases closes
  | lastArgument is comma =>
    rw [is] at stands
    obtain ⟨x, inner, first, below, rfl⟩ := List.forall₂_cons_left_iff.1 stands
    exact (tracks.lastArgument first comma below).follows
      (.of_other (by rw [comma]; rfl) (by rw [comma]; decide))
  | argument _ is comma =>
    rw [is] at stands
    obtain ⟨x, inner, first, below, rfl⟩ := List.forall₂_cons_left_iff.1 stands
    refine (tracks.alone (by rw [comma]; rfl) (by rw [comma]; rfl) ?_).follows
      (.of_other (by rw [comma]; rfl) (by rw [comma]; decide))
    exact .cons first below
  | statement ends => exact tracks.closeAll ends
  | other _ opens statement innermost => exact tracks.other opens statement innermost

/-- Nothing is open where a statement has ended. -/
theorem Taken.opened_of_semi (taken : Taken arities p t rest.head? p') (ends : t.kind = "SEMI") :
    p'.opened = [] := by
  cases taken with
  | call bare => exact absurd ends (kind_of_isFunction (isFunction_of_isBareCall bare)).2.2
  | opening _ opens => rw [ends] at opens; cases opens
  | closing _ _ closes => rw [ends] at closes; cases closes
  | lastArgument _ comma => exact absurd (ends.symm.trans comma) (by decide)
  | argument _ _ comma => exact absurd (ends.symm.trans comma) (by decide)
  | statement => rfl
  | other _ _ statement => exact absurd ends statement

end Step

/-! ### Runs -/

section Run

variable {arities : Arities} {before rest : List Token} {p : Progress} {pieces : List Piece}

theorem openBehind_run (broken : openBehind p.done = none)
    (ran : run arities rest p = some pieces) : ¬WellNested pieces := by
  obtain ⟨q, broken, rfl⟩ := run_induct (fun _ p => openBehind p.done = none)
    (fun {p p' t rest} broken taken => by
      obtain ⟨-, done⟩ | ⟨closed, -, done⟩ | ⟨-, done⟩ := taken.done_cases <;> rw [done]
      · exact openBehind_append_none [_, _] broken
      · exact openBehind_append_none (_ :: _) broken
      · exact openBehind_append_none [_] broken)
    broken ran
  intro nested
  cases broken.symm.trans nested

theorem Unqualified.last {t : Token} (unqualified : Unqualified arities (before ++ t :: rest))
    (last : p.last = before.getLast?) (bare : isBareCall arities p.last t rest.head? = true) :
    p.last.any (·.kind == "TWO_COLON") = false := by
  cases is : p.last with
  | none => rfl
  | some c =>
    rw [is] at bare last
    obtain ⟨front, rfl⟩ := List.getLast?_eq_some_iff.1 last.symm
    rw [Option.any_some, beq_eq_false_iff_ne]
    intro kind
    rw [unqualified front c t rest (by simp) kind] at bare
    cases bare

theorem run_nested {inner outer : List Piece} (unqualified : Unqualified arities (before ++ rest))
    (last : p.last = before.getLast?) (tracks : Tracks rest p inner outer)
    (ends : ∀ t ∈ rest.getLast?, t.kind = "SEMI") (closed : rest = [] → p.opened = [])
    (ran : run arities rest p = some pieces) : WellNested pieces ↔ AllFit arities rest p := by
  induction rest generalizing before p inner outer with
  | nil =>
    cases ran
    refine iff_of_true ?_ trivial
    obtain ⟨done, stands, given, closes⟩ := tracks
    rw [closed rfl] at stands
    cases stands
    rw [List.nil_append] at done closes
    rw [filter_given given] at closes
    cases closes
    exact done
  | cons t rest ih =>
    obtain ⟨p', stepped, ran⟩ := Option.bind_eq_some_iff.1 ran
    have taken := step_taken stepped
    obtain ⟨fit, unfit⟩ := taken.follows tracks (unqualified.last last)
    by_cases fits : Fits p.opened t
    · obtain ⟨inner, outer, tracks⟩ := fit fits
      rw [← List.singleton_append, ← List.append_assoc] at unqualified
      have later : p'.last = (before ++ [t]).getLast? := by simp [taken.last]
      have ends' : ∀ x ∈ rest.getLast?, x.kind = "SEMI" := fun x member =>
        ends x (by rw [List.getLast?_cons, member]; rfl)
      have closed' : rest = [] → p'.opened = [] := by
        rintro rfl
        exact taken.opened_of_semi (ends t rfl)
      rw [ih unqualified later tracks ends' closed' ran]
      simp [AllFit, stepped, fits]
    · exact iff_of_false (openBehind_run (unfit fits) ran) fun all => fits all.1

end Run

/-- Where parentheses are put in, brackets nest in the result, with what is put in closing what is put
in, exactly if no bracket closes around a call that is still open and no statement ends in a bracket
inside such a call. Then every parenthesis put in is closed by one that is put in at its depth. -/
theorem placed_nest_iff {arities : Arities} {tokens : List Token} {pieces : List Piece}
    (ends : ∃ t, tokens.getLast? = some t ∧ t.kind = "SEMI") (unqualified : Unqualified arities tokens)
    (nested : WellNested (tokens.map .given)) (placed : place arities tokens = some pieces) :
    (WellNested pieces ↔ AllFit arities tokens {})
      ∧ (AllFit arities tokens {} → WellNested (pieces.map fun x => .given x.token)
        ∧ ∀ before l after, pieces = before ++ .added l :: after → l.kind = "LPAREN" →
          ∃ between r later, after = between ++ .added r :: later ∧ r.kind = "RPAREN"
            ∧ WellNested between) := by
  obtain ⟨semi, last, kind⟩ := ends
  have nests : WellNested pieces ↔ AllFit arities tokens {} := by
    refine @run_nested _ [] _ _ _ [] [] unqualified rfl ⟨rfl, .nil, ?_, nested⟩ ?_ (fun _ => rfl) placed
    · exact fun _ => (absurd · List.not_mem_nil)
    · intro t member
      obtain rfl := Option.some.inj (last.symm.trans member)
      exact kind
  refine ⟨nests, fun fits => ⟨foldlM_meet_forget (nests.2 fits), fun before l after parts opens => ?_⟩⟩
  exact (nests.2 fits).closed parts opens

/-- The parentheses of `print(lc($a), $b);` nest, so nothing closes too early in `print lc $a, $b;`. -/
theorem placed_nest_iff_nested :
    WellNested nestedCallsPlaced ∧ AllFit ⟨fun _ => none, fun _ _ => none⟩ nestedCalls {} := by
  have placed : place ⟨fun _ => none, fun _ _ => none⟩ nestedCalls = some nestedCallsPlaced := by
    decide
  have nests : WellNested nestedCallsPlaced := by decide
  have unqualified : Unqualified ⟨fun _ => none, fun _ _ => none⟩ nestedCalls := by
    intro before colons t after parts kind
    have none : ∀ c ∈ nestedCalls, c.kind ≠ "TWO_COLON" := by decide
    exact absurd kind (none colons (by rw [parts]; simp))
  exact ⟨nests, (placed_nest_iff ⟨_, rfl, rfl⟩ unqualified (by decide) placed).1.1 nests⟩

def callInBrackets : List Token :=
  [("DOLLAR", "$"), ("ID", "a"), ("LBRACKET", "["), ("LC", "lc"), ("DOLLAR", "$"), ("ID", "x"),
    ("RBRACKET", "]"), ("EQUALS", "="), ("INT_NUMBER", "1"), ("SEMI", ";")].map
      fun (kind, value) => ⟨kind, value, 1, 0⟩

/-- The bracket closes before the call does: `$a[lc($x] = 1);`. -/
theorem call_in_brackets_left_open : WellNested (callInBrackets.map .given)
    ∧ ∃ pieces, place ⟨fun _ => none, fun _ _ => none⟩ callInBrackets = some pieces
      ∧ pieces.map (·.token.value) = ["$", "a", "[", "lc", "(", "$", "x", "]", "=", "1", ")", ";"]
      ∧ ¬WellNested (pieces.map fun x => .given x.token) :=
  ⟨by decide, _, rfl, by decide, by decide⟩

end PerlJava.Perl.Parens
