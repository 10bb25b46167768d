import PerlJava.Perl.Parens

/-!
# What putting in parentheses changes

A token is taken over as it is; all that is put in with it is one opening parenthesis behind the name
of a function, or closing ones in front of a comma or a semicolon. So the tokens that were given are
found again in their order. No function is called without parentheses in the result, and where none
is, nothing is put in: a second pass has no effect.
-/

namespace PerlJava.Perl.Parens

/-- What one step can do with a token. -/
inductive Taken (arities : Arities) (p : Progress) (t : Token) (following : Option Token) :
    Progress → Prop where
  /-- A bare call gets its opening parenthesis. -/
  | call {calls : List Opened} : isBareCall arities p.last t following = true →
    callsOpened? arities p t = some calls →
    Taken arities p t following {
      done := .added (t.beside "LPAREN" "(") :: .given t :: p.done
      last := some t
      opened := calls ++ p.opened }
  | opening : isBareCall arities p.last t following = false → isOpening t.kind = true →
    Taken arities p t following {
      done := .given t :: p.done
      last := some t
      opened := .bracket t.kind :: p.opened }
  | closing {kind : String} {outer : List Opened} : isBareCall arities p.last t following = false →
    p.opened = .bracket kind :: outer → opening? t.kind = some kind →
    Taken arities p t following { done := .given t :: p.done, last := some t, opened := outer }
  /-- A comma behind the last argument closes the call in front of it. -/
  | lastArgument {n : Int} {outer : List Opened} : p.opened = .call n :: outer → t.kind = "COMMA" →
    Taken arities p t following {
      done := .given t :: .added (t.beside "RPAREN" ")") :: p.done
      last := some t
      opened := outer }
  | argument {n left : Int} {outer : List Opened} : isBareCall arities p.last t following = false →
    p.opened = .call n :: outer → t.kind = "COMMA" →
    Taken arities p t following {
      done := .given t :: p.done
      last := some t
      opened := .call left :: outer }
  /-- The end of a statement closes every call. -/
  | statement : t.kind = "SEMI" → Taken arities p t following (step.closeAll p t)
  /-- A closing bracket for which another or a call is innermost counts as any other token. -/
  | other : isBareCall arities p.last t following = false → isOpening t.kind = false →
    t.kind ≠ "SEMI" → (∀ kind, opening? t.kind = some kind → p.opened.head? ≠ some (.bracket kind)) →
    Taken arities p t following { done := .given t :: p.done, last := some t, opened := p.opened }

section Step

variable {arities : Arities} {p p' : Progress} {t : Token} {following : Option Token}

theorem step_taken (stepped : step arities p t following = some p') :
    Taken arities p t following p' := by
  unfold step at stepped
  dsimp only at stepped
  cases bare : isBareCall arities p.last t following with
  | true =>
    rw [if_pos bare] at stepped
    obtain ⟨calls, opened, rfl⟩ := Option.map_eq_some_iff.1 stepped
    exact .call bare opened
  | false =>
    rw [if_neg (Bool.eq_false_iff.1 bare)] at stepped
    split at stepped
    · next opens =>
      cases stepped
      exact .opening bare opens
    · next opens =>
      have opens := Bool.eq_false_iff.2 opens
      split at stepped
      · next kind outer is =>
        split at stepped
        · next closes =>
          cases stepped
          exact .closing bare is (beq_iff_eq.1 closes)
        · next closes =>
          split at stepped <;> cases stepped
          · next semi => exact .statement (beq_iff_eq.1 semi)
          · next semi =>
            refine .other bare opens (fun ends => semi (beq_iff_eq.2 ends)) fun kind' shuts inner => ?_
            rw [is, List.head?_cons, Option.some.injEq, Opened.bracket.injEq] at inner
            exact closes (beq_iff_eq.2 (inner ▸ shuts))
      · next n outer is =>
        split at stepped
        · next comma =>
          generalize (if n > 0 then n - 1 else n) = left at stepped
          split at stepped <;> cases stepped
          · exact .lastArgument is (beq_iff_eq.1 comma)
          · exact .argument bare is (beq_iff_eq.1 comma)
        · split at stepped <;> cases stepped
          · next semi => exact .statement (beq_iff_eq.1 semi)
          · next semi =>
            exact .other bare opens (fun ends => semi (beq_iff_eq.2 ends)) (by simp [is])
      · next is =>
        cases stepped
        by_cases semi : t.kind = "SEMI"
        · have same : step.closeAll p t
              = { done := .given t :: p.done, last := some t, opened := p.opened } := by
            rw [step.closeAll, is]
            rfl
          exact same ▸ .statement semi
        · exact .other bare opens semi (by simp [is])

theorem Taken.last (taken : Taken arities p t following p') : p'.last = some t := by
  cases taken <;> rfl

/-- What is put in with a token: an opening parenthesis behind a bare call, closing ones in front of
what separates or ends arguments, or nothing. -/
theorem Taken.done_cases (taken : Taken arities p t following p') :
    (isBareCall arities p.last t following = true
        ∧ p'.done = .added (t.beside "LPAREN" "(") :: .given t :: p.done)
      ∨ (∃ closed, (t.kind = "COMMA" ∨ t.kind = "SEMI")
        ∧ p'.done = .given t :: (List.replicate closed (.added (t.beside "RPAREN" ")")) ++ p.done))
      ∨ (isBareCall arities p.last t following = false ∧ p'.done = .given t :: p.done) := by
  cases taken with
  | call bare => exact .inl ⟨bare, rfl⟩
  | lastArgument _ comma => exact .inr (.inl ⟨1, .inl comma, rfl⟩)
  | statement semi => exact .inr (.inl ⟨_, .inr semi, rfl⟩)
  | opening bare => exact .inr (.inr ⟨bare, rfl⟩)
  | closing bare => exact .inr (.inr ⟨bare, rfl⟩)
  | argument bare => exact .inr (.inr ⟨bare, rfl⟩)
  | other bare => exact .inr (.inr ⟨bare, rfl⟩)

theorem Taken.given (taken : Taken arities p t following p') :
    p'.done.filterMap Piece.given? = t :: p.done.filterMap Piece.given? := by
  have none (n : Nat) (x : Token) :
      (List.replicate n (Piece.added x)).filterMap Piece.given? = [] :=
    List.filterMap_eq_nil_iff.2 fun piece member => by rw [List.eq_of_mem_replicate member]; rfl
  obtain ⟨-, done⟩ | ⟨closed, -, done⟩ | ⟨-, done⟩ := taken.done_cases <;> rw [done]
  · rfl
  · change t :: List.filterMap _ (_ ++ _) = _
    rw [List.filterMap_append, none, List.nil_append]
  · rfl

def Piece.AddedParen : Piece → Prop
  | given _ => True
  | added t => t.kind = "LPAREN" ∨ t.kind = "RPAREN"

theorem Taken.addedParens (taken : Taken arities p t following p')
    (before : ∀ piece ∈ p.done, piece.AddedParen) : ∀ piece ∈ p'.done, piece.AddedParen := by
  obtain ⟨-, done⟩ | ⟨closed, -, done⟩ | ⟨-, done⟩ := taken.done_cases <;>
    simp only [done, List.forall_mem_cons, List.forall_mem_append]
  · exact ⟨.inl rfl, trivial, before⟩
  · refine ⟨trivial, fun piece member => ?_, before⟩
    rw [List.eq_of_mem_replicate member]
    exact .inr rfl
  · exact ⟨trivial, before⟩

end Step

section Run

variable {arities : Arities}

theorem run_induct (Holds : List Token → Progress → Prop)
    (kept : ∀ {p p' t rest}, Holds (t :: rest) p → Taken arities p t rest.head? p' → Holds rest p')
    {tokens : List Token} {p : Progress} {pieces : List Piece} (holds : Holds tokens p)
    (ran : run arities tokens p = some pieces) : ∃ q, Holds [] q ∧ pieces = q.done.reverse := by
  induction tokens generalizing p with
  | nil =>
    cases ran
    exact ⟨p, holds, rfl⟩
  | cons t rest ih =>
    obtain ⟨p', stepped, ran⟩ := Option.bind_eq_some_iff.1 ran
    exact ih (kept holds (step_taken stepped)) ran

variable {tokens : List Token} {pieces : List Piece}

/-- Without what has been put in, the result is what was given. -/
theorem given_place (placed : place arities tokens = some pieces) :
    pieces.filterMap Piece.given? = tokens := by
  obtain ⟨q, done, rfl⟩ := run_induct
    (fun rest p => p.done.reverse.filterMap Piece.given? ++ rest = tokens)
    (fun {p p' t rest} holds taken => by
      rw [List.filterMap_reverse] at holds ⊢
      rw [taken.given, List.reverse_cons, List.append_assoc, List.singleton_append]
      exact holds)
    rfl placed
  rwa [List.append_nil] at done

theorem addedParen_of_place (placed : place arities tokens = some pieces) :
    ∀ piece ∈ pieces, piece.AddedParen := by
  obtain ⟨q, parens, rfl⟩ := run_induct (fun _ p => ∀ piece ∈ p.done, piece.AddedParen)
    (fun holds taken => taken.addedParens holds) (fun _ => (absurd · List.not_mem_nil)) placed
  exact fun piece member => parens piece (List.mem_reverse.1 member)

end Run

/-! ### Calls without parentheses -/

/-- No function is called without parentheses among some tokens. -/
def Parenthesised (arities : Arities) (tokens : List Token) : Prop :=
  ∀ before t after, tokens = before ++ t :: after →
    isBareCall arities before.getLast? t after.head? = false

section Bare

variable {arities : Arities} {last following : Option Token} {t : Token}

theorem isFunction_eq_false (notName : t.kind ≠ "ID") (notNative : nativeArity? t.kind = none) :
    isFunction arities t = false := by
  simp [isFunction, notName, notNative]

theorem isFunction_of_isBareCall (bare : isBareCall arities last t following = true) :
    isFunction arities t = true := by
  simp only [isBareCall, Bool.and_eq_true] at bare
  exact bare.1.1

theorem isBareCall_of_not_function (other : isFunction arities t = false) :
    isBareCall arities last t following = false := by
  simp [isBareCall, other]

theorem isFunction_separator (separates : t.kind = "COMMA" ∨ t.kind = "SEMI") :
    isFunction arities t = false := by
  obtain kind | kind := separates <;> exact isFunction_eq_false (by simp [kind]) (by rw [kind]; rfl)

theorem isFunction_paren (paren : t.kind = "LPAREN" ∨ t.kind = "RPAREN") :
    isFunction arities t = false := by
  obtain kind | kind := paren <;> exact isFunction_eq_false (by simp [kind]) (by rw [kind]; rfl)

/-- Of the token before it matters only whether a function is being defined. -/
theorem isBareCall_congr {last' : Option Token}
    (same : last.all (·.kind != "SUB") = last'.all (·.kind != "SUB")) :
    isBareCall arities last t following = isBareCall arities last' t following := by
  simp only [isBareCall, same]

theorem isBareCall_separator {x y : Token} (separates : x.kind = "COMMA" ∨ x.kind = "SEMI")
    (closes : y.kind = "RPAREN") :
    isBareCall arities last t (some x) = isBareCall arities last t (some y) := by
  obtain kind | kind := separates <;> simp [isBareCall, kind, closes]

end Bare

/-- No function is called without parentheses among some tokens, last first, that come before
another. -/
def Settled (arities : Arities) : Option Token → List Token → Prop
  | _, [] => True
  | following, t :: earlier =>
    isBareCall arities earlier.head? t following = false ∧ Settled arities (some t) earlier

namespace Settled

variable {arities : Arities} {following : Option Token} {earlier : List Token}

theorem replicate {x y : Token} (separates : x.kind = "COMMA" ∨ x.kind = "SEMI")
    (closes : y.kind = "RPAREN") (settled : Settled arities (some x) earlier) (n : Nat) :
    Settled arities (some x) (List.replicate n y ++ earlier) := by
  have other {last following} : isBareCall arities last y following = false :=
    isBareCall_of_not_function (isFunction_paren (.inr closes))
  have behind : ∀ n, Settled arities (some y) (List.replicate n y ++ earlier) := by
    intro n
    induction n with
    | zero =>
      cases earlier with
      | nil => trivial
      | cons t earlier => exact ⟨isBareCall_separator separates closes ▸ settled.1, settled.2⟩
    | succ n ih => exact ⟨other, ih⟩
  cases n with
  | zero => exact settled
  | succ n => exact ⟨other, behind n⟩

theorem at_ {later : List Token} {t : Token}
    (settled : Settled arities following (later ++ t :: earlier)) :
    isBareCall arities earlier.head? t (later.getLast?.or following) = false := by
  induction later generalizing following with
  | nil => exact settled.1
  | cons x later ih =>
    have bare := ih settled.2
    rw [List.getLast?_cons]
    cases found : later.getLast? with
    | none => rwa [found] at bare
    | some y => rwa [found] at bare

theorem parenthesised {tokens : List Token} (settled : Settled arities none tokens.reverse) :
    Parenthesised arities tokens := by
  rintro before t after rfl
  rw [List.reverse_append, List.reverse_cons, List.append_assoc, List.singleton_append] at settled
  have bare := settled.at_
  rwa [List.head?_reverse, List.getLast?_reverse, Option.or_none] at bare

end Settled

section Result

variable {arities : Arities} {tokens : List Token} {pieces : List Piece}

/-- The tokens done are settled, and after the last of them a function is being defined just if that
is so after the token met before. -/
structure Progress.Settled (arities : Arities) (rest : List Token) (p : Progress) : Prop where
  calls : Parens.Settled arities rest.head? (p.done.map (·.token))
  last : (p.done.map (·.token)).head?.all (·.kind != "SUB") = p.last.all (·.kind != "SUB")

theorem Taken.settled {p p' : Progress} {t : Token} {rest : List Token}
    (settled : p.Settled arities (t :: rest)) (taken : Taken arities p t rest.head? p') :
    p'.Settled arities rest := by
  obtain ⟨calls, last⟩ := settled
  obtain ⟨bare, done⟩ | ⟨closed, separates, done⟩ | ⟨bare, done⟩ := taken.done_cases <;>
    refine ⟨?_, ?_⟩ <;> simp only [done, taken.last, List.map_cons]
  · refine ⟨isBareCall_of_not_function (isFunction_paren (.inl rfl)), ?_, calls⟩
    simp [isBareCall, Piece.token, Token.beside]
  · have notSub : t.kind ≠ "SUB" := by
      intro kind
      have function := isFunction_of_isBareCall bare
      rw [isFunction_eq_false (by simp [kind]) (by rw [kind]; rfl)] at function
      cases function
    simp [Piece.token, Token.beside, notSub]
  · refine ⟨isBareCall_of_not_function (isFunction_separator separates), ?_⟩
    rw [List.map_append, List.map_replicate]
    exact calls.replicate separates rfl closed
  · rfl
  · exact ⟨isBareCall_congr last ▸ bare, calls⟩
  · rfl

theorem parenthesised_place (placed : place arities tokens = some pieces) :
    Parenthesised arities (pieces.map (·.token)) := by
  have start : ({} : Progress).Settled arities tokens := ⟨trivial, rfl⟩
  obtain ⟨q, ⟨calls, -⟩, rfl⟩ := run_induct (fun rest p => p.Settled arities rest)
    (fun settled taken => taken.settled settled) start placed
  refine Settled.parenthesised ?_
  rwa [List.map_reverse, List.reverse_reverse]

theorem step_alone {p : Progress} {t : Token} {following : Option Token}
    (noCall : ∀ o ∈ p.opened, o.isCall = false)
    (bare : isBareCall arities p.last t following = false) :
    ∃ opened, (∀ o ∈ opened, o.isCall = false) ∧
      step arities p t following = some { done := .given t :: p.done, last := some t, opened } := by
  have closed : step.closeAll p t = { done := .given t :: p.done, last := some t, opened := [] } := by
    have none : p.opened.countP (·.isCall) = 0 :=
      List.countP_eq_zero.2 fun o member => Bool.eq_false_iff.1 (noCall o member)
    simp only [step.closeAll, none]
    rfl
  unfold step
  dsimp only
  rw [if_neg (Bool.eq_false_iff.1 bare)]
  split
  · refine ⟨_, ?_, rfl⟩
    simp only [List.forall_mem_cons]
    exact ⟨rfl, noCall⟩
  · split
    · next kind outer opened =>
      rw [opened] at noCall
      simp only [List.forall_mem_cons] at noCall
      split
      · exact ⟨outer, noCall.2, rfl⟩
      · split
        · exact ⟨[], fun _ => (absurd · List.not_mem_nil), congrArg some closed⟩
        · refine ⟨p.opened, ?_, rfl⟩
          rw [opened]
          simpa only [List.forall_mem_cons] using noCall
    · next n outer opened =>
      rw [opened] at noCall
      cases noCall _ List.mem_cons_self
    · exact ⟨p.opened, noCall, rfl⟩

theorem run_parenthesised {before rest : List Token} {p : Progress}
    (parens : Parenthesised arities (before ++ rest)) (last : p.last = before.getLast?)
    (noCall : ∀ o ∈ p.opened, o.isCall = false) :
    run arities rest p = some (p.done.reverse ++ rest.map .given) := by
  induction rest generalizing before p with
  | nil => rw [List.map_nil, List.append_nil]; rfl
  | cons t rest ih =>
    have bare := parens before t rest rfl
    rw [← last] at bare
    obtain ⟨opened, noCall, stepped⟩ := step_alone noCall bare
    rw [← List.singleton_append, ← List.append_assoc] at parens
    rw [run, stepped, Option.bind_some, ih parens (by simp) noCall, List.reverse_cons,
      List.append_assoc, List.singleton_append, List.map_cons]

theorem place_parenthesised (parens : Parenthesised arities tokens) :
    place arities tokens = some (tokens.map .given) :=
  @run_parenthesised arities [] tokens {} parens rfl fun _ => (absurd · List.not_mem_nil)

end Result

/-- Putting in parentheses only adds some: without them the result is what was given. It leaves code
alone in which every call has its parentheses, and so a second pass changes nothing. -/
theorem insertion_adds_once (arities : Arities) (tokens : List Token) :
    (∀ pieces, place arities tokens = some pieces →
      pieces.filterMap Piece.given? = tokens
        ∧ (∀ t, .added t ∈ pieces → t.kind = "LPAREN" ∨ t.kind = "RPAREN")
        ∧ insert arities tokens = some (pieces.map (·.token))
        ∧ insert arities (pieces.map (·.token)) = some (pieces.map (·.token)))
      ∧ (Parenthesised arities tokens → insert arities tokens = some tokens) := by
  have fixed {tokens : List Token} (parens : Parenthesised arities tokens) :
      insert arities tokens = some tokens := by
    rw [insert, place_parenthesised parens, Option.map_some, List.map_map]
    exact congrArg some (List.map_id tokens)
  refine ⟨fun pieces placed => ⟨given_place placed, ?_, ?_, ?_⟩, fixed⟩
  · exact fun t member => addedParen_of_place placed _ member
  · rw [insert, placed, Option.map_some]
  · exact fixed (parenthesised_place placed)

/-- A call among the arguments of another, both without parentheses: `print lc $a, $b;`. -/
def nestedCalls : List Token :=
  [("PRINT", "print"), ("LC", "lc"), ("DOLLAR", "$"), ("ID", "a"), ("COMMA", ","), ("DOLLAR", "$"),
    ("ID", "b"), ("SEMI", ";")].map fun (kind, value) => ⟨kind, value, 1, 0⟩

def nestedCallsPlaced : List Piece :=
  [(false, "PRINT", "print"), (true, "LPAREN", "("), (false, "LC", "lc"), (true, "LPAREN", "("),
    (false, "DOLLAR", "$"), (false, "ID", "a"), (true, "RPAREN", ")"), (false, "COMMA", ","),
    (false, "DOLLAR", "$"), (false, "ID", "b"), (true, "RPAREN", ")"), (false, "SEMI", ";")].map
      fun (isAdded, kind, value) =>
        if isAdded then .added ⟨kind, value, 1, 0⟩ else .given ⟨kind, value, 1, 0⟩

theorem insertion_adds_once_nested :
    place ⟨fun _ => none, fun _ _ => none⟩ nestedCalls = some nestedCallsPlaced
      ∧ nestedCallsPlaced.filterMap Piece.given? = nestedCalls
      ∧ insert ⟨fun _ => none, fun _ _ => none⟩ (nestedCallsPlaced.map (·.token))
        = some (nestedCallsPlaced.map (·.token)) := by
  have placed : place ⟨fun _ => none, fun _ _ => none⟩ nestedCalls = some nestedCallsPlaced := by
    decide
  obtain ⟨given, -, -, again⟩ := (insertion_adds_once _ _).1 _ placed
  exact ⟨placed, given, again⟩

end PerlJava.Perl.Parens
