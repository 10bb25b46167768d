import PerlJava.Perl.Scanner
import PerlJava.Data.OrderedMap
import PerlJava.Proofs.Regex.GreedyMatch

/-!
# The progress of the scanner

Every step of the scanner reads something or leaves a comment, so the next token or the end of the
text is always reached. What a token says follows from the rule that has given it.
-/

namespace PerlJava.Perl

/-! ### Lexemes -/

theorem rules_avoid_lineFeeds : Rule.all.all (fun r =>
    r == .newlines || r == .ignoredBlock || r.pattern.avoids '\n') = true := by
  decide

theorem labelRules_avoid_lineFeeds : LabelRule.all.all (fun r =>
    r == .lineEnd || r.pattern.avoids '\n') = true := by
  decide

theorem operators_avoid_lineFeeds : operators.all (fun (_, text) => !text.contains '\n') = true := by
  decide

theorem Rule.mem_all (r : Rule) : r ∈ all := by
  cases r <;> decide

theorem LabelRule.mem_all (r : LabelRule) : r ∈ all := by
  cases r <;> decide

namespace Scanner

theorem rules_consume : Rule.all.all (fun r => !r.pattern.nullable) = true := by
  decide

theorem labelRules_consume : LabelRule.all.all (fun r => !r.pattern.nullable) = true := by
  decide

theorem operators_consume : operators.all (fun (_, text) => !text.isEmpty) = true := by
  decide

/-- Where a token comes from. -/
inductive Origin (t : Token) : Prop where
  | rule {r : Rule} {asName : Bool} {text : List Char} : r.pattern.Admits text →
    lexeme? asName text r = some (t.kind, t.value) → Origin t
  | operator {text : List Char} : (t.kind, text) ∈ operators → t.value = String.ofList text →
    Origin t
  | label : t.kind ∈ "VAR" :: "SIZE" :: labelWords.map (·.2) → Origin t
  | lineEnd : t.kind = "COMMENT" → t.value = "\n" → Origin t

variable {s s' : Scanner} {text read : List Char} {after : Cursor} {asName : Bool} {found : Found}

theorem firstMatch_reads {ρ : Type} {pattern : ρ → Regex} {rules : List ρ} {r : ρ}
    (consume : rules.all (fun r => !(pattern r).nullable) = true)
    (found : s.firstMatch pattern rules = some (r, after)) :
    ∃ text, text ≠ [] ∧ s.cursor.Reads text after ∧ (pattern r).Admits text := by
  obtain ⟨r', member, found⟩ := List.exists_of_findSome?_eq_some found
  obtain ⟨p, matched, same⟩ := Option.map_eq_some_iff.1 found
  cases same
  obtain ⟨text, reads, admits⟩ := Regex.matchIn_reads matched
  refine ⟨text, fun empty => ?_, reads, admits⟩
  have consumes := List.all_eq_true.1 consume r member
  simp [admits.nullable empty] at consumes

/-- What is left out of a text that starts with an ignored block is a part of it. -/
theorem blockExtent_eq_take (text : List Char) :
    ∃ n, 0 < n ∧ blockExtent text = text.take n := by
  rw [blockExtent]
  split
  · exact ⟨_, Nat.add_pos_right _ (by decide), rfl⟩
  · exact ⟨text.length + 1, Nat.succ_pos _, (List.take_of_length_le (Nat.le_succ _)).symm⟩

theorem count_lineFeeds {r : Rule} (newlines : r ≠ .newlines) (block : r ≠ .ignoredBlock)
    (admits : r.pattern.Admits read) : read.count '\n' = 0 := by
  have avoids := List.all_eq_true.1 rules_avoid_lineFeeds r r.mem_all
  exact List.count_eq_zero.2 (admits.not_mem (by simpa [newlines, block] using avoids))

theorem count_lineFeeds_of_label {r : LabelRule} (lineEnd : r ≠ .lineEnd)
    (admits : r.pattern.Admits read) : read.count '\n' = 0 := by
  have avoids := List.all_eq_true.1 labelRules_avoid_lineFeeds r r.mem_all
  exact List.count_eq_zero.2 (admits.not_mem (by simpa [lineEnd] using avoids))

/-- The rule for line feeds reads nothing else. -/
theorem count_newlines (admits : Rule.newlines.pattern.Admits read) :
    read.count '\n' = read.length := by
  rw [List.count_eq_length]
  change (Regex.rep 1 none false (Regex.char '\n')).Admits read at admits
  intro c member
  cases admits with
  | rep all _ =>
    obtain ⟨t, part, within⟩ := List.mem_flatten.1 member
    rw [(all t part).eq_of_char] at within
    exact (List.mem_singleton.1 within).symm

theorem firstMatch_lineFeed {rest : List Char} (here : s.cursor.rest = '\n' :: rest) :
    ∃ after, s.firstMatch Rule.pattern Rule.all = some (.newlines, after) := by
  have contains : CharSet.contains { items := [.char '\n'] } '\n' = true := by decide
  have next : s.cursor.next ∈ Regex.reach { items := [.char '\n'] } 1 (s.size + 2 + 1) s.cursor [] := by
    rw [Regex.reach, here]
    simp only [contains, if_true, Nat.one_ne_zero, if_false]
    exact Regex.mem_reach_of_passes (.refl _) (by simp) (Nat.zero_le _)
  have matched : (Rule.newlines.pattern.matchIn s.size s.cursor).isSome = true :=
    List.findSome?_isSome_iff.2 ⟨s.cursor.next, next, rfl⟩
  obtain ⟨p, matched⟩ := Option.isSome_iff_exists.1 matched
  exact ⟨p.cursor, by simp [firstMatch, Rule.all, matched]⟩

theorem firstMatch_lineEnd {rest : List Char} (here : s.cursor.rest = '\n' :: rest) :
    s.firstMatch LabelRule.pattern LabelRule.all ≠ none := by
  intro none
  have matched : LabelRule.lineEnd.pattern.matchIn s.size s.cursor
      = some { cursor := s.cursor.next } := by
    have contains : CharSet.contains { items := [.char '\n'] } '\n' = true := by decide
    rw [Regex.matchIn, LabelRule.pattern, Regex.char, Regex.run, here]
    simp only [contains, if_true]
  have missed := List.findSome?_eq_none_iff.1 none .lineEnd LabelRule.lineEnd.mem_all
  simp [matched] at missed

/-! ### What one step does -/

/-- A step reads on, or leaves a comment at its line end. -/
inductive Stepped (s : Scanner) : Found → Scanner → Prop where
  /-- The line feeds in what is read are counted. A token starts where the scanner was, and none
  starts with a line feed outside comments. -/
  | reads {found : Found} {s' : Scanner} {read : List Char} : read ≠ [] →
    s.cursor.Reads read s'.cursor → s'.size = s.size → s'.line = s.line + read.count '\n' →
    (∀ t, found = .token t → t.position = s.position ∧ Origin t) →
    (s.inComment = false → s.cursor.rest.head? = some '\n' → found = .nothing) →
    Stepped s found s'
  /-- The line end is left to be read. -/
  | leaves : s.inComment = true → s.cursor.rest.head? = some '\n' →
    Stepped s (.token (s.tokenHere "COMMENT" "\n")) { s with inComment := false }

theorem stepped_over {c : Char} {rest : List Char} (here : s.cursor.rest = c :: rest)
    (other : c ≠ '\n') (noToken : ∀ t, found ≠ .token t) :
    Stepped s found { s with cursor := s.cursor.next } := by
  refine .reads (List.cons_ne_nil c []) (Cursor.reads_next here) rfl ?_ ?_ ?_
  · simp [other]
  · exact fun t token => absurd token (noToken t)
  · intro _ lineFeed
    rw [here] at lineFeed
    exact absurd (Option.some.inj lineFeed) other

theorem applyRule_stepped {r : Rule} (reads : s.cursor.Reads read after) (some_ : read ≠ [])
    (admits : r.pattern.Admits read)
    (first : s.cursor.rest.head? = some '\n' → r = .newlines)
    (applied : s.applyRule asName after r = (found, s')) : Stepped s found s' := by
  rw [applyRule, reads.textSince] at applied
  obtain ⟨lexeme, rfl⟩ := Prod.mk.inj applied
  have token (t : Token) (token : found = .token t) : t.position = s.position ∧ Origin t := by
    rw [← lexeme] at token
    split at token <;> cases token
    next lexeme => exact ⟨rfl, .rule admits lexeme⟩
  have nothing (_ : s.inComment = false) (lineFeed : s.cursor.rest.head? = some '\n') :
      found = .nothing := by
    rw [← lexeme, first lineFeed]
    rfl
  cases r with
  | newlines => exact .reads some_ reads rfl (by rw [count_newlines admits]; rfl) token nothing
  | ignoredBlock =>
    obtain ⟨n, positive, extent⟩ := blockExtent_eq_take read
    have begins : blockExtent read <+: s.cursor.rest := by
      rw [extent, reads.rest]
      exact (List.take_prefix n read).trans (List.prefix_append read after.rest)
    have onwards := Cursor.reads_advance begins.length_le
    rw [← List.prefix_iff_eq_take.1 begins] at onwards
    refine .reads ?_ onwards rfl rfl token nothing
    rw [extent, Ne, List.take_eq_nil_iff]
    exact not_or.2 ⟨Nat.ne_of_gt positive, some_⟩
  | _ =>
    have count := count_lineFeeds Rule.noConfusion Rule.noConfusion admits
    exact .reads some_ reads rfl (by rw [count]; rfl) token nothing

theorem applyLabelRule_stepped {r : LabelRule} (inComment : s.inComment = true)
    (reads : s.cursor.Reads read after) (some_ : read ≠ []) (admits : r.pattern.Admits read)
    (applied : s.applyLabelRule after r = (found, s')) : Stepped s found s' := by
  have outside (no : s.inComment = false) : found = .nothing := by
    rw [inComment] at no
    cases no
  have onwards (lineEnd : r ≠ .lineEnd)
      (token : ∀ t, found = .token t → t.position = s.position ∧ Origin t) :
      Stepped s found { s with cursor := after } :=
    .reads some_ reads rfl (by rw [count_lineFeeds_of_label lineEnd admits]; rfl) token
      fun no _ => outside no
  rw [applyLabelRule, reads.textSince] at applied
  cases r with
  | varName | size =>
    cases applied
    refine onwards LabelRule.noConfusion ?_
    rintro t ⟨⟩
    exact ⟨rfl, .label (by simp [tokenHere])⟩
  | other =>
    cases applied
    exact onwards LabelRule.noConfusion (by rintro t ⟨⟩)
  | word =>
    simp only at applied
    split at applied <;> cases applied
    · next known =>
      refine onwards LabelRule.noConfusion ?_
      rintro t ⟨⟩
      have member := List.mem_map_of_mem (f := Prod.snd) (OrderedMap.mem_of_lookup known)
      exact ⟨rfl, .label (by simp [tokenHere, member])⟩
    · exact onwards LabelRule.noConfusion (by rintro t ⟨⟩)
  | lineEnd =>
    obtain rfl := admits.eq_of_char
    cases applied
    exact .leaves inComment (by rw [reads.rest]; rfl)

/-- Every step reads on, or leaves a comment at its line end. -/
theorem step_stepped (step : s.step asName = some (found, s')) : Stepped s found s' := by
  rw [Scanner.step] at step
  split at step
  · cases step
  · next c rest here =>
    have step := Option.some.inj step
    split at step
    · next inside =>
      split at step
      · next matched =>
        obtain ⟨read, some_, reads, admits⟩ := firstMatch_reads labelRules_consume matched
        exact applyLabelRule_stepped inside reads some_ admits step
      · next missed =>
        cases step
        refine stepped_over here ?_ (by rintro t ⟨⟩)
        rintro rfl
        exact firstMatch_lineEnd here missed
    · split at step
      · next space =>
        cases step
        refine stepped_over here ?_ (by rintro t ⟨⟩)
        rintro rfl
        exact absurd space (by decide)
      · split at step
        · next r after matched =>
          obtain ⟨read, some_, reads, admits⟩ := firstMatch_reads rules_consume matched
          refine applyRule_stepped reads some_ admits (fun lineFeed => ?_) step
          obtain ⟨rest, here⟩ := List.head?_eq_some_iff.1 lineFeed
          obtain ⟨after', first⟩ := firstMatch_lineFeed here
          exact congrArg Prod.fst (Option.some.inj (matched.symm.trans first))
        · next missed =>
          have other : c ≠ '\n' := by
            rintro rfl
            obtain ⟨after, first⟩ := firstMatch_lineFeed here
            cases missed.symm.trans first
          split at step
          · next kind operator found =>
            cases step
            have member := List.mem_of_find?_eq_some found
            have some_ : operator ≠ [] := by
              simpa using List.all_eq_true.1 operators_consume _ member
            have count : operator.count '\n' = 0 := List.count_eq_zero.2 (by
              simpa using List.all_eq_true.1 operators_avoid_lineFeeds _ member)
            have starts : operator <+: s.cursor.rest := by simpa using List.find?_some found
            have reads := Cursor.reads_advance starts.length_le
            rw [← List.prefix_iff_eq_take.1 starts] at reads
            refine .reads some_ reads rfl (by rw [count]; rfl) ?_ ?_
            · rintro t ⟨⟩
              exact ⟨rfl, .operator member rfl⟩
            · intro _ lineFeed
              rw [here] at lineFeed
              exact absurd (Option.some.inj lineFeed) other
          · cases step
            exact stepped_over here other (by rintro t ⟨⟩)

/-! ### Whole readings -/

/-- How much the scanner still has to do: two steps for each character, and one to leave a
comment. -/
def weight (s : Scanner) : Nat :=
  2 * s.cursor.rest.length + s.inComment.toNat

/-- A scanner that has moved on in the same text. -/
structure Advances (s s' : Scanner) : Prop where
  size : s'.size = s.size
  weight : s'.weight < s.weight

theorem Stepped.advances (stepped : Stepped s found s') : s.Advances s' := by
  cases stepped with
  | reads some_ reads size =>
    refine ⟨size, ?_⟩
    have positive := List.length_pos_iff.2 some_
    have flag := Bool.toNat_le s'.inComment
    rw [weight, weight, reads.rest, List.length_append]
    omega
  | leaves inComment => exact ⟨rfl, by simp [weight, inComment]⟩

theorem Stepped.origin {t : Token} (stepped : Stepped s (.token t) s') : Origin t := by
  cases stepped with
  | reads _ _ _ _ token => exact (token t rfl).2
  | leaves => exact .lineEnd rfl rfl

/-- A reading that has come to a token, or to the end of the text. -/
structure Reading.Complete (s : Scanner) (reading : Reading) : Prop where
  size : reading.scanner.size = s.size
  weight : reading.scanner.weight + reading.token.isSome.toNat ≤ s.weight
  origin : ∀ t, reading.token = some t → Origin t
  atEnd : reading.token = none → reading.scanner.cursor.rest = []

theorem nextWith_complete {fuel : Nat} {notices : List Notice} (enough : s.weight < fuel) :
    (nextWith asName fuel notices s).Complete s := by
  induction fuel generalizing notices s with
  | zero => omega
  | succ fuel ih =>
    have onwards {notices : List Notice} {s' : Scanner} (advances : s.Advances s') :
        (nextWith asName fuel notices s').Complete s := by
      obtain ⟨size, weight, origin, atEnd⟩ : (nextWith asName fuel notices s').Complete s' :=
        ih (Nat.lt_of_lt_of_le advances.weight (Nat.le_of_lt_succ enough))
      exact ⟨size.trans advances.size, Nat.le_trans weight (Nat.le_of_lt advances.weight), origin,
        atEnd⟩
    rw [nextWith]
    split
    · next none =>
      refine ⟨rfl, Nat.le_refl _, nofun, fun _ => ?_⟩
      unfold Scanner.step at none
      split at none
      · assumption
      · cases none
    · next t s' step =>
      have stepped := step_stepped step
      refine ⟨stepped.advances.size, stepped.advances.weight, ?_, nofun⟩
      rintro t ⟨⟩
      exact stepped.origin
    · next s' step => exact onwards (step_stepped step).advances
    · next s' step => exact onwards (step_stepped step).advances

/-- The scanner comes to the next token, or to the end of the text. -/
theorem next_complete (asName : Bool) (fits : s.cursor.rest.length ≤ s.size) :
    (s.next asName).Complete s := by
  refine nextWith_complete ?_
  have flag := Bool.toNat_le s.inComment
  rw [weight]
  omega

theorem rest_le_of_weight_le (weight : s'.weight ≤ s.weight) :
    s'.cursor.rest.length ≤ s.cursor.rest.length := by
  have flag := Bool.toNat_le s.inComment
  rw [Scanner.weight, Scanner.weight] at weight
  omega

end Scanner

def literalKinds : List String :=
  ["COMMENT", "COMMENT_LINE", "STRING_QUOTE", "STRING_DOUBLE_QUOTE", "M_REGEX", "S_REGEX",
    "Y_REGEX"]

/-- The kinds of all other tokens whose kind depends on their value. -/
def spelledKinds : List String :=
  "ID" :: reservedWords.map (·.2) ++ operators.map (·.1) ++ "VAR" :: "SIZE" :: labelWords.map (·.2)

theorem spelledKinds_not_literal :
    ("$end" :: literalKinds).all (fun kind => !spelledKinds.contains kind) = true := by
  decide

theorem wordKind_mem (word : String) : wordKind word ∈ "ID" :: reservedWords.map (·.2) := by
  rw [wordKind]
  cases found : reservedWords.lookup word with
  | none => exact List.mem_cons_self
  | some kind =>
    exact List.mem_cons_of_mem _ (List.mem_map_of_mem (OrderedMap.mem_of_lookup found))

/-- The kinds of tokens that do not come from a reserved word. -/
def foreignKinds : List String :=
  ["ID", "COMMENT", "FLOAT_NUMBER", "INT_NUMBER", "STRING_QUOTE", "STRING_DOUBLE_QUOTE", "CMD",
    "M_REGEX", "S_REGEX", "Y_REGEX", "JAVA_IMPORT", "JAVA_LINE", "XEQUAL"]
    ++ operators.map (·.1) ++ ("VAR" :: "SIZE" :: labelWords.map (·.2))

theorem foreignKinds_not_native :
    foreignKinds.all (fun kind => !nativeFunctions.contains kind) = true := by
  decide

theorem renamedWords_not_native :
    renamedWords.all (fun (_, kind) => !nativeFunctions.contains kind) = true := by
  decide

theorem wordKind_native {word kind : String} (is : wordKind word = kind)
    (native : kind ∈ nativeFunctions) : word = kind.toLower := by
  rw [wordKind] at is
  cases found : reservedWords.lookup word with
  | none =>
    rw [found, Option.getD_none] at is
    subst is
    simpa [native] using List.all_eq_true.1 foreignKinds_not_native "ID" (by simp [foreignKinds])
  | some kind' =>
    rw [found, Option.getD_some] at is
    subst is
    obtain renamed | own := List.mem_append.1 (OrderedMap.mem_of_lookup found)
    · simpa [native] using List.all_eq_true.1 renamedWords_not_native _ renamed
    · obtain ⟨_, -, same⟩ := List.mem_map.1 own
      cases same
      rfl

namespace Scanner

/-- A token with a value of its own comes from a rule for such values, or ends a comment. -/
theorem Origin.of_literal {t : Token} (origin : Origin t) (literal : t.kind ∈ "$end" :: literalKinds) :
    (t.kind = "COMMENT" ∧ t.value = "\n")
      ∨ ∃ r asName text, r ≠ .word ∧ r.pattern.Admits text
        ∧ lexeme? asName text r = some (t.kind, t.value) := by
  have notSpelled : t.kind ∉ spelledKinds := by
    simpa using List.all_eq_true.1 spelledKinds_not_literal _ literal
  simp only [spelledKinds, List.mem_append, not_or] at notSpelled
  obtain ⟨⟨notWord, notOperator⟩, notLabel⟩ := notSpelled
  cases origin with
  | @rule r asName text admits lexeme =>
    refine .inr ⟨r, asName, text, ?_, admits, lexeme⟩
    rintro rfl
    obtain ⟨kind, -⟩ := Prod.mk.inj (Option.some.inj lexeme)
    rw [← kind] at notWord
    split at notWord
    · exact notWord List.mem_cons_self
    · exact notWord (wordKind_mem _)
  | operator member => exact absurd (List.mem_map_of_mem member) notOperator
  | label member => exact absurd member notLabel
  | lineEnd kind value => exact .inl ⟨kind, value⟩

theorem Origin.comment {t : Token} (origin : Origin t) (comment : t.kind = "COMMENT") :
    t.value = "\n" := by
  obtain ⟨-, value⟩ | ⟨r, asName, text, notWord, -, lexeme⟩ :=
    origin.of_literal (comment ▸ by decide)
  · exact value
  · cases r <;> simp_all [lexeme?]

theorem Origin.ne_commentLine {t : Token} (origin : Origin t) : t.kind ≠ "COMMENT_LINE" := by
  intro line
  obtain ⟨comment, -⟩ | ⟨r, asName, text, notWord, -, lexeme⟩ :=
    origin.of_literal (line ▸ by decide)
  · simp [line] at comment
  · cases r <;> simp_all [lexeme?]

theorem Origin.ne_end {t : Token} (origin : Origin t) : t.kind ≠ "$end" := by
  intro isEnd
  obtain ⟨comment, -⟩ | ⟨r, asName, text, notWord, -, lexeme⟩ :=
    origin.of_literal (isEnd ▸ List.mem_cons_self)
  · simp [isEnd] at comment
  · cases r <;> simp_all [lexeme?]

theorem Origin.native {t : Token} (origin : Origin t) (native : t.kind ∈ nativeFunctions) :
    t.value = t.kind.toLower := by
  have apart (kind : String) (other : kind ∈ foreignKinds) : t.kind ≠ kind := by
    rintro rfl
    simpa [native] using List.all_eq_true.1 foreignKinds_not_native _ other
  cases origin with
  | @rule r asName text admits lexeme =>
    cases r with
    | word =>
      obtain ⟨kind, value⟩ := Prod.mk.inj (Option.some.inj lexeme)
      rw [← value]
      split at kind
      · exact absurd kind.symm (apart _ (by simp [foreignKinds]))
      · exact wordKind_native kind native
    | _ =>
      first
      | cases lexeme
      | obtain ⟨kind, -⟩ := Prod.mk.inj (Option.some.inj lexeme)
        exact absurd kind.symm (apart _ (by simp [foreignKinds]))
  | operator member =>
    have there := List.mem_map_of_mem (f := Prod.fst) member
    exact absurd rfl (apart t.kind (by simp [foreignKinds, there]))
  | label member => exact absurd rfl (apart t.kind (by simp only [foreignKinds, List.mem_append, member, or_true]))
  | lineEnd kind => exact absurd kind (apart _ (by simp [foreignKinds]))

/-- The scanner after some tokens, each of which was asked for as a name or not. -/
def after (s : Scanner) : List Bool → Scanner
  | [] => s
  | asName :: more => (s.next asName).scanner.after more

theorem after_fits {s : Scanner} (fits : s.cursor.rest.length ≤ s.size) (asked : List Bool) :
    (s.after asked).cursor.rest.length ≤ (s.after asked).size := by
  induction asked generalizing s with
  | nil => exact fits
  | cons asName more ih =>
    obtain ⟨size, weight, -, -⟩ := s.next_complete asName fits
    have rest := rest_le_of_weight_le (Nat.le_of_add_right_le weight)
    refine ih ?_
    rw [size]
    exact Nat.le_trans rest fits

end Scanner

end PerlJava.Perl
