import PerlJava.Proofs.Perl.ScannerProgress
import PerlJava.Proofs.Regex.PreferredMatch

/-!
# The first lexeme

Rules are tried in order, so a rule gives the next token if those before it miss what lies ahead, and
an operator is only looked for where all rules miss.
-/

namespace PerlJava.Perl.Scanner

open Regex

variable {s : Scanner} {asName : Bool} {c : Char} {text rest : List Char} {after : Cursor}

/-- A scanner outside comments that has a text ahead of it. -/
structure Ahead (s : Scanner) (input : List Char) : Prop where
  code : s.inComment = false
  rest : s.cursor.rest = input
  fits : input.length ≤ s.size

theorem ahead_ofText (text : String) : (ofText text).Ahead text.toList :=
  ⟨rfl, rfl, Nat.le_of_eq String.length_toList⟩

/-- Whether a rule misses every text that begins with a character and has no mark of a comment in
it. -/
def passesBy (c : Char) (r : Rule) : Bool :=
  !r.pattern.nullable && (!r.pattern.begins c || r.pattern.requires ['#'])

theorem misses_of_passesBy {r : Rule} (passes : passesBy c r = true) (free : '#' ∉ c :: rest) :
    r.pattern.Misses (c :: rest) := by
  obtain ⟨consumes, other⟩ := Bool.and_eq_true_iff.1 passes
  obtain other | needs := Bool.or_eq_true_iff.1 other
  · exact misses_of_begins (by simpa using consumes) (by simpa using other)
  · exact misses_of_requires _ needs (by simpa using free)

theorem next_of_token {t : Token} {s' : Scanner} (step : s.step asName = some (.token t, s')) :
    s.next asName = ⟨[], some t, s'⟩ := by
  rw [next, nextWith, step]
  rfl

theorem firstMatch_of_misses {earlier later : List Rule} {r : Rule}
    (order : Rule.all = earlier ++ r :: later)
    (missed : ∀ q ∈ earlier, q.pattern.Misses s.cursor.rest) (prefers : r.pattern.Prefers text rest)
    (passes : s.cursor.Passes text after) (ahead : after.rest = rest) (fits : text.length ≤ s.size) :
    s.firstMatch Rule.pattern Rule.all = some (r, after) := by
  have none : ∀ q ∈ earlier,
      (q.pattern.matchIn s.size s.cursor).map (fun p => (q, p.cursor)) = .none :=
    fun q member => by rw [matchIn, (missed q member).run, Option.map_none]
  rw [firstMatch, order, List.findSome?_append, List.findSome?_eq_none_iff.2 none,
    List.findSome?_cons, prefers.matchIn passes ahead fits]
  rfl

/-- A rule gives the next token if it is the first not to miss what lies ahead. -/
theorem next_of_rule (earlier : List Rule) {later : List Rule} {r : Rule} {kind value : String}
    (ahead : s.Ahead (c :: text ++ rest)) (notSpace : isSpace c = false)
    (order : Rule.all = earlier ++ r :: later)
    (missed : ∀ q ∈ earlier, q.pattern.Misses (c :: text ++ rest))
    (prefers : r.pattern.Prefers (c :: text) rest)
    (lexeme : lexeme? asName (c :: text) r = some (kind, value))
    (simple : ∀ after, s.pass (c :: text) after r = { s with cursor := after }) :
    ∃ after, s.next asName = ⟨[], some (s.tokenHere kind value), { s with cursor := after }⟩
      ∧ Ahead { s with cursor := after } rest
      ∧ after.position = s.cursor.position + (text.length + 1) := by
  obtain ⟨code, here, fits⟩ := ahead
  obtain ⟨after, passes, left⟩ := Cursor.Passes.exists_of_rest here
  rw [List.length_append] at fits
  have first : s.firstMatch Rule.pattern Rule.all = some (r, after) :=
    firstMatch_of_misses order (here ▸ missed) prefers passes left (by omega)
  refine ⟨after, next_of_token ?_, ⟨code, left, Nat.le_of_add_left_le fits⟩, passes.position⟩
  rw [List.cons_append] at here
  simp only [step, here, code, notSpace, first, applyRule, passes.textSince, lexeme, simple]
  rfl

theorem find?_operators {input : List Char} {found : Option (String × List Char)}
    (same : ∀ op ∈ operators, op.2.isPrefixOf input = op.2.isPrefixOf [c])
    (alone : operators.find? (fun op => op.2.isPrefixOf [c]) = found) :
    operators.find? (fun op => op.2.isPrefixOf input) = found := by
  rw [← List.head?_filter, List.filter_congr same, List.head?_filter, alone]

/-- An operator gives the next token if all rules miss what lies ahead. -/
theorem next_of_operator (kind : String) (ahead : s.Ahead (c :: rest))
    (notSpace : isSpace c = false) (passed : Rule.all.all (passesBy c) = true)
    (free : '#' ∉ c :: rest)
    (same : ∀ op ∈ operators, op.2.isPrefixOf (c :: rest) = op.2.isPrefixOf [c])
    (alone : operators.find? (fun op => op.2.isPrefixOf [c]) = some (kind, [c])) :
    s.next asName
        = ⟨[], some (s.tokenHere kind (String.singleton c)), { s with cursor := s.cursor.next }⟩
      ∧ Ahead { s with cursor := s.cursor.next } rest := by
  obtain ⟨code, here, fits⟩ := ahead
  have missed : s.firstMatch Rule.pattern Rule.all = none := by
    refine List.findSome?_eq_none_iff.2 fun q member => ?_
    have misses := misses_of_passesBy (List.all_eq_true.1 passed q member) free
    rw [matchIn, Misses.run (by rwa [here]), Option.map_none]
  have operator : s.operatorHere? = some (kind, [c]) := by
    rw [operatorHere?, here]
    exact find?_operators same alone
  refine ⟨next_of_token ?_, code, ?_, by simpa using Nat.le_of_succ_le fits⟩
  · simp only [step, here, code, notSpace, missed, operator, List.length_singleton]
    rfl
  · have reads := Cursor.reads_next here
    simpa [here] using reads.rest.symm

/-- Where nothing is left there is no token. -/
theorem next_at_end (ahead : s.Ahead []) : (s.next asName).token = none := by
  rw [next, nextWith, step, ahead.rest]

end PerlJava.Perl.Scanner
