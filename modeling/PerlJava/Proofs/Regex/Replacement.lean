import PerlJava.Proofs.Regex.AdmittedText
import PerlJava.Regex.Template

/-!
# Replaced matches

What a match reads in order, what its groups stand for, and what a replacement makes of a text in
which an expression can match but once.
-/

namespace PerlJava

/-- Passing over a text leads from one place to another, with the text right before it. -/
structure Cursor.Passes (cursor : Cursor) (text : List Char) (after : Cursor) : Prop
    extends cursor.Reads text after where
  before : after.before = text.reverse ++ cursor.before

namespace Cursor.Passes

variable {cursor middle after : Cursor} {first second : List Char}

theorem refl (cursor : Cursor) : cursor.Passes [] cursor where
  toReads := .refl cursor
  before := rfl

theorem trans (one : cursor.Passes first middle) (two : middle.Passes second after) :
    cursor.Passes (first ++ second) after where
  toReads := one.toReads.trans two.toReads
  before := by rw [two.before, one.before, List.reverse_append, List.append_assoc]

theorem next {c : Char} {rest : List Char} (here : cursor.rest = c :: rest) :
    cursor.Passes [c] cursor.next := by
  obtain ⟨before, _, position⟩ := cursor
  cases here
  exact ⟨⟨rfl, rfl⟩, rfl⟩

/-- The span from one place to a later one, as it is seen from a place behind both. -/
theorem spanText (one : cursor.Passes first middle) (two : middle.Passes second after) :
    Regex.spanText after cursor.position middle.position = first := by
  have behind : after.position - middle.position = second.length := by
    rw [two.position, Nat.add_sub_cancel_left]
  have long : middle.position - cursor.position = first.length := by
    rw [one.position, Nat.add_sub_cancel_left]
  rw [Regex.spanText, if_pos (by rw [two.position]; exact Nat.le_add_right ..), behind, long,
    two.before, one.before, List.drop_left' List.length_reverse, List.take_left' List.length_reverse,
    List.reverse_reverse]

end Cursor.Passes

namespace Regex

variable {β : Type} {fuel : Nat} {p : Progress} {k : Progress → Option β} {b : β}

/-! ### Replacing the only match -/

theorem passes_of_search {r : Regex} {steps : Nat} {cursor start : Cursor}
    (found : r.search steps cursor = some (start, p)) :
    (∃ text, cursor.Passes text start) ∧ r.matchAt start = some p := by
  refine ⟨?_, matchAt_of_search found⟩
  induction steps generalizing cursor with
  | zero => cases found
  | succ steps ih =>
    rw [search] at found
    split at found
    · cases found
      exact ⟨[], .refl _⟩
    · split at found
      · cases found
      · next more =>
        obtain ⟨text, passes⟩ := ih found
        obtain ⟨c, rest, here⟩ := List.exists_cons_of_ne_nil (by simpa using more)
        exact ⟨_, (Cursor.Passes.next here).trans passes⟩

/-- An expression does not match where a character is missing that all its matches have. -/
theorem search_eq_none {r : Regex} {c : Char} (needs : ∀ {text}, r.Admits text → c ∈ text)
    {steps : Nat} {cursor : Cursor} (missing : c ∉ cursor.rest) : r.search steps cursor = none := by
  cases found : r.search steps cursor with
  | none => rfl
  | some match_ =>
    obtain ⟨start, p⟩ := match_
    obtain ⟨⟨skipped, passes⟩, matched⟩ := passes_of_search found
    obtain ⟨text, reads, admits⟩ := matchIn_reads matched
    rw [passes.rest, reads.rest] at missing
    simp [needs admits] at missing

section Once

variable {r : Regex} {c : Char} (needs : ∀ {text}, r.Admits text → c ∈ text)
  (ends : ∀ {cursor p}, r.matchAt cursor = some p → c ∉ p.cursor.rest)
include needs ends

/-- If every match has a character that does not occur behind it, the first match is the only one. -/
theorem matchesIn_of_search {text : String} {start : Cursor}
    (found : r.search (text.toList.length + 1) (.ofText text) = some (start, p)) :
    r.matchesIn text = [(start, p)] := by
  have found' : r.search ((Cursor.ofText text).rest.length + 1) (.ofText text) = some (start, p) :=
    found
  obtain ⟨-, matched⟩ := passes_of_search found
  obtain ⟨read, reads, admits⟩ := matchIn_reads matched
  have some_ : 0 < read.length := List.length_pos_of_mem (needs admits)
  have later : ∀ steps, r.findAll steps p.cursor = [] := by
    intro steps
    cases steps with
    | zero => rfl
    | succ steps => rw [findAll, search_eq_none needs (ends matched)]
  rw [matchesIn, findAll, found']
  simp only
  rw [if_neg (by rw [reads.position]; omega), later]

theorem replace_of_search (pieces : List Piece) {text : String} {start : Cursor}
    (found : r.search (text.toList.length + 1) (.ofText text) = some (start, p)) :
    ∃ skipped, (Cursor.ofText text).Passes skipped start
      ∧ (r.replace pieces text).toList = skipped ++ (fill p pieces).toList ++ p.cursor.rest := by
  obtain ⟨⟨skipped, passes⟩, matched⟩ := passes_of_search found
  refine ⟨skipped, passes, ?_⟩
  obtain ⟨read, reads, -⟩ := matchIn_reads matched
  have whole : text.toList = skipped ++ (read ++ p.cursor.rest) := by
    rw [← reads.rest, ← passes.rest]
    rfl
  have before : start.position = skipped.length := by
    rw [passes.position]
    exact Nat.zero_add _
  have behind : text.toList.drop p.cursor.position = p.cursor.rest := by
    rw [whole, reads.position, before, ← List.append_assoc, ← List.length_append, List.drop_left]
  rw [replace, matchesIn_of_search needs ends found]
  simp only [List.foldl_cons, List.foldl_nil, behind, before, Nat.sub_zero, List.drop_zero]
  rw [whole, List.take_left]
  simp

theorem replace_cases (pieces : List Piece) (text : String) :
    r.replace pieces text = text ∨ ∃ skipped start p,
      (Cursor.ofText text).Passes skipped start ∧ r.matchAt start = some p
        ∧ (r.replace pieces text).toList = skipped ++ (fill p pieces).toList ++ p.cursor.rest := by
  cases found : r.search (text.toList.length + 1) (.ofText text) with
  | none =>
    have found' : r.search ((Cursor.ofText text).rest.length + 1) (.ofText text) = none := found
    refine .inl ?_
    rw [replace, matchesIn, findAll, found']
    simp
  | some match_ =>
    obtain ⟨start, p⟩ := match_
    obtain ⟨skipped, passes, made⟩ := replace_of_search needs ends pieces found
    exact .inr ⟨skipped, start, p, passes, (passes_of_search found).2, made⟩

end Once

/-! ### Templates -/

def Progress.groupText (p : Progress) (number : Nat) : List Char :=
  (p.span? number).elim [] fun (start, stop) => spanText p.cursor start stop

@[simp] theorem fill_nil (p : Progress) : (fill p []).toList = [] := rfl

@[simp] theorem fill_text (p : Progress) (text : String) (pieces : List Piece) :
    (fill p (.text text :: pieces)).toList = text.toList ++ (fill p pieces).toList := by
  simp [fill]

@[simp] theorem fill_group (p : Progress) (number : Nat) (pieces : List Piece) :
    (fill p (.group number :: pieces)).toList = p.groupText number ++ (fill p pieces).toList := by
  simp only [fill, Progress.groupText, List.map_cons, String.join_cons, String.toList_append]
  cases p.span? number with
  | none => rfl
  | some span => simp

def Renders (groups : Nat) (template : List Char) (text : Progress → List Char) : Prop :=
  ∃ pieces, (∀ {fuel}, template.length ≤ fuel → piecesWithin groups fuel template = .ok pieces)
    ∧ ∀ p, (fill p pieces).toList = text p

namespace Renders

variable {groups : Nat} {template : List Char} {text : Progress → List Char}

protected theorem nil : Renders groups [] fun _ => [] := by
  refine ⟨[], ?_, fun _ => rfl⟩
  rintro (_ | _) -
  · rfl
  · rfl

theorem char {c : Char} (plain : c ≠ '\\') (rest : Renders groups template text) :
    Renders groups (c :: template) fun p => c :: text p := by
  obtain ⟨pieces, made, filled⟩ := rest
  refine ⟨.ofChar c :: pieces, ?_, fun p => ?_⟩
  · rintro (_ | fuel) long
    · cases long
    · rw [piecesWithin, made (by simpa using long)]
      · rfl
      · simpa using plain
  · rw [Piece.ofChar, fill_text, filled]
    simp

theorem escaped {c : Char} {after : List Char} {piece : Piece}
    (escape : escapedPiece groups (c :: after) = .ok (piece, template))
    (short : template.length ≤ after.length) (rest : Renders groups template text) :
    Renders groups ('\\' :: c :: after) fun p => (fill p [piece]).toList ++ text p := by
  obtain ⟨pieces, made, filled⟩ := rest
  refine ⟨piece :: pieces, ?_, fun p => ?_⟩
  · rintro (_ | fuel) long
    · cases long
    · simp only [List.length_cons, Nat.add_le_add_iff_right] at long
      rw [piecesWithin, escape]
      change (do return piece :: (← piecesWithin groups fuel template)) = _
      rw [made (by omega)]
      rfl
  · cases piece with
    | text _ => simp [filled]
    | group _ => simp [filled]

theorem word {word : List Char} (plain : '\\' ∉ word) (rest : Renders groups template text) :
    Renders groups (word ++ template) fun p => word ++ text p := by
  induction word with
  | nil => exact rest
  | cons c word ih =>
    rw [List.mem_cons, not_or] at plain
    exact char (Ne.symm plain.1) (ih plain.2)

end Renders

theorem escapedPiece_group {groups : Nat} {c d : Char} (number : Text.isAsciiDigit c = true)
    (counts : c ≠ '0') (stops : Text.isAsciiDigit d = false) (known : digit c ≤ groups)
    (rest : List Char) :
    escapedPiece groups (c :: d :: rest) = .ok (.group (digit c), d :: rest) := by
  have notNamed : c ≠ 'g' := by
    rintro rfl
    cases number
  have found : reference groups (digit c) = .ok (.group (digit c)) := if_pos known
  rw [escapedPiece.eq_def]
  simp only [number, stops, found, if_true, Bool.false_eq_true, if_false]
  rfl

/-- Whether a text is a template for itself: no character is escaped for which something else
stands. -/
def spellsItself : List Char → Bool
  | [] => true
  | ['\\'] => false
  | '\\' :: c :: rest =>
    !Text.isAsciiDigit c && !Text.isAsciiLetter c && c != '\\' && spellsItself rest
  | _ :: rest => spellsItself rest

theorem escapedPiece_itself {groups : Nat} {c : Char} (digit : Text.isAsciiDigit c = false)
    (letter : Text.isAsciiLetter c = false) (plain : c ≠ '\\') (rest : List Char) :
    escapedPiece groups (c :: rest) = .ok (.text (String.ofList ['\\', c]), rest) := by
  have notNamed : c ≠ 'g' := by
    rintro rfl
    cases letter
  have notOctal : c ≠ '0' := by
    rintro rfl
    cases digit
  have keys : ∀ d ∈ controlEscapes.map (·.1), (Text.isAsciiLetter d || d == '\\') = true :=
    List.all_eq_true.1 (by decide)
  have unknown : controlEscapes.lookup c = none := by
    rw [List.lookup_eq_none_iff]
    intro entry member
    refine bne_iff_ne.2 fun same => ?_
    have known := keys entry.1 (List.mem_map_of_mem member)
    rw [← same, letter, Bool.false_or, beq_iff_eq] at known
    exact plain known
  simp [escapedPiece, digit, unknown, letter]

theorem Renders.itself {groups : Nat} {exp template : List Char} {text : Progress → List Char}
    (spells : spellsItself exp = true) (rest : Renders groups template text) :
    Renders groups (exp ++ template) fun p => exp ++ text p := by
  induction exp using spellsItself.induct with
  | case1 => exact rest
  | case2 => cases spells
  | case3 c others ih =>
    simp only [spellsItself, Bool.and_eq_true, Bool.not_eq_true', bne_iff_ne, ne_eq] at spells
    obtain ⟨⟨⟨digit, letter⟩, plain⟩, spells⟩ := spells
    have escape : escapedPiece groups (c :: (others ++ template)) = _ :=
      escapedPiece_itself digit letter plain (others ++ template)
    simpa using Renders.escaped escape (Nat.le_refl _) (ih spells)
  | case4 c others single pair ih =>
    have plain : c ≠ '\\' := by
      rintro rfl
      cases others with
      | nil => exact single rfl rfl
      | cons d others => exact pair d others rfl rfl
    rw [spellsItself] at spells
    · exact .char plain (ih spells)
    · exact single
    · exact pair

end Regex

end PerlJava
