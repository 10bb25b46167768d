import PerlJava.Proofs.Perl.InsertedParens
import PerlJava.Proofs.Perl.LabelOrder

/-!
# Comments in front of the grammar

The scanner gives a comment as the line end that closes it, so the reader, which only keeps comments
with blanks in them, never keeps one, whatever it is told. No comment is in its buffer, and putting
in parentheses does not add any. Nor is there a token of the kind that stands for the end.
-/

namespace PerlJava.Perl

def isComment (kind : String) : Bool :=
  kind == "COMMENT" || kind == "COMMENT_LINE"

/-- A token that the grammar may be given is no comment, and is not taken for the end. Native
functions are called by their names. -/
structure Readable (t : Token) : Prop where
  noComment : isComment t.kind = false
  notEnd : t.kind ≠ "$end"
  native : t.kind ∈ nativeFunctions → t.value = t.kind.toLower

def AllReadable (tokens : List Token) : Prop :=
  ∀ t ∈ tokens, Readable t

theorem allReadable_nil : AllReadable [] :=
  fun _ => (absurd · List.not_mem_nil)

theorem Scanner.Origin.readable {t : Token} (origin : Origin t) (noComment : t.kind ≠ "COMMENT") :
    Readable t :=
  ⟨by simp [isComment, noComment, origin.ne_commentLine], origin.ne_end, origin.native⟩

/-! ### The scanner -/

namespace Scanner

/-- Every comment that a scanner comes to is given as a line end. -/
theorem comment_value {text : String} {asked : List Bool} {asName : Bool} {t : Token}
    (token : (((ofText text).after asked).next asName).token = some t)
    (comment : t.kind = "COMMENT") : t.value = "\n" := by
  have fits := after_fits (s := ofText text) (Nat.le_of_eq String.length_toList) asked
  exact ((next_complete asName fits).origin t token).comment comment

end Scanner

/-! ### Parentheses -/

namespace Parens

/-- Putting in parentheses adds no comments. -/
theorem allReadable_insert {arities : Arities} {tokens out : List Token} (free : AllReadable tokens)
    (inserted : insert arities tokens = some out) : AllReadable out := by
  obtain ⟨pieces, placed, rfl⟩ := Option.map_eq_some_iff.1 inserted
  intro t member
  obtain ⟨piece, inside, rfl⟩ := List.mem_map.1 member
  cases piece with
  | given t =>
    have old : t ∈ pieces.filterMap Piece.given? := List.mem_filterMap.2 ⟨_, inside, rfl⟩
    rw [given_place placed] at old
    exact free t old
  | added t =>
    have paren : t.kind = "LPAREN" ∨ t.kind = "RPAREN" := addedParen_of_place placed _ inside
    obtain kind | kind := paren <;>
      exact ⟨by simp [isComment, Piece.token, kind], by simp [Piece.token, kind],
        by simp [nativeFunctions, Piece.token, kind]⟩

end Parens

/-! ### The reader -/

namespace Reader

/-- A reader that holds nothing but code and labels for the grammar. -/
structure Clear (r : Reader) : Prop where
  sound : r.Sound
  buffer : AllReadable r.buffer

def AddsCode (rules : ReadingRules) : Prop :=
  ∀ {tokens out}, AllReadable tokens → rules.parens tokens = some out → AllReadable out

/-- A reading that gives no comment, and none later. -/
structure Reading.Clear (reading : Reading) : Prop where
  reader : reading.reader.Clear
  token : ∀ t, reading.token = some t → Readable t

variable {rules rules' : ReadingRules} {r : Reader} {g : Gathering} {t : Token} {move : Move}
variable {notices : List Notice}

/-- A comment is never kept, so it does not matter what is said about comments. -/
theorem decide_eq (origin : Scanner.Origin t) : decide rules r g t = decide rules' r g t := by
  unfold decide
  by_cases comment : t.kind = "COMMENT"
  · simp only [noBlanks_of_comment origin comment, Bool.and_false, Bool.false_and]
  · simp only [comment, beq_iff_eq, if_false]

theorem clear_ofText (text : String) : (ofText text).2.Clear :=
  ⟨(fetch_sound (Nat.le_of_eq String.length_toList)).1, allReadable_nil⟩

theorem Clear.withBuffer (clear : r.Clear) {buffer : List Token} (free : AllReadable buffer) :
    { r with buffer }.Clear :=
  ⟨⟨clear.sound.fits, clear.sound.origin, clear.sound.atEnd⟩, free⟩

theorem mem_of_mem_insertIdx {tokens : List Token} {n : Nat} {x : Token}
    (member : x ∈ tokens.insertIdx n t) : x = t ∨ x ∈ tokens := by
  obtain fits | far := Nat.lt_or_ge tokens.length n |>.symm
  · exact (List.mem_insertIdx fits).1 member
  · rw [List.insertIdx_of_length_lt far] at member
    exact .inr member

theorem Clear.first (clear : r.Clear) {buffer : List Token} (free : AllReadable (t :: buffer)) :
    Reading.Clear ⟨notices, some t, { r with buffer }⟩ := by
  refine ⟨clear.withBuffer fun x member => free x (List.mem_cons_of_mem _ member), ?_⟩
  rintro x ⟨⟩
  exact free t List.mem_cons_self

/-- A move leaves no comment in the buffer. -/
theorem Clear.perform (clear : r.Clear) (hand : r.current = some t)
    (decided : Decided r g t move) : (perform r move).2.Clear := by
  obtain ⟨⟨fits, origin, atEnd⟩, free⟩ := clear
  have fetched {buffer : List Token} {codeLine : Option Nat} (free : AllReadable buffer) :
      (fetch { r with buffer, codeLine }).2.Clear :=
    ⟨(fetch_sound (r := { r with buffer, codeLine }) fits).1, free⟩
  have appended (noComment : t.kind ≠ "COMMENT") : AllReadable (r.buffer ++ [t]) := by
    intro x member
    obtain old | rfl := by simpa using member
    · exact free x old
    · exact (origin x hand).readable noComment
  cases decided with
  | label movable =>
    refine fetched fun x member => ?_
    obtain rfl | old := mem_of_mem_insertIdx member
    · exact (origin x hand).readable (ne_of_isMovable movable).1
    · exact free x old
  | append _ noComment => exact fetched (appended noComment)
  | last _ noComment => exact fetched (appended noComment)
  | comment => exact fetched free
  | otherLine | ended => exact ⟨⟨fits, origin, atEnd⟩, free⟩

variable {reading : Reading} {parens : List Token → Option (List Token)}

/-- Handing out the buffer gives no comment, if the other way to go on gives none. -/
theorem Clear.handOut (clear : r.Clear) (adds : AddsCode rules)
    {otherwise : Reader → Option Reading}
    (others : ∀ r : Reader, r.Clear → otherwise r = some reading → reading.Clear)
    (run : handOut rules notices r otherwise = some reading) : reading.Clear := by
  unfold Reader.handOut at run
  split at run
  · cases run
  · exact others _ (clear.withBuffer allReadable_nil) run
  · next t buffer put =>
    cases run
    exact clear.first (adds clear.buffer put)

theorem Clear.gather {fuel : Nat} (clear : r.Clear) (adds : AddsCode rules)
    (run : gather rules fuel notices g r = some reading) : reading.Clear := by
  induction fuel generalizing notices g r with
  | zero => cases run
  | succ fuel ih =>
    rw [Reader.gather] at run
    cases hand : r.current with
    | none =>
      simp only [hand] at run
      refine clear.handOut adds (fun r clear run => ?_) run
      cases run
      exact ⟨clear, by simp⟩
    | some t =>
      have origin := clear.sound.origin t hand
      have same : decide rules r g t = decide {} r g t := decide_eq origin
      have decides : Decided r g t (decide rules r g t) := same ▸ decided origin
      have performed := clear.perform hand decides
      simp only [hand] at run
      split at run
      · exact ih performed run
      · exact performed.handOut adds (fun r clear run => ih clear run) run

theorem Clear.next (clear : r.Clear) (adds : AddsCode rules)
    (run : next rules r = some reading) : reading.Clear := by
  unfold Reader.next at run
  split at run
  · next t buffer first =>
    cases run
    exact clear.first (first ▸ clear.buffer)
  · exact clear.gather adds run

theorem handOut_congr (keep keep' : Bool) {otherwise otherwise' : Reader → Option Reading}
    (others : otherwise { r with buffer := [] } = otherwise' { r with buffer := [] }) :
    handOut ⟨keep, parens⟩ notices r otherwise = handOut ⟨keep', parens⟩ notices r otherwise' := by
  unfold handOut
  dsimp only
  cases parens r.buffer with
  | none => rfl
  | some buffer =>
    cases buffer with
    | nil => exact others
    | cons t buffer => rfl

/-- Gathering does not depend on whether comments are to be kept. -/
theorem Clear.gather_eq (keep keep' : Bool) {fuel : Nat} (clear : r.Clear) :
    Reader.gather ⟨keep, parens⟩ fuel notices g r
      = Reader.gather ⟨keep', parens⟩ fuel notices g r := by
  induction fuel generalizing notices g r with
  | zero => rfl
  | succ fuel ih =>
    rw [Reader.gather, Reader.gather]
    cases hand : r.current with
    | none => exact handOut_congr keep keep' rfl
    | some t =>
      have origin := clear.sound.origin t hand
      have performed := clear.perform hand (@decided keep' r g t origin)
      have same : decide ⟨keep, parens⟩ r g t = decide { keepComments := keep' } r g t :=
        decide_eq origin
      have same' : decide ⟨keep', parens⟩ r g t = decide { keepComments := keep' } r g t :=
        decide_eq origin
      dsimp only
      rw [same, same']
      split
      · exact ih performed
      · exact handOut_congr keep keep' (ih (performed.withBuffer allReadable_nil))

/-- Finding the next token does not depend on whether comments are to be kept. -/
theorem Clear.next_eq (keep keep' : Bool)
    (clear : r.Clear) : Reader.next ⟨keep, parens⟩ r = Reader.next ⟨keep', parens⟩ r := by
  unfold Reader.next
  split
  · rfl
  · exact clear.gather_eq keep keep'

end Reader

end PerlJava.Perl
