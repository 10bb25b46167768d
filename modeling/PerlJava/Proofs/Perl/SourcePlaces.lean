import Mathlib.Data.List.Induction
import PerlJava.Diagnostic.Excerpt
import PerlJava.Proofs.Perl.ScannerProgress

/-!
# The places of tokens

A step of the scanner reads on and counts the line feeds in what it reads, or it leaves a comment at a
line end, which is still to be read. From what one step does follows what a scanner knows of its text
at all times: its line is one more than the number of line feeds before it, and tokens come at ever
later places.
-/

namespace PerlJava.Perl

namespace Scanner

variable {s s' : Scanner} {text read : List Char} {asName : Bool} {found : Found}

/-! ### Whole runs -/

/-- A scanner is at a place of a text and has counted the line feeds before it. -/
structure At (text : List Char) (s : Scanner) : Prop where
  size : s.size = text.length
  within : s.cursor.position ≤ text.length
  rest : s.cursor.rest = text.drop s.cursor.position
  line : s.line = 1 + (text.take s.cursor.position).count '\n'

/-- All that a scanner still comes to lies after a place: the scanner is past it, or at a line end
there that it has yet to read. -/
def Beyond (offset : Nat) (s : Scanner) : Prop :=
  offset < s.cursor.position ∨ offset = s.cursor.position ∧ s.inComment = false
    ∧ s.cursor.rest.head? = some '\n'

theorem at_ofText (text : String) : At text.toList (ofText text) where
  size := String.length_toList.symm
  within := Nat.zero_le _
  rest := rfl
  line := rfl

theorem At.reads (at_ : At text s) (reads : s.cursor.Reads read s'.cursor) (size : s'.size = s.size)
    (line : s'.line = s.line + read.count '\n') : At text s' := by
  have ahead : text.drop s.cursor.position = read ++ s'.cursor.rest := at_.rest ▸ reads.rest
  have length := congrArg List.length ahead
  rw [List.length_drop, List.length_append] at length
  have within := at_.within
  refine ⟨size.trans at_.size, ?_, ?_, ?_⟩
  · rw [reads.position]
    omega
  · rw [reads.position, ← List.drop_drop, ahead, List.drop_left]
  · rw [line, at_.line, reads.position, List.take_add, ahead, List.take_left, List.count_append,
      Nat.add_assoc]

theorem At.step (at_ : At text s) (stepped : Stepped s found s') : At text s' := by
  cases stepped with
  | reads _ reads size line => exact at_.reads reads size line
  | leaves => exact ⟨at_.size, at_.within, at_.rest, at_.line⟩

theorem At.position_lt (at_ : At text s) (more : s.cursor.rest ≠ []) :
    s.cursor.position < text.length := by
  rw [at_.rest, Ne, List.drop_eq_nil_iff] at more
  omega

theorem Beyond.step {offset : Nat} (beyond : Beyond offset s) (stepped : Stepped s found s') :
    Beyond offset s' ∧ ∀ t, found = .token t → offset < t.offset := by
  cases stepped with
  | reads some_ reads _ _ token nothing =>
    have onwards : s.cursor.position < s'.cursor.position := by
      have length := List.length_pos_iff.2 some_
      rw [reads.position]
      omega
    obtain past | ⟨here, outside, lineFeed⟩ := beyond
    · refine ⟨.inl (Nat.lt_trans past onwards), fun t found => ?_⟩
      have place : t.offset = s.cursor.position := congrArg Position.offset (token t found).1
      rwa [place]
    · refine ⟨.inl (here ▸ onwards), fun t found => ?_⟩
      rw [nothing outside lineFeed] at found
      cases found
  | leaves inside lineFeed =>
    obtain past | ⟨-, outside, -⟩ := beyond
    · refine ⟨.inl past, ?_⟩
      rintro t ⟨⟩
      exact past
    · rw [inside] at outside
      cases outside

/-- A token that is found starts at the place of the scanner, and what comes later lies after it. -/
theorem Stepped.token {t : Token} (stepped : Stepped s (.token t) s') :
    t.position = s.position ∧ s.cursor.rest ≠ [] ∧ Beyond t.offset s' := by
  cases stepped with
  | reads some_ reads _ _ token _ =>
    have place := (token t rfl).1
    have offset : t.offset = s.cursor.position := congrArg Position.offset place
    have length := List.length_pos_iff.2 some_
    refine ⟨place, ?_, .inl ?_⟩
    · rw [reads.rest]
      exact List.append_ne_nil_of_left_ne_nil some_ _
    · rw [reads.position]
      omega
  | leaves _ lineFeed =>
    refine ⟨rfl, fun none => ?_, .inr ⟨rfl, rfl, lineFeed⟩⟩
    rw [none] at lineFeed
    cases lineFeed

def Exact (text : List Char) (t : Token) : Prop :=
  t.offset < text.length ∧ t.line = 1 + (text.take t.offset).count '\n'

structure Reading.Places (text : List Char) (s : Scanner) (reading : Reading) : Prop where
  at_ : At text reading.scanner
  beyond {offset : Nat} : Beyond offset s → Beyond offset reading.scanner
  token {t : Token} : reading.token = some t → Exact text t ∧ Beyond t.offset reading.scanner
  later {t : Token} {offset : Nat} : reading.token = some t → Beyond offset s → offset < t.offset

theorem nextWith_places {fuel : Nat} {notices : List Notice} (at_ : At text s) :
    (nextWith asName fuel notices s).Places text s := by
  induction fuel generalizing notices s with
  | zero => exact ⟨at_, id, by rintro t ⟨⟩, by rintro t offset ⟨⟩⟩
  | succ fuel ih =>
    have onwards {notices : List Notice} {found : Found} {s' : Scanner}
        (stepped : Stepped s found s') : (nextWith asName fuel notices s').Places text s := by
      obtain ⟨at', beyond, token, later⟩ : (nextWith asName fuel notices s').Places text s' :=
        ih (at_.step stepped)
      exact ⟨at', fun here => beyond (here.step stepped).1, token,
        fun found here => later found (here.step stepped).1⟩
    rw [nextWith]
    split
    · exact ⟨at_, id, by rintro t ⟨⟩, by rintro t offset ⟨⟩⟩
    · next t s' step =>
      have stepped := step_stepped step
      refine ⟨at_.step stepped, fun here => (here.step stepped).1, ?_, ?_⟩
      · rintro t ⟨⟩
        obtain ⟨place, more, beyond⟩ := stepped.token
        have line : t.line = s.line := congrArg Position.line place
        have offset : t.offset = s.cursor.position := congrArg Position.offset place
        rw [Exact, line, offset]
        exact ⟨⟨at_.position_lt more, at_.line⟩, offset ▸ beyond⟩
      · rintro t offset ⟨⟩ here
        exact (here.step stepped).2 t rfl
    · next s' step => exact onwards (step_stepped step)
    · next s' step => exact onwards (step_stepped step)

def delivered (s : Scanner) : List Bool → List Token
  | [] => []
  | asName :: more => (s.next asName).token.toList ++ (s.next asName).scanner.delivered more

/-- Tokens come at ever later places, each of which is exact. -/
theorem delivered_places (at_ : At text s) (asked : List Bool) :
    (∀ t ∈ s.delivered asked, Exact text t ∧ ∀ offset, Beyond offset s → offset < t.offset)
      ∧ (s.delivered asked).Pairwise (·.offset < ·.offset) := by
  induction asked generalizing s with
  | nil => exact ⟨fun _ => (absurd · List.not_mem_nil), .nil⟩
  | cons asName more ih =>
    obtain ⟨at', beyond, token, later⟩ : (s.next asName).Places text s := nextWith_places at_
    obtain ⟨exact, ordered⟩ := ih at'
    have rest : ∀ t ∈ (s.next asName).scanner.delivered more,
        Exact text t ∧ ∀ offset, Beyond offset s → offset < t.offset :=
      fun t member => ⟨(exact t member).1, fun offset here => (exact t member).2 offset (beyond here)⟩
    rw [delivered]
    cases found : (s.next asName).token with
    | none => exact ⟨rest, ordered⟩
    | some t =>
      obtain ⟨first, after⟩ := token found
      refine ⟨?_, List.pairwise_cons.2 ⟨fun u member => (exact u member).2 t.offset after, ordered⟩⟩
      intro u member
      obtain rfl | member := List.mem_cons.1 member
      · exact ⟨first, fun offset here => later found here⟩
      · exact rest u member

end Scanner

/-! ### Columns -/

/-- Some characters are what stands before a place on its line. -/
def LineBefore (text : List Char) (offset : Nat) (line : List Char) : Prop :=
  '\n' ∉ line ∧ ∃ before, text.take offset = before ++ line ∧ ∀ c ∈ before.getLast?, c = '\n'

theorem lastIndexOf?_concat (c d : Char) (text : List Char) :
    Text.lastIndexOf? c (text ++ [d])
      = if d = c then some text.length else Text.lastIndexOf? c text := by
  have counted : (text.foldl (fun (acc : Nat × Option Nat) d =>
      (acc.1 + 1, if d = c then some acc.1 else acc.2)) (0, none)).1 = text.length := by
    induction text using List.reverseRecOn with
    | nil => rfl
    | append_singleton text d ih =>
      rw [List.foldl_append, List.foldl_cons, List.foldl_nil, ih, List.length_append]
      rfl
  rw [Text.lastIndexOf?, List.foldl_append, List.foldl_cons, List.foldl_nil, counted]
  rfl

theorem lastIndexOf?_divides (text : List Char) :
    match Text.lastIndexOf? '\n' text with
    | some i => ∃ before line, text = before ++ line ∧ before.length = i + 1
      ∧ before.getLast? = some '\n' ∧ '\n' ∉ line
    | none => '\n' ∉ text := by
  induction text using List.reverseRecOn with
  | nil => simp [Text.lastIndexOf?]
  | append_singleton text c ih =>
    rw [lastIndexOf?_concat]
    by_cases lineFeed : c = '\n'
    · rw [if_pos lineFeed]
      exact ⟨text ++ [c], [], by simp, by simp, by simp [lineFeed], by simp⟩
    · rw [if_neg lineFeed]
      cases found : Text.lastIndexOf? '\n' text with
      | none => simpa [found, Ne.symm lineFeed] using ih
      | some i =>
        rw [found] at ih
        obtain ⟨before, line, rfl, length, last, free⟩ := ih
        exact ⟨before, line ++ [c], by simp, length, last, by simp [free, Ne.symm lineFeed]⟩

theorem column_eq (text : String) {offset : Nat} (within : offset ≤ text.length) :
    ∃ line, LineBefore text.toList offset line
      ∧ Diagnostic.column text offset = line.length + 1 := by
  have length : (text.toList.take offset).length = offset := by
    rw [List.length_take, String.length_toList]
    exact Nat.min_eq_left within
  have divides := lastIndexOf?_divides (text.toList.take offset)
  rw [Diagnostic.column]
  cases found : Text.lastIndexOf? '\n' (text.toList.take offset) with
  | none =>
    rw [found] at divides
    refine ⟨text.toList.take offset, ⟨divides, [], rfl, by simp⟩, ?_⟩
    rw [length]
  | some i =>
    rw [found] at divides
    obtain ⟨before, line, same, upTo, last, free⟩ := divides
    refine ⟨line, ⟨free, before, same, by simp [last]⟩, ?_⟩
    rw [same, List.length_append, upTo] at length
    simp only
    omega

/-- Whatever is asked of a scanner, every token that it delivers lies inside the text, on the line and
in the column where it stands, each one later than the one before, and when there is none the end of
the text has been reached. -/
theorem token_places_exact (text : String) (asked : List Bool) :
    let start := Scanner.ofText text
    (∀ t ∈ start.delivered asked, t.offset < text.length
        ∧ t.line = 1 + (text.toList.take t.offset).count '\n'
        ∧ ∃ line, LineBefore text.toList t.offset line
          ∧ Diagnostic.column text t.offset = line.length + 1)
      ∧ (start.delivered asked).Pairwise (·.offset < ·.offset)
      ∧ ∀ asName, ((start.after asked).next asName).token = none →
        ((start.after asked).next asName).scanner.cursor.rest = [] := by
  intro start
  obtain ⟨exact, ordered⟩ := Scanner.delivered_places (Scanner.at_ofText text) asked
  refine ⟨fun t member => ?_, ordered, fun asName none => ?_⟩
  · obtain ⟨inside, line⟩ := (exact t member).1
    rw [String.length_toList] at inside
    exact ⟨inside, line, column_eq text (Nat.le_of_lt inside)⟩
  · have fits := Scanner.after_fits (s := start) (Nat.le_of_eq String.length_toList) asked
    exact (Scanner.next_complete asName fits).atEnd none

end PerlJava.Perl
