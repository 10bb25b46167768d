import PerlJava.Regex.Match

/-!
# The texts that an expression admits

Whatever the backtracking search answers, it has read a text that the expression admits. What is
admitted does not depend on the surroundings: look-around, references to groups and upper bounds of
repetitions are left out of account.
-/

namespace PerlJava

/-- Reading a text leads from one place to another. -/
structure Cursor.Reads (cursor : Cursor) (text : List Char) (after : Cursor) : Prop where
  rest : cursor.rest = text ++ after.rest
  position : after.position = cursor.position + text.length

namespace Cursor

variable {cursor middle after : Cursor} {first second text : List Char}

theorem Reads.refl (cursor : Cursor) : cursor.Reads [] cursor :=
  ⟨rfl, rfl⟩

theorem Reads.trans (one : cursor.Reads first middle) (two : middle.Reads second after) :
    cursor.Reads (first ++ second) after where
  rest := by rw [one.rest, two.rest, List.append_assoc]
  position := by rw [two.position, one.position, List.length_append, Nat.add_assoc]

theorem reads_next {c : Char} {rest : List Char} (here : cursor.rest = c :: rest) :
    cursor.Reads [c] cursor.next := by
  obtain ⟨before, _, position⟩ := cursor
  cases here
  exact ⟨rfl, rfl⟩

theorem reads_advance {n : Nat} (fits : n ≤ cursor.rest.length) :
    cursor.Reads (cursor.rest.take n) (cursor.advance n) := by
  induction n generalizing cursor with
  | zero => exact .refl cursor
  | succ n ih =>
    cases here : cursor.rest with
    | nil => simp [here] at fits
    | cons c rest =>
      have one := reads_next here
      have same : cursor.next.rest = rest := by simpa [here] using one.rest.symm
      have two : cursor.next.Reads (rest.take n) (cursor.next.advance n) :=
        same ▸ ih (by simpa [here, same] using fits)
      exact one.trans two

theorem Reads.textSince (reads : cursor.Reads text after) : after.textSince cursor = text := by
  rw [Cursor.textSince, reads.position, Nat.add_sub_cancel_left, reads.rest, List.take_left]

end Cursor

namespace Regex

/-- The texts that an expression may read. -/
inductive Admits : Regex → List Char → Prop where
  | empty : Admits .empty []
  | one {s : CharSet} {c : Char} : s.contains c = true → Admits (.one s) [c]
  | seq {first second : Regex} {t u : List Char} : Admits first t → Admits second u →
    Admits (.seq first second) (t ++ u)
  | left {first second : Regex} {t : List Char} : Admits first t → Admits (.alt first second) t
  | right {first second : Regex} {t : List Char} : Admits second t → Admits (.alt first second) t
  | rep {least : Nat} {most : Option Nat} {lazily : Bool} {body : Regex} {ts : List (List Char)} :
    (∀ t ∈ ts, Admits body t) → least ≤ ts.length → Admits (.rep least most lazily body) ts.flatten
  | group {number : Nat} {body : Regex} {t : List Char} : Admits body t →
    Admits (.group number body) t
  | backref {number : Nat} {folding : Folding} (t : List Char) : Admits (.backref number folding) t
  | anchor {a : Anchor} : Admits (.anchor a) []
  | ahead {negative : Bool} {body : Regex} : Admits (.ahead negative body) []
  | behind {negative : Bool} {width : Nat} {body : Regex} : Admits (.behind negative width body) []
  | atomic {body : Regex} {t : List Char} : Admits body t → Admits (.atomic body) t
  | ifYes {number : Nat} {yes no : Regex} {t : List Char} : Admits yes t →
    Admits (.ifGroup number yes no) t
  | ifNo {number : Nat} {yes no : Regex} {t : List Char} : Admits no t →
    Admits (.ifGroup number yes no) t

/-- Whether an expression may admit the empty text. -/
def nullable : Regex → Bool
  | .empty | .backref .. | .anchor .. | .ahead .. | .behind .. => true
  | .one _ => false
  | .seq first second => first.nullable && second.nullable
  | .alt first second => first.nullable || second.nullable
  | .rep least _ _ body => least == 0 || body.nullable
  | .group _ body | .atomic body => body.nullable
  | .ifGroup _ yes no => yes.nullable || no.nullable

variable {r : Regex} {text : List Char} {least : Nat} {cursor start : Cursor} {β : Type}
  {lazily : Bool} {k : Progress → Option β} {p : Progress} {b : β}

theorem Admits.nullable (admits : r.Admits text) (empty : text = []) : r.nullable = true := by
  induction admits with
  | one => cases empty
  | seq _ _ first second =>
    obtain ⟨rfl, rfl⟩ := List.append_eq_nil_iff.1 empty
    simp [Regex.nullable, first, second]
  | @rep least _ _ body ts _ enough all =>
    obtain zero | ⟨t, member⟩ : least = 0 ∨ ∃ t, t ∈ ts := by
      cases ts with
      | nil => exact .inl (Nat.le_zero.1 enough)
      | cons t ts => exact .inr ⟨t, List.mem_cons_self⟩
    · simp [Regex.nullable, zero]
    · simp [Regex.nullable, all t member (List.flatten_eq_nil_iff.1 empty t member)]
  | _ => simp_all [Regex.nullable]

/-- Whether no text that an expression admits has a character in it. -/
def avoids (c : Char) : Regex → Bool
  | .empty | .anchor .. | .ahead .. | .behind .. => true
  | .backref .. => false
  | .one s => !s.contains c
  | .seq first second | .alt first second => first.avoids c && second.avoids c
  | .rep _ _ _ body | .group _ body | .atomic body => body.avoids c
  | .ifGroup _ yes no => yes.avoids c && no.avoids c

theorem Admits.not_mem {c : Char} (admits : r.Admits text)
    (avoids : r.avoids c = true) : c ∉ text := by
  induction admits with
  | one contains =>
    rintro here
    obtain rfl := List.mem_singleton.1 here
    simp [Regex.avoids, contains] at avoids
  | rep _ _ all =>
    rintro here
    obtain ⟨t, member, within⟩ := List.mem_flatten.1 here
    exact all t member avoids within
  | backref => cases avoids
  | _ => simp_all [Regex.avoids]

section Inversion

variable {r first second : Regex} {text : List Char}

theorem Admits.of_append (admits : (first ++ second).Admits text) :
    ∃ t u, text = t ++ u ∧ first.Admits t ∧ second.Admits u := by
  change (Regex.seq first second).Admits text at admits
  cases admits with
  | seq one two => exact ⟨_, _, rfl, one, two⟩

theorem Admits.of_orElse (admits : (first <|> second).Admits text) :
    first.Admits text ∨ second.Admits text := by
  change (Regex.alt first second).Admits text at admits
  cases admits with
  | left one => exact .inl one
  | right two => exact .inr two

theorem Admits.of_many (admits : (many r).Admits text) :
    ∃ ts : List (List Char), text = ts.flatten ∧ ∀ t ∈ ts, r.Admits t := by
  rw [many] at admits
  cases admits with
  | rep all => exact ⟨_, rfl, all⟩

theorem Admits.of_one {s : CharSet} (admits : (Regex.one s).Admits text) :
    ∃ c, text = [c] ∧ s.contains c = true := by
  cases admits with
  | one contains => exact ⟨_, rfl, contains⟩

theorem Admits.eq_of_char {c : Char} (admits : (char c).Admits text) : text = [c] := by
  obtain ⟨d, rfl, contains⟩ := admits.of_one
  have same : d = c := by simpa [CharSet.contains, ClassItem.contains] using contains
  rw [same]

end Inversion

def Reached (s : CharSet) (least : Nat) (cursor place : Cursor) : Prop :=
  ∃ text, cursor.Reads text place ∧ (∀ c ∈ text, s.contains c = true) ∧ least ≤ text.length

theorem mem_reach {s : CharSet} {limit : Nat} {place : Cursor} {nearer : List Cursor}
    (member : place ∈ reach s least limit cursor nearer) :
    place ∈ nearer ∨ Reached s least cursor place := by
  induction limit generalizing least cursor nearer with
  | zero =>
    rw [reach] at member
    exact orHere member
  | succ limit ih =>
    rw [reach] at member
    split at member
    · next c rest here =>
      split at member
      · next contains =>
        obtain before | ⟨text, reads, all, enough⟩ := ih member
        · exact orHere before
        · refine .inr ⟨c :: text, (Cursor.reads_next here).trans reads, ?_, ?_⟩
          · simpa [contains] using all
          · simp only [List.length_cons]
            omega
      · exact orHere member
    · exact orHere member
where
  orHere {least : Nat} {cursor : Cursor} {nearer : List Cursor}
      (member : place ∈ if least = 0 then cursor :: nearer else nearer) :
      place ∈ nearer ∨ Reached s least cursor place := by
    split at member
    · next zero =>
      obtain rfl | member := List.mem_cons.1 member
      · exact .inr ⟨[], .refl _, by simp, by simp [zero]⟩
      · exact .inl member
    · exact .inl member

/-- A search has read a text with some property before it went on and succeeded. -/
def Continues {β : Type} (good : List Char → Prop) (p : Progress) (k : Progress → Option β)
    (b : β) : Prop :=
  ∃ text q, p.cursor.Reads text q.cursor ∧ good text ∧ k q = some b

/-- A text that is made of at least so many texts with some property. -/
def Repeats (good : List Char → Prop) (least : Nat) (text : List Char) : Prop :=
  ∃ ts : List (List Char), text = ts.flatten ∧ (∀ t ∈ ts, good t) ∧ least ≤ ts.length

/-- The iterations of a repetition read what its body reads, over and over. -/
theorem iterate_continues {body : Progress → (Progress → Option β) → Option β}
    {good : List Char → Prop} (sound : ∀ {p k b}, body p k = some b → Continues good p k b)
    {most : Option Nat}
    {fuel count : Nat} {last : Option Nat}
    (found : iterate body least most lazily k fuel count last p = some b)
    (enough : least ≤ count + fuel) : Continues (Repeats good (least - count)) p k b := by
  induction fuel generalizing count last p with
  | zero => exact ⟨[], p, .refl _, ⟨[], rfl, by simp, by simp; omega⟩, found⟩
  | succ fuel ih =>
    have again {last : Option Nat}
        (found : body p (iterate body least most lazily k fuel (count + 1) last) = some b) :
        Continues (Repeats good (least - count)) p k b := by
      obtain ⟨first, q, reads, admitted, found⟩ := sound found
      obtain ⟨_, q', reads', ⟨ts, rfl, all, enough⟩, found⟩ := ih found (by omega)
      refine ⟨_, q', reads.trans reads', ⟨first :: ts, rfl, by simpa [admitted] using all, ?_⟩, found⟩
      simp only [List.length_cons]
      omega
    rw [iterate] at found
    split at found
    · exact again found
    · next reached =>
      have stop (found : k p = some b) : Continues (Repeats good (least - count)) p k b :=
        ⟨[], p, .refl _, ⟨[], rfl, by simp, by simp; omega⟩, found⟩
      have more (found : (if most.all (count < ·) && last != some p.cursor.position then
            body p (iterate body least most lazily k fuel (count + 1) (some p.cursor.position))
          else none) = some b) : Continues (Repeats good (least - count)) p k b := by
        split at found
        · exact again found
        · cases found
      cases lazily with
      | true =>
        obtain found | ⟨-, found⟩ := Option.or_eq_some_iff.1 found
        · exact stop found
        · exact more found
      | false =>
        obtain found | ⟨-, found⟩ := Option.or_eq_some_iff.1 found
        · exact more found
        · exact stop found

theorem admits_rep {most : Option Nat} {body : Regex} (repeats : Repeats body.Admits least text) :
    Admits (.rep least most lazily body) text := by
  obtain ⟨ts, rfl, all, enough⟩ := repeats
  exact .rep all enough

/-- A repetition of single characters reads as far as it can reach. -/
theorem reach_continues {s : CharSet} {limit : Nat}
    (found : (if lazily then (reach s least limit p.cursor []).reverse
      else reach s least limit p.cursor []).findSome? (fun cursor => k { p with cursor }) = some b) :
    Continues (Repeats (Admits (.one s)) least) p k b := by
  obtain ⟨place, member, found⟩ := List.exists_of_findSome?_eq_some found
  have member : place ∈ reach s least limit p.cursor [] := by
    cases lazily <;> simpa using member
  obtain ⟨⟨⟩⟩ | ⟨text, reads, all, enough⟩ := mem_reach member
  refine ⟨text, { p with cursor := place }, reads, ⟨text.map ([·]), ?_, ?_, by simpa⟩, found⟩
  · rw [← List.flatMap_def, List.flatMap_singleton']
  · intro t single
    obtain ⟨c, within, rfl⟩ := List.mem_map.1 single
    exact .one (all c within)

/-- Whatever a search answers, it has read a text that the expression admits. -/
theorem run_continues {fuel : Nat} (found : run fuel r p k = some b) : Continues r.Admits p k b := by
  induction r generalizing β p k b with
  | empty => exact ⟨[], p, .refl _, .empty, found⟩
  | one s =>
    rw [run] at found
    split at found
    · next c rest here =>
      split at found
      · next contains => exact ⟨[c], _, Cursor.reads_next here, .one contains, found⟩
      · cases found
    · cases found
  | seq first second ihFirst ihSecond =>
    obtain ⟨t, q, reads, admits, found⟩ := ihFirst found
    obtain ⟨u, q', reads', admits', found⟩ := ihSecond found
    exact ⟨t ++ u, q', reads.trans reads', .seq admits admits', found⟩
  | alt first second ihFirst ihSecond =>
    rw [run] at found
    split at found
    · next first =>
      cases found
      obtain ⟨t, q, reads, admits, found⟩ := ihFirst first
      exact ⟨t, q, reads, .left admits, found⟩
    · obtain ⟨t, q, reads, admits, found⟩ := ihSecond found
      exact ⟨t, q, reads, .right admits, found⟩
  | rep least most lazily body ih =>
    obtain ⟨t, q, reads, repeats, found⟩ : Continues (Repeats body.Admits least) p k b := by
      cases body with
      | one s => exact reach_continues found
      | _ => exact iterate_continues ih found (by omega)
    exact ⟨t, q, reads, admits_rep repeats, found⟩
  | group number body ih =>
    obtain ⟨t, q, reads, admits, found⟩ := ih found
    exact ⟨t, { q with
      groups := (number, p.cursor.position, q.cursor.position) :: q.groups
      lastGroup := some number }, reads, .group admits, found⟩
  | backref number folding =>
    rw [run] at found
    split at found
    · cases found
    · simp only at found
      split at found
      · next same =>
        have fits := (Bool.and_eq_true_iff.1 same).1
        simp only [decide_eq_true_eq, List.length_take] at fits
        exact ⟨_, { p with cursor := p.cursor.advance _ }, Cursor.reads_advance (by omega), .backref _,
          found⟩
      · cases found
  | anchor a =>
    rw [run] at found
    split at found
    · exact ⟨[], p, .refl _, .anchor, found⟩
    · cases found
  | ahead negative body _ =>
    rw [run] at found
    split at found
    · next q _ =>
      cases negative
      · exact ⟨[], { q with cursor := p.cursor }, .refl _, .ahead, found⟩
      · cases found
    · cases negative
      · cases found
      · exact ⟨[], p, .refl _, .ahead, found⟩
  | behind negative width body _ =>
    rw [run] at found
    split at found
    · next q _ =>
      cases negative
      · exact ⟨[], { q with cursor := p.cursor }, .refl _, .behind, found⟩
      · cases found
    · cases negative
      · cases found
      · exact ⟨[], p, .refl _, .behind, found⟩
  | atomic body ih =>
    obtain ⟨q, inner, found⟩ := Option.bind_eq_some_iff.1 found
    obtain ⟨t, q', reads, admits, same⟩ := ih inner
    cases same
    exact ⟨t, q, reads, .atomic admits, found⟩
  | ifGroup number yes no ihYes ihNo =>
    rw [run] at found
    split at found
    · obtain ⟨t, q, reads, admits, found⟩ := ihYes found
      exact ⟨t, q, reads, .ifYes admits, found⟩
    · obtain ⟨t, q, reads, admits, found⟩ := ihNo found
      exact ⟨t, q, reads, .ifNo admits, found⟩

theorem matchIn_reads {size : Nat} (found : r.matchIn size cursor = some p) :
    ∃ text, cursor.Reads text p.cursor ∧ r.Admits text := by
  obtain ⟨text, q, reads, admits, ⟨⟩⟩ := run_continues found
  exact ⟨text, reads, admits⟩

theorem matchAt_of_search {steps : Nat}
    (found : r.search steps cursor = some (start, p)) : r.matchAt start = some p := by
  induction steps generalizing cursor with
  | zero => cases found
  | succ steps ih =>
    rw [search] at found
    split at found
    · next here =>
      cases found
      exact here
    · split at found
      · cases found
      · exact ih found

theorem matchAt_of_mem_findAll {steps : Nat}
    (member : (start, p) ∈ r.findAll steps cursor) : r.matchAt start = some p := by
  induction steps generalizing cursor with
  | zero => cases member
  | succ steps ih =>
    rw [findAll] at member
    split at member
    · cases member
    · next found =>
      split at member
      · obtain ⟨⟨⟩⟩ | later := List.mem_cons.1 member
        · exact matchAt_of_search found
        · split at later
          · cases later
          · exact ih later
      · obtain ⟨⟨⟩⟩ | later := List.mem_cons.1 member
        · exact matchAt_of_search found
        · exact ih later

theorem admits_of_mem_matchesIn {text : String}
    (member : (start, p) ∈ r.matchesIn text) : r.Admits (p.cursor.textSince start) := by
  obtain ⟨_, reads, admits⟩ := matchIn_reads (matchAt_of_mem_findAll member)
  rwa [reads.textSince]

end Regex

end PerlJava
