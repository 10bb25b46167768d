import PerlJava.Proofs.Regex.Replacement

/-!
# Greedy matches

A repetition of single characters goes as far as what follows it can succeed, and finds a way if
there is one. What a search finds then is the only match that begins so early and reaches so far.
-/

namespace PerlJava

namespace Cursor.Passes

variable {cursor one two after : Cursor} {first second text rest : List Char}

theorem exists_of_rest (ahead : cursor.rest = text ++ rest) :
    ∃ after, cursor.Passes text after ∧ after.rest = rest := by
  induction text generalizing cursor with
  | nil => exact ⟨cursor, .refl cursor, ahead⟩
  | cons c text ih =>
    have step : cursor.Passes [c] cursor.next := next ahead
    have ahead' : cursor.next.rest = text ++ rest := by simpa [ahead] using step.rest.symm
    obtain ⟨after, passes, left⟩ := ih ahead'
    exact ⟨after, step.trans passes, left⟩

theorem unique (first : cursor.Passes text one) (second : cursor.Passes text two) : one = two := by
  have rest : one.rest = two.rest := by simpa [first.rest] using second.rest
  have position : one.position = two.position := first.position.trans second.position.symm
  have before : one.before = two.before := first.before.trans second.before.symm
  cases one
  cases two
  simp_all

theorem of_append (passes : cursor.Passes (first ++ second) after) :
    ∃ middle, cursor.Passes first middle ∧ middle.Passes second after := by
  have ahead : cursor.rest = first ++ (second ++ after.rest) := by
    rw [passes.rest, List.append_assoc]
  obtain ⟨middle, one, left⟩ := exists_of_rest ahead
  obtain ⟨last, two, -⟩ := exists_of_rest left
  obtain rfl := unique (one.trans two) passes
  exact ⟨middle, one, two⟩

theorem of_cons {c : Char} (passes : cursor.Passes (c :: text) after) :
    cursor.next.Passes text after := by
  obtain ⟨middle, one, two⟩ : ∃ middle, cursor.Passes [c] middle ∧ middle.Passes text after :=
    of_append passes
  obtain rfl := unique one (next one.rest)
  exact two

end Cursor.Passes

namespace Regex

variable {β : Type} {s : CharSet} {limit : Nat} {cursor place : Cursor}

/-! ### The places a repetition reaches -/

theorem reach_append (nearer : List Cursor) :
    reach s 0 limit cursor nearer = reach s 0 limit cursor [] ++ nearer := by
  induction limit generalizing cursor nearer with
  | zero => rfl
  | succ limit ih =>
    rw [reach, reach]
    split
    · split
      · rw [ih, ih (if 0 = 0 then [cursor] else [])]
        simp
      · rfl
    · rfl

theorem reach_succ {c : Char} {rest : List Char} (here : cursor.rest = c :: rest)
    (contains : s.contains c = true) :
    reach s 0 (limit + 1) cursor [] = reach s 0 limit cursor.next [] ++ [cursor] := by
  rw [reach, here]
  exact (if_pos contains).trans (reach_append [cursor])

theorem mem_reach_of_passes {text : List Char} (passes : cursor.Passes text place)
    (all : ∀ c ∈ text, s.contains c = true) (long : text.length ≤ limit) :
    place ∈ reach s 0 limit cursor [] := by
  induction text generalizing cursor limit with
  | nil =>
    obtain rfl := passes.unique (.refl cursor)
    cases limit with
    | zero => exact List.mem_singleton_self _
    | succ limit =>
      rw [reach]
      split
      · split
        · rw [reach_append]
          simp
        · simp
      · simp
  | cons c text ih =>
    obtain ⟨limit, rfl⟩ : ∃ before, limit = before + 1 := Nat.exists_eq_add_one.2 (by
      simp only [List.length_cons] at long
      omega)
    have here : cursor.rest = c :: (text ++ place.rest) := passes.rest
    rw [reach_succ here (all c List.mem_cons_self)]
    have later := ih passes.of_cons (fun d member => all d (List.mem_cons_of_mem c member))
      (by simpa using long)
    exact List.mem_append_left _ later

/-- No place that is reached by passing over more has what is sought. -/
def NoneFarther (s : CharSet) (limit : Nat) (place : Cursor) (k : Cursor → Option β) : Prop :=
  ∀ {more : List Char} {farther : Cursor}, place.Passes more farther →
    (∀ c ∈ more, s.contains c = true) → more ≠ [] → more.length ≤ limit → k farther = none

theorem farthest_of_findSome {k : Cursor → Option β} {b : β}
    (found : (reach s 0 limit cursor []).findSome? k = some b) :
    ∃ text place, cursor.Passes text place ∧ (∀ c ∈ text, s.contains c = true)
      ∧ k place = some b ∧ NoneFarther s (limit - text.length) place k := by
  -- Where the repetition cannot go on, the place is the one where it begins.
  have stays {limit : Nat} {cursor : Cursor}
      (stuck : ∀ c rest, cursor.rest = c :: rest → s.contains c = true → limit = 0)
      (found : k cursor = some b) : ∃ text place, cursor.Passes text place
        ∧ (∀ c ∈ text, s.contains c = true) ∧ k place = some b
        ∧ NoneFarther s (limit - text.length) place k := by
    refine ⟨[], cursor, .refl cursor, by simp, found, ?_⟩
    intro more farther passes all some_ short
    obtain ⟨c, more, rfl⟩ := List.exists_cons_of_ne_nil some_
    have none := stuck c _ passes.rest (all c List.mem_cons_self)
    simp [none] at short
  induction limit generalizing cursor with
  | zero => exact stays (fun _ _ _ _ => rfl) (by simpa [reach] using found)
  | succ limit ih =>
    cases here : cursor.rest with
    | nil =>
      rw [reach, here] at found
      exact stays (by simp [here]) (by simpa using found)
    | cons c rest =>
      by_cases contains : s.contains c = true
      · rw [reach_succ here contains, List.findSome?_append] at found
        obtain far | ⟨none, near⟩ := Option.or_eq_some_iff.1 found
        · obtain ⟨text, place, passes, all, found, farthest⟩ := ih far
          refine ⟨c :: text, place, (Cursor.Passes.next here).trans passes, by simpa [contains] using all,
            found, ?_⟩
          rwa [List.length_cons, Nat.add_sub_add_right]
        · refine ⟨[], cursor, .refl cursor, by simp, by simpa using near, ?_⟩
          intro more farther passes all some_ short
          obtain ⟨d, more, rfl⟩ := List.exists_cons_of_ne_nil some_
          have member : farther ∈ reach s 0 limit cursor.next [] :=
            mem_reach_of_passes passes.of_cons
              (fun c member => all c (List.mem_cons_of_mem d member)) (by simpa using short)
          exact List.findSome?_eq_none_iff.1 none farther member
      · rw [reach, here] at found
        refine stays (fun d rest' same in_ => ?_) (by simpa [contains] using found)
        obtain ⟨rfl, -⟩ := List.cons.inj (here.symm.trans same)
        exact absurd in_ contains

variable {fuel : Nat} {p : Progress} {k : Progress → Option β} {b : β}

/-- A repetition goes as far as the rest of the match can succeed. -/
theorem run_many_one_farthest (found : run fuel (many (.one s)) p k = some b) :
    ∃ text place, p.cursor.Passes text place ∧ (∀ c ∈ text, s.contains c = true)
      ∧ k { p with cursor := place } = some b
      ∧ NoneFarther s (fuel - text.length) place fun cursor => k { p with cursor } :=
  farthest_of_findSome found

/-- A repetition finds a place from which the rest of the match succeeds. -/
theorem run_many_one_isSome {text : List Char} (passes : p.cursor.Passes text place)
    (all : ∀ c ∈ text, s.contains c = true) (long : text.length ≤ fuel)
    (succeeds : (k { p with cursor := place }).isSome) :
    (run fuel (many (.one s)) p k).isSome := by
  have member : place ∈ reach s 0 fuel p.cursor [] := mem_reach_of_passes passes all long
  exact List.findSome?_isSome_iff.2 ⟨place, member, succeeds⟩

/-- An expression that reads one text and no other, and takes down no group. -/
def Spells (r : Regex) (text : List Char) : Prop :=
  ∀ {β : Type} {fuel : Nat} {p : Progress} {k : Progress → Option β} {b : β},
    run fuel r p k = some b
      ↔ ∃ place, p.cursor.Passes text place ∧ k { p with cursor := place } = some b

theorem Spells.run {r : Regex} {text : List Char} {after : Cursor} (spells : r.Spells text)
    (passes : p.cursor.Passes text after) : run fuel r p k = k { p with cursor := after } := by
  refine Option.ext fun b => spells.trans ⟨?_, fun found => ⟨after, passes, found⟩⟩
  rintro ⟨place, passes', found⟩
  rwa [passes.unique passes']

theorem spells_empty : Spells .empty [] := by
  refine ⟨fun found => ⟨_, .refl _, found⟩, ?_⟩
  rintro ⟨place, passes, found⟩
  obtain rfl := passes.unique (.refl _)
  exact found

theorem spells_char (c : Char) : Spells (char c) [c] := by
  intro _ _ p k b
  rw [char, run]
  constructor
  · intro found
    split at found
    · next d rest here =>
      split at found
      · next contains =>
        obtain rfl : d = c := by simpa [CharSet.contains, ClassItem.contains] using contains
        exact ⟨_, .next here, found⟩
      · cases found
    · cases found
  · rintro ⟨place, passes, found⟩
    have here : p.cursor.rest = c :: place.rest := passes.rest
    obtain rfl := passes.unique (.next here)
    simpa [here, CharSet.contains, ClassItem.contains] using found

theorem lit_induction {motive : Regex → List Char → Prop} (text : String)
    (empty : motive .empty []) (char_ : ∀ c, motive (char c) [c])
    (cons : ∀ {c r text}, motive r text → motive (.seq (char c) r) (c :: text)) :
    motive (lit text) text.toList := by
  unfold lit
  induction text.toList with
  | nil => exact empty
  | cons c text ih =>
    rw [List.foldr_cons]
    split
    · next last =>
      cases text with
      | nil => exact char_ c
      | cons d text =>
        rw [List.foldr_cons] at last
        split at last <;> cases last
    · exact cons ih

theorem spells_lit (text : String) : Spells (lit text) text.toList := by
  refine lit_induction text @spells_empty (@spells_char) fun {c r text} ih _ fuel p k b => ?_
  rw [Regex.run, spells_char c]
  constructor
  · rintro ⟨middle, one, found⟩
    obtain ⟨place, two, found⟩ := ih.1 found
    exact ⟨place, one.trans two, found⟩
  · rintro ⟨place, passes, found⟩
    exact ⟨p.cursor.next, .next passes.rest, ih.2 ⟨place, passes.of_cons, found⟩⟩

/-! ### Searching -/

theorem search_of_matchAt {r : Regex} {steps : Nat} (matched : r.matchAt cursor = some p) :
    r.search (steps + 1) cursor = some (cursor, p) := by
  rw [search, matched]

theorem search_isSome {r : Regex} {steps : Nat} {skipped : List Char}
    (passes : cursor.Passes skipped place) (matched : (r.matchAt place).isSome)
    (long : skipped.length < steps) : (r.search steps cursor).isSome := by
  induction steps generalizing cursor skipped with
  | zero => cases long
  | succ steps ih =>
    rw [search]
    split
    · rfl
    · next none =>
      cases skipped with
      | nil =>
        obtain rfl := passes.unique (.refl cursor)
        simp [none] at matched
      | cons c skipped =>
        rw [if_neg (by simp [passes.rest])]
        exact ih passes.of_cons (by simpa using long)

end Regex

end PerlJava
