import PerlJava.Proofs.Regex.GreedyMatch

/-!
# Preferred matches

Of all texts that an expression admits, the search prefers one, which depends on what lies ahead. An
expression prefers a text if it is tried before all others, and it misses a text if it admits no
beginning of it. Both are put together along the expression.
-/

namespace PerlJava.Regex

variable {r first second body : Regex} {s : CharSet} {c : Char} {text more rest input : List Char}

/-! ### What is admitted -/

/-- Whether a text that an expression admits may begin with a character. -/
def begins (c : Char) : Regex → Bool
  | .empty | .anchor .. | .ahead .. | .behind .. => false
  | .backref .. => true
  | .one s => s.contains c
  | .seq first second => first.begins c || (first.nullable && second.begins c)
  | .alt first second => first.begins c || second.begins c
  | .rep _ _ _ body | .group _ body | .atomic body => body.begins c
  | .ifGroup _ yes no => yes.begins c || no.begins c

theorem Admits.begins (admits : r.Admits text) (same : text = c :: rest) : r.begins c = true := by
  induction admits generalizing rest with
  | empty | anchor | ahead | behind => cases same
  | backref => rfl
  | one contains =>
    cases same
    exact contains
  | @seq _ _ t u one two ihFirst ihSecond =>
    cases t with
    | nil => simp [Regex.begins, one.nullable rfl, ihSecond same]
    | cons d t =>
      obtain ⟨rfl, -⟩ := List.cons.inj same
      simp [Regex.begins, ihFirst rfl]
  | rep _ _ all =>
    obtain ⟨before, t, after, rfl, -, -⟩ := List.flatten_eq_cons_iff.1 same
    exact all (c :: t) (by simp) rfl
  | left _ ih | right _ ih | ifYes _ ih | ifNo _ ih => simp [Regex.begins, ih same]
  | group _ ih | atomic _ ih => exact ih same

/-- Whether every text that an expression admits has one of some characters in it. -/
def requires (cs : List Char) : Regex → Bool
  | .one ⟨items, false, .exact⟩ => items.all fun
    | .char c => cs.contains c
    | _ => false
  | .seq first second => first.requires cs || second.requires cs
  | .alt first second | .ifGroup _ first second => first.requires cs && second.requires cs
  | .rep least _ _ body => least != 0 && body.requires cs
  | .group _ body | .atomic body => body.requires cs
  | _ => false

theorem Admits.requires (admits : r.Admits text) (cs : List Char) (needs : r.requires cs = true) :
    ∃ c ∈ cs, c ∈ text := by
  induction admits with
  | empty | anchor | ahead | behind | backref => cases needs
  | @one s c contains =>
    obtain ⟨items, negated, folding⟩ := s
    cases negated <;> cases folding <;> first | cases needs | skip
    obtain ⟨item, member, here⟩ : ∃ item ∈ items, item.contains c = true := by
      simpa [CharSet.contains] using contains
    have among := List.all_eq_true.1 needs item member
    split at among
    · next d =>
      obtain rfl : c = d := by simpa [ClassItem.contains] using here
      exact ⟨c, by simpa using among, List.mem_singleton_self c⟩
    · cases among
  | seq _ _ ihFirst ihSecond =>
    obtain needs | needs := Bool.or_eq_true_iff.1 needs
    · obtain ⟨c, member, here⟩ := ihFirst needs
      exact ⟨c, member, List.mem_append_left _ here⟩
    · obtain ⟨c, member, here⟩ := ihSecond needs
      exact ⟨c, member, List.mem_append_right _ here⟩
  | left _ ih | ifYes _ ih => exact ih (Bool.and_eq_true_iff.1 needs).1
  | right _ ih | ifNo _ ih => exact ih (Bool.and_eq_true_iff.1 needs).2
  | @rep least _ _ _ ts _ enough all =>
    obtain ⟨positive, needs⟩ := Bool.and_eq_true_iff.1 needs
    obtain ⟨t, member⟩ : ∃ t, t ∈ ts := by
      cases ts with
      | nil => simp_all
      | cons t ts => exact ⟨t, List.mem_cons_self⟩
    obtain ⟨c, among, here⟩ := all t member needs
    exact ⟨c, among, List.mem_flatten.2 ⟨t, member, here⟩⟩
  | group _ ih | atomic _ ih => exact ih needs

/-! ### What is missed -/

/-- An expression matches nowhere where a text lies ahead. -/
def Misses (r : Regex) (input : List Char) : Prop :=
  ∀ t, r.Admits t → ¬t <+: input

theorem Misses.run {β : Type} {fuel : Nat} {p : Progress} {k : Progress → Option β}
    (misses : r.Misses p.cursor.rest) : run fuel r p k = none := by
  cases found : Regex.run fuel r p k with
  | none => rfl
  | some b =>
    obtain ⟨t, q, reads, admits, -⟩ := run_continues found
    exact absurd ⟨q.cursor.rest, reads.rest.symm⟩ (misses t admits)

theorem misses_of_begins (consumes : r.nullable = false) (begins : r.begins c = false) :
    r.Misses (c :: rest) := by
  rintro t admits ⟨after, same⟩
  cases t with
  | nil => simp [admits.nullable rfl] at consumes
  | cons d t =>
    obtain ⟨rfl, -⟩ := List.cons.inj same
    simp [admits.begins rfl] at begins

theorem misses_of_requires (cs : List Char) (needs : r.requires cs = true)
    (free : ∀ c ∈ cs, c ∉ input) : r.Misses input := by
  intro t admits starts
  obtain ⟨c, among, here⟩ := admits.requires cs needs
  exact free c among (starts.subset here)

theorem misses_opt_append (body_ : body.Misses input) (missed : r.Misses input) :
    (opt body ++ r).Misses input := by
  intro t admits starts
  obtain ⟨t, u, rfl, option, second⟩ := admits.of_append
  cases option with
  | @rep _ _ _ _ ts all =>
    cases ts with
    | nil => exact missed u second starts
    | cons v ts =>
      exact body_ v (all v List.mem_cons_self) (.trans ⟨ts.flatten ++ u, by simp⟩ starts)

/-! ### What is preferred -/

/-- Where a text lies ahead and another after it, the search tries the first one before all others. -/
structure Prefers (r : Regex) (text rest : List Char) : Prop where
  run {β : Type} {fuel : Nat} {p : Progress} {k : Progress → Option β} {after : Cursor} {b : β} :
    p.cursor.Passes text after → after.rest = rest → text.length ≤ fuel →
    k { p with cursor := after } = some b → run fuel r p k = some b

theorem Prefers.seq (one : first.Prefers text (more ++ rest)) (two : second.Prefers more rest) :
    (first ++ second).Prefers (text ++ more) rest := by
  refine ⟨fun {_ fuel p k after b} passes ahead long found => ?_⟩
  obtain ⟨middle, start, finish⟩ := passes.of_append
  rw [List.length_append] at long
  refine one.run start (by rw [finish.rest, ahead]) (by omega) ?_
  exact two.run finish ahead (by omega) found

theorem Prefers.left (one : first.Prefers text rest) : (first <|> second).Prefers text rest := by
  refine ⟨fun {_ fuel p k after b} passes ahead long found => ?_⟩
  change Regex.run fuel (.alt first second) p k = some b
  rw [Regex.run, one.run passes ahead long found]

theorem Prefers.right (missed : first.Misses (text ++ rest)) (two : second.Prefers text rest) :
    (first <|> second).Prefers text rest := by
  refine ⟨fun {_ fuel p k after b} passes ahead long found => ?_⟩
  have missed : Regex.run fuel first p k = none := Misses.run (by rwa [passes.rest, ahead])
  change Regex.run fuel (.alt first second) p k = some b
  rw [Regex.run, missed]
  exact two.run passes ahead long found

theorem prefers_one (contains : s.contains c = true) : (Regex.one s).Prefers [c] rest := by
  refine ⟨fun {_ fuel p k after b} passes ahead long found => ?_⟩
  have here : p.cursor.rest = c :: after.rest := passes.rest
  obtain rfl := passes.unique (.next here)
  rw [run, here]
  simpa [contains] using found

/-- Of the places that a repetition reaches, the farthest is tried first. -/
theorem head?_reach {least limit : Nat} {cursor after : Cursor} (nearer : List Cursor)
    (passes : cursor.Passes text after) (all : ∀ c ∈ text, s.contains c = true)
    (stops : ∀ c ∈ after.rest.head?, s.contains c = false) (enough : least ≤ text.length)
    (long : text.length ≤ limit) : (reach s least limit cursor nearer).head? = some after := by
  induction text generalizing cursor least limit nearer with
  | nil =>
    obtain rfl := passes.unique (.refl cursor)
    obtain rfl := Nat.le_zero.1 enough
    cases limit with
    | zero => rfl
    | succ limit =>
      rw [reach]
      split
      · next c rest here =>
        rw [if_neg (by simp [stops c (by simp [here])])]
        rfl
      · rfl
  | cons c text ih =>
    obtain ⟨limit, rfl⟩ : ∃ before, limit = before + 1 := Nat.exists_eq_add_one.2 (by
      simp only [List.length_cons] at long
      omega)
    have here : cursor.rest = c :: (text ++ after.rest) := passes.rest
    rw [List.length_cons] at enough long
    rw [reach, here]
    simp only [all c List.mem_cons_self, if_true]
    exact ih _ passes.of_cons (fun d member => all d (List.mem_cons_of_mem c member)) (by omega)
      (by omega)

/-- A repetition of single characters prefers to go as far as it can. -/
theorem prefers_rep_one {least : Nat} (all : ∀ c ∈ text, s.contains c = true)
    (stops : ∀ c ∈ rest.head?, s.contains c = false) (enough : least ≤ text.length) :
    (Regex.rep least none false (.one s)).Prefers text rest := by
  refine ⟨fun {_ fuel p k after b} passes ahead long found => ?_⟩
  have far := head?_reach [] passes all (ahead ▸ stops) enough
    (Nat.le_trans long (Nat.le_add_right fuel least))
  change (reach s least (fuel + least) p.cursor []).findSome? _ = some b
  obtain ⟨others, places⟩ : ∃ others, reach s least (fuel + least) p.cursor [] = after :: others := by
    cases places : reach s least (fuel + least) p.cursor [] with
    | nil => simp [places] at far
    | cons place others =>
      obtain rfl : place = after := by simpa [places] using far
      exact ⟨others, rfl⟩
  rw [places, List.findSome?_cons, found]

/-- An option whose text is not ahead is passed over. -/
theorem prefers_opt (several : ∀ s, body ≠ .one s) (missed : body.Misses rest) :
    (opt body).Prefers [] rest := by
  refine ⟨fun {β fuel p k after b} passes ahead long found => ?_⟩
  obtain rfl := passes.unique (.refl p.cursor)
  have missed (k : Progress → Option _) : run fuel body p k = (none : Option β) :=
    Misses.run (by rwa [ahead])
  have iterates : run fuel (opt body) p k
      = iterate (fun q => run fuel body q) 0 (some 1) false k (fuel + 0) 0 .none p := by
    cases body with
    | one s => exact absurd rfl (several s)
    | _ => rfl
  rw [iterates]
  cases fuel with
  | zero => exact found
  | succ fuel => simp [iterate, missed, found]

/-- The text that is preferred is what is matched. -/
theorem Prefers.matchIn {size : Nat} {cursor after : Cursor} (prefers : r.Prefers text rest)
    (passes : cursor.Passes text after) (ahead : after.rest = rest) (long : text.length ≤ size) :
    r.matchIn size cursor = some { cursor := after } :=
  prefers.run passes ahead (Nat.le_trans long (Nat.le_add_right size 2)) rfl

end PerlJava.Regex
