import PerlJava.Proofs.LR.TableEntry

/-!
# Tables that are sound for a grammar

A table is sound if words lead to its states in such a way that shifts and gotos prolong them, that a
reduction is made only where its production has been read, and that there is a goto after it. Renumbering the states of a sound
table leaves it sound, and a reduction made by default is one of the table.
-/

namespace PerlJava.LR

/-- A table is sound for the productions of a grammar: `leads w q` says that the word `w` may lead to
the state `q`. -/
structure Table.Sound (t : Table) (rules : Rules String) (isTerminal : String → Prop)
    (leads : List String → Nat → Prop) : Prop where
  start : leads [] 0
  nonempty {w : List String} {q : Nat} : leads w q → ∃ i, Valid rules w i
  shift {w : List String} {q n : Nat} {s : String} : leads w q →
    t.action? q s = some (.shift n) → leads (s :: w) n ∧ isTerminal s
  reduce {w : List String} {q p : Nat} {s : String} : leads w q →
    t.action? q s = some (.reduce p) →
    ∃ i, Valid rules w i ∧ i.production = p ∧ i.nextIn rules = none
  accept {w : List String} {q : Nat} {s : String} : leads w q → t.action? q s = some .accept →
    s = "$end" ∧ ∃ i, Valid rules w i ∧ i.production = 0 ∧ i.nextIn rules = none
  goto {w : List String} {q n : Nat} {s : String} : leads w q → t.goto q s = .ok n →
    leads (s :: w) n
  resume {w base : List String} {q q' p : Nat} {s : String} : leads w q →
    t.action? q s = some (.reduce p) → w = (rules.right p).reverse ++ base → leads base q' →
    ∃ n, t.goto q' (t.rules.getD p default).name = .ok n
  length (p : Nat) : (t.rules.getD p default).length = (rules.right p).length
  name {p : Nat} {rule : String × List String} : rules[p]? = some rule →
    (t.rules.getD p default).name = rule.1

namespace Table

section Rows

variable {κ α β : Type} [BEq κ] [LawfulBEq κ]

omit [LawfulBEq κ] in
theorem lookup_map (f : α → β) (row : List (κ × α)) (key : κ) :
    (row.map fun (k, a) => (k, f a)).lookup key = (row.lookup key).map f := by
  induction row with
  | nil => rfl
  | cons entry row ih =>
    obtain ⟨k, a⟩ := entry
    simp only [List.map_cons, List.lookup_cons, ih]
    cases key == k <;> rfl

abbrev place (places : List (α × Nat)) (rows : Array α) : Array α :=
  places.foldl (fun acc (row, n) => acc.setIfInBounds n row) rows

omit [BEq κ] [LawfulBEq κ] in
theorem getElem?_place_of_notMem {places : List (α × Nat)} {rows : Array α} {n : Nat}
    (free : n ∉ places.map (·.2)) : (place places rows)[n]? = rows[n]? := by
  induction places generalizing rows with
  | nil => rfl
  | cons e rest ih =>
    simp only [List.map_cons, List.mem_cons, not_or] at free
    rw [place, List.foldl_cons, ih free.2, Array.getElem?_setIfInBounds_ne (Ne.symm free.1)]

omit [BEq κ] [LawfulBEq κ] in
theorem getElem?_place {places : List (α × Nat)} (distinct : (places.map (·.2)).Nodup)
    {rows : Array α} {row : α} {n : Nat} (member : (row, n) ∈ places) (bound : n < rows.size) :
    (place places rows)[n]? = some row := by
  induction places generalizing rows with
  | nil => cases member
  | cons e rest ih =>
    rw [List.map_cons, List.nodup_cons] at distinct
    rw [place, List.foldl_cons]
    obtain rfl | later := List.mem_cons.1 member
    · rw [getElem?_place_of_notMem distinct.1, Array.getElem?_setIfInBounds_self_of_lt bound]
    · exact ih distinct.2 later (by simpa using bound)

end Rows

section Permute

variable {α : Type} [Inhabited α] {numbers : Array Nat} {rows : Array α}

theorem permute_eq_place (numbers : Array Nat) (rows : Array α) :
    permute numbers rows = place (rows.toList.zip numbers.toList) rows := by
  rw [permute, ← Array.foldl_toList, Array.toList_zip]

theorem getElem?_permute {q n : Nat} (all : numbers.toList.Perm (List.range rows.size))
    (number : numbers[q]? = some n) : (permute numbers rows)[n]? = rows[q]? := by
  have size : numbers.size = rows.size := by simpa using all.length_eq
  obtain ⟨inNumbers, same⟩ := Array.getElem?_eq_some_iff.1 number
  have bound : n < rows.size := by
    have member : n ∈ numbers.toList := by simp [← same]
    simpa using all.mem_iff.1 member
  have inRows : q < rows.size := size ▸ inNumbers
  have member : (rows[q], n) ∈ rows.toList.zip numbers.toList := by
    refine List.mem_iff_getElem?.2 ⟨q, List.getElem?_zip_eq_some.2 ⟨?_, ?_⟩⟩
    · simp [inRows]
    · simp [inNumbers, same]
  have distinct : ((rows.toList.zip numbers.toList).map (·.2)).Nodup := by
    rw [List.map_snd_zip (by simp [size])]
    exact all.nodup_iff.2 List.nodup_range
  rw [permute_eq_place, getElem?_place distinct member bound, Array.getElem?_eq_getElem inRows]

end Permute

variable {t : Table} {q : Nat} {s : String} {action : Action}

theorem mem_of_action? (found : t.action? q s = some action) :
    (s, some action) ∈ t.actions.getD q [] :=
  OrderedMap.mem_of_lookup (Option.join_eq_some_iff.1 found)

theorem goto_eq_ok {n : Nat} : t.goto q s = .ok n ↔ (t.gotos.getD q []).lookup s = some n := by
  unfold goto
  cases (t.gotos.getD q []).lookup s <;> simp

theorem Made.exists_goto {a : Automaton} (made : t.Made a) {n : Nat} (bound : q < a.states.size)
    (edge : (s, n) ∈ a.edges.getD q []) (named : a.grammar.isNonterminal s = true) :
    ∃ n, t.goto q s = .ok n := by
  have kept : (s, n) ∈ t.gotos.getD q [] := by
    rw [made.gotos q bound]
    exact List.mem_filter.2 ⟨edge, named⟩
  cases found : (t.gotos.getD q []).lookup s with
  | none => exact absurd rfl (bne_iff_ne.1 (List.lookup_eq_none_iff.1 found _ kept))
  | some n => exact ⟨n, goto_eq_ok.2 found⟩

theorem Made.name {g : Grammar} (made : t.Made (Automaton.ofGrammar g)) {p : Nat}
    {rule : String × List String} (found : (Rules.ofProductions g.productions)[p]? = some rule) :
    (t.rules.getD p default).name = rule.1 := by
  rw [Rules.ofProductions, Array.getElem?_map, Option.map_eq_some_iff] at found
  obtain ⟨production, found, rfl⟩ := found
  simp [made.rules, Automaton.ofGrammar, found, Production.toRule]

theorem mem_own_of_ne_zero {g : Grammar} {p : Nat} {rule : String × List String} (later : p ≠ 0)
    (found : (Rules.ofProductions g.productions)[p]? = some rule) :
    ∃ production ∈ g.own, production.name = rule.1 := by
  obtain ⟨n, rfl⟩ := Nat.exists_eq_succ_of_ne_zero later
  rw [Rules.ofProductions, Array.getElem?_map, Option.map_eq_some_iff] at found
  obtain ⟨production, found, rfl⟩ := found
  refine ⟨production, ?_, rfl⟩
  rw [Grammar.productions, Array.getElem?_append_right (by simp)] at found
  exact Array.mem_of_getElem? found

theorem Made.sound {g : Grammar} (made : t.Made (Automaton.ofGrammar g)) (numbered : g.Numbered)
    (small : (Automaton.ofGrammar g).states.size < Automaton.stateLimit)
    (named : ∀ p ∈ g.own, g.isNonterminal p.name = true) :
    t.Sound (.ofProductions g.productions) (fun s => g.isTerminal s = true)
      (Automaton.ofGrammar g).Leads where
  start := Automaton.leads_start numbered
  nonempty leads := leads.nonempty
  shift leads found := by
    obtain ⟨terminal, edge⟩ := made.actions _ _ _ (mem_of_action? found)
    exact ⟨Automaton.leads_edge numbered (Automaton.mem_edges_of_goto? edge) leads, terminal⟩
  reduce leads found := by
    obtain ⟨i, held, rfl, complete, -⟩ := made.actions _ _ _ (mem_of_action? found)
    exact ⟨i, leads.valid i held, rfl, by rwa [Item.next?_eq] at complete⟩
  accept leads found := by
    obtain ⟨isEnd, i, held, first, complete⟩ := made.actions _ _ _ (mem_of_action? found)
    exact ⟨isEnd, i, leads.valid i held, first, by rwa [Item.next?_eq] at complete⟩
  goto leads found := by
    have held := OrderedMap.mem_of_lookup (goto_eq_ok.1 found)
    rw [made.gotos _ leads.bound] at held
    exact Automaton.leads_edge numbered (List.mem_filter.1 held).1 leads
  resume {w base q q' p s} leads found word below := by
    obtain ⟨i, held, rfl, complete, later⟩ := made.actions _ _ _ (mem_of_action? found)
    rw [← Automaton.rules_ofGrammar] at word
    obtain ⟨rule, n, known, edge⟩ := Automaton.exists_edge_of_complete numbered small leads.path
      held complete later word below.path
    rw [Automaton.rules_ofGrammar] at known
    obtain ⟨production, own, same⟩ := mem_own_of_ne_zero later known
    rw [made.name known]
    exact made.exists_goto below.bound edge (same ▸ named production own)
  length p := by
    simp only [made.rules, Array.getD_eq_getD_getElem?, Array.getElem?_map, Rules.right,
      Rules.ofProductions, Automaton.ofGrammar]
    cases g.productions[p]? <;> rfl
  name := made.name

section Renumber

variable {numbers : Array Nat} {n : Nat}

theorem action?_withNumbers (all : numbers.toList.Perm (List.range t.actions.size))
    (number : numbers[q]? = some n) {action : Action} :
    (t.withNumbers numbers).action? n s = some action ↔
      ∃ before, t.action? q s = some before ∧ renumberAction numbers before = action := by
  rw [← Option.map_eq_some_iff]
  simp only [action?, withNumbers, Array.getD_eq_getD_getElem?]
  rw [getElem?_permute (by simpa using all) number, Array.getElem?_map]
  cases t.actions[q]? with
  | none => rfl
  | some row =>
    simp only [Option.map_some, Option.getD_some, lookup_map]
    cases row.lookup s <;> rfl

theorem goto_withNumbers (all : numbers.toList.Perm (List.range t.gotos.size))
    (number : numbers[q]? = some n) {m : Nat} :
    (t.withNumbers numbers).goto n s = .ok m ↔
      ∃ k, t.goto q s = .ok k ∧ numbers.getD k k = m := by
  rw [goto_eq_ok, withNumbers, Array.getD_eq_getD_getElem?,
    getElem?_permute (by simpa using all) number, Array.getElem?_map]
  cases held : t.gotos[q]? with
  | none => simp [goto_eq_ok, held]
  | some row =>
    rw [Option.map_some, Option.getD_some, lookup_map (fun n => numbers.getD n n),
      Option.map_eq_some_iff]
    simp [goto_eq_ok, held]

/-- Words lead to the new numbers of the states they led to. -/
def LeadsBy (numbers : Array Nat) (leads : List String → Nat → Prop) (w : List String) (n : Nat) :
    Prop :=
  ∃ q, numbers[q]? = some n ∧ leads w q

/-- A sound table is sound with other numbers, if its first state keeps its own. -/
theorem Sound.renumber {rules : Rules String} {isTerminal : String → Prop}
    {leads : List String → Nat → Prop} {t' : Table} (sound : t.Sound rules isTerminal leads)
    (bound : ∀ w q, leads w q → q < t.actions.size) (sizes : t.gotos.size = t.actions.size)
    (first : numbers[0]? = some 0) (done : t.renumber numbers = .ok t') :
    t'.Sound rules isTerminal (LeadsBy numbers leads) := by
  unfold Table.renumber at done
  split at done
  case isFalse => cases done
  case isTrue all =>
    cases done
    replace all := List.isPerm_iff.1 all
    have size : numbers.size = t.actions.size := by simpa using all.length_eq
    have led {w : List String} {q : Nat} (leads : leads w q) :
        LeadsBy numbers _ w (numbers.getD q q) :=
      ⟨q, by simp [size ▸ bound w q leads], leads⟩
    constructor
    case start => exact ⟨0, first, sound.start⟩
    case length => exact sound.length
    case name => exact sound.name
    case nonempty =>
      rintro w n ⟨q, -, leads⟩
      exact sound.nonempty leads
    case shift =>
      rintro w n m s ⟨q, number, leads⟩ found
      obtain ⟨action, before, same⟩ := (action?_withNumbers all number).1 found
      cases action <;> cases same
      obtain ⟨leads, terminal⟩ := sound.shift leads before
      exact ⟨led leads, terminal⟩
    case reduce =>
      rintro w n p s ⟨q, number, leads⟩ found
      obtain ⟨action, before, same⟩ := (action?_withNumbers all number).1 found
      cases action <;> cases same
      exact sound.reduce leads before
    case accept =>
      rintro w n s ⟨q, number, leads⟩ found
      obtain ⟨action, before, same⟩ := (action?_withNumbers all number).1 found
      cases action <;> cases same
      exact sound.accept leads before
    case goto =>
      rintro w n m s ⟨q, number, leads⟩ found
      obtain ⟨k, before, rfl⟩ := (goto_withNumbers (sizes ▸ all) number).1 found
      exact led (sound.goto leads before)
    case resume =>
      rintro w base n n' p s ⟨q, number, leads⟩ found word ⟨q', number', below⟩
      obtain ⟨action, before, same⟩ := (action?_withNumbers all number).1 found
      cases action <;> cases same
      obtain ⟨k, goto⟩ := sound.resume leads before word below
      exact ⟨_, (goto_withNumbers (sizes ▸ all) number').2 ⟨k, goto, rfl⟩⟩

end Renumber

theorem action?_of_defaults {defaults : Array (Option Nat)} {p : Nat}
    (done : t.defaults = .ok defaults) (found : defaults.getD q none = some p) :
    ∃ s, t.action? q s = some (.reduce p) := by
  rw [Table.defaults, Array.mapM_eq_mapM_toList, map_eq_pure_bind, bind_eq_ok] at done
  obtain ⟨list, done, ⟨⟩⟩ := done
  have listed : list[q]? = some (some p) := by
    cases at? : list[q]? with
    | none => simp [at?] at found
    | some d => simpa [at?] using found
  obtain ⟨row, held, sole⟩ := mapM_getElem? done listed
  unfold soleReduction? at sole
  split at sole <;> cases sole
  next s =>
    have row : t.actions[q]? = some [(s, some (.reduce p))] := by simpa using held
    exact ⟨s, by simp [action?, row]⟩

end Table

/-- A table drives a parser whose symbols are spelt by `text`: what `Sound` says of texts, and of the
reductions made by default. -/
structure Table.Drives {σ : Type} (t : Table) (defaults : Array (Option Nat)) (text : σ → String)
    (rules : Rules σ) (leads : List σ → Nat → Prop) : Prop where
  start : leads [] 0
  nonempty {w : List σ} {q : Nat} : leads w q → ∃ i, Valid rules w i
  shift {w : List σ} {q n : Nat} {kind : String} : leads w q →
    t.action? q kind = some (.shift n) →
    ∃ s, text s = kind ∧ leads (s :: w) n ∧ ∀ p rule, rules[p + 1]? = some rule → rule.1 ≠ s
  reduce {w : List σ} {q p : Nat} : leads w q →
    (defaults.getD q none = some p ∨ ∃ kind, t.action? q kind = some (.reduce p)) →
    ∃ i, Valid rules w i ∧ i.production = p ∧ i.nextIn rules = none
  accept {w : List σ} {q : Nat} {kind : String} : leads w q → t.action? q kind = some .accept →
    kind = "$end" ∧ ∃ i, Valid rules w i ∧ i.production = 0 ∧ i.nextIn rules = none
  goto {w : List σ} {q p n : Nat} {rule : σ × List σ} : leads w q → rules[p]? = some rule →
    t.goto q (t.rules.getD p default).name = .ok n → leads (rule.1 :: w) n
  resume {w base : List σ} {q q' p : Nat} : leads w q →
    (defaults.getD q none = some p ∨ ∃ kind, t.action? q kind = some (.reduce p)) →
    w = (rules.right p).reverse ++ base → leads base q' →
    ∃ n, t.goto q' (t.rules.getD p default).name = .ok n
  length {p : Nat} {rule : σ × List σ} : rules[p]? = some rule →
    (t.rules.getD p default).length = rule.2.length
  name {p : Nat} {rule : σ × List σ} : rules[p]? = some rule →
    (t.rules.getD p default).name = text rule.1

theorem Table.Sound.drives {σ : Type} {t : Table} {defaults : Array (Option Nat)}
    {text : σ → String} {rules : Rules σ} {isTerminal : String → Prop}
    {leads : List String → Nat → Prop} (sound : t.Sound (rules.spell text) isTerminal leads)
    (injective : ∀ a b, text a = text b → a = b)
    (names : ∀ p rule, rules[p + 1]? = some rule → ¬isTerminal (text rule.1))
    (done : t.defaults = .ok defaults) :
    t.Drives defaults text rules fun w q => leads (w.map text) q := by
  have spelt {p : Nat} {rule : σ × List σ} (found : rules[p]? = some rule) :
      (rules.spell text)[p]? = some (text rule.1, rule.2.map text) := by
    rw [Rules.spell, Array.getElem?_map, found]
    rfl
  have complete {w : List σ} {p : Nat} (found : ∃ i, Valid (rules.spell text) (w.map text) i
      ∧ i.production = p ∧ i.nextIn (rules.spell text) = none) :
      ∃ i, Valid rules w i ∧ i.production = p ∧ i.nextIn rules = none := by
    obtain ⟨i, valid, same, complete⟩ := found
    obtain ⟨u, read, valid⟩ := valid.of_spell injective
    rw [List.map_inj_right injective] at read
    exact ⟨i, read ▸ valid, same, by simpa [Item.nextIn_spell] using complete⟩
  constructor
  case start => exact sound.start
  case nonempty =>
    intro w q leads
    obtain ⟨i, valid⟩ := sound.nonempty leads
    obtain ⟨u, read, valid⟩ := valid.of_spell injective
    rw [List.map_inj_right injective] at read
    exact ⟨i, read ▸ valid⟩
  case shift =>
    intro w q n kind leads found
    obtain ⟨leads, terminal⟩ := sound.shift leads found
    obtain ⟨i, valid⟩ := sound.nonempty leads
    obtain ⟨u, read, -⟩ := valid.of_spell injective
    obtain ⟨s, rest, rfl, rfl, -⟩ := List.map_eq_cons_iff.1 read.symm
    exact ⟨s, rfl, leads, fun p rule found same => names p rule found (same ▸ terminal)⟩
  case reduce =>
    rintro w q p leads (byDefault | ⟨kind, found⟩)
    · obtain ⟨kind, found⟩ := action?_of_defaults done byDefault
      exact complete (sound.reduce leads found)
    · exact complete (sound.reduce leads found)
  case accept => exact fun leads found => (sound.accept leads found).imp_right complete
  case goto =>
    intro w q p n rule leads found target
    rw [sound.name (spelt found)] at target
    exact sound.goto leads target
  case resume =>
    intro w base q q' p leads reduces word below
    obtain ⟨kind, found⟩ : ∃ kind, t.action? q kind = some (.reduce p) :=
      reduces.elim (action?_of_defaults done) id
    refine sound.resume leads found ?_ below
    rw [word, Rules.right_spell, List.map_append, List.map_reverse]
  case length =>
    intro p rule found
    rw [sound.length, Rules.right, spelt found]
    simp
  case name => exact fun found => sound.name (spelt found)

end PerlJava.LR
