import PerlJava.Proofs.LR.ValidItem

/-!
# What the states of an automaton hold

A word leads to a state along the edges of the automaton, and then every item of that state is valid
for the word. There is an edge for each symbol that an item of a state asks for, and no more than one.
-/

namespace PerlJava.LR

def Rules.ofProductions (productions : Array Production) : Rules String :=
  productions.map fun p => (p.name, p.symbols)

theorem Item.next?_eq (productions : Array Production) (i : Item) :
    i.next? productions = i.nextIn (.ofProductions productions) := by
  simp only [next?, rule, nextIn, Rules.right, Rules.ofProductions, Array.getElem?_map,
    Array.getD_eq_getD_getElem?]
  cases productions[i.production]? <;> rfl

def Grammar.Numbered (g : Grammar) : Prop :=
  ∀ p ∈ g.own, g.productions[p.number]? = some p

namespace Automaton

section Closure

variable {productions : Array Production} {byName : OrderedMap String (List Nat)} {P : Item → Prop}

theorem closeItems_forall
    (closed : ∀ i n, P i → n ∈ startsAt productions byName i → P ⟨n, 0⟩) (fuel : Nat)
    (pending : List Item) (added : Array Bool) (done : Array Item)
    (before : ∀ i ∈ done.toList ++ pending, P i) :
    ∀ i ∈ closeItems productions byName fuel pending added done, P i := by
  induction fuel generalizing pending added done with
  | zero => simpa [closeItems, or_imp, forall_and] using before
  | succ fuel ih =>
    cases pending with
    | nil => simpa [closeItems] using before
    | cons i pending =>
      refine ih _ _ _ fun j member => ?_
      simp only [Array.toList_push, List.mem_append, List.mem_cons, List.not_mem_nil, or_false,
        List.mem_map, List.mem_filter] at member before
      obtain (old | rfl) | waiting | ⟨n, ⟨starts, -⟩, rfl⟩ := member
      · exact before j (.inl old)
      · exact before j (.inr (.inl rfl))
      · exact before j (.inr (.inr waiting))
      · exact closed i n (before i (.inr (.inl rfl))) starts

theorem closure_forall (closed : ∀ i n, P i → n ∈ startsAt productions byName i → P ⟨n, 0⟩)
    {items : List Item} (before : ∀ i ∈ items, P i) :
    ∀ i ∈ closure productions byName items, P i := by
  simpa [closure] using closeItems_forall closed _ items _ #[] (by simpa using before)

theorem mem_closeItems_of_mem (fuel : Nat) {pending : List Item} {added : Array Bool}
    {done : Array Item} {i : Item} (member : i ∈ done.toList ++ pending) :
    i ∈ closeItems productions byName fuel pending added done := by
  induction fuel generalizing pending added done with
  | zero => simpa [closeItems] using member
  | succ fuel ih =>
    cases pending with
    | nil => simpa [closeItems] using member
    | cons j pending =>
      refine ih ?_
      simp only [Array.toList_push, List.mem_append, List.mem_cons] at member ⊢
      obtain old | rfl | waiting := member
      · exact .inl (.inl old)
      · exact .inl (.inr (.inl rfl))
      · exact .inr (.inl waiting)

/-- An item of a closure was there before, or starts where another one stands. -/
theorem closeItems_origin (fuel : Nat) {pending : List Item} {added : Array Bool}
    {done : Array Item} {i : Item}
    (member : i ∈ closeItems productions byName fuel pending added done) :
    i ∈ done.toList ++ pending
      ∨ ∃ j ∈ closeItems productions byName fuel pending added done,
        ∃ n ∈ startsAt productions byName j, i = ⟨n, 0⟩ := by
  induction fuel generalizing pending added done with
  | zero => exact .inl (by simpa [closeItems] using member)
  | succ fuel ih =>
    cases pending with
    | nil => exact .inl (by simpa [closeItems] using member)
    | cons j pending =>
      rw [closeItems] at member ⊢
      obtain before | origin := ih member
      · simp only [Array.toList_push, List.mem_append, List.mem_cons, List.not_mem_nil, or_false,
          List.mem_map, List.mem_filter] at before
        obtain (old | rfl) | waiting | ⟨n, ⟨starts, -⟩, rfl⟩ := before
        · exact .inl (List.mem_append_left _ old)
        · exact .inl (List.mem_append_right _ List.mem_cons_self)
        · exact .inl (List.mem_append_right _ (List.mem_cons_of_mem _ waiting))
        · exact .inr ⟨j, mem_closeItems_of_mem fuel (by simp), n, starts, rfl⟩
      · exact .inr origin

theorem closure_origin {items : List Item} {i : Item}
    (member : i ∈ closure productions byName items) :
    i ∈ items ∨ ∃ j ∈ closure productions byName items,
      ∃ n ∈ startsAt productions byName j, i = ⟨n, 0⟩ := by
  simpa [closure] using closeItems_origin _ (Array.mem_toList_iff.1 member)

end Closure

section Advances

variable {productions : Array Production} {items kernel : List Item} {s : String}

/-- The items after reading a symbol are those that asked for it, one place on. -/
theorem mem_advances (found : (advances productions items).get? s = some kernel) :
    kernel ≠ [] ∧ ∀ j ∈ kernel, ∃ i ∈ items, i.next? productions = some s
      ∧ j = ⟨i.production, i.dot + 1⟩ := by
  let Sound (acc : OrderedMap String (List Item)) : Prop :=
    ∀ e ∈ acc.entries, e.2 ≠ [] ∧ ∀ j ∈ e.2, ∃ i ∈ items, i.next? productions = some e.1
      ∧ j = ⟨i.production, i.dot + 1⟩
  have invariant : Sound (advances productions items) := by
    unfold advances
    refine List.foldlRecOn items _ (motive := Sound) (by simp [Sound]) fun acc before i member => ?_
    unfold addAdvance
    split
    · next s next =>
      intro e inserted
      obtain rfl | old := OrderedMap.mem_entries_insert inserted
      · refine ⟨by simp, fun j mem => ?_⟩
        obtain old | rfl := by simpa using mem
        · cases same : acc.get? s with
          | none => simp [same] at old
          | some items =>
            exact (before _ (OrderedMap.mem_of_get? same)).2 j (by simpa [same] using old)
        · exact ⟨i, member, next, rfl⟩
      · exact before e old
    · exact before
  exact invariant _ (OrderedMap.mem_of_get? found)

theorem contains_addAdvance {acc : OrderedMap String (List Item)} (old : acc.contains s = true)
    (i : Item) : (addAdvance productions acc i).contains s = true := by
  unfold addAdvance
  split
  · rw [OrderedMap.contains_insert, old, Bool.or_true]
  · exact old

theorem contains_advances {i : Item} (member : i ∈ items) (next : i.next? productions = some s) :
    (advances productions items).contains s = true := by
  obtain ⟨before, after, rfl⟩ := List.append_of_mem member
  rw [advances, List.foldl_append, List.foldl_cons]
  refine List.foldlRecOn after _ (motive := fun acc : OrderedMap String (List Item) =>
    acc.contains s = true) ?_ fun acc old i _ => contains_addAdvance old i
  rw [addAdvance, next]
  simp [OrderedMap.contains_insert]

theorem mem_addIfMissing {into : List String × Bool} {e s : String} :
    s ∈ (addIfMissing into e).1 ↔ s ∈ into.1 ∨ s = e := by
  unfold addIfMissing
  split
  · next old =>
    have old : e ∈ into.1 := by simpa using old
    exact ⟨.inl, fun held => held.elim id fun same => same ▸ old⟩
  · simp

theorem nodup_addIfMissing {into : List String × Bool} (distinct : into.1.Nodup) (e : String) :
    (addIfMissing into e).1.Nodup := by
  unfold addIfMissing
  split
  · exact distinct
  · next new =>
    have new : e ∉ into.1 := by simpa using new
    exact List.nodup_append.2 ⟨distinct, by simp, by
      rintro a member b single rfl
      exact new (List.mem_singleton.1 single ▸ member)⟩

theorem mem_addMissing {into elements : List String} {s : String} :
    s ∈ (addMissing into elements).1 ↔ s ∈ into ∨ s ∈ elements := by
  suffices ∀ start : List String × Bool,
      s ∈ (elements.foldl addIfMissing start).1 ↔ s ∈ start.1 ∨ s ∈ elements from this (into, false)
  intro start
  induction elements generalizing start with
  | nil => simp
  | cons e rest ih => rw [List.foldl_cons, ih, mem_addIfMissing, List.mem_cons, or_assoc]

theorem nodup_addMissing {into : List String} (distinct : into.Nodup) (elements : List String) :
    (addMissing into elements).1.Nodup :=
  List.foldlRecOn elements _ (motive := fun acc : List String × Bool => acc.1.Nodup)
    distinct fun _ distinct e _ => nodup_addIfMissing distinct e

theorem nodup_symbolsOf (items : List Item) : (symbolsOf productions items).Nodup :=
  List.foldlRecOn items _ (motive := List.Nodup) List.nodup_nil
    fun _ distinct _ _ => nodup_addMissing distinct _

theorem mem_symbolsOf {i : Item} (member : i ∈ items) (held : s ∈ (i.rule productions).symbols) :
    s ∈ symbolsOf productions items := by
  obtain ⟨before, after, rfl⟩ := List.append_of_mem member
  rw [symbolsOf, List.foldl_append, List.foldl_cons]
  exact List.foldlRecOn after _ (motive := (s ∈ ·)) (mem_addMissing.2 (.inr held))
    fun _ old _ _ => mem_addMissing.2 (.inl old)

def exits (productions : Array Production) (items : List Item) : List String :=
  (symbolsOf productions items).filter fun s => ((advances productions items).get? s).isSome

theorem nodup_exits (items : List Item) : (exits productions items).Nodup :=
  (nodup_symbolsOf items).filter _

theorem mem_exits {i : Item} (member : i ∈ items) (next : i.next? productions = some s) :
    s ∈ exits productions items := by
  refine List.mem_filter.2 ⟨mem_symbolsOf member (List.mem_of_getElem? next), ?_⟩
  exact OrderedMap.isSome_get?_of_contains (contains_advances member next)

end Advances

namespace Search

variable {productions : Array Production} {byName : OrderedMap String (List Nat)}
variable {search : Search}

/-- Each state is the closure of the items it was entered by. -/
def Closed (productions : Array Production) (byName : OrderedMap String (List Nat))
    (search : Search) : Prop :=
  search.states = search.kernels.map (closure productions byName)

/-- A search goes on: the states that have been found stay. -/
def Extends (search later : Search) : Prop :=
  ∀ (n : Nat) (kernel : List Item),
    search.kernels[n]? = some kernel → later.kernels[n]? = some kernel

theorem Extends.refl (search : Search) : search.Extends search :=
  fun _ _ => id

theorem Extends.trans {a b c : Search} (first : a.Extends b) (second : b.Extends c) :
    a.Extends c :=
  fun n kernel => second n kernel ∘ first n kernel

theorem enter_spec (closed : search.Closed productions byName) (kernel : List Item) :
    let entered := search.enter productions byName kernel
    entered.2.Closed productions byName ∧ search.Extends entered.2
      ∧ entered.2.edges = search.edges ∧ entered.2.kernels[entered.1]? = some kernel := by
  unfold enter
  split
  · next n found =>
    obtain ⟨bound, same, -⟩ := Array.findIdx?_eq_some_iff_getElem.1 found
    exact ⟨closed, .refl _, rfl, by simpa [bound] using same⟩
  · refine ⟨by simp_all [Closed], fun n old found => ?_, rfl, ?_⟩
    · obtain ⟨bound, same⟩ := Array.getElem?_eq_some_iff.1 found
      simp [Array.getElem?_push_lt bound, same]
    · simp [show search.states.size = search.kernels.size by rw [closed, Array.size_map]]

/-- An edge leads from one state to another: the items of the first advance on its symbol to those
that the second was entered by. -/
def Joins (productions : Array Production) (byName : OrderedMap String (List Nat))
    (search : Search) (q : Nat) (edge : String × Nat) : Prop :=
  ∃ source kernel, search.kernels[q]? = some source ∧ search.kernels[edge.2]? = some kernel
    ∧ (advances productions (closure productions byName source)).get? edge.1 = some kernel

theorem Joins.extend {later : Search} {q : Nat} {edge : String × Nat}
    (joins : search.Joins productions byName q edge) (further : search.Extends later) :
    later.Joins productions byName q edge := by
  obtain ⟨source, kernel, before, after, advance⟩ := joins
  exact ⟨source, kernel, further _ _ before, further _ _ after, advance⟩

/-- Following symbols adds an edge for each that can be read. -/
theorem follow_keys (targets : OrderedMap String (List Item)) (symbols : List String)
    (start : List (String × Nat) × Search) :
    (symbols.foldl (follow productions byName targets) start).1.map (·.1)
      = start.1.map (·.1) ++ symbols.filter fun s => (targets.get? s).isSome := by
  induction symbols generalizing start with
  | nil => simp
  | cons s rest ih =>
    rw [List.foldl_cons, ih]
    unfold follow
    cases found : targets.get? s <;> simp [found]

theorem expand_spec {source : List Item} (closed : search.Closed productions byName)
    (found : search.kernels[search.edges.size]? = some source) :
    ∃ later row, search.expand productions byName (closure productions byName source)
        = { later with edges := search.edges.push row }
      ∧ later.Closed productions byName ∧ search.Extends later
      ∧ (∀ edge ∈ row, later.Joins productions byName search.edges.size edge)
      ∧ row.map (·.1) = exits productions (closure productions byName source) := by
  let Sound (acc : List (String × Nat) × Search) : Prop :=
    acc.2.Closed productions byName ∧ search.Extends acc.2 ∧ acc.2.edges = search.edges
      ∧ ∀ edge ∈ acc.1, acc.2.Joins productions byName search.edges.size edge
  have sound (symbols : List String) : Sound (symbols.foldl (follow productions byName
      (advances productions (closure productions byName source))) ([], search)) := by
    refine List.foldlRecOn _ _ (motive := Sound) ⟨closed, .refl _, rfl, by simp⟩ ?_
    rintro ⟨row, current⟩ ⟨closed, further, edges, joins⟩ s -
    unfold follow
    split
    · next kernel advance =>
      obtain ⟨stillClosed, entering, sameEdges, entered⟩ := enter_spec closed kernel
      refine ⟨stillClosed, further.trans entering, sameEdges.trans edges, fun edge member => ?_⟩
      obtain old | rfl := by simpa using member
      · exact (joins edge old).extend entering
      · exact ⟨source, kernel, entering _ _ (further _ _ found), entered, advance⟩
    · exact ⟨closed, further, edges, joins⟩
  obtain ⟨closed, further, edges, joins⟩ :=
    sound (symbolsOf productions (closure productions byName source))
  exact ⟨_, _, by rw [expand, ← edges], closed, further, joins, follow_keys ..⟩

/-- All edges of a search lead from one of its states to another, and none is missing where the
search has looked. -/
structure Sound (productions : Array Production) (byName : OrderedMap String (List Nat))
    (search : Search) : Prop where
  closed : search.Closed productions byName
  joins {q : Nat} {edge : String × Nat} :
    edge ∈ search.edges.getD q [] → search.Joins productions byName q edge
  keys {q : Nat} {row : List (String × Nat)} : search.edges[q]? = some row →
    ∃ source, search.kernels[q]? = some source
      ∧ row.map (·.1) = exits productions (closure productions byName source)

theorem Sound.run (sound : search.Sound productions byName) (fuel : Nat) :
    (Search.run productions byName fuel search).Sound productions byName
      ∧ search.Extends (Search.run productions byName fuel search) := by
  induction fuel generalizing search with
  | zero => exact ⟨sound, .refl _⟩
  | succ fuel ih =>
    rw [Search.run]
    split
    · exact ⟨sound, .refl _⟩
    · next items next =>
      rw [sound.closed, Array.getElem?_map, Option.map_eq_some_iff] at next
      obtain ⟨source, found, rfl⟩ := next
      obtain ⟨later, row, expanded, closed, further, joins, keys⟩ := expand_spec sound.closed found
      rw [expanded]
      have next : Sound productions byName { later with edges := search.edges.push row } := by
        refine ⟨closed, fun {q edge} member => ?_, fun {q row'} held => ?_⟩
        · rw [Array.getD_eq_getD_getElem?, Array.getElem?_push] at member
          split at member
          · next last => exact last ▸ joins edge member
          · exact (sound.joins (Array.getD_eq_getD_getElem? ▸ member)).extend further
        · rw [Array.getElem?_push] at held
          split at held
          · next last =>
            cases held
            exact ⟨source, last ▸ further _ _ found, keys⟩
          · obtain ⟨old, known, same⟩ := sound.keys held
            exact ⟨old, further _ _ known, same⟩
      exact ⟨(ih next).1, further.trans (ih next).2⟩

theorem edges_foldl_follow (targets : OrderedMap String (List Item)) (symbols : List String)
    (start : List (String × Nat) × Search) :
    (symbols.foldl (follow productions byName targets) start).2.edges = start.2.edges := by
  refine List.foldlRecOn symbols _ (motive := fun found : List (String × Nat) × Search =>
    found.2.edges = start.2.edges) rfl fun found same s _ => ?_
  unfold follow enter
  split
  · simp only
    split <;> exact same
  · exact same

/-- A search ends when it has looked at all states, or at as many as it may. -/
theorem run_ends (productions : Array Production) (byName : OrderedMap String (List Nat))
    (search : Search) (fuel : Nat) :
    let ended := Search.run productions byName fuel search
    ended.states.size ≤ ended.edges.size ∨ search.edges.size + fuel ≤ ended.edges.size := by
  induction fuel generalizing search with
  | zero => exact .inr (Nat.le_refl _)
  | succ fuel ih =>
    rw [Search.run]
    split
    · next none => exact .inl (Array.getElem?_eq_none_iff.1 none)
    · next items _ =>
      have grown : (search.expand productions byName items).edges.size = search.edges.size + 1 := by
        rw [expand, Array.size_push, edges_foldl_follow]
      obtain done | limit := ih (search.expand productions byName items)
      · exact .inl done
      · exact .inr (by omega)

/-- A search that has not found too many states has looked at all of them. -/
theorem Sound.edges_of_small {fuel : Nat}
    (sound : (Search.run productions byName fuel search).Sound productions byName)
    (small : (Search.run productions byName fuel search).states.size < fuel) {q : Nat}
    (bound : q < (Search.run productions byName fuel search).states.size) :
    ∃ row, (Search.run productions byName fuel search).edges[q]? = some row := by
  have all : (Search.run productions byName fuel search).states.size
      ≤ (Search.run productions byName fuel search).edges.size := by
    obtain all | limit := run_ends productions byName search fuel
    · exact all
    · -- Each row of edges belongs to a state, so there cannot be more rows than states.
      have more : (Search.run productions byName fuel search).states.size
          < (Search.run productions byName fuel search).edges.size := by omega
      obtain ⟨source, known, -⟩ := sound.keys (Array.getElem?_eq_getElem more)
      obtain ⟨inside, -⟩ := Array.getElem?_eq_some_iff.1 known
      rw [sound.closed, Array.size_map] at inside
      omega
  exact ⟨_, Array.getElem?_eq_getElem (by omega)⟩

end Search

def rules (a : Automaton) : Rules String :=
  .ofProductions a.productions

/-- A word takes the automaton from its first state to another. -/
inductive Path (a : Automaton) : List String → Nat → Prop where
  | start : Path a [] 0
  | edge {w : List String} {q n : Nat} {s : String} : Path a w q → (s, n) ∈ a.edges.getD q [] →
    Path a (s :: w) n

/-- A word leads to a state: all items of the state are valid for it, and there are some. -/
structure Leads (a : Automaton) (w : List String) (q : Nat) : Prop where
  path : a.Path w q
  bound : q < a.states.size
  valid : ∀ i ∈ a.items q, Valid a.rules w i
  nonempty : ∃ i, Valid a.rules w i

section Grammar

variable {g : Grammar} {w : List String} {q n : Nat} {s : String}

theorem mem_startsAt (numbered : g.Numbered) {i : Item}
    (member : n ∈ startsAt g.productions (numbersByName g) i) :
    ∃ rule, (ofGrammar g).rules[n]? = some rule ∧ i.nextIn (ofGrammar g).rules = some rule.1 := by
  unfold startsAt at member
  rw [Item.next?_eq] at member
  cases next : i.nextIn (.ofProductions g.productions) with
  | none => simp [next] at member
  | some name =>
    cases found : (numbersByName g).get? name with
    | none => simp [next, found] at member
    | some numbers =>
      have entry := OrderedMap.mem_of_mem_ofList (OrderedMap.mem_of_get? found)
      obtain ⟨name, -, same⟩ := List.mem_map.1 entry
      obtain ⟨rfl, rfl⟩ := Prod.mk.inj same
      obtain ⟨p, listed, rfl⟩ : ∃ p ∈ g.productionsOf name, p.number = n := by
        simpa [next, found] using member
      obtain ⟨own, rfl⟩ : p ∈ g.own ∧ p.name = name := by
        simpa [Grammar.productionsOf] using listed
      refine ⟨(p.name, p.symbols), ?_, next⟩
      simp [rules, ofGrammar, Rules.ofProductions, numbered p own]

theorem closure_valid (numbered : g.Numbered) {kernel : List Item}
    (valid : ∀ i ∈ kernel, Valid (ofGrammar g).rules w i) :
    ∀ i ∈ closure g.productions (numbersByName g) kernel, Valid (ofGrammar g).rules w i := by
  refine closure_forall (fun i n valid starts => ?_) valid
  obtain ⟨rule, found, next⟩ := mem_startsAt numbered starts
  exact .down valid found next

theorem ofGrammar_search (g : Grammar) : ∃ search : Search,
    search.Sound g.productions (numbersByName g) ∧ search.kernels[0]? = some [⟨0, 0⟩]
      ∧ (ofGrammar g).edges = search.edges ∧ (∀ (n : Nat) kernel, search.kernels[n]? = some kernel →
        n < (ofGrammar g).states.size
        ∧ (ofGrammar g).items n = closure g.productions (numbersByName g) kernel)
      ∧ ((ofGrammar g).states.size < stateLimit → ∀ q < (ofGrammar g).states.size,
        ∃ row, search.edges[q]? = some row) := by
  have start : Search.Sound g.productions (numbersByName g)
      (.start g.productions (numbersByName g) [⟨0, 0⟩]) :=
    ⟨by simp [Search.Closed, Search.start], by simp [Search.start], by simp [Search.start]⟩
  obtain ⟨sound, further⟩ := start.run stateLimit
  refine ⟨_, sound, further 0 _ (by simp [Search.start]), rfl, fun n kernel found => ?_,
    fun small q bound => sound.edges_of_small small bound⟩
  obtain ⟨bound, -⟩ := Array.getElem?_eq_some_iff.1 found
  refine ⟨by rwa [ofGrammar, sound.closed, Array.size_map], ?_⟩
  rw [items, ofGrammar, Array.getD_eq_getD_getElem?, sound.closed, Array.getElem?_map, found,
    Option.map_some, Option.getD_some]

theorem leads_start (numbered : g.Numbered) : (ofGrammar g).Leads [] 0 := by
  obtain ⟨search, -, first, -, found, -⟩ := ofGrammar_search g
  obtain ⟨bound, items⟩ := found _ _ first
  refine ⟨.start, bound, ?_, ⟨0, 0⟩, .start⟩
  rw [items]
  exact closure_valid numbered (by simpa using Valid.start)

theorem leads_edge (numbered : g.Numbered) (edge : (s, n) ∈ (ofGrammar g).edges.getD q [])
    (leads : (ofGrammar g).Leads w q) : (ofGrammar g).Leads (s :: w) n := by
  obtain ⟨search, sound, -, edges, found, -⟩ := ofGrammar_search g
  obtain ⟨source, kernel, before, after, advance⟩ := sound.joins (edges ▸ edge)
  obtain ⟨-, itemsBefore⟩ := found _ _ before
  obtain ⟨bound, itemsAfter⟩ := found _ _ after
  obtain ⟨nonempty, advanced⟩ := mem_advances advance
  have valid : ∀ j ∈ kernel, Valid (ofGrammar g).rules (s :: w) j := by
    intro j member
    obtain ⟨i, held, next, rfl⟩ := advanced j member
    rw [Item.next?_eq] at next
    exact .across (leads.valid i (itemsBefore ▸ held)) next
  obtain ⟨j, member⟩ := List.exists_mem_of_ne_nil kernel nonempty
  exact ⟨.edge leads.path edge, bound, itemsAfter ▸ closure_valid numbered valid, j, valid j member⟩

end Grammar

end Automaton

end PerlJava.LR
