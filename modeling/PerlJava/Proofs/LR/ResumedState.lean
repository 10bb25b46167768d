import PerlJava.Proofs.LR.ReachedState

/-!
# Where a parser goes on after a reduction

The state that is uncovered by a reduction holds the item that the production started from, and so an
item that asked for its name: there is an edge by that name. The item is found by going back along the
path of the word, which is the only one.
-/

namespace PerlJava.LR.Automaton

variable {g : Grammar} {w base : List String} {q q' n p d : Nat} {s : String} {i : Item}

theorem rules_ofGrammar : (ofGrammar g).rules = .ofProductions g.productions := by
  rw [rules, ofGrammar]

/-- Every state was entered by the first item of all, or by items that have read something. -/
theorem Path.kernel (path : (ofGrammar g).Path w q) : ∃ kernel : List Item,
    (ofGrammar g).items q = closure g.productions (numbersByName g) kernel
      ∧ ∀ i ∈ kernel, i = ⟨0, 0⟩ ∨ 0 < i.dot := by
  obtain ⟨search, sound, first, edges, found, -⟩ := ofGrammar_search g
  cases path with
  | start => exact ⟨_, (found _ _ first).2, by simp⟩
  | edge _ edge =>
    obtain ⟨_, kernel, -, after, advance⟩ := sound.joins (edges ▸ edge)
    refine ⟨kernel, (found _ _ after).2, fun i member => ?_⟩
    obtain ⟨j, -, -, rfl⟩ := (mem_advances advance).2 i member
    exact .inr (Nat.succ_pos _)

/-- An item that has read a symbol comes from where the edge by that symbol starts. -/
theorem mem_items_before (edge : (s, n) ∈ (ofGrammar g).edges.getD q [])
    (member : ⟨p, d + 1⟩ ∈ (ofGrammar g).items n) :
    ⟨p, d⟩ ∈ (ofGrammar g).items q ∧ (⟨p, d⟩ : Item).next? g.productions = some s := by
  obtain ⟨search, sound, -, edges, found, -⟩ := ofGrammar_search g
  obtain ⟨source, kernel, before, after, advance⟩ := sound.joins (edges ▸ edge)
  rw [(found _ _ after).2] at member
  rw [(found _ _ before).2]
  obtain held | ⟨j, -, m, -, same⟩ := closure_origin member
  · obtain ⟨j, known, next, same⟩ := (mem_advances advance).2 _ held
    obtain ⟨rfl, rfl⟩ : p = j.production ∧ d = j.dot := by simpa using same
    exact ⟨known, next⟩
  · cases same

/-- A state that holds an item which has read something was reached by an edge. -/
theorem Path.exists_edge (path : (ofGrammar g).Path w q)
    (member : ⟨p, d + 1⟩ ∈ (ofGrammar g).items q) : ∃ before s,
    (s, q) ∈ (ofGrammar g).edges.getD before [] ∧ ∃ v, w = s :: v ∧ (ofGrammar g).Path v before := by
  cases path with
  | start =>
    obtain ⟨search, -, first, -, found, -⟩ := ofGrammar_search g
    rw [(found _ _ first).2] at member
    obtain entered | ⟨_, -, _, -, same⟩ := closure_origin member
    · cases List.mem_singleton.1 entered
    · cases same
  | edge before edge => exact ⟨_, _, edge, _, rfl, before⟩

theorem edges_keys (small : (ofGrammar g).states.size < stateLimit)
    (bound : q < (ofGrammar g).states.size) :
    ((ofGrammar g).edges.getD q []).map (·.1) = exits g.productions ((ofGrammar g).items q) := by
  obtain ⟨search, sound, -, edges, found, looked⟩ := ofGrammar_search g
  obtain ⟨row, held⟩ := looked small q bound
  obtain ⟨source, known, keys⟩ := sound.keys held
  rw [(found _ _ known).2, edges, Array.getD_eq_getD_getElem?, held]
  exact keys

theorem Path.bound (path : (ofGrammar g).Path w q) : q < (ofGrammar g).states.size := by
  obtain ⟨search, sound, first, edges, found, -⟩ := ofGrammar_search g
  cases path with
  | start => exact (found _ _ first).1
  | edge _ edge =>
    obtain ⟨_, kernel, -, after, -⟩ := sound.joins (edges ▸ edge)
    exact (found _ _ after).1

theorem eq_of_nodup_keys {row : List (String × Nat)} {m : Nat} (distinct : (row.map (·.1)).Nodup)
    (first : (s, n) ∈ row) (second : (s, m) ∈ row) : n = m := by
  induction row with
  | nil => cases first
  | cons e rest ih =>
    rw [List.map_cons, List.nodup_cons] at distinct
    have absent {k : Nat} (later : (e.1, k) ∈ rest) : False :=
      distinct.1 (List.mem_map.2 ⟨_, later, rfl⟩)
    obtain rfl | later := List.mem_cons.1 first
    · obtain same | other := List.mem_cons.1 second
      · cases same
        rfl
      · exact (absent other).elim
    · obtain rfl | other := List.mem_cons.1 second
      · exact (absent later).elim
      · exact ih distinct.2 later other

theorem Path.unique (small : (ofGrammar g).states.size < stateLimit)
    (path : (ofGrammar g).Path w q) (other : (ofGrammar g).Path w q') : q = q' := by
  induction path generalizing q' with
  | start =>
    cases other
    rfl
  | edge before edge ih =>
    cases other with
    | edge before' edge' =>
      obtain rfl := ih before'
      refine eq_of_nodup_keys ?_ edge edge'
      rw [edges_keys small before.bound]
      exact nodup_exits _

theorem mem_items_start (small : (ofGrammar g).states.size < stateLimit)
    (path : (ofGrammar g).Path w q) (member : ⟨p, d⟩ ∈ (ofGrammar g).items q)
    (word : w = (((ofGrammar g).rules.right p).take d).reverse ++ base)
    (below : (ofGrammar g).Path base q') : ⟨p, 0⟩ ∈ (ofGrammar g).items q' := by
  induction d generalizing w q with
  | zero =>
    obtain rfl : w = base := by simpa using word
    exact path.unique small below ▸ member
  | succ d ih =>
    obtain ⟨before, s, edge, v, rfl, shorter⟩ := path.exists_edge member
    obtain ⟨known, next⟩ := mem_items_before edge member
    rw [Item.next?_eq, ← rules_ofGrammar, Item.nextIn] at next
    have rest : v = (((ofGrammar g).rules.right p).take d).reverse ++ base := by
      simpa [List.take_add_one, next] using word
    exact ih shorter known rest

/-- After a production has been read, there is an edge by its name from where it began. -/
theorem exists_edge_of_complete (numbered : g.Numbered)
    (small : (ofGrammar g).states.size < stateLimit) (path : (ofGrammar g).Path w q)
    (member : i ∈ (ofGrammar g).items q) (complete : i.next? g.productions = none)
    (later : i.production ≠ 0)
    (word : w = ((ofGrammar g).rules.right i.production).reverse ++ base)
    (below : (ofGrammar g).Path base q') :
    ∃ rule n, (ofGrammar g).rules[i.production]? = some rule
      ∧ (rule.1, n) ∈ (ofGrammar g).edges.getD q' [] := by
  have whole : ((ofGrammar g).rules.right i.production).take i.dot
      = (ofGrammar g).rules.right i.production := by
    rw [Item.next?_eq, ← rules_ofGrammar, Item.nextIn, List.getElem?_eq_none_iff] at complete
    exact List.take_of_length_le complete
  have first : ⟨i.production, 0⟩ ∈ (ofGrammar g).items q' :=
    mem_items_start small path member (by rw [whole, word]) below
  obtain ⟨kernel, items, fresh⟩ := below.kernel
  rw [items] at first
  obtain entered | ⟨j, held, n, starts, same⟩ := closure_origin first
  · obtain same | read := fresh _ entered
    · exact absurd (congrArg Item.production same) later
    · cases read
  · obtain rfl : i.production = n := congrArg Item.production same
    obtain ⟨rule, found, next⟩ := mem_startsAt numbered starts
    have exit : rule.1 ∈ ((ofGrammar g).edges.getD q' []).map (·.1) := by
      rw [edges_keys small below.bound, items]
      refine mem_exits held ?_
      rwa [Item.next?_eq, ← rules_ofGrammar]
    obtain ⟨⟨_, target⟩, edge, rfl⟩ := List.mem_map.1 exit
    exact ⟨rule, target, found, edge⟩

end PerlJava.LR.Automaton
