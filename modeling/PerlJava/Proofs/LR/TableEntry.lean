import PerlJava.LR.Generate
import PerlJava.Proofs.Data.ExceptFold
import PerlJava.Proofs.LR.ResumedState

/-!
# Why the entries of a table are there

Every action that the generator enters for a state is due to an item of that state: a shift to a dot
before the token, a reduction to a complete item; the end is accepted for that of the start.
Precedences and conflicts only choose among such
actions. The gotos of a state are its edges by nonterminals, all of them.
-/

namespace PerlJava.LR

def Automaton.Allows (a : Automaton) (q : Nat) (token : String) : Action → Prop
  | .shift n => a.grammar.isTerminal token = true ∧ a.goto? q token = some n
  | .reduce p => ∃ i ∈ a.items q, i.production = p ∧ i.next? a.productions = none ∧ p ≠ 0
  | .accept => token = "$end" ∧ ∃ i ∈ a.items q, i.production = 0 ∧ i.next? a.productions = none

namespace Generate

/-- The work on a state is sound if there is a reason for every action entered. -/
structure Row.Sound (P : String → Action → Prop) (q : Nat) (row : Row) : Prop where
  state : row.state = q
  actions : ∀ token e, (token, e) ∈ row.entries.entries → ∀ action ∈ e.action, P token action

namespace Row.Sound

variable {P : String → Action → Prop} {q : Nat} {row : Row} (sound : row.Sound P q)

include sound

theorem set (token : String) (item : Item) {action : Action}
    (reason : P token action) : (row.set token (some action) item).Sound P q := by
  refine ⟨sound.state, fun t e member => ?_⟩
  obtain entered | old := OrderedMap.mem_entries_insert member
  · obtain ⟨rfl, rfl⟩ := Prod.mk.inj entered
    simpa using reason
  · exact sound.actions t e old

theorem takeBack (token : String) : (row.takeBack token).Sound P q := by
  unfold Row.takeBack
  split
  · refine ⟨sound.state, fun t e member => ?_⟩
    obtain entered | old := OrderedMap.mem_entries_insert member
    · obtain ⟨rfl, rfl⟩ := Prod.mk.inj entered
      simp
    · exact sound.actions t e old
  · exact sound

theorem count (production : Nat) (n : Int) : (row.count production n).Sound P q :=
  ⟨sound.state, sound.actions⟩

theorem consider (token : String) (item : Item) (text : String) :
    (row.consider token item text).Sound P q :=
  ⟨sound.state, sound.actions⟩

theorem conflict (token : String) (shifts : Bool) : (row.conflict token shifts).Sound P q :=
  ⟨sound.state, sound.actions⟩

end Row.Sound

namespace Context

variable {cx : Context} {P : String → Action → Prop} {q : Nat} {row row' : Row}

theorem reduceOn_sound {item : Item} {token : String} (sound : row.Sound P q)
    (reason : P token (.reduce item.production)) (done : cx.reduceOn item row token = .ok row') :
    row'.Sound P q := by
  have considered := sound.consider token item
    ("reduce using rule " ++ toString item.production ++ " ("
      ++ item.text cx.automaton.productions ++ ")")
  have reducing := considered.set token item reason
  simp only [reduceOn, pure, Except.pure] at done
  split at done
  · split at done
    · cases done
      exact reducing.count _ _
    · split at done
      · cases done
        split
        · exact (reducing.conflict _ _).count _ _
        · exact reducing.count _ _
      · repeat' split at done
        all_goals cases done
        · exact considered.takeBack _
        · exact considered.conflict _ _
        · exact considered
    · cases done
      split
      · exact ⟨reducing.state, reducing.actions⟩
      · exact ⟨considered.state, considered.actions⟩
    · cases done
  · cases done
    exact reducing.count _ _

theorem shiftOn_sound {item : Item} {token : String} {target : Nat} (sound : row.Sound P q)
    (reason : P token (.shift target)) (done : cx.shiftOn item token target row = .ok row') :
    row'.Sound P q := by
  have considered := sound.consider token item ("shift and go to state " ++ toString target)
  simp only [shiftOn, pure, Except.pure] at done
  split at done
  · split at done
    · cases done
      exact considered.set token item reason
    · split at done
      · cases done
      · cases done
        exact considered
    · split at done
      · cases done
        split
        · exact ((considered.count _ _).set token item reason).conflict _ _
        · exact (considered.count _ _).set token item reason
      · repeat' split at done
        all_goals cases done
        · exact considered.takeBack _
        · exact considered.conflict _ _
        · exact considered
    · cases done
  · cases done
    exact considered.set token item reason

/-- Each item of a state enters actions for which it is a reason. -/
theorem enter_sound {item : Item} (sound : row.Sound (cx.automaton.Allows q) q)
    (held : item ∈ cx.automaton.items q) (done : cx.enter row item = .ok row') :
    row'.Sound (cx.automaton.Allows q) q := by
  unfold enter at done
  split at done
  case h_1 s next =>
    split at done
    · cases done
      exact sound
    · next terminal =>
      split at done
      · next target edge =>
        exact shiftOn_sound sound ⟨by simpa using terminal, sound.state ▸ edge⟩ done
      · cases done
        exact sound
  case h_2 complete =>
    split at done
    · next first =>
      cases done
      exact sound.set _ _ ⟨rfl, item, held, by simpa using first, complete⟩
    · next later =>
      obtain ⟨tokens, -, done⟩ := bind_eq_ok.1 done
      refine foldlM_invariant sound (fun row token row' _ sound done => ?_) done
      exact reduceOn_sound sound ⟨item, held, rfl, complete, by simpa using later⟩ done

theorem getD_push {rows : Array (List β)} (row : List β) (q : Nat) :
    (rows.push row).getD q [] = if q = rows.size then row else rows.getD q [] := by
  simp only [Array.getD_eq_getD_getElem?, Array.getElem?_push]
  split <;> rfl

/-- The work so far is sound if there is a reason for all that has been entered. -/
structure Progress.Sound (a : Automaton) (n : Nat) (progress : Progress) : Prop where
  actionsSize : progress.actions.size = n
  gotosSize : progress.gotos.size = n
  actions : ∀ q token action, (token, some action) ∈ progress.actions.getD q [] →
    a.Allows q token action
  gotos : ∀ q < n, progress.gotos.getD q []
    = (a.edges.getD q []).filter fun edge => a.grammar.isNonterminal edge.1

theorem addState_sound {n : Nat} {progress next : Progress}
    (sound : progress.Sound cx.automaton n) (done : cx.addState progress n = .ok next) :
    next.Sound cx.automaton (n + 1) := by
  obtain ⟨row, entered, done⟩ := bind_eq_ok.1 done
  have rowSound : row.Sound (cx.automaton.Allows n) n :=
    foldlM_invariant ⟨rfl, by simp⟩ (fun _ _ _ held sound => enter_sound sound held) entered
  cases done
  refine ⟨by simp [sound.actionsSize], by simp [sound.gotosSize], ?_, ?_⟩
  · intro q token action member
    rw [getD_push, sound.actionsSize] at member
    split at member
    · next last =>
      obtain ⟨⟨_, e⟩, entry, same⟩ := List.mem_map.1 member
      obtain ⟨rfl, given⟩ := Prod.mk.inj same
      exact last ▸ rowSound.actions _ e entry action given
    · exact sound.actions q token action member
  · intro q bound
    rw [getD_push, sound.gotosSize]
    split
    · next last =>
      rw [last]
      rfl
    · next other => exact sound.gotos q (by omega)

end Context

end Generate

/-- A table made of an automaton: there is a row for every state, and a reason for every entry. -/
structure Table.Made (t : Table) (a : Automaton) : Prop where
  rules : t.rules = a.productions.map (·.toRule)
  actionsSize : t.actions.size = a.states.size
  gotosSize : t.gotos.size = a.states.size
  actions : ∀ q token action, (token, some action) ∈ t.actions.getD q [] →
    a.Allows q token action
  gotos : ∀ q < a.states.size, t.gotos.getD q []
    = (a.edges.getD q []).filter fun edge => a.grammar.isNonterminal edge.1

theorem Grammar.generate_made {g : Grammar} {method : Method} {made : Generated}
    (done : g.generate method = .ok made) : made.table.Made (Automaton.ofGrammar g) := by
  obtain ⟨progress, work, done⟩ := bind_eq_ok.1 done
  have sound : progress.Sound (Automaton.ofGrammar g) (Automaton.ofGrammar g).states.size :=
    foldlM_range_invariant ⟨rfl, rfl, by simp, by simp⟩
      (fun _ _ _ sound => Generate.Context.addState_sound sound) work
  cases done
  exact ⟨rfl, sound.actionsSize, sound.gotosSize, sound.actions, sound.gotos⟩

end PerlJava.LR
