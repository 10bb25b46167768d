import PerlJava.LR.RuleText
import PerlJava.Proofs.LR.TableEntry

/-!
# What a grammar holds when it has been built

A production is added under the next number, with the symbols it was written with and without the
precedence it asked for. Terminals stay what they are, no production is named like one, and its name
is a nonterminal from then on.
-/

namespace PerlJava.LR.Grammar

variable {g g' : Grammar} {name : String} {symbols symbols' : List String} {place : Place}
variable {function : Option String}

/-- What a production that has been added is, and what it leaves as it was. -/
structure Added (g g' : Grammar) (p : Production) : Prop where
  own : g'.own = g.own.push p
  number : p.number = g.own.size + 1
  terminals (s : String) : g'.isTerminal s = g.isTerminal s
  nonterminals {s : String} : g.isNonterminal s = true → g'.isNonterminal s = true
  name : g.isTerminal p.name = false
  named : g'.isNonterminal p.name = true

theorem addLiterals_eq (plain : ∀ s ∈ symbols, literal? s = none) : g.addLiterals symbols = g := by
  unfold addLiterals
  refine List.foldlRecOn _ _ (motive := fun h => h = g) rfl fun h same s member => ?_
  rw [plain s (List.takeWhile_prefix _ |>.subset member), same]

theorem mapM_readSymbol (plain : ∀ s ∈ symbols, literal? s = none)
    (done : symbols.mapM (readSymbol name place) = .ok symbols') : symbols' = symbols := by
  have same {s s' : String} (unquoted : literal? s = none)
      (done : readSymbol name place s = .ok s') : s' = s := by
    simp only [readSymbol, unquoted] at done
    split at done <;> cases done
    rfl
  induction symbols generalizing symbols' with
  | nil =>
    cases done
    rfl
  | cons s symbols ih =>
    simp only [List.mapM_cons, bind_eq_ok] at done
    obtain ⟨s', first, rest, others, ⟨⟩⟩ := done
    rw [same (plain s List.mem_cons_self) first,
      ih (fun s member => plain s (List.mem_cons_of_mem _ member)) others]

/-- The precedence that a production asks for is taken off its end. -/
theorem choosePrecedence_spec {precedence : Precedence}
    (done : choosePrecedence g symbols place = .ok (g', symbols', precedence)) :
    (∃ used, g' = { g with usedPrecedence := used })
      ∧ (("%prec" ∉ symbols ∧ symbols' = symbols)
        ∨ ∃ term, symbols = symbols' ++ ["%prec", term]) := by
  unfold choosePrecedence at done
  split at done
  · next absent =>
    cases done
    exact ⟨⟨_, rfl⟩, .inl ⟨by simpa using absent, rfl⟩⟩
  · split at done
    · cases done
    · next term rest _ reversed =>
      split at done
      · cases done
        refine ⟨⟨_, rfl⟩, .inr ⟨term, ?_⟩⟩
        simpa using congrArg List.reverse reversed
      · cases done
    · cases done

/-- The productions stay, and symbols stay what they are. -/
structure Keeps (g h : Grammar) : Prop where
  own : h.own = g.own
  terminals (s : String) : h.isTerminal s = g.isTerminal s
  nonterminals {s : String} : g.isNonterminal s = true → h.isNonterminal s = true

theorem Keeps.refl (g : Grammar) : Keeps g g :=
  ⟨rfl, fun _ => rfl, id⟩

theorem Keeps.trans {h k : Grammar} (first : Keeps g h) (second : Keeps h k) : Keeps g k where
  own := second.own.trans first.own
  terminals s := (second.terminals s).trans (first.terminals s)
  nonterminals := second.nonterminals ∘ first.nonterminals

theorem keeps_noteUse (number : Nat) (g : Grammar) (s : String) : Keeps g (noteUse number g s) := by
  unfold noteUse
  split
  · next uses found =>
    refine ⟨rfl, fun t => ?_, id⟩
    simp only [isTerminal, OrderedMap.contains_insert]
    by_cases same : s = t
    · simp [← same, OrderedMap.contains_of_get? found]
    · simp [same]
  · refine ⟨rfl, fun _ => rfl, fun {t} held => ?_⟩
    rw [isNonterminal] at held
    simp only [isNonterminal, OrderedMap.contains_insert, held, Bool.or_true]

theorem keeps_foldl_noteUse (number : Nat) (g : Grammar) (symbols : List String) :
    Keeps g (symbols.foldl (noteUse number) g) :=
  List.foldlRecOn symbols (noteUse number) (motive := Keeps g) (.refl g)
    fun h kept s _ => kept.trans (keeps_noteUse number h s)

theorem push_spec (g : Grammar) (p : Production) :
    (g.push p).own = g.own.push p ∧ (∀ t, (g.push p).isTerminal t = g.isTerminal t)
      ∧ (∀ {t}, g.isNonterminal t = true → (g.push p).isNonterminal t = true)
      ∧ (g.push p).isNonterminal p.name = true := by
  let named := if g.isNonterminal p.name then g
    else { g with nonterminals := g.nonterminals.insert p.name [] }
  have kept : Keeps g named := by
    unfold named
    split
    · exact .refl g
    · refine ⟨rfl, fun _ => rfl, fun {t} held => ?_⟩
      rw [isNonterminal] at held
      simp only [isNonterminal, OrderedMap.contains_insert, held, Bool.or_true]
  have known : named.isNonterminal p.name = true := by
    unfold named
    split
    · next known => exact known
    · simp [isNonterminal, OrderedMap.contains_insert]
  have noted := keeps_foldl_noteUse p.number named p.symbols
  have all := kept.trans noted
  exact ⟨congrArg (·.push p) all.own, all.terminals, all.nonterminals, noted.nonterminals known⟩

theorem addProduction_spec {rule : WrittenRule} (plain : ∀ s ∈ rule.symbols, literal? s = none)
    (done : g.addProduction rule.name rule.symbols function rule.place = .ok g') :
    ∃ p, Added g g' p ∧ (p.name, p.symbols) = (rule.name, rule.bareSymbols) := by
  unfold addProduction at done
  simp only [bind_eq_ok, addLiterals_eq plain] at done
  obtain ⟨_, nameOk, read, same, ⟨h, own, precedence⟩, chosen, _, -, ⟨⟩⟩ := done
  rw [mapM_readSymbol plain same] at chosen
  obtain ⟨⟨used, rfl⟩, symbols⟩ := choosePrecedence_spec chosen
  have free : g.isTerminal rule.name = false := by
    unfold checkName at nameOk
    split at nameOk
    · cases nameOk
    · next free => simpa using free
  obtain ⟨pushed, terminals, nonterminals, named⟩ := push_spec { g with usedPrecedence := used } _
  refine ⟨_, ⟨pushed, rfl, terminals, nonterminals, free, named⟩, Prod.ext rfl ?_⟩
  obtain ⟨absent, rfl⟩ | ⟨term, asked⟩ := symbols
  · simp [WrittenRule.bareSymbols, absent]
  · simp [WrittenRule.bareSymbols, asked]

theorem own_setPrecedence {term assoc : String} {level : Nat}
    (done : g.setPrecedence term assoc level = .ok g') : g'.own = g.own := by
  unfold setPrecedence at done
  split at done
  · cases done
  · split at done <;> cases done
    rfl

/-- A grammar holds productions: they have the numbers of their places, and the names of nonterminals,
not of terminals. -/
structure Holds (g : Grammar) (rules : List (String × List String)) : Prop where
  own : g.own.toList.map (fun p => (p.name, p.symbols)) = rules
  number : ∀ (n : Nat) p, g.own[n]? = some p → p.number = n + 1
  names : ∀ p ∈ g.own, g.isTerminal p.name = false
  named : ∀ p ∈ g.own, g.isNonterminal p.name = true

namespace Holds

variable {rules : List (String × List String)} (holds : g.Holds rules)

include holds

theorem add {p : Production} (added : Added g g' p) :
    g'.Holds (rules ++ [(p.name, p.symbols)]) := by
  refine ⟨by simp [added.own, ← holds.own], fun n q found => ?_, fun q member => ?_,
    fun q member => ?_⟩
  · rw [added.own, Array.getElem?_push] at found
    split at found
    · next last =>
      cases found
      rw [added.number, last]
    · exact holds.number n q found
  · rw [added.own, Array.mem_push] at member
    rw [added.terminals]
    obtain old | rfl := member
    · exact holds.names q old
    · exact added.name
  · rw [added.own, Array.mem_push] at member
    obtain old | rfl := member
    · exact added.nonterminals (holds.named q old)
    · exact added.named

theorem addRules {written : List WrittenRule}
    (plain : ∀ rule ∈ written, ∀ s ∈ rule.symbols, literal? s = none)
    (done : g.addRules function written = .ok g') :
    g'.Holds (rules ++ written.map fun rule => (rule.name, rule.bareSymbols)) := by
  induction written generalizing g rules with
  | nil =>
    cases done
    simpa using holds
  | cons rule written ih =>
    rw [Grammar.addRules, List.foldlM_cons, bind_eq_ok] at done
    obtain ⟨h, first, rest⟩ := done
    obtain ⟨p, added, same⟩ := addProduction_spec (plain rule List.mem_cons_self) first
    simpa [same] using ih (holds.add added)
      (fun rule member => plain rule (List.mem_cons_of_mem _ member)) rest

/-- The start symbol of a grammar adds to its productions the first of all. -/
theorem setStart {start : String} (named : start.isEmpty = false)
    (done : g.setStart (some start) = .ok g') : g'.Holds rules ∧ g'.start = some start := by
  simp only [Grammar.setStart, named, Bool.false_eq_true, if_false, pure_bind] at done
  split at done
  · cases done
  · cases done
    refine ⟨⟨holds.own, holds.number, holds.names, fun p member => ?_⟩, rfl⟩
    have held := holds.named p member
    rw [isNonterminal] at held
    simp only [isNonterminal, OrderedMap.contains_insert, held, Bool.or_true]

theorem numbered : g.Numbered := by
  intro p member
  obtain ⟨n, bound, rfl⟩ := Array.mem_iff_getElem.1 member
  rw [holds.number n _ (Array.getElem?_eq_getElem bound), productions]
  simp [Array.getElem?_append, bound]

theorem ofProductions {start : String} (started : g.start = some start) :
    Rules.ofProductions g.productions = (("S'", [start]) :: rules).toArray := by
  simp [Rules.ofProductions, productions, augmented, started, ← holds.own]

end Holds

end PerlJava.LR.Grammar
