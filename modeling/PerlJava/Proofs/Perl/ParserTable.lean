import PerlJava.Compile.Parser
import PerlJava.Proofs.LR.BuiltGrammar
import PerlJava.Proofs.LR.SoundTable

/-!
# The table of the language

The table that drives the parser of the language is sound for its productions, as productions of
`Symbol`s: no two symbols are spelt alike, and none is spelt like a quoted character or a request
for a precedence.
-/

namespace PerlJava.Perl

/-- A number for each symbol, which its letters determine. -/
def Symbol.key (s : Symbol) : Nat :=
  s.text.toList.foldr (fun c n => c.toNat + 256 * n) 0

def symbolKeys : List Nat :=
  (List.range 199).map fun n => (Symbol.ofNat n).key

theorem symbolKeys_spec : symbolKeys.Nodup ∧ ∀ k ∈ symbolKeys, 65 ≤ k % 256 := by
  decide +kernel

theorem Symbol.ctorIdx_lt (s : Symbol) : s.ctorIdx < 199 := by
  cases s <;> decide

theorem Symbol.text_injective (a b : Symbol) (same : a.text = b.text) : a = b := by
  have keys (s : Symbol) : symbolKeys[s.ctorIdx]? = some s.key := by
    simp [symbolKeys, s.ctorIdx_lt, Symbol.ofNat_ctorIdx]
  have equal : a.key = b.key := by rw [key, key, same]
  have index : a.ctorIdx = b.ctorIdx := by
    refine (List.getElem?_inj (by simp [symbolKeys, a.ctorIdx_lt]) symbolKeys_spec.1).1 ?_
    rw [keys, keys, equal]
  rw [← Symbol.ofNat_ctorIdx a, index, Symbol.ofNat_ctorIdx]

/-- Every symbol starts with a letter. -/
theorem Symbol.head_text (s : Symbol) : ∃ c rest, s.text.toList = c :: rest ∧ 65 ≤ c.toNat % 256 := by
  have large : 65 ≤ s.key % 256 := by
    refine symbolKeys_spec.2 _ (List.mem_map.2 ⟨s.ctorIdx, ?_, ?_⟩)
    · simpa using s.ctorIdx_lt
    · rw [Symbol.ofNat_ctorIdx]
  rw [key] at large
  cases letters : s.text.toList with
  | nil => simp [letters] at large
  | cons c rest =>
    refine ⟨c, rest, rfl, ?_⟩
    rw [letters, List.foldr_cons] at large
    omega

theorem Symbol.literal?_text (s : Symbol) : LR.Grammar.literal? s.text = none := by
  obtain ⟨c, rest, letters, large⟩ := s.head_text
  have single : c ≠ '\'' := by
    rintro rfl
    exact absurd large (by decide)
  have double : c ≠ '"' := by
    rintro rfl
    exact absurd large (by decide)
  simp [LR.Grammar.literal?, letters, single, double]

theorem Symbol.text_ne_prec (s : Symbol) : s.text ≠ "%prec" := by
  intro same
  obtain ⟨c, rest, letters, large⟩ := s.head_text
  rw [same] at letters
  obtain ⟨rfl, -⟩ : '%' = c ∧ _ := List.cons.inj letters
  exact absurd large (by decide)

def ruleList : List (Symbol × List Symbol) :=
  (.start, [.file]) :: grammarRules.map fun (rule, _) => (rule.name, rule.symbols)

def rules : LR.Rules Symbol :=
  ruleList.toArray

theorem rules_zero : rules[0]? = some (.start, [.file]) := by
  rw [rules, List.getElem?_toArray]
  rfl

theorem check_rule {check : Symbol → List Symbol → Bool}
    (all : ruleList.all (fun rule => check rule.1 rule.2) = true) {n : Nat}
    {rule : Symbol × List Symbol} (found : rules[n]? = some rule) :
    check rule.1 rule.2 = true := by
  rw [rules, List.getElem?_toArray] at found
  exact List.all_eq_true.1 all rule (List.mem_of_getElem? found)

def Production.spelt (rule : Production) : String × List String :=
  (rule.name.text, rule.symbols.map (·.text))

theorem bareSymbols_written (rule : Production × Option Symbol) (place : LR.Place) :
    LR.WrittenRule.bareSymbols ⟨place, rule.1.name.text, writtenSymbols rule⟩
      = rule.1.symbols.map (·.text) := by
  obtain ⟨rule, _ | term⟩ := rule
  · simp [LR.WrittenRule.bareSymbols, writtenSymbols, Symbol.text_ne_prec]
  · simp [LR.WrittenRule.bareSymbols, writtenSymbols]

theorem map_writeRules (rules : List (Production × Option Symbol)) :
    (writeRules rules).map (fun rule => (rule.name, rule.bareSymbols))
      = rules.map (·.1.spelt) := by
  have zipped : rules.map (·.1.spelt) = rules.zipIdx.map (·.1.1.spelt) := by
    conv =>
      lhs
      rw [← List.zipIdx_map_fst 0 rules, List.map_map]
    rfl
  rw [zipped, writeRules, List.map_map]
  exact List.map_congr_left fun rule _ => Prod.ext rfl (bareSymbols_written rule.1 _)

theorem literal?_writtenSymbols (rule : Production × Option Symbol) :
    ∀ s ∈ writtenSymbols rule, LR.Grammar.literal? s = none := by
  intro s member
  obtain ⟨rule, _ | term⟩ := rule
  · obtain ⟨x, -, rfl⟩ := List.mem_map.1 member
    exact x.literal?_text
  · simp only [writtenSymbols, List.mem_append, List.mem_map, List.mem_cons, List.not_mem_nil,
      or_false] at member
    obtain ⟨x, -, rfl⟩ | rfl | rfl := member
    · exact x.literal?_text
    · rfl
    · exact term.literal?_text

theorem grammar_holds {g : LR.Grammar} (done : grammar = .ok g) :
    g.Holds (grammarRules.map (·.1.spelt))
      ∧ g.start = some Symbol.file.text := by
  simp only [grammar, bind_eq_ok] at done
  obtain ⟨g₀, levels, g₁, added, started⟩ := done
  have empty : g₀.own = #[] :=
    foldlM_invariant (P := fun g => g.own = #[]) rfl
      (fun _ _ _ _ empty done => foldlM_invariant (P := fun g => g.own = #[]) empty
        (fun _ _ _ _ empty done => (LR.Grammar.own_setPrecedence done).trans empty) done) levels
  have holds : g₀.Holds [] := ⟨by simp [empty], by simp [empty], by simp [empty], by simp [empty]⟩
  have plain : ∀ rule ∈ writeRules grammarRules, ∀ s ∈ rule.symbols,
      LR.Grammar.literal? s = none := by
    intro rule member
    obtain ⟨numbered, -, rfl⟩ := List.mem_map.1 member
    exact literal?_writtenSymbols numbered.1
  have added := holds.addRules plain added
  rw [map_writeRules] at added
  exact added.setStart rfl started

theorem ofProductions_eq {g : LR.Grammar} (holds : g.Holds (grammarRules.map (·.1.spelt)))
    (started : g.start = some Symbol.file.text) :
    LR.Rules.ofProductions g.productions = rules.spell (·.text) := by
  rw [holds.ofProductions started, LR.Rules.spell, rules, ruleList, List.map_toArray,
    List.map_cons, List.map_map]
  rfl

theorem isTerminal_name {g : LR.Grammar} (holds : g.Holds (grammarRules.map (·.1.spelt))) {n : Nat}
    {rule : Symbol × List Symbol} (found : rules[n + 1]? = some rule) :
    g.isTerminal rule.1.text = false := by
  rw [rules, List.getElem?_toArray, ruleList, List.getElem?_cons_succ] at found
  obtain ⟨production, listed, rfl⟩ := List.mem_map.1 (List.mem_of_getElem? found)
  have held : production.1.spelt ∈ g.own.toList.map fun p => (p.name, p.symbols) := by
    rw [holds.own]
    exact List.mem_map_of_mem listed
  obtain ⟨p, own, same⟩ := List.mem_map.1 held
  have name : p.name = production.1.name.text := congrArg (·.1) same
  rw [← name]
  exact holds.names p (by simpa using own)

theorem stateNumbers_fit : stateNumbers[0]? = some 0
    ∧ stateNumbers.size < LR.Automaton.stateLimit := by
  decide +kernel

theorem size_eq_of_numbered {t t' : LR.Table} {numbers : Array Nat}
    (done : t.renumber numbers = .ok t') : t.actions.size = numbers.size := by
  unfold LR.Table.renumber at done
  split at done
  · next all => simpa using (List.isPerm_iff.1 all).length_eq.symm
  · cases done

end PerlJava.Perl

/-- The table of a parser is one for the productions of the language. -/
abbrev PerlJava.Compile.Parser.Drives (p : PerlJava.Compile.Parser)
    (leads : List PerlJava.Perl.Symbol → Nat → Prop) : Prop :=
  p.table.Drives p.defaults (·.text) PerlJava.Perl.rules leads

namespace PerlJava.Perl

theorem drives (p : Compile.Parser) : ∃ leads, p.Drives leads := by
  obtain ⟨g, built, made⟩ := bind_eq_ok.1 p.isMade
  obtain ⟨holds, started⟩ := grammar_holds built
  have made := LR.Grammar.generate_made made
  have small : (LR.Automaton.ofGrammar g).states.size < LR.Automaton.stateLimit := by
    rw [← made.actionsSize, size_eq_of_numbered p.isNumbered]
    exact stateNumbers_fit.2
  have sound := (made.sound holds.numbered small holds.named).renumber
    (fun w q leads => made.actionsSize ▸ leads.bound)
    (made.gotosSize.trans made.actionsSize.symm) stateNumbers_fit.1 p.isNumbered
  rw [ofProductions_eq holds started] at sound
  refine ⟨_, sound.drives Symbol.text_injective (fun n rule found => ?_) p.hasDefaults⟩
  exact Bool.eq_false_iff.1 (isTerminal_name holds found)

end PerlJava.Perl
