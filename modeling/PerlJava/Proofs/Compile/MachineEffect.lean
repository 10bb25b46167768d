import PerlJava.Proofs.Perl.ParserTable

/-!
# What the moves of the parser do to the context

A reduction has the effect of the action of its production. All other moves, and the choice of a
move, are plain.
-/

namespace PerlJava.Compile

def effectOf (production : Nat) : Effect :=
  (actionTable.getD production none).elim .plain (·.effect)

def moveEffect : LR.Move Token Value → Effect
  | .reduce production => effectOf production
  | _ => .plain

theorem effectOf_eq {production : Nat} {action : Action}
    (found : actionTable.getD production none = some action) :
    effectOf production = action.effect := by
  rw [effectOf, found]
  rfl

theorem actionTable_getD [Java.Interfaces] {n : Nat} {rule : Perl.Symbol × List Perl.Symbol}
    (found : Perl.rules[n + 1]? = some rule) :
    actionTable.getD (n + 1) none = allActions.lookup ⟨rule.1, rule.2⟩ := by
  rw [Perl.rules, List.getElem?_toArray, Perl.ruleList, List.getElem?_cons_succ,
    List.getElem?_map] at found
  rw [actionTable, Array.getD_eq_getD_getElem?, List.getElem?_toArray, List.getElem?_cons_succ,
    List.getElem?_map]
  cases production : Perl.grammarRules[n]? with
  | none => simp [production] at found
  | some production =>
    rw [production, Option.map_some, Option.some.injEq] at found
    subst found
    rfl

theorem exists_succ_of_acts {n : Nat} {action : Action}
    (acts : actionTable.getD n none = some action) : ∃ k, n = k + 1 := by
  cases n with
  | zero =>
    rw [actionTable, Array.getD_eq_getD_getElem?, List.getElem?_toArray] at acts
    cases acts
  | succ n => exact ⟨n, rfl⟩

theorem lookup_of_acts {n : Nat} {rule : Perl.Symbol × List Perl.Symbol} {action : Action}
    (found : Perl.rules[n]? = some rule) (acts : actionTable.getD n none = some action) :
    allActions.lookup ⟨rule.1, rule.2⟩ = some action := by
  obtain ⟨k, rfl⟩ := exists_succ_of_acts acts
  rwa [← actionTable_getD found]

theorem check_listed {check : Effect → Perl.Symbol → List Perl.Symbol → Bool}
    (all : allActions.all (fun (rule, action) => check action.effect rule.name rule.symbols) = true)
    {rule : Perl.Production} {action : Action} (listed : allActions.lookup rule = some action) :
    check action.effect rule.name rule.symbols = true :=
  List.all_eq_true.1 all _ (OrderedMap.mem_of_lookup listed)

theorem check_action {check : Effect → Perl.Symbol → List Perl.Symbol → Bool}
    (all : allActions.all (fun (rule, action) => check action.effect rule.name rule.symbols) = true)
    {n : Nat} {rule : Perl.Symbol × List Perl.Symbol} {action : Action}
    (found : Perl.rules[n]? = some rule) (acts : actionTable.getD n none = some action) :
    check action.effect rule.1 rule.2 = true :=
  check_listed all (lookup_of_acts found acts)

section Does

variable (tracing : Option Tracing) (table : LR.Table) (defaults : Array (Option Nat))
variable (c : LR.Config Token Value)

instance {α : Type} (x : Except Fault α) : Does .plain (ofExcept x : M α) := by
  cases x <;> unfold ofExcept <;> infer_instance

instance does_reduce (r : LR.Reduction Token Value) :
    Does (effectOf r.production) (reduce actionTable r) := by
  unfold reduce effectOf
  split
  · next action found =>
    have := action.does
    rw [found]
    exact inferInstanceAs (Does action.effect _)
  · infer_instance

theorem host_reduce : (host tracing).reduce = reduce actionTable := by
  simp only [host]

def hostWith (actions : Array (Option Action)) (tracing : Option Tracing) : LR.Host M Token Value :=
  { host tracing with reduce := reduce actions }

theorem host_eq : host tracing = hostWith actionTable tracing := by
  simp only [hostWith, host]

section With

variable (actions : Array (Option Action))

theorem hostWith_logReduction :
    (hostWith actions tracing).logReduction = (host tracing).logReduction := by
  unfold hostWith
  generalize host tracing = h
  rfl

theorem hostWith_logReduced :
    (hostWith actions tracing).logReduced = (host tracing).logReduced := by
  unfold hostWith
  generalize host tracing = h
  rfl

theorem hostWith_choose :
    (hostWith actions tracing).choose table defaults = (host tracing).choose table defaults := by
  unfold hostWith
  generalize host tracing = h
  rfl

theorem hostWith_perform {move : LR.Move Token Value} (other : ∀ n, move ≠ .reduce n) :
    (hostWith actions tracing).perform table c move = (host tracing).perform table c move := by
  unfold hostWith
  generalize host tracing = h
  cases move with
  | reduce n => exact absurd rfl (other n)
  | shift | accept | fail => rfl

end With

instance (level : LR.Level) (text : Unit → String) :
    Does .plain ((host tracing).log level text) := by
  cases tracing with
  | none => exact inferInstanceAs (Does .plain (pure ()))
  | some tracing => exact inferInstanceAs (Does .plain (addTrace (tracing.line level (text ()))))

instance : Does .plain ((host tracing).fetch c) := by
  unfold LR.Host.fetch
  split
  · infer_instance
  · split
    · infer_instance
    · have : Does .plain (host tracing).next := inferInstanceAs (Does .plain nextToken)
      infer_instance

instance : Does .plain ((host tracing).choose table defaults c) := by
  unfold LR.Host.choose
  split
  · infer_instance
  · split <;> infer_instance

instance (s : LR.Symbol Token Value) : Does .plain ((host tracing).recover c s) := by
  unfold LR.Host.recover
  infer_instance

instance : LawfulMonad M :=
  inferInstanceAs (LawfulMonad (EStateM Stop State))

/-- A syntax error is reported, unless one was a short while ago, and the machine recovers. -/
theorem fail_eq (s : LR.Symbol Token Value) : (host tracing).fail c s = (do
    (host tracing).log .error fun _ => "Error  : " ++ (host tracing).showStack c
    if c.errorCount = 0 || c.errorOk then do
      reportSyntaxError (if s.kind == "$end" then none else s.token)
      (host tracing).recover { c with errorCount := LR.recoveryLength, errorOk := false } s
    else (host tracing).recover { c with errorCount := LR.recoveryLength } s) := by
  unfold LR.Host.fail
  congr
  funext _
  split
  · exact bind_assoc _ _ _
  · rfl

instance (s : LR.Symbol Token Value) : Does .plain ((host tracing).fail c s) := by
  rw [fail_eq]
  split <;> infer_instance

instance (rule : LR.Rule) (children : List (LR.Symbol Token Value)) (state : Nat) :
    Does .plain ((host tracing).logReduction table rule children state) := by
  unfold LR.Host.logReduction
  split <;> infer_instance

instance (reduced : LR.Reduced Value) : Does .plain ((host tracing).logReduced reduced) := by
  cases reduced <;> unfold LR.Host.logReduced <;> infer_instance

instance (production : Nat) :
    Does (effectOf production) ((host tracing).doReduce table c production) := by
  unfold LR.Host.doReduce
  have span (children : List (LR.Symbol Token Value)) :
      Does .plain ((host tracing).reducedSpan children) :=
    inferInstanceAs (Does .plain (pure {} : M LR.Span))
  have act (symbol : LR.Symbol Token Value) (children below : List (LR.Symbol Token Value)) :
      Does (effectOf production) ((host tracing).reduce ⟨production, symbol, children, below⟩) := by
    rw [host_reduce]
    exact does_reduce ⟨production, symbol, children, below⟩
  infer_instance

instance (move : LR.Move Token Value) :
    Does (moveEffect move) ((host tracing).perform table c move) := by
  cases move <;> unfold LR.Host.perform moveEffect <;> infer_instance

end Does

/-! ### Reductions -/

section Reduce

variable (tracing : Option Tracing) (table : LR.Table) (c : LR.Config Token Value) (production : Nat)

def childrenAt : List (LR.Symbol Token Value) :=
  ((c.frames.take (table.rules.getD production default).length).map (·.symbol)).reverse

def framesBelow : List (LR.Frame Token Value) :=
  c.frames.drop (table.rules.getD production default).length

def argsAt : Args :=
  ⟨((childrenAt table c production).map fun s =>
    (s.value.getD .nothing, s.token.elim {} (·.position))).toArray⟩

def beforeAction : M Unit :=
  (host tracing).logReduction table (table.rules.getD production default)
    (childrenAt table c production)
    (((framesBelow table c production).head?.map (·.state)).getD 0)

def afterAction (v : Value) : M (LR.Outcome Token Value) := do
  (host tracing).logReduced (.value v none)
  ofExcept (table.afterReduction c { kind := (table.rules.getD production default).name }
    (framesBelow table c production) (.value v none))

instance : Does .plain (beforeAction tracing table c production) := by
  unfold beforeAction
  infer_instance

instance (v : Value) : Does .plain (afterAction tracing table c production v) := by
  unfold afterAction
  infer_instance

variable {production}

theorem doReduce_with {actions : Array (Option Action)} {action : Action}
    (acts : actions.getD production none = some action) :
    (hostWith actions tracing).doReduce table c production = (do
      beforeAction tracing table c production
      let v ← action.run (argsAt table c production)
      afterAction tracing table c production v) := by
  have span (children : List (LR.Symbol Token Value)) :
      (hostWith actions tracing).reducedSpan children = pure {} := rfl
  have act (symbol : LR.Symbol Token Value) (below : List (LR.Symbol Token Value)) :
      reduce actions ⟨production, symbol, childrenAt table c production, below⟩
        = action.run (argsAt table c production) >>= fun v => pure (.value v none) := by
    unfold reduce
    simp only [acts]
    rfl
  have acted : (hostWith actions tracing).reduce = reduce actions := rfl
  unfold LR.Host.doReduce
  rw [acted, hostWith_logReduction, hostWith_logReduced]
  simp only [span, pure_bind]
  change (beforeAction tracing table c production >>= fun _ =>
    reduce actions ⟨production, _, childrenAt table c production, _⟩ >>= _) = _
  simp only [act, bind_assoc, pure_bind]
  rfl

theorem doReduce_eq {action : Action} (acts : actionTable.getD production none = some action) :
    (host tracing).doReduce table c production = (do
      beforeAction tracing table c production
      let v ← action.run (argsAt table c production)
      afterAction tracing table c production v) := by
  rw [host_eq]
  exact doReduce_with tracing table c acts

end Reduce

end PerlJava.Compile
