import Mathlib.Data.List.Forall2
import PerlJava.Compile.Operator
import PerlJava.Compile.Statement
import PerlJava.Proofs.Compile.EnsuredResult
import PerlJava.Proofs.Data.ExceptFold

/-!
# Assignments to several variables

Of the expressions that are assigned to several variables at once, those marked as having variables are
kept in an array before the first of them is assigned. An operator marks what it makes of marked
operands; a call of a function does not.
-/

namespace PerlJava.Compile

open Java

/-- Where an expression that is assigned is read from: an element of the array of those that were kept,
or the place it is assigned at. -/
inductive Origin where
  | slot (n : Nat)
  | inPlace

namespace Origin

def isSlot : Origin → Bool
  | slot _ => true
  | inPlace => false

/-- What is written for an expression. -/
def source (e : Fragment) : Origin → Fragment
  | slot n => { shape := e.shape, value := "pd_me[" ++ toString n ++ "]" }
  | inPlace => e

/-- The value an expression is found to have. -/
def value {ε α : Type} (eval : Fragment → ε → α) (kept : List α) (e : Fragment) (env : ε) : Origin → α
  | slot n => kept[n]?.getD (eval e env)
  | inPlace => eval e env

end Origin

/-- Variables and expressions with their origins. What is marked is kept, from an element on. -/
def withOrigins : Nat → List (Fragment × Fragment) → List (Fragment × Fragment × Origin)
  | _, [] => []
  | n, (target, e) :: pairs =>
    if e.has .variable_ then (target, e, .slot n) :: withOrigins (n + 1) pairs
    else (target, e, .inPlace) :: withOrigins n pairs

/-! ### Marks -/

/-- Code made of two operands has the marks of both. -/
theorem has_join {a b c : Fragment} (joined : a.join b = .ok c) (flag : Flag) :
    c.has flag = (a.has flag || b.has flag) := by
  unfold Fragment.join at joined
  split at joined
  · cases joined
  split at joined
  · cases joined
  cases joined
  rw [Bool.eq_iff_iff]
  simp [Fragment.has, Flag.mem_union]

/-- A call of a function has none of the marks of its arguments: it is assigned in place. -/
theorem callFunction_unmarked (name : String) (at_ : Position) (arguments : List Fragment)
    (package : Option Package) :
    Ensures (fun c => c.has .variable_ = false) (callFunction name at_ arguments package) := by
  unfold callFunction
  refine .after fun found => ?_
  split
  · refine .either (fun _ => .after fun _ => .pure rfl) fun _ => .after fun listed => ?_
    refine .either (fun _ => ?_) fun _ => ?_ <;> split <;> exact .pure rfl
  · exact .pure rfl

/-! ### Statements -/

def Tidying.version {α : Type} (optimized : Bool) (x : Tidying α) : Plain α :=
  if optimized then x.on else x.off

/-- A statement assigns an expression, by its origin, to a variable, whose declarations may stand
elsewhere. -/
def Assigns (pair : Fragment × Fragment × Origin) (c : Fragment) : Prop :=
  ∃ declares a made s s', ∃ optimized : Bool, Access.ofFragment { pair.1 with declares } = .ok a
    ∧ ((assignTo a (pair.2.2.source pair.2.1) pair.2.2.isSlot).version optimized).run s = .ok made s'
    ∧ c = { made with declares := [] }

/-- The array in which expressions are kept. -/
def keeping (exps : List Fragment) : String :=
  "\x7b\nObject[] pd_me=new Object[]\x7b"
    ++ Text.sliceTo (String.join (exps.map (·.value ++ ","))) (-1) ++ "\x7d"

section Statements

variable {α β : Type} {optimized : Bool} {s s' : State}

theorem version_bind (x : Tidying α) (f : α → Tidying β) :
    (x >>= f).version optimized = x.version optimized >>= fun a => (f a).version optimized := by
  cases optimized <;> rfl

theorem version_pure (a : α) : (pure a : Tidying α).version optimized = pure a := by
  cases optimized <;> rfl

theorem run_eq_version (x : Tidying α) (s : State) :
    x.run s = (x.version s.options.optimizeCode).run s := by
  unfold Tidying.run Tidying.version
  split <;> rfl

theorem assignPairs_assigns {front : Fragment} {n : Nat} {pairs : List (Fragment × Fragment)}
    {result : Fragment × List Fragment}
    (ran : ((assignPairs front n pairs).version optimized).run s = .ok result s') :
    List.Forall₂ Assigns (withOrigins n pairs) result.2 := by
  induction pairs generalizing front n result s with
  | nil => cases optimized <;> cases ran <;> exact .nil
  | cons pair pairs ih =>
    obtain ⟨target, e⟩ := pair
    -- What is left to do once a target has been looked at.
    have rest {front : Fragment} {declares : List DeclId} {o : Origin} {k : Nat} {s₁ : State}
        (ran : ((do
          let made ← assignTo (← Access.ofFragment { target with declares }) (o.source e) o.isSlot
          let later ← assignPairs (gatherDeclares front made).1 k pairs
          return (later.1, (gatherDeclares front made).2 :: later.2) : Tidying _).version
            optimized).run s₁ = .ok result s') :
        List.Forall₂ Assigns ((target, e, o) :: withOrigins k pairs) result.2 := by
      simp only [version_bind, version_pure] at ran
      obtain ⟨a, s₂, opened, ran⟩ := Plain.cut ran
      obtain ⟨made, s₃, assigned, ran⟩ := Plain.cut ran
      obtain ⟨later, s₄, done, ⟨⟩⟩ := Plain.cut ran
      have isAccess : Access.ofFragment { target with declares } = .ok a := by
        cases optimized <;> exact (Plain.lift_eq_ok.1 opened).1
      exact .cons ⟨declares, a, made, _, _, optimized, isAccess, assigned, rfl⟩ (ih done)
    rw [assignPairs, version_bind] at ran
    obtain ⟨_, _, -, ran⟩ := Plain.cut ran
    rw [withOrigins]
    cases kept : e.has .variable_ <;> simp only [kept, Bool.false_eq_true, if_true, if_false] at ran ⊢
    all_goals
      split at ran
      · rw [version_bind] at ran
        obtain ⟨_, _, -, ran⟩ := Plain.cut ran
        exact rest ran
      · exact rest ran

theorem clearSources_eq {front : Fragment} {sources : List Fragment} {cleared : Fragment × List Fragment}
    (run : clearSources front sources = .ok cleared) :
    cleared.2 = sources.map ({ · with declares := [] }) := by
  induction sources generalizing front cleared with
  | nil => cases run; rfl
  | cons source sources ih =>
    obtain ⟨_, -, rest⟩ := bind_eq_ok.1 run
    obtain ⟨later, done, ⟨⟩⟩ := bind_eq_ok.1 rest
    rw [List.map_cons, ← ih done]

end Statements

section Values

variable {α : Type}

/-- What variables hold once expressions have been assigned to them in their order. -/
def assigned (eval : Fragment → (String → α) → α) (kept : List α) :
    List (Fragment × Fragment × Origin) → (String → α) → String → α
  | [], env => env
  | (target, e, o) :: moves, env =>
    assigned eval kept moves (Function.update env target.value (o.value eval kept e env))

variable {eval : Fragment → (String → α) → α} {reads : Fragment → String → Prop} {kept : List α}
  {start env : String → α} {moves : List (Fragment × Fragment × Origin)}

theorem assigned_of_not_mem {x : String} (absent : x ∉ moves.map (·.1.value)) :
    assigned eval kept moves env x = env x := by
  induction moves generalizing env with
  | nil => rfl
  | cons move moves ih =>
    rw [List.map_cons, List.mem_cons, not_or] at absent
    rw [assigned, ih absent.2, Function.update_of_ne absent.1]

theorem assigned_eq_start {done : List String}
    (depends : ∀ e env env', (∀ x, reads e x → env x = env' x) → eval e env = eval e env')
    (distinct : (moves.map (·.1.value)).Nodup) (same : ∀ x ∉ done, env x = start x)
    (held : ∀ target e n, (target, e, .slot n) ∈ moves → kept[n]? = some (eval e start))
    (apart : ∀ before target e after, moves = before ++ (target, e, .inPlace) :: after →
      ∀ x ∈ done ++ before.map (·.1.value), ¬reads e x)
    {target e : Fragment} {o : Origin} (member : (target, e, o) ∈ moves) :
    assigned eval kept moves env target.value = eval e start := by
  induction moves generalizing env done with
  | nil => exact absurd member List.not_mem_nil
  | cons move moves ih =>
    obtain ⟨target', e', o'⟩ := move
    obtain ⟨absent, distinct⟩ := List.nodup_cons.1 distinct
    have found : o'.value eval kept e' env = eval e' start := by
      cases o' with
      | slot n =>
        rw [Origin.value, held target' e' n List.mem_cons_self]
        rfl
      | inPlace =>
        refine depends _ _ _ fun x read => same x fun before => ?_
        exact apart [] _ _ _ rfl x (by simpa using before) read
    rw [assigned, found]
    obtain ⟨⟨⟩⟩ | member := List.mem_cons.1 member
    · rw [assigned_of_not_mem absent, Function.update_self]
    · refine @ih _ (done ++ [target'.value]) distinct (fun x unset => ?_)
        (fun _ _ _ later => held _ _ _ (.tail _ later)) (fun before _ _ _ parts => ?_) member
      · simp only [List.mem_append, List.mem_singleton, not_or] at unset
        rw [Function.update_of_ne unset.2, same x unset.1]
      · simpa using apart ((target', e', o') :: before) _ _ _ (by rw [parts]; rfl)

theorem mem_withOrigins {n : Nat} {pairs : List (Fragment × Fragment)} {target e : Fragment}
    (member : (target, e) ∈ pairs) : ∃ o, (target, e, o) ∈ withOrigins n pairs := by
  induction pairs generalizing n with
  | nil => exact absurd member List.not_mem_nil
  | cons pair pairs ih =>
    obtain ⟨⟨⟩⟩ | member := List.mem_cons.1 member <;> rw [withOrigins]
    · split <;> exact ⟨_, .head _⟩
    · split
      all_goals
        obtain ⟨o, member⟩ := ih member
        exact ⟨o, .tail _ member⟩

/-- An expression is read from the element it was kept in. -/
theorem kept_of_slot {n k : Nat} {targets exps : List Fragment} {target e : Fragment}
    (member : (target, e, .slot k) ∈ withOrigins n (targets.zip exps)) :
    n ≤ k ∧ (exps.filter (·.has .variable_))[k - n]? = some e := by
  induction exps generalizing n targets with
  | nil => rw [List.zip_nil_right] at member; cases member
  | cons exp exps ih =>
    cases targets with
    | nil => cases member
    | cons _ targets =>
      rw [List.zip_cons_cons, withOrigins] at member
      rw [List.filter_cons]
      split at member
      case isTrue flagged =>
        rw [if_pos flagged]
        obtain ⟨⟨⟩⟩ | member := List.mem_cons.1 member
        · simp
        · obtain ⟨after, found⟩ := ih member
          refine ⟨by omega, ?_⟩
          rw [show k - n = k - (n + 1) + 1 by omega, List.getElem?_cons_succ, found]
      case isFalse flagged =>
        rw [if_neg flagged]
        obtain ⟨⟨⟩⟩ | member := List.mem_cons.1 member
        exact ih member

/-- Several expressions are assigned to variables one by one, after those that are marked have been
kept, each read from the element it was kept in. So variables that differ get the values that their
expressions had before the statement, as long as no expression that is not marked reads a variable
assigned before it. -/
theorem assigned_at_once (targets sources : List Fragment) (s s' : State) (sts : List Fragment)
    (ran : (assignMany targets sources).run s = .ok sts s') :
    ∃ front exps moves assignments, exps = sources.map ({ · with declares := [] })
      ∧ moves = withOrigins 0 (targets.zip exps) ∧ List.Forall₂ Assigns moves assignments
      ∧ sts = front :: (if (exps.filter (·.has .variable_)).isEmpty then assignments
        else rawStatement (keeping (exps.filter (·.has .variable_))) :: assignments
          ++ [rawStatement "\x7d"])
      ∧ ∀ (α : Type) (eval : Fragment → (String → α) → α) (reads : Fragment → String → Prop)
        (start : String → α),
        (∀ e env env', (∀ x, reads e x → env x = env' x) → eval e env = eval e env') →
        (moves.map (·.1.value)).Nodup →
        (∀ before target e after, moves = before ++ (target, e, .inPlace) :: after →
          ∀ x ∈ before.map (·.1.value), ¬reads e x) →
        ∀ target e, (target, e) ∈ targets.zip exps →
          assigned eval ((exps.filter (·.has .variable_)).map (eval · start)) moves start target.value
            = eval e start := by
  rw [run_eq_version, assignMany, version_bind] at ran
  obtain ⟨⟨front, exps⟩, s₁, cleared, ran⟩ := Plain.cut ran
  have isCleared : clearSources {} sources = .ok (front, exps) := by
    revert cleared
    unfold Tidying.version
    split <;> exact fun cleared => (Plain.lift_eq_ok.1 cleared).1
  simp only [version_bind] at ran
  obtain ⟨result, s₂, done, ran⟩ := Plain.cut ran
  refine ⟨result.1, exps, _, result.2, clearSources_eq isCleared, rfl, assignPairs_assigns done, ?_, ?_⟩
  · split at ran <;> rename_i isEmpty <;> rw [version_pure] at ran <;> cases ran
    · rw [if_pos isEmpty]
    · rw [if_neg isEmpty]
      rfl
  · intro α eval reads start depends distinct apart target e member
    obtain ⟨o, member⟩ := mem_withOrigins member
    refine @assigned_eq_start _ _ _ _ _ _ _ [] depends distinct (fun _ _ => rfl)
      (fun _ _ n slot => ?_) (by simpa using apart) _ _ _ member
    rw [List.getElem?_map]
    exact congrArg (Option.map (eval · start)) (kept_of_slot slot).2

end Values

/-- A class with two numbers, `v` and `w`, and a function `f` of one. -/
def twoNumbers : State :=
  { (default : State) with
    vars := #[{ name := some "v", shape := .scalar .integer },
      { name := some "w", shape := .scalar .integer }]
    functions := .ofList [("f", { arguments := [.scalar .integer], results := [.scalar .integer] })]
    declared := [.ofList [("v", 0), ("w", 1)]]
    assigned := [["v", "w"]] }

def numberCode (name : String) (id : VarId) : Fragment :=
  { value := name, shape := .scalar .integer, variable_ := some id, flags := [.variable_] }

/-- `($v, $w) = ($w, $v)` gives each variable what the other one held. -/
theorem assigned_at_once_swap : ∃ sts s',
    (assignMany [numberCode "v" 0, numberCode "w" 1] [numberCode "w" 1, numberCode "v" 0]).run twoNumbers
      = .ok sts s'
    ∧ sts.map Fragment.statement = [none, some "\x7b\nObject[] pd_me=new Object[]\x7bw,v\x7d",
      some "v = ((Integer)pd_me[0])", some "w = ((Integer)pd_me[1])", some "\x7d"]
    ∧ ∀ start : String → Nat, assigned (fun e env => env e.value) [start "w", start "v"]
      [(numberCode "v" 0, numberCode "w" 1, .slot 0), (numberCode "w" 1, numberCode "v" 0, .slot 1)]
      start "v" = start "w" := by
  refine ⟨_, _, rfl, rfl, fun start => ?_⟩
  obtain ⟨_, exps, moves, _, rfl, same, -, -, once⟩ := assigned_at_once
    [numberCode "v" 0, numberCode "w" 1] [numberCode "w" 1, numberCode "v" 0] twoNumbers _ _ rfl
  obtain rfl : moves = [(numberCode "v" 0, numberCode "w" 1, .slot 0),
    (numberCode "w" 1, numberCode "v" 0, .slot 1)] := same
  refine once Nat _ (fun e x => x = e.value) start (fun e _ _ same => same e.value rfl) (by decide)
    (fun before target e after parts => ?_) _ _ (.head _)
  have inPlace : (target, e, .inPlace) ∈ before ++ (target, e, .inPlace) :: after := by simp
  simp [← parts] at inPlace

/-- `($v, $w) = (1, f($v))` assigns to `v` first. -/
theorem call_read_after_assignment : ∃ call sts s',
    (callFunction "f" {} [numberCode "v" 0] none).run twoNumbers = .ok call twoNumbers
    ∧ (assignMany [numberCode "v" 0, numberCode "w" 1]
      [{ value := "1", shape := .scalar .integer }, call]).run twoNumbers = .ok sts s'
    ∧ sts.map Fragment.statement = [none, some "v = 1", some "w = f(v)"] :=
  ⟨_, _, _, rfl, rfl, rfl⟩

end PerlJava.Compile
