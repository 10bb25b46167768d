import PerlJava.Proofs.Compile.ScopeLevels

/-!
# The types of variables

A variable keeps the type that it was declared with, and every read of it sees that type. There is one
exception: the head of a loop over a collection gives the type of the elements to the variable of the
loop, even if a label has given it another one before. All other steps leave the types of variables
alone by their certificates, so that only this one production has to be looked at.
-/

namespace PerlJava.Compile

open Java
open Perl (Symbol rules)

def KeepsTypeOf {α : Type} (id : VarId) (x : M α) : Prop :=
  ∀ s type, s.types[id]? = some type → (endState (x s)).types[id]? = some type

namespace KeepsTypeOf

variable {α β : Type} {id : VarId}

theorem of_prefix {s s' : State} {type : Shape} (kept : s.types <+: s'.types)
    (found : s.types[id]? = some type) : s'.types[id]? = some type := by
  obtain ⟨more, same⟩ := kept
  have inside := (List.getElem?_eq_some_iff.1 found).1
  rw [← same, List.getElem?_append_left inside, found]

theorem of_keeps {x : M α} (keeps : KeepsTypes x) : KeepsTypeOf id x :=
  fun s _ found => of_prefix (keeps s) found

theorem of_plain (x : M α) [Does .plain x] : KeepsTypeOf id x :=
  of_keeps Does.discreet.types

theorem bind {x : M α} {f : α → M β} (first : KeepsTypeOf id x)
    (second : ∀ a, KeepsTypeOf id (f a)) : KeepsTypeOf id (x >>= f) := by
  intro s type found
  have kept := first s type found
  rw [M.bind_apply]
  cases run : x s with
  | error stop s₁ =>
    rw [run] at kept
    exact kept
  | ok a s₁ =>
    rw [run] at kept
    exact second a s₁ type kept

theorem lift_bind {x : Except Fault α} {f : α → M β}
    (rest : ∀ a, x = .ok a → KeepsTypeOf id (f a)) : KeepsTypeOf id (liftM x >>= f) := by
  cases x with
  | error fault => exact fun _ _ kept => kept
  | ok a => exact rest a rfl

end KeepsTypeOf

section Loop

variable {id : VarId}

theorem keepsTypeOf_retype {other : VarId} (distinct : other ≠ id) (shape : Shape) :
    KeepsTypeOf id (retype other shape) := by
  intro s type found
  change ((s.vars.modify other fun v => { v with shape }).toList.map (·.shape))[id]? = some type
  rw [State.types, List.getElem?_map, Array.getElem?_toList] at found
  rw [List.getElem?_map, Array.getElem?_toList, Array.getElem?_modify, if_neg distinct]
  exact found

theorem keepsTypeOf_foreachHead {c : Fragment} (other : c.variable_ ≠ some id) (exp : Fragment) :
    KeepsTypeOf id (foreachHead c exp) := by
  unfold foreachHead
  refine .bind (.of_plain _) fun shape? => ?_
  cases shape? with
  | none => exact .of_plain _
  | some shape =>
    cases found : c.variable_ with
    | none =>
      have refused : (liftM (targetOf c) : M VarId) = throw .noMember := by
        rw [targetOf, found]
        rfl
      rw [refused]
      exact fun _ _ kept => kept
    | some target =>
      have read : (liftM (targetOf c) : M VarId) = pure target := by
        rw [targetOf, found]
        rfl
      have distinct : target ≠ id := fun same => other (by rw [found, same])
      simp only [read, pure_bind]
      exact (keepsTypeOf_retype distinct shape).bind fun _ => .of_plain _

/-- The head of a loop over a collection with a variable. -/
def loopRule : Symbol × List Symbol :=
  (.for_each, [.FOR, .for_type, .for_variable, .LPAREN, .expression, .RPAREN])

/-- Whether a production leaves types alone, or is the head of a loop. -/
def typesFit (e : Effect) (name : Symbol) (right : List Symbol) : Bool :=
  e != .retypes || (name, right) == loopRule

theorem all_typesFit : allActions.all
    (fun (rule, action) => typesFit action.effect rule.name rule.symbols) = true := by
  decide +kernel

theorem loop_acts : ∃ action, allActions.lookup ⟨loopRule.1, loopRule.2⟩ = some action
    ∧ ∀ args, action.run args = (do
      return .code (← foreachHead (← args.code 3) (← args.code 5))) :=
  ⟨_, rfl, fun _ => rfl⟩

def HeadsLoop (frames : List (LR.Frame Token Value)) (id : VarId) : Prop :=
  (frames.take 6).map (·.symbol.kind) = loopRule.2.reverse.map (·.text)
    ∧ ∃ c, frames[3]?.bind (·.symbol.value) = some (.code c) ∧ c.variable_ = some id

end Loop

section Step

variable {p : Parser} {leads : List Symbol → Nat → Prop} {tracing : Option Tracing}
variable {w : List Symbol} {c : LR.Config Token Value} {move : LR.Move Token Value} {id : VarId}

theorem headsLoop_of_args {base : List Symbol} {production : Nat} {head : Fragment}
    (drives : p.Drives leads)
    (tracks : Tracks leads (loopRule.2.reverse ++ base) c.frames)
    (found : rules[production]? = some loopRule)
    (code : (argsAt p.table c production).code 3 = .ok head) (names : head.variable_ = some id) :
    HeadsLoop c.frames id := by
  have length : (p.table.rules.getD production default).length = 6 := drives.length found
  have kinds := tracks.kinds
  have spelt : (c.frames.take 6).map (·.symbol.kind) = loopRule.2.reverse.map (·.text) := by
    rw [List.map_take, kinds, List.map_append, List.append_assoc]
    rfl
  refine ⟨spelt, head, ?_, names⟩
  have enough : ((c.frames.take 6).map (·.symbol)).length = 6 := by
    have same := congrArg List.length spelt
    rwa [List.length_map] at same ⊢
  have third : (childrenAt p.table c production)[2]? = c.frames[3]?.map (·.symbol) := by
    rw [childrenAt, length, List.getElem?_reverse (by omega), enough, List.getElem?_map,
      List.getElem?_take_of_lt (by decide)]
  unfold Args.code Args.value argsAt at code
  simp only [Array.getD_eq_getD_getElem?, List.getElem?_toArray, List.getElem?_map] at code
  rw [third] at code
  cases top : c.frames[3]? with
  | none => simp [top] at code
  | some frame =>
    simp only [top, Option.map_some, Option.getD_some] at code
    rw [Option.bind_some]
    cases value : frame.symbol.value with
    | none => simp [value] at code
    | some v =>
      cases v <;> simp_all

/-- A move leaves the type of a variable alone unless a loop with it is on top of the stack. -/
theorem keepsTypeOf_perform (drives : p.Drives leads)
    (tracks : Tracks leads w c.frames) (chosen : Chosen leads w c move)
    (free : ¬HeadsLoop c.frames id) :
    KeepsTypeOf id ((host tracing).perform p.table c move) := by
  by_cases retypes : moveEffect move = .retypes
  · cases chosen with
    | @reduce i valid complete =>
      rw [moveEffect, effectOf] at retypes
      cases acts : actionTable.getD i.production none with
      | none =>
        rw [acts] at retypes
        cases retypes
      | some action =>
        rw [acts] at retypes
        have effect : action.effect = .retypes := retypes
        obtain ⟨rule, base, found, rfl, -⟩ := exists_rule valid complete
        obtain rfl : rule = loopRule := by
          simpa [typesFit, effect] using check_action all_typesFit found acts
        obtain ⟨loop, listed, runs⟩ := loop_acts
        obtain rfl := Option.some.inj ((lookup_of_acts found acts).symm.trans listed)
        rw [LR.Host.perform, doReduce_eq tracing p.table c acts, runs]
        refine .bind (.of_plain _) fun _ => .bind ?_ fun v => .of_plain _
        refine .lift_bind fun head code => .lift_bind fun exp _ => ?_
        have other : head.variable_ ≠ some id := fun names =>
          free (headsLoop_of_args drives tracks found code names)
        exact (keepsTypeOf_foreachHead other exp).bind fun _ => .of_plain _
    | _ => cases retypes
  · exact .of_keeps (Does.types retypes)

variable {m : Moment} {type : Shape}

theorem keepsType_choose {s : State}
    (run : (host tracing).choose p.table p.defaults m.config m.state = .ok (move, c) s)
    (found : m.state.types[id]? = some type) : s.types[id]? = some type := by
  have kept := KeepsTypeOf.of_plain ((host tracing).choose p.table p.defaults m.config) _ _ found
  rwa [run] at kept

variable (drives : p.Drives leads)

include drives

variable (leveled : LeveledAt leads w m)

include leveled

variable (free : ¬HeadsLoop m.config.frames id)

include free

/-- So does the move itself, unless a loop with the variable is on top of the stack. -/
theorem LeveledAt.keepsType {s : State}
    (run : (host tracing).choose p.table p.defaults m.config m.state = .ok (move, c) s)
    (found : m.state.types[id]? = some type) :
    (endState ((host tracing).perform p.table c move s)).types[id]? = some type := by
  have same := (choose_ok drives leveled.tracks run).1.frames
  obtain ⟨tracks, chosen, -⟩ := leveled.choose drives run
  exact keepsTypeOf_perform drives tracks chosen (same ▸ free) s type (keepsType_choose run found)

theorem LeveledAt.keepsType_moves {next : Moment} (moves : Moves tracing p m next)
    (found : m.state.types[id]? = some type) : next.state.types[id]? = some type := by
  obtain ⟨move, c, s, c', s', chosen, performed, rfl⟩ := moves
  have kept := leveled.keepsType drives free chosen found
  rwa [performed] at kept

theorem LeveledAt.keepsType_ended {result : EStateM.Result Stop State (Option Value)}
    (ended : Ended tracing p m result)
    (found : m.state.types[id]? = some type) : (endState result).types[id]? = some type := by
  cases ended with
  | exhausted => exact found
  | stopped run =>
    have kept := KeepsTypeOf.of_plain ((host tracing).choose p.table p.defaults m.config) _ _ found
    rwa [run] at kept
  | stoppedIn chosen run =>
    have kept := leveled.keepsType drives free chosen found
    rwa [run] at kept
  | done chosen run =>
    have kept := leveled.keepsType drives free chosen found
    rwa [run] at kept

end Step

def KeptSince (since : List Moment) (s s' : State) : Prop :=
  ∀ id type, s.types[id]? = some type →
    s'.types[id]? = some type ∨ ∃ m ∈ since, HeadsLoop m.config.frames id

/-- From every moment on, variables keep their types, up to the end of the work, unless loops have
them as their variables. -/
structure History.KeepsTypes {α : Type} (h : History α) : Prop where
  later {before between after : List Moment} {m m' : Moment} :
    h.moments = before ++ m :: between ++ m' :: after → KeptSince (m :: between) m.state m'.state
  finally_ {before after : List Moment} {m : Moment} :
    h.moments = before ++ m :: after → KeptSince (m :: after) m.state (endState h.result)

section Run

variable {p : Parser} {leads : List Symbol → Nat → Prop} {tracing : Option Tracing}

theorem KeptSince.snoc {since : List Moment} {s s' : State} {m : Moment}
    (kept : KeptSince since s m.state)
    (step : ∀ {id type}, ¬HeadsLoop m.config.frames id → m.state.types[id]? = some type →
      s'.types[id]? = some type) : KeptSince (since ++ [m]) s s' := by
  intro id type found
  obtain kept | ⟨a, member, heads⟩ := kept id type found
  · by_cases heads : HeadsLoop m.config.frames id
    · exact .inr ⟨m, by simp, heads⟩
    · exact .inl (step heads kept)
  · exact .inr ⟨a, by simp [member], heads⟩

/-- At a moment of a run, types have been kept since every moment up to it. -/
structure KeepsTypesAt (leads : List Symbol → Nat → Prop) (earlier : List Moment) (m : Moment) :
    Prop where
  leveled : Leveled leads m
  since {before since : List Moment} {a : Moment} : earlier = before ++ since →
    (since ++ [m]).head? = some a → KeptSince since a.state m.state

theorem KeepsTypesAt.step (drives : p.Drives leads)
    {earlier : List Moment} {m next : Moment} (keeps : KeepsTypesAt leads earlier m)
    (moves : Moves tracing p m next) : KeepsTypesAt leads (earlier ++ [m]) next := by
  obtain ⟨w, leveled⟩ := keeps.leveled
  refine ⟨keeps.leveled.step drives moves, ?_⟩
  intro before since a moments first
  obtain rfl | ⟨since, last, rfl⟩ := List.eq_nil_or_concat since
  · obtain rfl : next = a := Option.some.inj first
    exact fun _ _ found => .inl found
  · rw [List.concat_eq_append, ← List.append_assoc] at moments
    obtain ⟨rfl, same⟩ := List.append_inj' moments rfl
    obtain rfl := (List.cons.inj same).1
    rw [List.concat_eq_append] at first ⊢
    have first : (since ++ [m]).head? = some a := by
      rwa [List.head?_append, Option.or_of_isSome (by simp)] at first
    exact (keeps.since rfl first).snoc fun free found =>
      leveled.keepsType_moves drives free moves found

theorem runHistory_keepsTypes (drives : p.Drives leads) (limit : Nat)
    {m : Moment} (leveled : Leveled leads m) : (runHistory tracing p limit m).KeepsTypes := by
  have start : KeepsTypesAt leads [] m := by
    refine ⟨leveled, fun {before since a} moments first => ?_⟩
    obtain ⟨-, rfl⟩ := List.nil_eq_append_iff.1 moments
    obtain rfl : m = a := Option.some.inj first
    exact fun _ _ found => .inl found
  have keeps {before after : List Moment} {now : Moment}
      (moments : (runHistory tracing p limit m).moments = before ++ now :: after) :
      KeepsTypesAt leads before now :=
    runHistory_keeps (fun keeps => keeps.step drives) limit start moments
  constructor
  · intro before between after a now moments
    exact (keeps (by simpa using moments)).since rfl rfl
  · intro before after a moments
    obtain ⟨last, found, ended⟩ := @runHistory_ended tracing p limit m
    obtain empty | ⟨since, other, whole⟩ := List.eq_nil_or_concat (a :: after)
    · cases empty
    rw [List.concat_eq_append] at whole
    have split : (runHistory tracing p limit m).moments = (before ++ since) ++ [other] := by
      rw [moments, whole, List.append_assoc]
    obtain rfl : other = last := by simpa [split] using found
    have keeps := keeps split
    obtain ⟨w, leveled⟩ := keeps.leveled
    rw [whole]
    exact (keeps.since rfl (by rw [← whole]; rfl)).snoc fun free found =>
      leveled.keepsType_ended drives free ended found

end Run

section Declare

variable {s s' : State} {name : String} {at_ : Position} {c : Fragment}

theorem newVariable_types {v : Variable} {id : VarId} (run : (newVariable v).run s = .ok id s') :
    s'.types[id]? = some v.shape := by
  obtain ⟨_, _, ⟨⟩, run⟩ := Plain.cut run
  obtain ⟨_, _, ⟨⟩, ⟨⟩⟩ := Plain.cut run
  simp [State.types]

theorem keepsType_of_run {α : Type} {x : Plain α} {a : α} {id : VarId} {type : Shape}
    (run : x.run s = .ok a s') (found : s.types[id]? = some type) : s'.types[id]? = some type := by
  have := x.plain
  have kept := KeepsTypeOf.of_plain x.run s type found
  rwa [run] at kept

/-- A variable is declared with the type that it has. -/
theorem createVariable_types {shared : Bool}
    (run : (createVariable name at_ shared).run s = .ok c s') :
    ∃ id, c.variable_ = some id ∧ s'.types[id]? = some c.shape
      ∧ ∀ slot, c.slot = some slot → (s'.pending[slot]?).map (·.shape) = some c.shape := by
  obtain ⟨_, _, -, run⟩ := Plain.cut run
  obtain ⟨_, _, -, run⟩ := Plain.cut run
  obtain ⟨shape, _, -, run⟩ := Plain.cut run
  obtain ⟨id, s₁, made, run⟩ := Plain.cut run
  have found := newVariable_types made
  obtain ⟨_, s₂, declared, run⟩ := Plain.cut run
  have found := keepsType_of_run declared found
  split at run
  · obtain ⟨_, s₃, texted, run⟩ := Plain.cut run
    obtain ⟨_, s₄, updated, ⟨⟩⟩ := Plain.cut run
    have found := keepsType_of_run updated (keepsType_of_run texted found)
    exact ⟨id, rfl, found, nofun⟩
  · obtain ⟨slot, s₃, added, ⟨⟩⟩ := Plain.cut run
    have found := keepsType_of_run added found
    refine ⟨id, rfl, found, ?_⟩
    rintro _ ⟨⟩
    obtain ⟨_, _, ⟨⟩, run⟩ := Plain.cut added
    obtain ⟨_, _, ⟨⟩, ⟨⟩⟩ := Plain.cut run
    simp

theorem reportNoVariable_failed {package : Option Package} {u : Unit}
    (run : (reportNoVariable name at_ package).run s = .ok u s') : s'.codeError = true := by
  unfold reportNoVariable at run
  cases package with
  | some p => exact report_failed rfl run
  | none =>
    obtain ⟨_, _, ⟨⟩, run⟩ := Plain.cut run
    split at run
    · exact report_failed rfl run
    · exact report_failed rfl run

theorem readVariable_types {package : Option Package}
    (run : (readVariable name at_ package).run s = .ok c s') :
    s'.codeError = true ∨ ∃ id, c.variable_ = some id ∧ s.types[id]? = some c.shape := by
  obtain ⟨found, s₁, looked, run⟩ := Plain.cut run
  obtain rfl : s = s₁ := by
    cases package <;> cases looked <;> rfl
  cases found with
  | some id =>
    obtain ⟨_, _, ⟨⟩, run⟩ := Plain.cut run
    obtain ⟨shape, _, copied, ⟨⟩⟩ := Plain.cut run
    obtain ⟨copied, -⟩ := Plain.lift_eq_ok.1 copied
    refine .inr ⟨id, rfl, ?_⟩
    rw [State.vars_cloaked, Array.getD_eq_getD_getElem?] at copied
    rw [State.types, List.getElem?_map, Array.getElem?_toList]
    cases known : s.vars[id]? with
    | none =>
      rw [known] at copied
      cases copied
    | some v =>
      rw [known, Option.getD_some] at copied
      have same : v.shape = shape := by
        unfold Shape.copy at copied
        split at copied <;> cases copied
        rfl
      simp [same]
  | none =>
    obtain ⟨_, s₁, reported, run⟩ := Plain.cut run
    have failed := reportNoVariable_failed reported
    obtain ⟨_, s₂, entered, run⟩ := Plain.cut run
    obtain ⟨_, s₃, assigned, ⟨⟩⟩ := Plain.cut run
    obtain ⟨_, _, ⟨⟩, entered⟩ := Plain.cut entered
    obtain ⟨_, _, ⟨⟩, ⟨⟩⟩ := Plain.cut entered
    change changeAssigned _ _ = _ at assigned
    unfold changeAssigned at assigned
    split at assigned <;> cases assigned
    exact .inl failed

end Declare

/-- In the compilation of any text, a variable keeps its type from the moment that it is entered,
unless a loop over a collection has it as its variable. It is declared with the type that it is
entered with, and read with the type that it has. -/
theorem variable_types_stay (p : Parser) (session : Session) (options : Options)
    (name text : String) (limit : Nat) :
    let start := State.ofFile session options name
    (history p text limit start).KeepsTypes
      ∧ (history p text (moveLimit text) start).result = compile p text start
      ∧ (∀ {s s' : State} {x : String} {at_ : Position} {shared : Bool} {c : Fragment},
        (createVariable x at_ shared).run s = .ok c s' →
          ∃ id, c.variable_ = some id ∧ s'.types[id]? = some c.shape
            ∧ ∀ slot, c.slot = some slot → (s'.pending[slot]?).map (·.shape) = some c.shape)
      ∧ ∀ {s s' : State} {x : String} {at_ : Position} {package : Option Package} {c : Fragment},
        (readVariable x at_ package).run s = .ok c s' →
          s'.codeError = true ∨ ∃ id, c.variable_ = some id ∧ s.types[id]? = some c.shape := by
  intro start
  refine ⟨?_, history_result p text _ start, createVariable_types, readVariable_types⟩
  obtain ⟨leads, drives⟩ := Perl.drives p
  have balanced : start.context.Balanced := balanced_ofFile session options name
  rw [history]
  cases prepared : prepare start.options.tracing text start with
  | error stop s => exact ⟨by simp, by simp⟩
  | ok _ s =>
    have balanced := balanced.of_follows (Does.follows balanced prepared)
    have leveled : Leveled leads { state := s } :=
      ⟨[], .bottom rfl drives.start, balanced, .all balanced.open_⟩
    have keeps : (runHistory start.options.tracing p limit { state := s }).KeepsTypes :=
      runHistory_keepsTypes drives limit leveled
    refine ⟨keeps.later, fun moments => ?_⟩
    exact endState_classResult _ ▸ keeps.finally_ moments

/-- Outside of blocks, a variable that a label has made an integer. -/
def labelledInteger : State :=
  { (default : State) with
    vars := #[{ name := some "v", shape := .scalar .integer }]
    declared := [.ofList [("v", 0)]]
    assigned := [[]] }

/-- A loop over strings makes a variable that a label has made an integer a string, and nothing is
reported. -/
theorem loop_retypes_integer :
    let read : Fragment := { value := "v", shape := .scalar .integer, variable_ := some 0 }
    let strings : Fragment := { value := "s", shape := .ofNames [.array, .string] }
    let after := endState (foreachHead read strings labelledInteger)
    labelledInteger.types = [.scalar .integer] ∧ after.types = [.scalar .string]
      ∧ after.codeError = false ∧ after.log = "" := by
  decide

end PerlJava.Compile
