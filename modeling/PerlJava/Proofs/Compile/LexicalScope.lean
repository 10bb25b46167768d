import PerlJava.Compile.Parser
import Mathlib.Data.List.Induction

/-!
# Lexical scoping

The levels of scope are a stack of tables. What they stand for can be said without them, about what
has happened so far: a name means its latest declaration in the innermost level that is still open
and declares it, and it is assigned if some assignment of it has not been hidden by the end of a
block that declares the name. The tables of each level reflect what has happened in it; every event
keeps that.
-/

namespace PerlJava.Compile.Scoping

open Java

/-- What happens to the levels of scope. -/
inductive ScopeEvent where
  /-- A block starts. -/
  | opens
  /-- A name is declared in the innermost level. -/
  | declares (name : String) (v : Variable)
  /-- A name is assigned in the innermost level. -/
  | assigns (name : String)
  /-- The block of the innermost level ends. -/
  | closes (body : Fragment) (at_ : Position)

/-- What an event does. -/
def ScopeEvent.perform : ScopeEvent → M Unit
  | opens => pushLevel
  | declares name v => do
    let id ← newVariable v
    declare name id
  | assigns name => assign (some name)
  | closes body at_ => do
    let _ ← plainBlock body at_

def performAll : List ScopeEvent → M Unit
  | [] => pure ()
  | e :: es => do
    e.perform
    performAll es

/-! ### What has happened -/

def ScopeEvent.levels (before : Nat) : ScopeEvent → Nat
  | opens => before + 1
  | closes .. => before - 1
  | declares .. | assigns _ => before

variable (es : List ScopeEvent)

/-- How many levels are open after the first `i` of some events. -/
def depthAt (i : Nat) : Nat :=
  (es.take i).foldl ScopeEvent.levels 1

def Possible : Prop :=
  ∀ i body at_, es[i]? = some (.closes body at_) → 2 ≤ depthAt es i

/-- So many levels are open at least, from one time to another. -/
def OpenThrough (depth i j : Nat) : Prop :=
  ∀ k, i ≤ k → k ≤ j → depth ≤ depthAt es k

def Declared (name : String) (i : Nat) (v : Variable) : Prop :=
  es[i]? = some (.declares name v) ∧ OpenThrough es (depthAt es i) i es.length

/-- A declaration of a name is the latest one in the innermost level that declares it and is open in
the end. -/
def Means (name : String) (i : Nat) (v : Variable) : Prop :=
  Declared es name i v ∧ ∀ j other, Declared es name j other →
    depthAt es j < depthAt es i ∨ depthAt es j = depthAt es i ∧ j ≤ i

/-- An event closes the level which holds an earlier event by then: its own level at first, and the
level around that when it has been closed. -/
def ClosesHolder (i j : Nat) : Prop :=
  i < j ∧ (∃ body at_, es[j]? = some (.closes body at_)) ∧ OpenThrough es (depthAt es j) i j

/-- The level that is innermost at some time has declared a name by then. -/
def DeclaredBy (name : String) (j : Nat) : Prop :=
  ∃ i v, i < j ∧ es[i]? = some (.declares name v) ∧ depthAt es i = depthAt es j
    ∧ OpenThrough es (depthAt es i) i j

/-- No level that was closed while it held an assignment of a name had declared the name. -/
def Survives (name : String) (i : Nat) : Prop :=
  ∀ j, ClosesHolder es i j → ¬DeclaredBy es name j

/-! ### One more event -/

section Snoc

variable {es : List ScopeEvent} {e : ScopeEvent} {name : String} {v : Variable} {depth i j : Nat}

theorem depthAt_snoc (e : ScopeEvent) (earlier : i ≤ es.length) :
    depthAt (es ++ [e]) i = depthAt es i := by
  rw [depthAt, List.take_append_of_le_length earlier, depthAt]

theorem depthAt_snoc_end (es : List ScopeEvent) (e : ScopeEvent) :
    depthAt (es ++ [e]) (es ++ [e]).length = e.levels (depthAt es es.length) := by
  rw [depthAt, List.take_length, List.foldl_append, depthAt, List.take_length]
  rfl

theorem length_of_getElem? {x : ScopeEvent} (found : es[i]? = some x) : i < es.length :=
  (List.getElem?_eq_some_iff.1 found).1

theorem getElem?_snoc {x : ScopeEvent} :
    (es ++ [e])[i]? = some x ↔ es[i]? = some x ∨ i = es.length ∧ e = x := by
  obtain before | here | after := Nat.lt_trichotomy i es.length
  · rw [List.getElem?_append_left before]
    exact ⟨.inl, fun found => found.resolve_right fun last => Nat.ne_of_lt before last.1⟩
  · subst here
    simp
  · have beyond : (es ++ [e]).length ≤ i := by rwa [List.length_append]
    rw [List.getElem?_eq_none beyond, List.getElem?_eq_none (Nat.le_of_lt after)]
    simp [Nat.ne_of_gt after]

theorem openThrough_snoc (e : ScopeEvent) (inside : j ≤ es.length) :
    OpenThrough (es ++ [e]) depth i j ↔ OpenThrough es depth i j := by
  refine forall_congr' fun k => forall_congr' fun _ => forall_congr' fun upTo => ?_
  rw [depthAt_snoc e (Nat.le_trans upTo inside)]

theorem openThrough_snoc_end (e : ScopeEvent) (earlier : i ≤ es.length) :
    OpenThrough (es ++ [e]) depth i (es ++ [e]).length
      ↔ OpenThrough es depth i es.length ∧ depth ≤ e.levels (depthAt es es.length) := by
  have length : (es ++ [e]).length = es.length + 1 := List.length_append
  rw [← depthAt_snoc_end, length]
  constructor
  · intro through
    refine ⟨(openThrough_snoc e (Nat.le_refl _)).1 fun k after upTo => ?_, ?_⟩
    · exact through k after (Nat.le_succ_of_le upTo)
    · exact through _ (Nat.le_succ_of_le earlier) (Nat.le_refl _)
  · rintro ⟨through, last⟩ k after upTo
    obtain inside | rfl := Nat.le_succ_iff.1 upTo
    · rw [depthAt_snoc e inside]
      exact through k after inside
    · exact last

theorem OpenThrough.le_end (through : OpenThrough es depth i es.length) (earlier : i ≤ es.length) :
    depth ≤ depthAt es es.length :=
  through _ earlier (Nat.le_refl _)

theorem Declared.lt (declared : Declared es name i v) : i < es.length :=
  length_of_getElem? declared.1

theorem Declared.depth_le (declared : Declared es name i v) :
    depthAt es i ≤ depthAt es es.length :=
  declared.2.le_end (Nat.le_of_lt declared.lt)

/-- A declaration stays in an open level unless that is closed, and an event may be a new one. -/
theorem declared_snoc : Declared (es ++ [e]) name i v ↔
    Declared es name i v ∧ depthAt es i ≤ e.levels (depthAt es es.length)
      ∨ i = es.length ∧ e = .declares name v := by
  rw [Declared, getElem?_snoc, or_and_right]
  refine or_congr ?_ ?_
  · rw [Declared, and_assoc]
    refine and_congr_right fun found => ?_
    have earlier := Nat.le_of_lt (length_of_getElem? found)
    rw [depthAt_snoc e earlier, openThrough_snoc_end e earlier]
  · refine and_iff_left_of_imp ?_
    rintro ⟨rfl, rfl⟩
    rw [depthAt_snoc _ (Nat.le_refl _), openThrough_snoc_end _ (Nat.le_refl _)]
    refine ⟨fun k after upTo => ?_, Nat.le_refl _⟩
    exact Nat.le_of_eq (by rw [Nat.le_antisymm upTo after])

theorem declaredBy_snoc (inside : j ≤ es.length) :
    DeclaredBy (es ++ [e]) name j ↔ DeclaredBy es name j := by
  refine exists_congr fun i => exists_congr fun v => and_congr_right fun before => ?_
  have earlier : i < es.length := Nat.lt_of_lt_of_le before inside
  rw [List.getElem?_append_left earlier, depthAt_snoc e (Nat.le_of_lt earlier), depthAt_snoc e inside,
    openThrough_snoc e inside]

theorem declaredBy_end : DeclaredBy es name es.length ↔
    ∃ i v, Declared es name i v ∧ depthAt es i = depthAt es es.length := by
  refine exists_congr fun i => exists_congr fun v => ?_
  constructor
  · rintro ⟨-, found, same, through⟩
    exact ⟨⟨found, through⟩, same⟩
  · rintro ⟨declared, same⟩
    exact ⟨declared.lt, declared.1, same, declared.2⟩

theorem survives_snoc (earlier : i < es.length) : Survives (es ++ [e]) name i ↔
    Survives es name i ∧ ((∃ body at_, e = .closes body at_) →
      OpenThrough es (depthAt es es.length) i es.length → ¬DeclaredBy es name es.length) := by
  have holder (j : Nat) (inside : j ≤ es.length) : ClosesHolder (es ++ [e]) i j ↔
      i < j ∧ (∃ body at_, (es ++ [e])[j]? = some (.closes body at_))
        ∧ OpenThrough es (depthAt es j) i j := by
    rw [ClosesHolder, depthAt_snoc e inside, openThrough_snoc e inside]
  constructor
  · intro survives
    refine ⟨fun j ⟨after, ⟨body, at_, closes⟩, through⟩ => ?_, fun ⟨body, at_, closes⟩ through => ?_⟩
    · have inside := Nat.le_of_lt (length_of_getElem? closes)
      rw [← declaredBy_snoc inside]
      exact survives j ((holder j inside).2
        ⟨after, ⟨body, at_, getElem?_snoc.2 (.inl closes)⟩, through⟩)
    · rw [← declaredBy_snoc (Nat.le_refl _)]
      exact survives _ ((holder _ (Nat.le_refl _)).2
        ⟨earlier, ⟨body, at_, getElem?_snoc.2 (.inr ⟨rfl, closes⟩)⟩, through⟩)
  · rintro ⟨survives, last⟩ j closes
    obtain ⟨_, ⟨body, at_, found⟩, _⟩ := id closes
    obtain before | ⟨rfl, isLast⟩ := getElem?_snoc.1 found
    · have inside := Nat.le_of_lt (length_of_getElem? before)
      obtain ⟨after, -, through⟩ := (holder j inside).1 closes
      rw [declaredBy_snoc inside]
      exact survives j ⟨after, ⟨body, at_, before⟩, through⟩
    · obtain ⟨-, -, through⟩ := (holder _ (Nat.le_refl _)).1 closes
      rw [declaredBy_snoc (Nat.le_refl _)]
      exact last ⟨body, at_, isLast⟩ through

theorem survives_new : Survives (es ++ [e]) name es.length := by
  rintro j ⟨after, ⟨body, at_, found⟩, -⟩
  have inside := length_of_getElem? found
  rw [List.length_append, List.length_singleton] at inside
  omega

end Snoc

/-! ### The tables of the levels -/

/-- A level holds an event in the end: it has been open since, and none inside it has. -/
def HeldBy (depth i : Nat) : Prop :=
  OpenThrough es depth i es.length ∧ ¬OpenThrough es (depth + 1) i es.length

def LatestIn (depth : Nat) (name : String) (i : Nat) (v : Variable) : Prop :=
  (Declared es name i v ∧ depthAt es i = depth)
    ∧ ∀ j other, Declared es name j other → depthAt es j = depth → j ≤ i

/-- The tables of a level reflect what has happened: its variables are the latest declarations in it,
and the names it assigns are those of the assignments that it holds. -/
structure Reflects (es : List ScopeEvent) (vars : Array Variable) (depth : Nat) (level : Level) :
    Prop where
  found {name : String} {id : VarId} : level.declared.get? name = some id →
    ∃ i v, vars[id]? = some v ∧ LatestIn es depth name i v
  missing {name : String} : level.declared.get? name = none →
    ∀ i v, Declared es name i v → depthAt es i ≠ depth
  assigned (name : String) : some name ∈ level.assigned ↔
    ∃ i, es[i]? = some (.assigns name) ∧ Survives es name i ∧ HeldBy es depth i

/-- Something holds of all levels of two stacks, which are numbered from the outermost on. -/
inductive Levels (P : Nat → Level → Prop) :
    List (OrderedMap String VarId) → List (List (Option String)) → Prop where
  | outermost : Levels P [] []
  | inner {declared : OrderedMap String VarId} {assigned : List (Option String)}
      {outer : List (OrderedMap String VarId)} {outer' : List (List (Option String))} :
    P (outer.length + 1) { declared, assigned } → Levels P outer outer' →
    Levels P (declared :: outer) (assigned :: outer')

theorem Levels.imp {P Q : Nat → Level → Prop} {declared : List (OrderedMap String VarId)}
    {assigned : List (List (Option String))} (levels : Levels P declared assigned)
    (more : ∀ depth level, depth ≤ declared.length → P depth level → Q depth level) :
    Levels Q declared assigned := by
  induction levels with
  | outermost => exact .outermost
  | inner here _ ih =>
    refine .inner (more _ _ (Nat.le_refl _) here) (ih fun depth level inside => ?_)
    exact more depth level (Nat.le_succ_of_le inside)

section Step

variable {es : List ScopeEvent} {e : ScopeEvent} {vars : Array Variable} {name : String}
variable {v : Variable} {level : Level} {depth i : Nat}

theorem depthAt_of_declared_snoc (declared : Declared es name i v) :
    depthAt (es ++ [e]) i = depthAt es i :=
  depthAt_snoc e (Nat.le_of_lt declared.lt)

theorem declaredIn_snoc (stays : depth ≤ e.levels (depthAt es es.length))
    (other : ∀ v, e = .declares name v → depthAt es es.length ≠ depth) :
    (Declared (es ++ [e]) name i v ∧ depthAt (es ++ [e]) i = depth)
      ↔ (Declared es name i v ∧ depthAt es i = depth) := by
  rw [declared_snoc]
  constructor
  · rintro ⟨⟨old, -⟩ | ⟨rfl, new⟩, here⟩
    · exact ⟨old, depthAt_of_declared_snoc old ▸ here⟩
    · rw [depthAt_snoc e (Nat.le_refl _)] at here
      exact absurd here (other v new)
  · rintro ⟨old, rfl⟩
    exact ⟨.inl ⟨old, stays⟩, depthAt_of_declared_snoc old⟩

theorem latestIn_snoc (stays : depth ≤ e.levels (depthAt es es.length))
    (other : ∀ v, e = .declares name v → depthAt es es.length ≠ depth) :
    LatestIn (es ++ [e]) depth name i v ↔ LatestIn es depth name i v := by
  rw [LatestIn, LatestIn, declaredIn_snoc stays other]
  refine and_congr_right fun _ => forall_congr' fun j => forall_congr' fun v => ?_
  rw [← and_imp, ← and_imp, declaredIn_snoc stays other]

theorem Reflects.declared_snoc (reflects : Reflects es vars depth level)
    (stays : depth ≤ e.levels (depthAt es es.length))
    (other : ∀ name v, e = .declares name v → depthAt es es.length ≠ depth) :
    (∀ {name id}, level.declared.get? name = some id → ∃ i v,
        vars[id]? = some v ∧ LatestIn (es ++ [e]) depth name i v)
      ∧ ∀ {name}, level.declared.get? name = none → ∀ i v,
        Declared (es ++ [e]) name i v → depthAt (es ++ [e]) i ≠ depth := by
  refine ⟨fun {name id} found => ?_, fun {name} missing i v declared here => ?_⟩
  · obtain ⟨i, v, entry, latest⟩ := reflects.found found
    exact ⟨i, v, entry, (latestIn_snoc stays (other name)).2 latest⟩
  · obtain ⟨declared, here⟩ := (declaredIn_snoc stays (other name)).1 ⟨declared, here⟩
    exact reflects.missing missing i v declared here

/-- A level further out than the innermost one after an event holds what it held. -/
theorem heldBy_snoc (earlier : i ≤ es.length) (inner : depth < e.levels (depthAt es es.length)) :
    HeldBy (es ++ [e]) depth i ↔ HeldBy es depth i := by
  rw [HeldBy, openThrough_snoc_end e earlier, openThrough_snoc_end e earlier, HeldBy]
  refine and_congr (and_iff_left (Nat.le_of_lt inner)) (not_congr (and_iff_left inner))

theorem heldBy_snoc_innermost (earlier : i ≤ es.length)
    (innermost : depth = e.levels (depthAt es es.length)) :
    HeldBy (es ++ [e]) depth i ↔ OpenThrough es depth i es.length := by
  rw [HeldBy, openThrough_snoc_end e earlier, openThrough_snoc_end e earlier]
  constructor
  · exact fun holds => holds.1.1
  · exact fun through => ⟨⟨through, Nat.le_of_eq innermost⟩, fun more => by omega⟩

/-- An event that leaves the levels as they are leaves what they hold. -/
theorem heldBy_snoc_of_same (same : e.levels (depthAt es es.length) = depthAt es es.length)
    (earlier : i ≤ es.length) (inside : depth ≤ depthAt es es.length) :
    HeldBy (es ++ [e]) depth i ↔ HeldBy es depth i := by
  obtain inner | rfl := Nat.lt_or_eq_of_le inside
  · exact heldBy_snoc earlier (same.symm ▸ inner)
  · rw [heldBy_snoc_innermost earlier same.symm, HeldBy]
    refine (and_iff_left fun more => ?_).symm
    exact absurd (more.le_end earlier) (Nat.not_succ_le_self _)

theorem survives_snoc_of_open (earlier : i < es.length) (open_ : ∀ body at_, e ≠ .closes body at_) :
    Survives (es ++ [e]) name i ↔ Survives es name i := by
  rw [survives_snoc earlier]
  exact and_iff_left fun ⟨body, at_, closes⟩ => absurd closes (open_ body at_)

/-- The assignments of a name that a level holds are as before, if those that there were are, and an
event is no new one. -/
theorem assignments_snoc
    (kept : ∀ i < es.length, (Survives (es ++ [e]) name i ∧ HeldBy (es ++ [e]) depth i
      ↔ Survives es name i ∧ HeldBy es depth i))
    (new : e = .assigns name → ¬HeldBy (es ++ [e]) depth es.length) :
    (∃ i, (es ++ [e])[i]? = some (.assigns name) ∧ Survives (es ++ [e]) name i
        ∧ HeldBy (es ++ [e]) depth i)
      ↔ ∃ i, es[i]? = some (.assigns name) ∧ Survives es name i ∧ HeldBy es depth i := by
  constructor
  · rintro ⟨i, found, rest⟩
    obtain old | ⟨rfl, last⟩ := getElem?_snoc.1 found
    · exact ⟨i, old, (kept i (length_of_getElem? old)).1 rest⟩
    · exact absurd rest.2 (new last)
  · rintro ⟨i, found, rest⟩
    exact ⟨i, getElem?_snoc.2 (.inl found), (kept i (length_of_getElem? found)).2 rest⟩

/-- A level that is not the innermost one after an event, and was not the one before unless one has
been opened, is as before. -/
theorem Reflects.outer (reflects : Reflects es vars depth level)
    (after : depth < e.levels (depthAt es es.length))
    (before : e = .opens ∨ depth < depthAt es es.length) :
    Reflects (es ++ [e]) vars depth level := by
  obtain ⟨found, missing⟩ := reflects.declared_snoc (e := e) (Nat.le_of_lt after) (by
    rintro name v rfl
    exact Nat.ne_of_gt (before.resolve_left nofun))
  refine ⟨found, missing, fun name => ?_⟩
  rw [reflects.assigned, assignments_snoc]
  · intro i earlier
    rw [heldBy_snoc (Nat.le_of_lt earlier) after, survives_snoc earlier]
    refine and_congr_left fun held => and_iff_left ?_
    rintro ⟨body, at_, rfl⟩ through
    have before := before.resolve_left nofun
    exact absurd (fun k later upTo => Nat.le_trans before (through k later upTo)) held.2
  · rintro rfl held
    rw [heldBy_snoc (Nat.le_refl _) after] at held
    refine held.2 fun k later upTo => ?_
    rw [Nat.le_antisymm upTo later]
    exact before.resolve_left nofun

end Step

/-! ### What one event does -/

/-- The tables in a state reflect what has happened. -/
structure Fits (es : List ScopeEvent) (s : State) : Prop where
  depth : s.declared.length = depthAt es es.length
  some_ : s.declared ≠ []
  levels : Levels (Reflects es s.vars) s.declared s.assigned

section Events

variable {es : List ScopeEvent} {s : State} {vars : Array Variable} {level : Level} {name : String}

theorem fits_opens (fits : Fits es s) :
    ∃ s', ScopeEvent.opens.perform s = .ok () s' ∧ Fits (es ++ [.opens]) s' := by
  refine ⟨_, rfl, ?_, List.cons_ne_nil _ _,
    .inner ?_ (fits.levels.imp fun depth level inside reflects => ?_)⟩
  · rw [depthAt_snoc_end, ← fits.depth]
    rfl
  · refine ⟨fun none => (by cases none), fun _ i v declared => ?_,
      fun name => ⟨fun none => absurd none List.not_mem_nil, fun ⟨i, found, _, held⟩ => ?_⟩⟩
    · obtain ⟨old, -⟩ | ⟨-, ⟨⟩⟩ := declared_snoc.1 declared
      have bound := old.depth_le
      rw [depthAt_of_declared_snoc old, fits.depth]
      omega
    · obtain old | ⟨-, ⟨⟩⟩ := getElem?_snoc.1 found
      have earlier := Nat.le_of_lt (length_of_getElem? old)
      have through := (heldBy_snoc_innermost (e := .opens) earlier rfl).1 (fits.depth ▸ held)
      exact absurd (through.le_end earlier) (Nat.not_succ_le_self _)
  · exact reflects.outer (Nat.lt_succ_of_le (fits.depth ▸ inside)) (.inl rfl)

theorem getElem?_push {id : VarId} {v w : Variable} (entry : vars[id]? = some v) :
    (vars.push w)[id]? = some v := by
  obtain ⟨inside, rfl⟩ := Array.getElem?_eq_some_iff.1 entry
  exact Array.getElem?_push_lt inside

theorem Reflects.declares {v : Variable} (reflects : Reflects es vars (depthAt es es.length) level) :
    Reflects (es ++ [.declares name v]) (vars.push v)
      (depthAt es es.length)
      { level with declared := level.declared.insert name vars.size } := by
  have new : Declared (es ++ [.declares name v]) name es.length v :=
    Scoping.declared_snoc.2 (.inr ⟨rfl, rfl⟩)
  have here : depthAt (es ++ [.declares name v]) es.length = depthAt es es.length :=
    depthAt_snoc _ (Nat.le_refl _)
  have others {x : String} (other : x ≠ name) (y : Variable)
      (same : ScopeEvent.declares name v = .declares x y) :
      depthAt es es.length ≠ depthAt es es.length :=
    absurd (ScopeEvent.declares.inj same).1.symm other
  refine ⟨fun {x id} found => ?_, fun {x} missing i y declared same => ?_, fun x => ?_⟩
  · by_cases isNew : x = name
    · subst isNew
      cases (OrderedMap.get?_insert_self _ _ _).symm.trans found
      refine ⟨es.length, v, Array.getElem?_push_size, ⟨new, here⟩, fun j y declared _ => ?_⟩
      have bound := declared.lt
      rw [List.length_append, List.length_singleton] at bound
      exact Nat.le_of_lt_succ bound
    · rw [OrderedMap.get?_insert_of_ne _ _ isNew] at found
      obtain ⟨i, y, entry, latest⟩ := reflects.found found
      refine ⟨i, y, ?_, (latestIn_snoc (Nat.le_refl _) (others isNew)).2 latest⟩
      exact getElem?_push entry
  · by_cases isNew : x = name
    · subst isNew
      cases (OrderedMap.get?_insert_self _ _ _).symm.trans missing
    · rw [OrderedMap.get?_insert_of_ne _ _ isNew] at missing
      obtain ⟨declared, same⟩ := (declaredIn_snoc (Nat.le_refl _) (others isNew)).1 ⟨declared, same⟩
      exact reflects.missing missing i y declared same
  · rw [reflects.assigned, assignments_snoc]
    · intro i earlier
      rw [heldBy_snoc_of_same rfl (Nat.le_of_lt earlier) (Nat.le_refl _),
        survives_snoc_of_open earlier fun _ _ => ScopeEvent.noConfusion]
    · exact ScopeEvent.noConfusion

theorem Reflects.push {depth : Nat} (reflects : Reflects es vars depth level) (v : Variable) :
    Reflects es (vars.push v) depth level := by
  refine ⟨fun found => ?_, reflects.missing, reflects.assigned⟩
  obtain ⟨i, v, entry, latest⟩ := reflects.found found
  exact ⟨i, v, getElem?_push entry, latest⟩

/-- The innermost level, which there is, and those around it. -/
theorem Fits.innermost (fits : Fits es s) :
    ∃ declared outer assigned outer', s.declared = declared :: outer ∧ s.assigned = assigned :: outer'
      ∧ outer.length + 1 = depthAt es es.length
      ∧ Reflects es s.vars (depthAt es es.length) { declared, assigned }
      ∧ Levels (Reflects es s.vars) outer outer' := by
  obtain ⟨depth, some_, levels⟩ := fits
  generalize stack : s.declared = all, s.assigned = all' at levels
  cases levels with
  | outermost => exact absurd stack some_
  | @inner declared assigned outer outer' here around =>
    rw [stack, List.length_cons] at depth
    exact ⟨declared, outer, assigned, outer', rfl, rfl, depth, depth ▸ here, around⟩

theorem fits_declares {v : Variable} (fits : Fits es s) :
    ∃ s', (ScopeEvent.declares name v).perform s = .ok () s'
      ∧ Fits (es ++ [.declares name v]) s' := by
  obtain ⟨declared, outer, assigned, outer', stack, stack', depth, here, around⟩ := fits.innermost
  refine ⟨{ s with
    vars := s.vars.push v
    declared := declared.insert name s.vars.size :: outer }, ?_, ?_, List.cons_ne_nil _ _, ?_⟩
  · refine M.bind_eq_ok.2 ⟨s.vars.size, _, rfl, ?_⟩
    change changeDeclared _ _ = _
    rw [changeDeclared, stack]
  · rw [depthAt_snoc_end]
    exact depth
  · rw [stack']
    refine .inner (depth ▸ here.declares) (around.imp fun n level inside reflects => ?_)
    exact (reflects.push _).outer (depth ▸ Nat.lt_succ_of_le inside)
      (.inr (depth ▸ Nat.lt_succ_of_le inside))

theorem mem_addName {x y : Option String} {names : List (Option String)} :
    x ∈ addName y names ↔ x = y ∨ x ∈ names := by
  unfold addName
  split
  · next known =>
    rw [or_iff_right_of_imp]
    rintro rfl
    exact List.contains_iff_mem.1 known
  · rw [List.mem_append, List.mem_singleton, or_comm]

theorem mem_addNames {x : Option String} {more names : List (Option String)} :
    x ∈ addNames more names ↔ x ∈ more ∨ x ∈ names := by
  induction more generalizing names with
  | nil => simp [addNames]
  | cons y more ih =>
    rw [addNames, List.foldl_cons, ← addNames, ih, mem_addName, List.mem_cons, or_left_comm, or_assoc]

theorem Reflects.assigns (reflects : Reflects es vars (depthAt es es.length) level) :
    Reflects (es ++ [.assigns name]) vars (depthAt es es.length)
      { level with assigned := addName (some name) level.assigned } := by
  obtain ⟨found, missing⟩ := reflects.declared_snoc (e := .assigns name) (Nat.le_refl _)
    fun _ _ => ScopeEvent.noConfusion
  refine ⟨found, missing, fun x => ?_⟩
  rw [mem_addName, reflects.assigned, Option.some_inj]
  have kept (i : Nat) (earlier : i < es.length) :
      Survives (es ++ [.assigns name]) x i ∧ HeldBy (es ++ [.assigns name]) (depthAt es es.length) i
        ↔ Survives es x i ∧ HeldBy es (depthAt es es.length) i := by
    rw [heldBy_snoc_of_same rfl (Nat.le_of_lt earlier) (Nat.le_refl _),
      survives_snoc_of_open earlier fun _ _ => ScopeEvent.noConfusion]
  by_cases isNew : x = name
  · subst isNew
    refine iff_of_true (.inl rfl) ⟨es.length, getElem?_snoc.2 (.inr ⟨rfl, rfl⟩), survives_new, ?_⟩
    refine (heldBy_snoc_innermost (Nat.le_refl _) rfl).2 fun k later upTo => ?_
    exact Nat.le_of_eq (by rw [Nat.le_antisymm upTo later]; rfl)
  · rw [or_iff_right isNew, assignments_snoc kept]
    exact fun same => absurd (ScopeEvent.assigns.inj same).symm isNew

theorem fits_assigns (fits : Fits es s) :
    ∃ s', (ScopeEvent.assigns name).perform s = .ok () s' ∧ Fits (es ++ [.assigns name]) s' := by
  obtain ⟨declared, outer, assigned, outer', stack, stack', depth, here, around⟩ := fits.innermost
  refine ⟨{ s with assigned := addName (some name) assigned :: outer' }, ?_, ?_, fits.some_, ?_⟩
  · change changeAssigned _ _ = _
    rw [changeAssigned, stack']
  · rw [depthAt_snoc_end]
    exact fits.depth
  · rw [stack]
    refine .inner (depth ▸ here.assigns) (around.imp fun n level inside reflects => ?_)
    exact reflects.outer (depth ▸ Nat.lt_succ_of_le inside) (.inr (depth ▸ Nat.lt_succ_of_le inside))

/-- The table of the innermost level knows which names that has declared. -/
theorem Reflects.contains_iff (reflects : Reflects es vars (depthAt es es.length) level) :
    level.declared.contains name = true ↔ DeclaredBy es name es.length := by
  rw [declaredBy_end]
  constructor
  · intro held
    obtain ⟨id, found⟩ := Option.isSome_iff_exists.1 (OrderedMap.isSome_get?_of_contains held)
    obtain ⟨i, v, -, here, -⟩ := reflects.found found
    exact ⟨i, v, here⟩
  · rintro ⟨i, v, declared, here⟩
    cases found : level.declared.get? name with
    | none => exact absurd here (reflects.missing found i v declared)
    | some id => exact OrderedMap.contains_of_get? found

theorem mem_passedOn : some name ∈ level.passedOn
    ↔ some name ∈ level.assigned ∧ ¬level.declared.contains name = true := by
  simp [Level.passedOn]

/-- The tables of the level around a block when that ends. -/
theorem Reflects.closes {declared : OrderedMap String VarId} {assigned : List (Option String)}
    {depth : Nat} (body : Fragment) (at_ : Position) (innermost : depthAt es es.length = depth + 1)
    (inner : Reflects es vars (depth + 1) level)
    (around : Reflects es vars depth { declared, assigned }) :
    Reflects (es ++ [.closes body at_]) vars depth
      { declared, assigned := addNames level.passedOn assigned } := by
  have after : (ScopeEvent.closes body at_).levels (depthAt es es.length) = depth := by
    rw [innermost]
    rfl
  obtain ⟨found, missing⟩ := around.declared_snoc (e := .closes body at_) (Nat.le_of_eq after.symm)
    fun _ _ => ScopeEvent.noConfusion
  refine ⟨found, missing, fun name => ?_⟩
  have undeclared : level.declared.contains name = true ↔ DeclaredBy es name es.length :=
    (innermost ▸ inner).contains_iff
  rw [mem_addNames, mem_passedOn, inner.assigned, around.assigned, undeclared]
  have new (i : Nat) (old : es[i]? = some (.assigns name)) :
      Survives (es ++ [.closes body at_]) name i ∧ HeldBy (es ++ [.closes body at_]) depth i
        ↔ Survives es name i ∧ OpenThrough es depth i es.length
          ∧ (OpenThrough es (depth + 1) i es.length → ¬DeclaredBy es name es.length) := by
    have earlier := length_of_getElem? old
    rw [survives_snoc earlier, heldBy_snoc_innermost (Nat.le_of_lt earlier) after.symm, innermost,
      and_assoc, and_comm (b := OpenThrough es depth i es.length)]
    refine and_congr_right fun _ => and_congr_right fun _ => ?_
    exact ⟨fun visible => visible ⟨body, at_, rfl⟩, fun visible _ => visible⟩
  constructor
  · rintro (⟨⟨i, old, survives, held⟩, visible⟩ | ⟨i, old, survives, held⟩)
    · refine ⟨i, getElem?_snoc.2 (.inl old), (new i old).2 ⟨survives, ?_, fun _ => visible⟩⟩
      exact fun k later upTo => Nat.le_of_succ_le (held.1 k later upTo)
    · refine ⟨i, getElem?_snoc.2 (.inl old), (new i old).2 ⟨survives, held.1, fun more => ?_⟩⟩
      exact absurd more held.2
  · rintro ⟨i, found, rest⟩
    obtain old | ⟨-, last⟩ := getElem?_snoc.1 found
    · obtain ⟨survives, through, visible⟩ := (new i old).1 rest
      by_cases more : OpenThrough es (depth + 1) i es.length
      · refine .inl ⟨⟨i, old, survives, more, fun deeper => ?_⟩, visible more⟩
        have bound := deeper.le_end (Nat.le_of_lt (length_of_getElem? old))
        omega
      · exact .inr ⟨i, old, survives, through, more⟩
    · exact ScopeEvent.noConfusion last

theorem fits_closes {body : Fragment} {at_ : Position} (fits : Fits es s)
    (inside : 2 ≤ depthAt es es.length) :
    ∃ s', (ScopeEvent.closes body at_).perform s = .ok () s'
      ∧ Fits (es ++ [.closes body at_]) s' := by
  obtain ⟨declared, outer, assigned, outer', stack, stack', depth, here, levels⟩ := fits.innermost
  cases levels with
  | outermost =>
    rw [List.length_nil] at depth
    omega
  | @inner declared₁ assigned₁ outer outer' around levels =>
  rw [List.length_cons] at depth
  have after : (ScopeEvent.closes body at_).levels (depthAt es es.length) = outer.length + 1 := by
    rw [← depth]
    rfl
  refine ⟨{ s with
    declared := declared₁ :: outer
    assigned := addNames (Level.passedOn { declared, assigned }) assigned₁ :: outer' }, ?_, ?_,
    List.cons_ne_nil _ _, ?_⟩
  · simp [ScopeEvent.perform, plainBlock, mergeLevel, M.bind_eq_ok, readLevel, changeAssigned,
      popDeclared, popAssigned, stack, stack', and_assoc]
  · rw [depthAt_snoc_end, after]
    rfl
  · refine .inner (.closes body at_ depth.symm (depth ▸ here) around)
      (levels.imp fun n level inside reflects => reflects.outer ?_ (.inr ?_))
    · exact after ▸ Nat.lt_succ_of_le inside
    · omega

end Events

/-! ### Whole runs -/

section Run

variable {es earlier : List ScopeEvent} {s : State} {vars : Array Variable} {name : String}
variable {declared : List (OrderedMap String VarId)} {assigned : List (List (Option String))}

theorem Possible.of_prefix (possible : Possible es) (part : earlier <+: es) : Possible earlier := by
  obtain ⟨rest, rfl⟩ := part
  intro i body at_ found
  have before := length_of_getElem? found
  have bound := possible i body at_ (by rwa [List.getElem?_append_left before])
  rwa [depthAt, List.take_append_of_le_length (Nat.le_of_lt before)] at bound

theorem performAll_snoc {e : ScopeEvent} {s s₁ s₂ : State} (ran : performAll es s = .ok () s₁)
    (last : e.perform s₁ = .ok () s₂) : performAll (es ++ [e]) s = .ok () s₂ := by
  induction es generalizing s with
  | nil =>
    cases ran
    exact M.bind_eq_ok.2 ⟨(), s₂, last, rfl⟩
  | cons first es ih =>
    obtain ⟨_, s', started, rest⟩ := M.cut ran
    exact M.bind_eq_ok.2 ⟨(), s', started, ih rest⟩

theorem fits_snoc {e : ScopeEvent} (fits : Fits es s) (possible : Possible (es ++ [e])) :
    ∃ s', e.perform s = .ok () s' ∧ Fits (es ++ [e]) s' := by
  cases e with
  | opens => exact fits_opens fits
  | declares name v => exact fits_declares fits
  | assigns name => exact fits_assigns fits
  | closes body at_ =>
    have bound := possible es.length body at_ (getElem?_snoc.2 (.inr ⟨rfl, rfl⟩))
    exact fits_closes fits (depthAt_snoc _ (Nat.le_refl _) ▸ bound)

theorem fits_start (session : Session) (options : Options) (file : String) :
    Fits [] (State.ofFile session options file) := by
  refine ⟨rfl, List.cons_ne_nil _ _, .inner ⟨fun none => (by cases none), fun _ i v declared => ?_,
    fun name => ⟨fun none => absurd none List.not_mem_nil, fun ⟨i, found, _⟩ => ?_⟩⟩ .outermost⟩
  · cases declared.1
  · cases found

theorem performAll_fits (session : Session) (options : Options) (file : String)
    (possible : Possible es) :
    ∃ s, performAll es (State.ofFile session options file) = .ok () s ∧ Fits es s := by
  induction es using List.reverseRecOn with
  | nil => exact ⟨_, rfl, fits_start session options file⟩
  | append_singleton es e ih =>
    obtain ⟨s, ran, fits⟩ := ih (possible.of_prefix (List.prefix_append _ _))
    obtain ⟨s', last, fits'⟩ := fits_snoc fits possible
    exact ⟨s', performAll_snoc ran last, fits'⟩

/-- Some level is always open. -/
theorem Possible.depthAt_pos (possible : Possible es) (i : Nat) : 1 ≤ depthAt es i := by
  induction i with
  | zero => exact Nat.le_refl _
  | succ i ih =>
    rw [depthAt, List.take_add_one, List.foldl_append, ← depthAt]
    cases found : es[i]? with
    | none => exact ih
    | some e =>
      cases e with
      | opens => exact Nat.le_add_left _ _
      | declares | assigns => exact ih
      | closes body at_ => exact Nat.le_sub_of_add_le (possible i body at_ found)

theorem Levels.lookup_found {id : VarId} (levels : Levels (Reflects es vars) declared assigned)
    (found : lookupIn declared name = some id) :
    ∃ i v, vars[id]? = some v ∧ (Declared es name i v ∧ depthAt es i ≤ declared.length)
      ∧ ∀ j w, Declared es name j w → depthAt es j ≤ declared.length →
        depthAt es j < depthAt es i ∨ depthAt es j = depthAt es i ∧ j ≤ i := by
  induction levels with
  | outermost => cases found
  | @inner level _ outer _ here _ ih =>
    rw [lookupIn, List.findSome?_cons] at found
    cases inner : level.get? name with
    | some id' =>
      rw [inner] at found
      cases found
      obtain ⟨i, v, entry, ⟨declared, depth⟩, latest⟩ := here.found inner
      refine ⟨i, v, entry, ⟨declared, Nat.le_of_eq depth⟩, fun j w other inside => ?_⟩
      obtain outer | same := Nat.lt_or_eq_of_le inside
      · exact .inl (depth ▸ outer)
      · exact .inr ⟨same.trans depth.symm, latest j w other same⟩
    | none =>
      rw [inner] at found
      obtain ⟨i, v, entry, ⟨declared, depth⟩, latest⟩ := ih found
      refine ⟨i, v, entry, ⟨declared, Nat.le_succ_of_le depth⟩, fun j w other inside => ?_⟩
      have outside := Nat.lt_of_le_of_ne inside (here.missing inner j w other)
      exact latest j w other (Nat.le_of_lt_succ outside)

theorem Levels.lookup_missing (levels : Levels (Reflects es vars) declared assigned)
    (missing : lookupIn declared name = none) {i : Nat} {v : Variable} (is : Declared es name i v)
    (inside : depthAt es i ≤ declared.length) : depthAt es i = 0 := by
  induction levels with
  | outermost => exact Nat.le_zero.1 inside
  | @inner level _ outer _ here _ ih =>
    rw [lookupIn, List.findSome?_cons] at missing
    cases inner : level.get? name with
    | some id =>
      rw [inner] at missing
      cases missing
    | none =>
      rw [inner] at missing
      have outside := Nat.lt_of_le_of_ne inside (here.missing inner i v is)
      exact ih missing (Nat.le_of_lt_succ outside)

theorem Levels.of_mem {P : Nat → Level → Prop} (levels : Levels P declared assigned)
    {names : List (Option String)} (member : names ∈ assigned) :
    ∃ depth level, level.assigned = names ∧ P depth level := by
  induction levels with
  | outermost => cases member
  | inner here _ ih =>
    obtain rfl | member := List.mem_cons.1 member
    · exact ⟨_, _, rfl, here⟩
    · exact ih member

theorem Levels.exists_at {P : Nat → Level → Prop} (levels : Levels P declared assigned) {depth : Nat}
    (pos : 1 ≤ depth) (inside : depth ≤ declared.length) :
    ∃ level, level.assigned ∈ assigned ∧ P depth level := by
  induction levels with
  | outermost => exact absurd (Nat.le_trans pos inside) (Nat.not_succ_le_zero 0)
  | inner here _ ih =>
    obtain outer | rfl := Nat.le_succ_iff.1 inside
    · obtain ⟨level, member, is⟩ := ih outer
      exact ⟨level, List.mem_cons_of_mem _ member, is⟩
    · exact ⟨_, List.mem_cons_self, here⟩

theorem Possible.exists_heldBy (possible : Possible es) {i : Nat} (earlier : i ≤ es.length) :
    ∃ depth, 1 ≤ depth ∧ depth ≤ depthAt es es.length ∧ HeldBy es depth i := by
  -- Either a level up to the `n`-th one holds the event, or that many levels and one more do.
  have search (n : Nat) : (∃ depth, 1 ≤ depth ∧ depth ≤ n ∧ HeldBy es depth i)
      ∨ OpenThrough es (n + 1) i es.length := by
    induction n with
    | zero => exact .inr fun k _ _ => possible.depthAt_pos k
    | succ n ih =>
      obtain ⟨depth, pos, inside, held⟩ | through := ih
      · exact .inl ⟨depth, pos, Nat.le_succ_of_le inside, held⟩
      · by_cases more : OpenThrough es (n + 2) i es.length
        · exact .inr more
        · exact .inl ⟨n + 1, Nat.le_add_left _ _, Nat.le_refl _, through, more⟩
  refine (search _).resolve_right fun through => ?_
  exact absurd (through.le_end earlier) (Nat.not_succ_le_self _)

/-- The tables answer as what has happened says. -/
theorem Fits.lookup_eq_none_iff (fits : Fits es s) (possible : Possible es) :
    lookupIn s.declared name = none ↔ ∀ i v, ¬Declared es name i v := by
  constructor
  · intro missing i v declared
    have depth := fits.levels.lookup_missing missing declared (fits.depth ▸ declared.depth_le)
    exact absurd (possible.depthAt_pos i) (by rw [depth]; exact Nat.not_succ_le_zero 0)
  · intro none
    cases found : lookupIn s.declared name with
    | none => rfl
    | some id =>
      obtain ⟨i, v, -, ⟨declared, -⟩, -⟩ := fits.levels.lookup_found found
      exact absurd declared (none i v)

theorem Fits.means_of_lookup {id : VarId} (fits : Fits es s)
    (found : lookupIn s.declared name = some id) :
    ∃ i v, Means es name i v ∧ s.vars[id]? = some v := by
  obtain ⟨i, v, entry, ⟨declared, -⟩, latest⟩ := fits.levels.lookup_found found
  exact ⟨i, v, ⟨declared, fun j w other => latest j w other (fits.depth ▸ other.depth_le)⟩, entry⟩

theorem Fits.isAssignedIn_iff (fits : Fits es s) (possible : Possible es) :
    isAssignedIn s.assigned (some name) true = true
      ↔ ∃ i, es[i]? = some (.assigns name) ∧ Survives es name i := by
  rw [isAssignedIn, if_pos (by rw [Bool.or_true]), List.any_eq_true]
  constructor
  · rintro ⟨names, member, held⟩
    obtain ⟨depth, level, rfl, reflects⟩ := fits.levels.of_mem member
    obtain ⟨i, found, survives, -⟩ := (reflects.assigned name).1 (List.contains_iff_mem.1 held)
    exact ⟨i, found, survives⟩
  · rintro ⟨i, found, survives⟩
    obtain ⟨depth, pos, inside, held⟩ :=
      possible.exists_heldBy (Nat.le_of_lt (length_of_getElem? found))
    obtain ⟨level, member, reflects⟩ := fits.levels.exists_at pos (fits.depth ▸ inside)
    exact ⟨_, member, List.contains_iff_mem.2 ((reflects.assigned name).2 ⟨i, found, survives, held⟩)⟩

end Run

/-- After every part of what happens in a file, a name is looked up as its latest declaration in the
innermost open level that declares it, and is not found if there is none; and it counts as assigned
if and only if an assignment of it has not been hidden. -/
theorem names_scope_lexically (session : Session) (options : Options) (file : String)
    {es earlier : List ScopeEvent} (possible : Possible es) (part : earlier <+: es) :
    ∃ s, performAll earlier (State.ofFile session options file) = .ok () s ∧ ∀ name,
      (∀ id, lookupIn s.declared name = some id →
          ∃ i v, Means earlier name i v ∧ s.vars[id]? = some v)
        ∧ (lookupIn s.declared name = none ↔ ∀ i v, ¬Declared earlier name i v)
        ∧ (isAssignedIn s.assigned (some name) true = true
          ↔ ∃ i, earlier[i]? = some (.assigns name) ∧ Survives earlier name i) := by
  have possible := possible.of_prefix part
  obtain ⟨s, ran, fits⟩ := performAll_fits session options file possible
  exact ⟨s, ran, fun name => ⟨fun id found => fits.means_of_lookup found,
    fits.lookup_eq_none_iff possible, fits.isAssignedIn_iff possible⟩⟩

/-- A block hides a variable, assigns it and another one, and ends. -/
def shadowing : List ScopeEvent :=
  [.declares "x" { shape := .scalar .integer }, .opens, .declares "x" { shape := .scalar .string },
    .assigns "x", .assigns "y", .closes {} {}]

theorem possible_shadowing : Possible shadowing := by
  intro i body at_ found
  match i with
  | 0 | 1 | 2 | 3 | 4 => exact absurd found (by simp [shadowing])
  | 5 => decide
  | _ + 6 => exact absurd found (by simp [shadowing])

theorem names_scope_lexically_shadowing : Possible shadowing ∧ shadowing.take 5 <+: shadowing
    ∧ ∃ s, performAll (shadowing.take 5) (State.ofFile {} {} "Main.pl") = .ok () s ∧ ∀ name,
      (∀ id, lookupIn s.declared name = some id →
          ∃ i v, Means (shadowing.take 5) name i v ∧ s.vars[id]? = some v)
        ∧ (lookupIn s.declared name = none ↔ ∀ i v, ¬Declared (shadowing.take 5) name i v)
        ∧ (isAssignedIn s.assigned (some name) true = true
          ↔ ∃ i, (shadowing.take 5)[i]? = some (.assigns name) ∧ Survives (shadowing.take 5) name i) :=
  ⟨possible_shadowing, List.take_prefix _ _,
    names_scope_lexically {} {} "Main.pl" possible_shadowing (List.take_prefix _ _)⟩

end PerlJava.Compile.Scoping
