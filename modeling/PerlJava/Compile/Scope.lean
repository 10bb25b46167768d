import PerlJava.Compile.Report

/-!
# Scopes, variables and names

Blocks nest, and each open block has a level that holds the variables it declares and those it
assigns. A variable is looked up from the innermost level outwards.
-/

namespace PerlJava.Compile

open Java

/-! ### Names -/

/-- Names that no program may declare: special variables, names used by generated code, and the
reserved words of Java. -/
def reservedNames : List String :=
  ["ARGV", "_", "pd_argv", "pd_me", "abstract", "continue", "for", "new", "switch", "assert",
    "default", "goto", "package", "synchronized", "boolean", "do", "if", "private", "this", "break",
    "double", "implements", "protected", "throw", "byte", "else", "import", "public", "throws",
    "case", "enum", "instanceof", "return", "transient", "catch", "extends", "int", "short", "try",
    "char", "final", "interface", "static", "void", "class", "finally", "long", "strictfp",
    "volatile", "const", "float", "native", "super", "while", "pd_key", "pd_value", "pd_context"]

/-- Whether a name is reserved, given the names of auxiliary variables. -/
def isReservedAmong (taken : List String) (name : String) : Bool :=
  reservedNames.contains name || taken.contains name
    || Text.sliceTo name 4 == "pd_i" || Text.sliceTo name 4 == "pd_f"

def isReserved (name : String) : Plain Bool :=
  return isReservedAmong (← read).reserved name

def firstUnused (stem : String) (taken : List String) (n : Nat) : String :=
  let candidate := stem ++ toString n
  if h : candidate ∈ taken then firstUnused stem (taken.erase candidate) (n + 1) else candidate
termination_by taken.length
decreasing_by
  rw [List.length_erase_of_mem h]
  exact Nat.sub_lt (List.length_pos_of_mem h) Nat.one_pos

/-- The stem itself, or the first of its numbered names that is not taken. -/
def freshAmong (taken : List String) (stem : String) : String :=
  if taken.contains stem then firstUnused stem taken 1 else stem

def freshName (stem : String) : Plain String := do
  let name := freshAmong (← read).reserved stem
  update fun s => { s with reserved := s.reserved ++ [name] }
  return name

def freshLoopName : Plain String :=
  freshName "pd_i"

def freshCallName : Plain String :=
  freshName "pd_f"

/-! ### Variables -/

def newVariable (v : Variable) : Plain VarId := do
  let id := (← read).vars.size
  update (fun s => { s with vars := s.vars.push v }) (fun _ => .refl _) fun s =>
    ⟨[v.shape], by simp [State.types]⟩
  return id

def variableOf (id : VarId) : Plain Variable := do
  return (← read).vars.getD id {}

def retype (id : VarId) (shape : Shape) : M Unit :=
  modify fun s => { s with vars := s.vars.modify id fun v => { v with shape } }

theorem silent_retype (id : VarId) (shape : Shape) : Silent (retype id shape) :=
  fun _ _ => rfl

instance (id : VarId) (shape : Shape) : Enacts .retypes (retype id shape) where
  ok := by
    rintro s _ _ - - ⟨⟩
    exact .inl (.refl _)
  error := by rintro s _ _ - - ⟨⟩
  types retypes := absurd rfl retypes
  code _ _ := rfl
  blind _ := (silent_retype id shape).blind
  candid := (silent_retype id shape).candid
  detached := (silent_retype id shape).detached

def lookupIn (declared : List (OrderedMap String VarId)) (name : String) : Option VarId :=
  declared.findSome? (·.get? name)

def lookup? (name : String) : Plain (Option VarId) :=
  return lookupIn (← read).declared name

/-- Whether a name is declared in the context at hand: the outermost level when it is the only one,
else any level but the outermost. -/
def isDeclaredIn (declared : List (OrderedMap String VarId)) (name : String) : Bool :=
  match declared with
  | [level] => level.contains name
  | levels => levels.dropLast.any (·.contains name)

def isDeclared (name : String) : Plain Bool :=
  return isDeclaredIn (← read).declared name

/-- Whether a name has been assigned. Outside blocks every name counts as assigned, unless
`everywhere`. -/
def isAssignedIn (assigned : List (List (Option String))) (name : Option String)
    (everywhere : Bool) : Bool :=
  if assigned.length > 1 || everywhere then assigned.any (·.contains name) else true

def isAssigned (name : Option String) : Plain Bool :=
  return isAssignedIn (← read).assigned name false

/-! ### Levels -/

/-- A level of scope: the variables declared and the names assigned. -/
structure Level where
  declared : OrderedMap String VarId := {}
  assigned : List (Option String) := []
deriving Repr, Inhabited

/-- The levels at the start of a file. The arguments of a main class are not supported as a
variable. -/
def startLevels (mainClass : Bool) : Except Fault (List Level) :=
  if mainClass then .error .illTyped else .ok [{}]

def addName (name : Option String) (names : List (Option String)) : List (Option String) :=
  if names.contains name then names else names ++ [name]

def addNames (more names : List (Option String)) : List (Option String) :=
  more.foldl (fun names name => addName name names) names

def Level.passedOn (level : Level) : List (Option String) :=
  level.assigned.filter fun name => !(name.any level.declared.contains)

def pushLevel : M Unit :=
  modify fun s => { s with declared := {} :: s.declared, assigned := [] :: s.assigned }

def readLevel : M Level := fun s =>
  match s.declared, s.assigned with
  | declared :: _, assigned :: _ => .ok { declared, assigned } s
  | _, _ => .error .noLevel s

def changeDeclared (f : OrderedMap String VarId → OrderedMap String VarId) : M Unit := fun s =>
  match s.declared with
  | level :: outer => .ok () { s with declared := f level :: outer }
  | [] => .error .noLevel s

def changeAssigned (f : List (Option String) → List (Option String)) : M Unit := fun s =>
  match s.assigned with
  | level :: outer => .ok () { s with assigned := f level :: outer }
  | [] => .error .noLevel s

def popDeclared : M (OrderedMap String VarId) := fun s =>
  match s.declared with
  | level :: declared => .ok level { s with declared }
  | [] => .error .noLevel s

def popAssigned : M (List (Option String)) := fun s =>
  match s.assigned with
  | level :: assigned => .ok level { s with assigned }
  | [] => .error .noLevel s

def popLevel : M Level :=
  return { declared := ← popDeclared, assigned := ← popAssigned }

/-- Closes the innermost level; what it assigned without declaring it counts as assigned in the
level around it. -/
def mergeLevel : M Unit := do
  let inner ← readLevel
  changeAssigned fun _ => inner.passedOn
  let passed ← popAssigned
  changeAssigned (addNames passed)
  let _ ← popDeclared

theorem unnoticed_readLevel : Unnoticed readLevel := by
  constructor
  · intro s
    unfold readLevel
    split <;> exact List.prefix_rfl
  · intro s
    unfold readLevel
    split <;> rfl
  · intro c s
    cases hd : s.declared <;> cases ha : s.assigned <;>
      simp [readLevel, State.cloaked, mapState, hd, ha]

theorem unnoticed_changeDeclared (f : OrderedMap String VarId → OrderedMap String VarId) : Unnoticed (changeDeclared f) := by
  constructor
  · intro s
    unfold changeDeclared
    split <;> exact List.prefix_rfl
  · intro s
    unfold changeDeclared
    split <;> rfl
  · intro c s
    cases hd : s.declared <;> simp [changeDeclared, State.cloaked, mapState, hd]

theorem unnoticed_changeAssigned (f : List (Option String) → List (Option String)) : Unnoticed (changeAssigned f) := by
  constructor
  · intro s
    unfold changeAssigned
    split <;> exact List.prefix_rfl
  · intro s
    unfold changeAssigned
    split <;> rfl
  · intro c s
    cases ha : s.assigned <;> simp [changeAssigned, State.cloaked, mapState, ha]

theorem unnoticed_popDeclared : Unnoticed popDeclared := by
  constructor
  · intro s
    unfold popDeclared
    split <;> exact List.prefix_rfl
  · intro s
    unfold popDeclared
    split <;> rfl
  · intro c s
    cases hd : s.declared <;> simp [popDeclared, State.cloaked, mapState, hd]

theorem unnoticed_popAssigned : Unnoticed popAssigned := by
  constructor
  · intro s
    unfold popAssigned
    split <;> exact List.prefix_rfl
  · intro s
    unfold popAssigned
    split <;> rfl
  · intro c s
    cases ha : s.assigned <;> simp [popAssigned, State.cloaked, mapState, ha]

instance : Enacts .opensLevel pushLevel :=
  .of_total fun _ _ _ => ⟨(), _, rfl, rfl, rfl, rfl, rfl, id, id⟩

theorem Context.Balanced.levels {s : State} (balanced : s.context.Balanced) :
    ∃ declared outer assigned outer', s.declared = declared :: outer
      ∧ s.assigned = assigned :: outer' ∧ outer.length = outer'.length := by
  obtain ⟨same, open_⟩ := balanced
  simp only [State.context] at same open_
  obtain ⟨declared, outer, hd⟩ := List.exists_cons_of_length_pos open_
  obtain ⟨assigned, outer', ha⟩ := List.exists_cons_of_length_pos (same ▸ open_)
  exact ⟨declared, outer, assigned, outer', hd, ha, by simpa [hd, ha] using same⟩

instance : Enacts .plain readLevel := by
  refine .of_total (fun s balanced _ => ?_) unnoticed_readLevel
  obtain ⟨declared, outer, assigned, outer', hd, ha, -⟩ := balanced.levels
  exact ⟨{ declared, assigned }, s, by simp [readLevel, hd, ha], .refl _⟩

instance (f : OrderedMap String VarId → OrderedMap String VarId) :
    Enacts .plain (changeDeclared f) := by
  refine .of_total (fun s balanced _ => ?_) (unnoticed_changeDeclared f)
  obtain ⟨declared, outer, assigned, outer', hd, ha, -⟩ := balanced.levels
  exact ⟨(), { s with declared := f declared :: outer }, by simp [changeDeclared, hd],
    by simp [State.context, Effect.apply, hd], rfl, rfl, rfl, id, id⟩

instance (f : List (Option String) → List (Option String)) : Enacts .plain (changeAssigned f) := by
  refine .of_total (fun s balanced _ => ?_) (unnoticed_changeAssigned f)
  obtain ⟨declared, outer, assigned, outer', hd, ha, -⟩ := balanced.levels
  exact ⟨(), { s with assigned := f assigned :: outer' }, by simp [changeAssigned, ha],
    rfl, by simp [State.context, Effect.apply, ha], rfl, rfl, id, id⟩

instance : Enacts .closesLevel popLevel := by
  refine .of_total (fun s balanced _ => ?_)
    (unnoticed_popDeclared.bind fun _ => unnoticed_popAssigned.bind fun _ => .pure _)
  obtain ⟨declared, outer, assigned, outer', hd, ha, -⟩ := balanced.levels
  refine ⟨{ declared, assigned }, { s with declared := outer, assigned := outer' }, ?_,
    by simp [State.context, Effect.apply, hd], by simp [State.context, Effect.apply, ha],
    rfl, rfl, id, id⟩
  simp [popLevel, M.bind_eq_ok, popDeclared, popAssigned, hd, ha,
    and_assoc]

instance : Enacts .closesLevel mergeLevel := by
  refine .of_total (fun s balanced enough => ?_)
    (unnoticed_readLevel.bind fun _ => (unnoticed_changeAssigned _).bind fun _ =>
      unnoticed_popAssigned.bind fun _ => (unnoticed_changeAssigned _).bind fun _ =>
        unnoticed_popDeclared.bind fun _ => .pure _)
  obtain ⟨declared, outer, assigned, outer', hd, ha, same⟩ := balanced.levels
  obtain ⟨around, outer', rfl⟩ : ∃ around rest, outer' = around :: rest := by
    apply List.exists_cons_of_length_pos
    simp only [Effect.needs, State.context, hd, List.length_cons] at enough
    omega
  refine ⟨(), { s with
      declared := outer
      assigned := addNames (Level.passedOn { declared, assigned }) around :: outer' }, ?_,
    by simp [State.context, Effect.apply, hd], by simp [State.context, Effect.apply, ha],
    rfl, rfl, id, id⟩
  simp [mergeLevel, M.bind_eq_ok, readLevel, changeAssigned, popDeclared, popAssigned, hd, ha,
    and_assoc]

def innermost : Plain Level := ⟨readLevel, inferInstance⟩

def assignAll (names : List (Option String)) : Plain Unit :=
  ⟨changeAssigned (addNames names), inferInstance⟩

def assign (name : Option String) : Plain Unit :=
  ⟨changeAssigned (addName name), inferInstance⟩

def declare (name : String) (id : VarId) : Plain Unit :=
  ⟨changeDeclared (·.insert name id), inferInstance⟩

/-- Starts the variables of a function: its arguments are the elements of one special variable, and
auxiliary names start afresh. -/
def startFunction (f : Function) : Plain Unit := do
  let id ← newVariable {
    name := some "pd_argv"
    shape := .scalar .void
    elements := some f.arguments
    position := f.position }
  declare "_" id
  assign (some "pd_argv")
  update fun s => { s with reserved := [] }

/-! ### Declarations that wait for their statement -/

def addPending (p : Pending) : Plain DeclId := do
  let id := (← read).pending.size
  update fun s => { s with pending := s.pending.push p }
  return id

def pendingOf (id : DeclId) : Plain Pending := do
  return (← read).pending.getD id {}

/-- Shows a fragment in the declaration that stands for it, if there is one. -/
def sync (c : Fragment) : Plain Fragment := do
  match c.slot with
  | some id =>
    update fun s => { s with
      pending := s.pending.setIfInBounds id
        { value := c.value, shape := c.shape, variable_ := c.variable_ } }
    return c
  | none => return c

variable [Interfaces]

def Pending.text (p : Pending) : Except Fault String := do
  if p.shape.isPresent then return (← p.shape.javaText) ++ " " ++ p.value ++ ";"
  else return p.value ++ ";"

/-- The declarations that a fragment waits for, one on a line. -/
def declarations (c : Fragment) : Plain String := do
  let mut text := ""
  for id in c.declares do
    text := text ++ (← (← pendingOf id).text) ++ "\n"
  return text

end PerlJava.Compile
