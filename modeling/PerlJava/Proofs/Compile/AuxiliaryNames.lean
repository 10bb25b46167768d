import PerlJava.Compile.Access

/-!
# Auxiliary names

Generated code needs names of its own, for the variables of loops and for references that calls get.
Both families draw from one table, which a function starts afresh. A name that is drawn is new to the
table, and no program may declare it.
-/

namespace PerlJava.Compile.Auxiliary

open Diagnostic (Printed)

/-! ### The search for a name -/

section Search

variable (stem : String) (taken : List String)

theorem numbered_injective : Function.Injective fun n : Nat => stem ++ toString n := by
  intro m n same
  have digits : Nat.toDigits 10 m = Nat.toDigits 10 n := by
    simpa [Nat.toString_eq_repr] using congrArg String.toList same
  simpa using congrArg (Nat.ofDigitChars 10 · 0) digits

theorem firstUnused_numbered (n : Nat) :
    ∃ m, n ≤ m ∧ firstUnused stem taken n = stem ++ toString m := by
  fun_induction firstUnused stem taken n with
  | case1 taken n _ _ ih =>
    obtain ⟨m, later, found⟩ := ih
    exact ⟨m, Nat.le_of_succ_le later, found⟩
  | case2 taken n _ _ => exact ⟨n, Nat.le_refl n, rfl⟩

theorem firstUnused_not_mem (n : Nat) : firstUnused stem taken n ∉ taken := by
  fun_induction firstUnused stem taken n with
  | case1 taken n candidate _ ih =>
    -- A name with a later number is not the candidate that was crossed out.
    obtain ⟨m, later, found⟩ := firstUnused_numbered stem (taken.erase candidate) (n + 1)
    have differs : firstUnused stem (taken.erase candidate) (n + 1) ≠ candidate := by
      rw [found]
      intro same
      have := numbered_injective stem same
      omega
    rwa [List.mem_erase_of_ne differs] at ih
  | case2 taken n _ unused => exact unused

theorem freshAmong_not_mem : freshAmong taken stem ∉ taken := by
  unfold freshAmong
  split
  · exact firstUnused_not_mem stem taken 1
  · next free => simpa using free

theorem freshAmong_stem : ∃ number, freshAmong taken stem = stem ++ number := by
  unfold freshAmong
  split
  · obtain ⟨m, -, found⟩ := firstUnused_numbered stem taken 1
    exact ⟨_, found⟩
  · exact ⟨"", by simp⟩

end Search

/-! ### Work that draws names -/

/-- The families of auxiliary names. -/
inductive Family where
  | loop
  | call
deriving DecidableEq

def Family.stem : Family → String
  | loop => "pd_i"
  | call => "pd_f"

def Family.draw : Family → Plain String
  | loop => freshLoopName
  | call => freshCallName

theorem Family.draw_eq (f : Family) (s : State) :
    f.draw.run s = .ok (freshAmong s.reserved f.stem)
      { s with reserved := s.reserved ++ [freshAmong s.reserved f.stem] } := by
  cases f <;> rfl

/-- A name of one of the families, numbered or not. -/
def IsAuxiliary (name : String) : Prop :=
  ∃ (f : Family) (number : String), name = f.stem ++ number

theorem IsAuxiliary.isReserved {name : String} (auxiliary : IsAuxiliary name) (taken : List String) :
    isReservedAmong taken name = true := by
  obtain ⟨f, number, rfl⟩ := auxiliary
  have slice : Text.sliceTo (f.stem ++ number) 4 = f.stem := by
    have four : f.stem.toList.length = 4 := by cases f <;> rfl
    have bound : Text.clampBound (f.stem ++ number).length 4 = f.stem.toList.length := by
      rw [← String.length_toList, String.toList_append, List.length_append, four]
      simp [Text.clampBound]
    rw [Text.sliceTo, bound, String.toList_append, List.take_left, String.ofList_toList]
  unfold isReservedAmong
  rw [slice]
  cases f <;> simp [Family.stem]

/-- A piece of work: it draws a name, or leaves the table of names alone. -/
inductive Work where
  | draws (f : Family)
  | other (change : State → State) (keeps : ∀ s, (change s).reserved = s.reserved)

def Work.isDraw : Work → Bool
  | draws _ => true
  | other _ _ => false

/-- The names that are drawn along some work. -/
def drawn : List Work → M (List String)
  | [] => return []
  | .draws f :: works => do
    let name ← f.draw
    return name :: (← drawn works)
  | .other change _ :: works => do
    modify change
    drawn works

/-- What is known of the names that some work has drawn from a table. -/
structure Fresh (taken names : List String) : Prop where
  auxiliary : ∀ name ∈ names, IsAuxiliary name
  distinct : names.Nodup
  new : ∀ name ∈ names, name ∉ taken

theorem Fresh.cons {taken names : List String} (f : Family)
    (fresh : Fresh (taken ++ [freshAmong taken f.stem]) names) :
    Fresh taken (freshAmong taken f.stem :: names) where
  auxiliary := by
    intro name member
    obtain rfl | member := List.mem_cons.1 member
    · exact ⟨f, freshAmong_stem f.stem taken⟩
    · exact fresh.auxiliary name member
  distinct := by
    refine List.nodup_cons.2 ⟨fun member => ?_, fresh.distinct⟩
    exact fresh.new _ member (by simp)
  new := by
    intro name member
    obtain rfl | member := List.mem_cons.1 member
    · exact freshAmong_not_mem f.stem taken
    · exact fun old => fresh.new name member (List.mem_append_left _ old)

theorem drawn_fresh (works : List Work) (s : State) :
    ∃ names s', drawn works s = .ok names s' ∧ names.length = works.countP (·.isDraw)
      ∧ s'.reserved = s.reserved ++ names ∧ Fresh s.reserved names := by
  induction works generalizing s with
  | nil => exact ⟨[], s, rfl, rfl, by simp, nofun, .nil, nofun⟩
  | cons work works ih =>
    cases work with
    | draws f =>
      obtain ⟨names, s', run, length, table, fresh⟩ :=
        ih { s with reserved := s.reserved ++ [freshAmong s.reserved f.stem] }
      refine ⟨_ :: names, s', ?_, by simp [length, Work.isDraw], by simp [table], fresh.cons f⟩
      exact M.bind_eq_ok.2 ⟨_, _, f.draw_eq s, M.bind_eq_ok.2 ⟨_, _, run, rfl⟩⟩
    | other change keeps =>
      obtain ⟨names, s', run, length, table, fresh⟩ := ih (change s)
      rw [keeps] at table fresh
      refine ⟨names, s', M.bind_eq_ok.2 ⟨(), change s, rfl, run⟩, ?_, table, fresh⟩
      simp [length, Work.isDraw]

/-! ### Programs that declare such a name -/

/-- The error that a declaration of a name at a place gives rise to. -/
inductive Refusal (s : State) (name : String) (at_ : Position) : Printed → Prop where
  | declared (line : Nat) : Refusal s name at_
    (.diagnostic s.fileName s.source .varAlreadyDeclare at_ [("var", name), ("line", toString line)])
  | reserved : Refusal s name at_
    (.diagnostic s.fileName s.source .wordNativeDeclare at_ [("word", name)])

/-- A step that reports that a name may not be declared, whatever it does after that. -/
def Refuses {α : Type} (x : Plain α) (s : State) (name : String) (at_ : Position) : Prop :=
  ∃ p more, Refusal s name at_ p ∧ p.isError = true ∧ Printing (p :: more) s (endState (x.run s))

section Refused

variable {α β : Type} {s s₁ : State} {name : String} {at_ : Position}

theorem Refuses.bind {x : Plain α} (f : α → Plain β) (refuses : Refuses x s name at_) :
    Refuses (x >>= f) s name at_ := by
  obtain ⟨p, more, refusal, isError, printing⟩ := refuses
  rw [Refuses, Plain.run_bind, M.bind_apply]
  cases run : x.run s with
  | error stop s₁ =>
    rw [run] at printing
    exact ⟨p, more, refusal, isError, printing⟩
  | ok a s₁ =>
    rw [run] at printing
    obtain ⟨later, after⟩ := (f a).plain.candid.printing s₁
    exact ⟨p, more ++ later, refusal, isError, printing.trans after⟩

theorem Refuses.after {x : Plain α} {f : α → Plain β} {a : α} (run : x.run s = .ok a s)
    (refuses : Refuses (f a) s name at_) : Refuses (x >>= f) s name at_ := by
  rwa [Refuses, Plain.run_bind, M.bind_apply, run]

theorem refuses_report {m : Message} {names : Diagnostic.Names} (isError : m.isWarning = false)
    (refusal : Refusal s name at_ (.diagnostic s.fileName s.source m at_ names)) :
    Refuses (report m at_ names) s name at_ := by
  refine ⟨_, [], refusal, by simp [Printed.isError, isError], ?_⟩
  have ended : endState ((report m at_ names).run s) = s.saying _ :=
    endState_sayIn (.diagnostic s.fileName s.source m at_ names) s
  rw [ended]
  exact printing_saying _ s

theorem lookup_of_declared {declared : List (OrderedMap String Java.VarId)}
    (known : isDeclaredIn declared name = true) : ∃ id, lookupIn declared name = some id := by
  have within : ∃ level ∈ declared, level.contains name = true := by
    unfold isDeclaredIn at known
    split at known
    · exact ⟨_, List.mem_singleton.2 rfl, known⟩
    · obtain ⟨level, member, contains⟩ := List.any_eq_true.1 known
      exact ⟨level, List.dropLast_subset _ member, contains⟩
  obtain ⟨level, member, contains⟩ := within
  rw [← Option.isSome_iff_exists, lookupIn, List.findSome?_isSome_iff]
  exact ⟨level, member, OrderedMap.isSome_get?_of_contains contains⟩

theorem checkNewName_refuses (auxiliary : IsAuxiliary name) :
    Refuses (checkNewName name at_) s name at_ := by
  refine .after (a := isDeclaredIn s.declared name) rfl ?_
  split
  · next known =>
    obtain ⟨id, found⟩ := lookup_of_declared known
    refine .after (a := some id) (congrArg (EStateM.Result.ok · s) found) ?_
    exact .after (a := s.vars.getD id {}) rfl (refuses_report rfl (.declared _))
  · refine .after (a := true) (congrArg (EStateM.Result.ok · s) (auxiliary.isReserved s.reserved)) ?_
    exact refuses_report rfl .reserved

theorem createVariable_refuses (auxiliary : IsAuxiliary name) (balanced : s.context.Balanced)
    (shared : Bool) : Refuses (createVariable name at_ shared) s name at_ := by
  obtain ⟨declared, outer, assigned, outer', hd, ha, -⟩ := balanced.levels
  have level : innermost.run s = .ok { declared, assigned } s := by
    change readLevel s = _
    simp [readLevel, hd, ha]
  exact .after level ((checkNewName_refuses auxiliary).bind _)

end Refused

/-- Whatever is drawn, and in whatever order, the names exist, are new to the table and differ from
one another. Each is known to be reserved from then on, and no program may declare it. -/
theorem auxiliary_names_fresh (works : List Work) (s : State) :
    ∃ names s', drawn works s = .ok names s' ∧ names.length = works.countP (·.isDraw)
      ∧ s'.reserved = s.reserved ++ names ∧ names.Nodup ∧ (∀ name ∈ names, name ∉ s.reserved)
      ∧ ∀ name ∈ names, ∀ now : State, (isReserved name).run now = .ok true now
        ∧ ∀ (at_ : Position) (shared : Bool), now.context.Balanced →
          Refuses (createVariable name at_ shared) now name at_ := by
  obtain ⟨names, s', run, length, table, fresh⟩ := drawn_fresh works s
  refine ⟨names, s', run, length, table, fresh.distinct, fresh.new, fun name member now => ?_⟩
  have auxiliary := fresh.auxiliary name member
  refine ⟨?_, fun at_ shared balanced => createVariable_refuses auxiliary balanced shared⟩
  exact congrArg (EStateM.Result.ok · now) (auxiliary.isReserved now.veiled.reserved)

/-- A call between two loops. -/
theorem names_of_loops_and_call :
    let now : State := { reserved := ["pd_i", "pd_f", "pd_i1"] }
    drawn [.draws .loop, .draws .call, .draws .loop] {} = .ok ["pd_i", "pd_f", "pd_i1"] now
      ∧ Refuses (createVariable "pd_i1" ⟨1, 3⟩ false) now "pd_i1" ⟨1, 3⟩ := by
  intro now
  have third : freshAmong ["pd_i", "pd_f"] "pd_i" = "pd_i1" := by
    rw [freshAmong, if_pos (by decide), firstUnused, dif_neg (by decide)]
    rfl
  have run : drawn [.draws .loop, .draws .call, .draws .loop] {}
      = .ok ["pd_i", "pd_f", "pd_i1"] now := by
    have last : (Family.loop.draw).run { reserved := ["pd_i", "pd_f"] } = .ok "pd_i1" now := by
      rw [Family.draw_eq, Family.stem, third]
      rfl
    exact M.bind_eq_ok.2 ⟨"pd_i", _, rfl, M.bind_eq_ok.2 ⟨_, _, M.bind_eq_ok.2 ⟨"pd_f", _, rfl,
      M.bind_eq_ok.2 ⟨_, _, M.bind_eq_ok.2 ⟨"pd_i1", now, last, rfl⟩, rfl⟩⟩, rfl⟩⟩
  obtain ⟨names, s', run', -, -, -, -, refused⟩ :=
    auxiliary_names_fresh [.draws .loop, .draws .call, .draws .loop] {}
  obtain ⟨rfl, rfl⟩ : names = ["pd_i", "pd_f", "pd_i1"] ∧ s' = now := by simpa [run'] using run
  exact ⟨run, (refused "pd_i1" (by simp) now).2 ⟨1, 3⟩ false ⟨rfl, Nat.le_refl 1⟩⟩

end PerlJava.Compile.Auxiliary
