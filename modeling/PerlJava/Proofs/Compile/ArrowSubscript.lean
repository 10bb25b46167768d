import PerlJava.Proofs.Compile.ElementStore

/-!
# Arrows between subscripts

An arrow is for following a reference. Between the subscripts of a collection inside another, where
nothing is to be followed, it makes the subscript after it disappear without a word.
-/

namespace PerlJava.Compile

open Java

/-- Goes on with a place of a variable that is subscripted, after a look at the key and at whether the
variable has been assigned to. -/
def afterChecks {α : Type} (a : Access) (id : VarId) (key : Fragment) (at_ : Position)
    (next : Plain α) : Plain α := do
  check key true
  unless ← isAssigned (← variableOf id).name do
    report .readBeforeAssign at_ [("var", a.base.value)]
  next

/-- The place that a reference leads to, of the type inside the reference. -/
def followed (a : Access) (inner : Shape) (at_ : Position) : Access :=
  { a with
    position := at_
    value := a.readText
    read := ".get("
    store := ".set("
    close := ")"
    shape := inner
    ref := false }

/-- The outermost dimension of a type, and the type inside it. -/
theorem opens_of_parts {shape : Shape} {d : Dim} {ds : List Dim} (whole : shape.parts = .ok (d :: ds)) :
    shape.head = .ok d ∧ ∃ inner, shape.tail = .ok inner ∧ inner.parts = .ok ds := by
  refine ⟨by rw [Shape.head, Shape.at_, whole]; rfl, ?_⟩
  cases shape with
  | unset => cases whole
  | word letters =>
    refine ⟨_, rfl, ?_⟩
    rw [Shape.parts, List.map_drop, Except.ok.inj whole]
    rfl
  | dims es =>
    cases whole
    exact ⟨_, rfl, rfl⟩

section Notations

variable {a b : Access} {key : Fragment} {at_ : Position} {kind : TypeName} {id : VarId} {d : Dim}
  {inner : Shape} {s s' : State}

theorem afterChecks_eq_ok {α : Type} {next : Plain α} {r : α} :
    (afterChecks a id key at_ next).run s = .ok r s'
      ↔ ∃ s₁, (afterChecks a id key at_ (pure ())).run s = .ok () s₁ ∧ next.run s₁ = .ok r s' := by
  simp only [afterChecks, Plain.bind_eq_ok]
  constructor
  · rintro ⟨_, s₁, checked, v, s₂, named, assigned, s₃, looked, ran⟩
    cases assigned with
    | true => exact ⟨s₃, ⟨_, s₁, checked, v, s₂, named, true, s₃, looked, rfl⟩, ran⟩
    | false =>
      obtain ⟨u, s₄, reported, ran⟩ := Plain.cut ran
      refine ⟨s₄, ⟨_, s₁, checked, v, s₂, named, false, s₃, looked, ?_⟩, ran⟩
      exact Plain.bind_eq_ok.2 ⟨u, s₄, reported, rfl⟩
  · rintro ⟨s₄, ⟨_, s₁, checked, v, s₂, named, assigned, s₃, looked, rest⟩, ran⟩
    refine ⟨_, s₁, checked, v, s₂, named, assigned, s₃, looked, ?_⟩
    cases assigned with
    | true =>
      cases rest
      exact ran
    | false =>
      obtain ⟨u, _, reported, ⟨⟩⟩ := Plain.cut rest
      exact Plain.bind_eq_ok.2 ⟨u, s₄, reported, ran⟩

/-- A place without a variable is refused in either notation. -/
theorem approach_of_none (names : a.base.variable_ = none) (arrow : Bool) :
    approach a key at_ kind arrow = (do
      check key true
      report .declareAccess at_ []
      return (a, none)) := by
  unfold approach
  rw [names]

theorem approach_bare {n : Nat} (names : a.base.variable_ = some id) (size : a.shape.size = .ok n) :
    approach a key at_ kind false = afterChecks a id key at_ (enter a key at_ kind) := by
  unfold approach
  rw [names, size]
  rfl

theorem followReference_of_ref (first : a.shape.head = .ok d) (isRef : d.is .ref = true)
    (tail : a.shape.tail = .ok inner) : followReference a at_ = pure (followed a inner at_) := by
  unfold followReference
  dsimp only
  rw [first, tail]
  exact (if_neg (by simp [isRef])).trans (if_pos isRef)

/-- The arrow before a subscript of a reference: what the reference leads to is subscripted. -/
theorem approach_arrow (names : a.base.variable_ = some id) (first : a.shape.head = .ok d)
    (isRef : d.is .ref = true) (tail : a.shape.tail = .ok inner) :
    approach a key at_ kind true = approach (followed a inner at_) key at_ kind false := by
  obtain ⟨ds, whole, parts⟩ := opens_of_tail first tail
  have outer : a.shape.size = .ok (ds.length + 1) := by rw [Shape.size, whole]; rfl
  have within : inner.size = .ok ds.length := by rw [Shape.size, parts]; rfl
  rw [@approach_bare (followed a inner at_) _ _ _ _ _ names within]
  unfold approach
  rw [names, outer, followReference_of_ref first isRef tail]
  have enters : (do
      let size ← inner.size
      if (size == ds.length + 1) = true then pure (followed a inner at_, none)
      else enter (followed a inner at_) key at_ kind : Plain (Access × Option Dim))
        = enter (followed a inner at_) key at_ kind := by
    rw [within]
    exact if_neg (by simp)
  unfold afterChecks
  rw [← enters]
  rfl

/-- What is not a reference is not followed: an element stays as it is, anything else is refused. -/
theorem followReference_other_eq_ok (first : a.shape.head = .ok d) (noRef : d.is .ref = false) :
    (followReference a at_).run s = .ok b s' ↔ if a.ref
      then s = s' ∧ b = { a with position := at_, ref := false }
      else (report .varErrorAccess at_ [("type", TypeName.ref.text), ("find", d.text)]).run s = .ok () s'
        ∧ b = { a with position := at_ } := by
  unfold followReference
  dsimp only
  rw [first]
  cases ref : a.ref with
  | true =>
    change (if _ then _ else if _ then _ else _ : Plain Access).run s = _ ↔ _
    rw [if_neg (by simp), if_neg (by simp [noRef]), if_pos rfl]
    change EStateM.Result.ok _ s = _ ↔ _
    simp [and_comm, eq_comm]
  | false =>
    change (if _ then _ else _ : Plain Access).run s = _ ↔ _
    rw [if_pos (by simp [noRef]), if_neg Bool.false_ne_true, Plain.bind_eq_ok]
    constructor
    · rintro ⟨_, _, reported, ⟨⟩⟩
      exact ⟨reported, rfl⟩
    · rintro ⟨reported, rfl⟩
      exact ⟨(), s', reported, rfl⟩

/-- An arrow before a subscript of anything but a reference makes the subscript disappear. -/
theorem accessElement_arrow_eq_ok (names : a.base.variable_ = some id) (first : a.shape.head = .ok d)
    (noRef : d.is .ref = false) : (accessElement a key at_ kind true).run s = .ok b s'
      ↔ ∃ s₁, (afterChecks a id key at_ (pure ())).run s = .ok () s₁
        ∧ (followReference a at_).run s₁ = .ok b s' := by
  obtain ⟨ds, whole⟩ := parts_of_head first
  have size : a.shape.size = .ok (ds.length + 1) := by rw [Shape.size, whole]; rfl
  have approached : approach a key at_ kind true = afterChecks a id key at_ (do
      let b ← followReference a at_
      if (← b.shape.size) == ds.length + 1 then return (b, none) else enter b key at_ kind) := by
    unfold approach
    rw [names, size]
    rfl
  have stays {s s' : State} {c : Access} (followed : (followReference a at_).run s = .ok c s') : (do
      if (← c.shape.size) == ds.length + 1 then return (c, none) else enter c key at_ kind)
        = (pure (c, none) : Plain (Access × Option Dim)) := by
    have same : c.shape = a.shape := by
      have result := (followReference_other_eq_ok first noRef).1 followed
      split at result <;> rw [result.2]
    rw [same, size]
    exact if_pos (beq_self_eq_true _)
  rw [Tidying.run_eq (accessElement_on ..) (accessElement_off ..), tidiedElement, Plain.bind_eq_ok,
    approached]
  constructor
  · rintro ⟨_, s₂, ran, made⟩
    obtain ⟨s₁, checked, ran⟩ := afterChecks_eq_ok.1 ran
    obtain ⟨c, s₃, followed, ran⟩ := Plain.cut ran
    rw [stays followed] at ran
    cases ran
    cases made
    exact ⟨s₁, checked, followed⟩
  · rintro ⟨s₁, checked, followed⟩
    refine ⟨(b, none), s', afterChecks_eq_ok.2 ⟨s₁, checked, Plain.bind_eq_ok.2 ⟨b, s', followed, ?_⟩⟩, rfl⟩
    rw [stays followed]
    rfl

/-- Without an error, a subscript without an arrow takes one dimension. -/
theorem parts_of_bare {ds : List Dim} (whole : a.shape.parts = .ok ds)
    (run : Succeeds (accessElement a key at_ kind false).run s b s') :
    b.shape.parts = .ok (ds.drop 1) := by
  have size : a.shape.size = .ok ds.length := by rw [Shape.size, whole]; rfl
  have enters {c : Access} {head? : Option Dim}
      (run : Succeeds (approach a key at_ kind false).run s (c, head?) s') :
      ∃ head, head? = some head ∧ c.shape = a.shape := by
    cases names : a.base.variable_ with
    | none =>
      rw [approach_of_none names] at run
      obtain ⟨_, s₁, -, run⟩ := run.bind
      exact absurd run (Succeeds.not_report_bind rfl)
    | some id =>
      have ran := run.ran
      rw [approach_bare names size, afterChecks_eq_ok] at ran
      obtain ⟨s₁, checked, ran⟩ := ran
      have := (afterChecks a id key at_ (pure ())).plain
      have levels := run.levels.of_follows (Does.follows run.levels checked)
      obtain ⟨head, some_, -, shape, -⟩ := enter_cases ⟨levels, ran, run.fine⟩
      exact ⟨head, some_, shape⟩
  obtain approached | ⟨c, head, text, approached, made⟩ := accessElement_cases run
  · obtain ⟨_, ⟨⟩, -⟩ := enters approached
  · obtain ⟨_, -, same⟩ := enters approached
    obtain ⟨form, -, made⟩ := bind_eq_ok.1 made
    obtain ⟨inner, tail, ⟨⟩⟩ := bind_eq_ok.1 made
    obtain ⟨es, parts, left⟩ := parts_of_tail tail
    obtain rfl : ds = es := Except.ok.inj (whole.symm.trans (same ▸ parts))
    exact left

/-- Without an error, a subscript with an arrow takes a reference and one more dimension. -/
theorem parts_of_arrow {ds : List Dim} (whole : a.shape.parts = .ok (d :: ds)) (isRef : d.is .ref = true)
    (run : Succeeds (accessElement a key at_ kind true).run s b s') :
    b.shape.parts = .ok (ds.drop 1) := by
  obtain ⟨first, inner, tail, parts⟩ := opens_of_parts whole
  cases names : a.base.variable_ with
  | none =>
    obtain approached | ⟨_, _, _, approached, -⟩ := accessElement_cases run
    all_goals
      rw [approach_of_none names] at approached
      obtain ⟨_, s₁, -, approached⟩ := approached.bind
      exact absurd approached (Succeeds.not_report_bind rfl)
  | some id =>
    rw [accessElement, approach_arrow names first isRef tail] at run
    exact @parts_of_bare (followed a inner at_) _ _ _ _ _ _ _ parts run

end Notations

/-- How many dimensions subscripts take: one each, and the reference where there is an arrow. -/
def taken (subs : List Subscript) : Nat :=
  subs.length + subs.countP (·.arrow)

theorem taken_append (subs : List Subscript) (sub : Subscript) :
    taken (subs ++ [sub]) = taken subs + if sub.arrow then 2 else 1 := by
  rw [taken, taken, List.length_append, List.countP_append, List.countP_singleton]
  cases sub.arrow <;> simp <;> omega

/-- Where arrows stand only before subscripts of references, no subscript is left out: without an error,
each takes its dimension of the type of the variable. -/
theorem Path.parts {root : Fragment} {subs : List Subscript} {a : Access} {ds : List Dim}
    (path : Path root subs a) (whole : root.shape.parts = .ok ds)
    (refs : ∀ before sub after, subs = before ++ sub :: after → sub.arrow = true →
      ∃ d ∈ (ds.drop (taken before)).head?, d.is .ref = true) :
    a.shape.parts = .ok (ds.drop (taken subs)) := by
  induction path with
  | start made =>
    obtain ⟨shape, copied, ⟨⟩⟩ := bind_eq_ok.1 made
    cases is : root.shape <;> rw [is] at copied whole <;> cases copied <;> exact whole
  | @step subs sub a b s s' before run ih =>
    have left := ih fun before sub' after parts => refs before sub' (after ++ [sub]) (by simp [parts])
    rw [taken_append]
    unfold Subscript.from at run
    cases arrow : sub.arrow with
    | false =>
      rw [arrow] at run
      rw [if_neg Bool.false_ne_true, ← List.drop_drop]
      exact parts_of_bare left run
    | true =>
      obtain ⟨d, here, isRef⟩ := refs subs sub [] rfl arrow
      obtain ⟨es, more⟩ := List.head?_eq_some_iff.1 here
      rw [arrow] at run
      rw [more] at left
      rw [if_pos rfl, ← List.drop_drop, more]
      exact parts_of_arrow left isRef run

/-- What an arrow in front of a subscript does, at every place and with every key. A reference is
followed, and what it leads to is subscripted as without an arrow, but an element that is no reference
stays as it is, without the subscript and without a report. So no subscript is left out on paths with
arrows at references only. Where no variable is subscripted, both notations are refused alike. -/
theorem arrow_drops_subscript (a : Access) (sub : Subscript) :
    (a.base.variable_ = none →
      { sub with arrow := true }.from a = { sub with arrow := false }.from a)
      ∧ (∀ id d inner, a.base.variable_ = some id → a.shape.head = .ok d → a.shape.tail = .ok inner →
        (d.is .ref = true → { sub with arrow := true }.from a
          = { sub with arrow := false }.from (followed a inner sub.at_))
        ∧ (d.is .ref = false → ∀ s b s', ({ sub with arrow := true }.from a).run s = .ok b s'
          ↔ ∃ s₁, (afterChecks a id sub.key sub.at_ (pure ())).run s = .ok () s₁
            ∧ if a.ref then s₁ = s' ∧ b = { a with position := sub.at_, ref := false }
              else (report .varErrorAccess sub.at_
                  [("type", TypeName.ref.text), ("find", d.text)]).run s₁ = .ok () s'
                ∧ b = { a with position := sub.at_ }))
      ∧ ∀ root subs ds, Path root subs a → root.shape.parts = .ok ds →
        (∀ before sub after, subs = before ++ sub :: after → sub.arrow = true →
          ∃ d ∈ (ds.drop (taken before)).head?, d.is .ref = true) →
        a.shape.parts = .ok (ds.drop (taken subs)) := by
  refine ⟨fun names => ?_, fun id d inner names first tail => ⟨fun isRef => ?_,
    fun noRef s b s' => ?_⟩, fun root subs ds => Path.parts⟩
  · simp only [Subscript.from, accessElement, approach_of_none names]
  · simp only [Subscript.from, accessElement]
    rw [approach_arrow names first isRef tail]
    rfl
  · refine (accessElement_arrow_eq_ok names first noRef).trans (exists_congr fun s₁ => ?_)
    rw [followReference_other_eq_ok first noRef]

def innerHash : Access where
  base := nestedElement.base
  value := "h"
  shape := .ofNames [.hash, .string]
  position := {}
  read := ".get(\"a\""
  store := ".put(\"a\","
  close := ")"
  ref := true

/-- From `$h{"a"}` the subscript `{"k"}` leads to `$h{"a"}{"k"}`, and `->{"k"}` nowhere. -/
theorem arrow_drops_key : Path nestedElement.base [inBraces "\"a\""] innerHash
    ∧ ((inBraces "\"k\"").from innerHash).run twoHashes = .ok nestedElement twoHashes
    ∧ ({ inBraces "\"k\"" with arrow := true }.from innerHash).run twoHashes
      = .ok { innerHash with ref := false } twoHashes :=
  ⟨.step (.start rfl) (succeeds_twoHashes (by rfl)), by rfl, by rfl⟩

end PerlJava.Compile
