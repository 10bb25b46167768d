import PerlJava.Compile.Block

/-!
# Printed types

A type that is given in full is a row of layers around a scalar. Its printed form grows outwards from
the scalar, brackets behind it and interfaces around it, and tells the layers again. So types may be
compared as they are printed, as is done with the types that a `for` loop declares.
-/

namespace PerlJava.Java

/-- What holds the rest of a type. -/
inductive Holder where
  | array
  | list
  | hash
  | ref
deriving DecidableEq

def Holder.name : Holder → TypeName
  | array => .array
  | list => .list
  | hash => .hash
  | ref => .ref

/-- A dimension that holds the rest of a type. One that comes from a label has or lacks a size. -/
structure Layer where
  holder : Holder
  label : Option (Option String)

def Layer.dim (l : Layer) : Dim :=
  l.label.elim (.plain l.holder.name) (.sized l.holder.name)

/-- A type that is given in full. -/
structure FullType where
  layers : List Layer
  scalar : TypeName
  isScalar : ∀ h : Holder, scalar ≠ h.name

namespace FullType

def shape (t : FullType) : Shape :=
  .dims (t.layers.map Layer.dim ++ [.plain t.scalar])

def names (t : FullType) : List TypeName :=
  t.layers.map (·.holder.name) ++ [t.scalar]

end FullType

/-! ### Printing -/

def Holder.opening : Holder → String
  | array => ""
  | list => "List<"
  | hash => "Map<String,"
  | ref => "Ref<"

def Holder.closing : Holder → String
  | array => "[]"
  | list | hash | ref => ">"

def Holder.ending : Holder → Char
  | array => ']'
  | list | hash | ref => '>'

def spelling (scalar : TypeName) : List Holder → String
  | [] => scalar.text
  | h :: hs => h.opening ++ spelling scalar hs ++ h.closing

theorem Layer.name?_dim (l : Layer) : l.dim.name? = some l.holder.name := by
  obtain ⟨h, _ | size⟩ := l <;> rfl

theorem TypeName.text_injective {x y : TypeName} (same : x.text = y.text) : x = y := by
  have read (n : TypeName) : ofText? n.text = some n := by cases n <;> decide
  exact Option.some.inj ((read x).symm.trans ((congrArg ofText? same).trans (read y)))

section Spelling

variable {x y : TypeName} {h : Holder} {hs ks : List Holder}

theorem printDims_eq_spelling (isScalar : ∀ h : Holder, x ≠ h.name) (layers : List Layer) :
    printDims (layers.map Layer.dim ++ [.plain x]) = .ok (spelling x (layers.map (·.holder))) := by
  induction layers with
  | nil =>
    cases x with
    | array => exact absurd rfl (isScalar .array)
    | hash => exact absurd rfl (isScalar .hash)
    | list => exact absurd rfl (isScalar .list)
    | ref => exact absurd rfl (isScalar .ref)
    | _ => rfl
  | cons l layers ih =>
    rw [List.map_cons, List.cons_append, printDims, ih, l.name?_dim, List.map_cons, spelling]
    cases l.holder with
    | array => rw [Holder.opening, String.empty_append]; rfl
    | list | hash | ref => rfl

theorem getLast?_layered (h : Holder) (hs : List Holder) :
    (spelling x (h :: hs)).toList.getLast? = some h.ending := by
  cases h <;> simp [spelling, Holder.closing, Holder.ending]

/-- No scalar ends like a layer. -/
theorem getLast?_scalar (isScalar : ∀ h : Holder, x ≠ h.name) (h : Holder) :
    x.text.toList.getLast? ≠ some h.ending := by
  cases x <;> cases h <;> decide

/-- Interfaces begin with different letters. -/
theorem Holder.eq_of_opening {k : Holder} {rest rest' : List Char} (ending : k.ending = h.ending)
    (same : h.opening.toList ++ rest = k.opening.toList ++ rest') : h = k := by
  cases h <;> cases k <;> simp_all [opening, Holder.ending]

theorem spelling_injective (isScalar : ∀ h : Holder, x ≠ h.name) (isScalar' : ∀ h : Holder, y ≠ h.name)
    (same : spelling x hs = spelling y ks) : hs = ks ∧ x = y := by
  induction hs generalizing ks with
  | nil =>
    cases ks with
    | nil => exact ⟨rfl, TypeName.text_injective same⟩
    | cons k ks =>
      have ends := getLast?_layered (x := y) k ks
      rw [← same] at ends
      exact absurd ends (getLast?_scalar isScalar k)
  | cons h hs ih =>
    have ends := getLast?_layered (x := x) h hs
    rw [same] at ends
    cases ks with
    | nil => exact absurd ends (getLast?_scalar isScalar' h)
    | cons k ks =>
      have ending : k.ending = h.ending := by simpa [getLast?_layered] using ends
      have letters := congrArg String.toList same
      simp only [spelling, String.toList_append, List.append_assoc] at letters
      obtain rfl := Holder.eq_of_opening ending letters
      have inner : spelling x hs = spelling y ks := by
        simpa [spelling, String.append_assoc] using same
      obtain ⟨rfl, rfl⟩ := ih inner
      exact ⟨rfl, rfl⟩

end Spelling

/-! ### Comparing -/

theorem Dim.agrees_iff {d e : Dim} (named : d.name?.isSome = true) :
    d.agrees e = true ↔ d.name? = e.name? := by
  cases d with
  | plain | sized => exact beq_iff_eq
  | letter | missing => cases named

theorem dims_agree_iff {ds es : List Dim} (named : ∀ d ∈ ds, d.name?.isSome = true) :
    (ds.length == es.length && (ds.zip es).all fun (d, e) => d.agrees e) = true
      ↔ ds.map (·.name?) = es.map (·.name?) := by
  induction ds generalizing es with
  | nil => cases es <;> simp
  | cons d ds ih =>
    cases es with
    | nil => simp
    | cons e es =>
      have rest := @ih es fun d member => named d (List.mem_cons_of_mem _ member)
      have first := Dim.agrees_iff (e := e) (named d List.mem_cons_self)
      simp only [Bool.and_eq_true, beq_iff_eq] at rest
      simp [first, ← rest, and_left_comm]

theorem Holder.name_injective (h k : Holder) (same : h.name = k.name) : h = k := by
  cases h <;> cases k <;> first | rfl | cases same

namespace FullType

variable (s t : FullType)

/-- What the type is printed as. -/
def text : String :=
  spelling t.scalar (t.layers.map (·.holder))

theorem javaText_eq : t.shape.javaText = .ok t.text :=
  printDims_eq_spelling t.isScalar t.layers

theorem names_eq : t.names = (t.layers.map (·.holder)).map Holder.name ++ [t.scalar] := by
  simp [names]

theorem text_eq_iff : s.text = t.text ↔ s.names = t.names := by
  rw [names_eq, names_eq]
  constructor
  · intro same
    obtain ⟨layers, scalar⟩ := spelling_injective s.isScalar t.isScalar same
    rw [layers, scalar]
  · intro same
    obtain ⟨layers, scalar⟩ := List.append_inj' same rfl
    rw [text, text, (List.map_inj_right Holder.name_injective).1 layers, List.singleton_inj.1 scalar]

theorem agrees_iff : s.shape.agrees t.shape = .ok true ↔ s.names = t.names := by
  have names (t : FullType) :
      (t.layers.map Layer.dim ++ [Dim.plain t.scalar]).map (·.name?) = t.names.map some := by
    have scalar : (Dim.plain t.scalar).name? = some t.scalar := rfl
    simp [FullType.names, Layer.name?_dim, Function.comp_def, scalar]
  change Except.ok _ = Except.ok true ↔ _
  rw [Except.ok.injEq, dims_agree_iff, names, names,
    List.map_inj_right fun _ _ => Option.some.inj]
  intro d member
  have listed : d.name? ∈ s.names.map some := names s ▸ List.mem_map_of_mem member
  obtain ⟨n, -, named⟩ := List.mem_map.1 listed
  rw [← named]
  rfl

end FullType

end PerlJava.Java

namespace PerlJava.Compile

open Java

/-! ### The first field of a loop -/

section Field

variable {s : State}

/-- A loop that goes on as long as what has been gone through is good, and else answers `true`. -/
theorem forIn_while {α β : Type} {f : α → Option Bool × β → Plain (ForInStep (Option Bool × β))}
    (good : List α → Prop) (carried : List α → β)
    (closed : ∀ done rest, good (done ++ rest) → good done) {rest : List α}
    (step : ∀ x ∈ rest, ∀ done, good done → ∃ r, (f x (none, carried done)).run s = .ok r s
      ∧ (good (done ++ [x]) ∧ r = .yield (none, carried (done ++ [x]))
        ∨ ¬good (done ++ [x]) ∧ ∃ more, r = .done (some true, more)))
    {done : List α} (start : good done) :
    ∃ r, (forIn rest (none, carried done) f).run s = .ok r s
      ∧ (good (done ++ rest) ∧ r = (none, carried (done ++ rest))
        ∨ ¬good (done ++ rest) ∧ ∃ more, r = (some true, more)) := by
  induction rest generalizing done with
  | nil => exact ⟨_, rfl, .inl ⟨by simpa using start, by simp⟩⟩
  | cons x rest ih =>
    rw [List.forIn_cons, List.append_cons]
    obtain ⟨_, first, ⟨good, rfl⟩ | ⟨bad, more, rfl⟩⟩ := step x List.mem_cons_self done start
    · obtain ⟨r, run, found⟩ := ih (fun y member => step y (List.mem_cons_of_mem _ member)) good
      exact ⟨r, Plain.bind_eq_ok.2 ⟨_, _, first, run⟩, found⟩
    · exact ⟨_, Plain.bind_eq_ok.2 ⟨_, _, first, rfl⟩, .inr ⟨fun all => bad (closed _ _ all), more, rfl⟩⟩

theorem exists_bind {α β : Type} {x : Plain α} {f : α → Plain β} {P : α → Prop} {Q : β → Prop}
    (first : ∃ a, x.run s = .ok a s ∧ P a) (second : ∀ a, P a → ∃ b, (f a).run s = .ok b s ∧ Q b) :
    ∃ b, (x >>= f).run s = .ok b s ∧ Q b := by
  obtain ⟨a, run, holds⟩ := first
  obtain ⟨b, run', holds'⟩ := second a holds
  exact ⟨b, Plain.bind_eq_ok.2 ⟨a, s, run, run'⟩, holds'⟩

variable (type : DeclId → FullType)

def firstText (ids : List DeclId) : Option String :=
  ids.head?.map fun id => (type id).text

/-- All types are printed like the first. -/
def PrintedAlike (ids : List DeclId) : Prop :=
  ∀ id ∈ ids, firstText type ids = some (type id).text

variable {type} {ids : List DeclId} {id : DeclId}

theorem declaredType_eq (typed : (s.pending.getD id {}).shape = (type id).shape) :
    (declaredType id).run s = .ok (type id).text s := by
  refine Plain.bind_eq_ok.2 ⟨s.pending.getD id {}, s, rfl, ?_⟩
  rw [typed, FullType.javaText_eq]
  rfl

theorem firstText_snoc :
    firstText type (ids ++ [id]) = some ((firstText type ids).getD (type id).text) := by
  cases ids <;> simp [firstText]

theorem PrintedAlike.of_append {more : List DeclId} (alike : PrintedAlike type (ids ++ more)) :
    PrintedAlike type ids := by
  cases ids with
  | nil => exact nofun
  | cons first ids => exact fun id member => alike id (List.mem_append_left more member)

theorem printedAlike_snoc : PrintedAlike type (ids ++ [id])
    ↔ PrintedAlike type ids ∧ (type id).text = (firstText type ids).getD (type id).text := by
  constructor
  · intro alike
    have last := alike id (by simp)
    rw [firstText_snoc, Option.some.injEq] at last
    exact ⟨alike.of_append, last.symm⟩
  · rintro ⟨alike, last⟩ i member
    rw [firstText_snoc]
    obtain member | member := List.mem_append.1 member
    · rw [alike i member]
      rfl
    · rw [← last, List.mem_singleton.1 member]

/-- Comparing with the first is comparing with each other. -/
theorem printedAlike_iff : PrintedAlike type ids
    ↔ ∀ i ∈ ids, ∀ j ∈ ids, (type i).shape.agrees (type j).shape = .ok true := by
  simp only [FullType.agrees_iff, ← FullType.text_eq_iff]
  constructor
  · exact fun alike i hi j hj => Option.some.inj ((alike i hi).symm.trans (alike j hj))
  · intro same id member
    cases ids with
    | nil => cases member
    | cons first ids => exact congrArg some (same first List.mem_cons_self id member)

end Field

/-- Code that declares variables and does nothing else. -/
structure DeclaresOnly (st : Fragment) : Prop where
  whole : st.bare = false
  idle : st.statement.any (!·.isEmpty) = false

theorem DeclaresOnly.run {st : Fragment} {s : State} (only : DeclaresOnly st) {β : Type} (x y : Plain β) :
    (do st.whole; if st.statement.any (!·.isEmpty) then x else y : Plain β).run s = y.run s := by
  have whole : st.whole = .ok () := by simp [Fragment.whole, only.whole]
  rw [whole, only.idle]
  rfl

def declaredBy (init : List Fragment) : List DeclId :=
  init.flatMap (·.declares)

theorem declaredBy_append (done rest : List Fragment) :
    declaredBy (done ++ rest) = declaredBy done ++ declaredBy rest :=
  List.flatMap_append

/-- What the loop over the field carries along. -/
def carried (type : DeclId → FullType) (done : List Fragment) : Bool × Bool × Option String :=
  (!(declaredBy done).isEmpty, false, firstText type (declaredBy done))

theorem needsOuterBlock_eq {type : DeclId → FullType} {s : State} {init : List Fragment}
    (only : ∀ st ∈ init, DeclaresOnly st)
    (typed : ∀ st ∈ init, ∀ id ∈ st.declares, (s.pending.getD id {}).shape = (type id).shape) :
    ∃ b, (needsOuterBlock init).run s = .ok b s
      ∧ (b = false ↔ PrintedAlike type (declaredBy init)) := by
  have start : PrintedAlike type (declaredBy []) := nofun
  refine exists_bind (forIn_while (fun done => PrintedAlike type (declaredBy done)) (carried type)
    (fun done rest alike => ?_) (fun st member done alike => ?_) start) ?_
  · rw [declaredBy_append] at alike
    exact alike.of_append
  · have declares : declaredBy [st] = st.declares := List.flatMap_singleton _ _
    rw [carried, carried, declaredBy_append, declares]
    change ∃ r, Plain.run (ite _ _ _) s = _ ∧ _
    split
    · next none =>
      rw [List.isEmpty_iff.1 none, List.append_nil]
      exact ⟨_, (only st member).run _ _, .inl ⟨alike, rfl⟩⟩
    · next some =>
      refine exists_bind (forIn_while (PrintedAlike type) (firstText type)
        (fun _ _ => PrintedAlike.of_append) (fun id declared old alike => ?_) alike) ?_
      · refine exists_bind ⟨_, declaredType_eq (typed st member id declared), rfl⟩ ?_
        rintro _ rfl
        rw [printedAlike_snoc, firstText_snoc]
        dsimp only
        split
        · next other => exact ⟨_, rfl, .inr ⟨fun both => by simp [← both.2] at other, _, rfl⟩⟩
        · next same => exact ⟨_, rfl, .inl ⟨⟨alike, by simpa using same⟩, rfl⟩⟩
      · rintro _ (⟨alike, rfl⟩ | ⟨unlike, more, rfl⟩)
        · exact ⟨_, (only st member).run _ _, .inl ⟨alike, by simp_all⟩⟩
        · exact ⟨_, rfl, .inr ⟨unlike, _, rfl⟩⟩
  · rintro _ (⟨alike, rfl⟩ | ⟨unlike, more, rfl⟩)
    · exact ⟨_, rfl, fun _ => alike, fun _ => rfl⟩
    · exact ⟨_, rfl, nofun, fun alike => absurd alike unlike⟩

/-- Types that are given in full can be printed, and are printed alike exactly if they agree, which
means that their dimensions have the same names. So a loop that declares its variables itself finds
out whether their types agree. -/
theorem printed_types_identify_types (t u : FullType) :
    (∃ text, t.shape.javaText = .ok text)
      ∧ (t.shape.javaText = u.shape.javaText ↔ t.shape.agrees u.shape = .ok true)
      ∧ (t.shape.agrees u.shape = .ok true ↔ t.names = u.names)
      ∧ ∀ (type : DeclId → FullType) (s : State) (init : List Fragment),
        (∀ st ∈ init, DeclaresOnly st) →
        (∀ st ∈ init, ∀ id ∈ st.declares, (s.pending.getD id {}).shape = (type id).shape) →
        ∃ b, (needsOuterBlock init).run s = .ok b s
          ∧ (b = false ↔ ∀ i ∈ declaredBy init, ∀ j ∈ declaredBy init,
            (type i).shape.agrees (type j).shape = .ok true) := by
  refine ⟨⟨_, t.javaText_eq⟩, ?_, t.agrees_iff u, fun type s init only typed => ?_⟩
  · rw [t.javaText_eq, u.javaText_eq, Except.ok.injEq, t.text_eq_iff, t.agrees_iff]
  · rw [← printedAlike_iff]
    exact needsOuterBlock_eq only typed

def arrayOfLists : FullType where
  layers := [⟨.array, some (some "5")⟩, ⟨.list, none⟩]
  scalar := .integer
  isScalar h := by cases h <;> decide

def listOfArrays : FullType where
  layers := [⟨.list, none⟩, ⟨.array, some none⟩]
  scalar := .integer
  isScalar h := by cases h <;> decide

/-- A loop that declares an array of lists and a list of arrays. -/
theorem arrays_and_lists_apart :
    let s : State := { pending := #[{ shape := arrayOfLists.shape }, { shape := listOfArrays.shape }] }
    (needsOuterBlock [{ declares := [0, 1] }]).run s = .ok true s := by
  intro s
  let type (id : DeclId) : FullType := if id = 0 then arrayOfLists else listOfArrays
  obtain ⟨b, run, answer⟩ := (printed_types_identify_types arrayOfLists listOfArrays).2.2.2 type s
    [{ declares := [0, 1] }] (by simpa using ⟨rfl, rfl⟩) (by simp [s, type])
  cases b with
  | true => exact run
  | false =>
    have same := answer.1 rfl 0 (by simp [declaredBy]) 1 (by simp [declaredBy])
    exact absurd ((FullType.agrees_iff _ _).1 same) (by decide)

end PerlJava.Compile
