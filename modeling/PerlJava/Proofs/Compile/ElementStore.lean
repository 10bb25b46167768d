import PerlJava.Proofs.Compile.ParseTree
import PerlJava.Proofs.Compile.StepLogic
import PerlJava.Proofs.Java.EditedText

/-!
# Elements stored to and deleted where they are read

An element that subscripts lead to knows how it is read and how it is stored to. Where only the text
that reads it is at hand, storing and deleting edit that text; this says when they find the element.
-/

namespace PerlJava.Compile

open Java Regex

/-! ### Paths of subscripts -/

/-- A subscript: the key, the place where it ends, whether it is in braces, as for a hash, and whether
an arrow stands before it. -/
structure Subscript where
  key : Fragment
  at_ : Position
  braces : Bool
  arrow : Bool

def Subscript.kind (sub : Subscript) : TypeName :=
  if sub.braces then .hash else .array

def Subscript.from (sub : Subscript) (a : Access) : Tidying Access :=
  accessElement a sub.key sub.at_ sub.kind sub.arrow

/-- Subscripts lead from a variable to a place, each without an error. Between them there may be
other steps, which evaluate the keys. -/
inductive Path (root : Fragment) : List Subscript → Access → Prop where
  | start {a : Access} : Access.ofFragment root = .ok a → Path root [] a
  | step {subs : List Subscript} {sub : Subscript} {a b : Access} {s s' : State} :
    Path root subs a → Succeeds (sub.from a).run s b s' → Path root (subs ++ [sub]) b

/-- A place is the element with a key of a collection of a kind, which has a text and which a variable
contains. -/
structure ElementOf (root : Fragment) (a : Access) (container : String) (kind : Dim)
    (key : Fragment) : Prop where
  base : a.base = root
  collection : kind.isCollection = true
  written : ∃ form, elementForm kind key = .ok form ∧ a.value = container ++ form.subscript
    ∧ a.read = form.read ∧ a.store = form.store ∧ a.close = form.close
  typed : ∃ outer inner, root.shape.parts = .ok (outer ++ kind :: inner) ∧ a.shape.parts = .ok inner

def Opens (outer : Shape) (d : Dim) (inner : Shape) : Prop :=
  ∃ ds, outer.parts = .ok (d :: ds) ∧ inner.parts = .ok ds

/-- A type is what is left of another inside some of its dimensions. -/
def Inside (inner outer : Shape) : Prop :=
  ∃ ds es, outer.parts = .ok (es ++ ds) ∧ inner.parts = .ok ds

variable {shape inner : Shape} {d : Dim} {root : Fragment} {a : Access}

theorem Inside.opens {outer : Shape} (inside : Inside shape outer)
    (opens : Opens shape d inner) : Inside inner outer := by
  obtain ⟨ds, es, whole, parts⟩ := inside
  obtain ⟨ds', parts', left⟩ := opens
  obtain rfl : d :: ds' = ds := Except.ok.inj (parts'.symm.trans parts)
  exact ⟨ds', es ++ [d], by simpa using whole, left⟩

theorem inside_of_copy {copied : Shape} (copy : shape.copy = .ok copied) :
    Inside copied shape := by
  cases shape with
  | unset => cases copy
  | word letters =>
    cases copy
    exact ⟨_, [], rfl, rfl⟩
  | dims ds =>
    cases copy
    exact ⟨_, [], rfl, rfl⟩

theorem parts_of_head (head : shape.head = .ok d) :
    ∃ ds, shape.parts = .ok (d :: ds) := by
  obtain ⟨parts, whole, first⟩ := bind_eq_ok.1 head
  cases parts with
  | nil => cases first
  | cons e ds =>
    cases first
    exact ⟨ds, whole⟩

theorem parts_of_tail (tail : shape.tail = .ok inner) :
    ∃ ds, shape.parts = .ok ds ∧ inner.parts = .ok (ds.drop 1) := by
  cases shape with
  | unset => cases tail
  | word letters =>
    cases tail
    exact ⟨_, rfl, by rw [← List.map_drop]; rfl⟩
  | dims ds =>
    cases tail
    exact ⟨ds, rfl, rfl⟩

theorem opens_of_tail (head : shape.head = .ok d)
    (tail : shape.tail = .ok inner) : Opens shape d inner := by
  obtain ⟨ds, whole⟩ := parts_of_head head
  obtain ⟨es, parts, left⟩ := parts_of_tail tail
  obtain rfl : d :: ds = es := Except.ok.inj (whole.symm.trans parts)
  exact ⟨ds, whole, left⟩

theorem Opens.size_ne {outer : Shape} (opens : Opens outer d inner) {n m : Nat}
    (before : outer.size = .ok n) (after : inner.size = .ok m) : m ≠ n := by
  obtain ⟨ds, whole, parts⟩ := opens
  rw [Shape.size, whole] at before
  rw [Shape.size, parts] at after
  cases before
  cases after
  simp

section Step

variable {a b : Access} {key : Fragment} {at_ : Position} {kind : TypeName} {arrow : Bool}
  {s s' : State}

/-- Following a reference leads inside it, or does nothing where an element counts as one. -/
theorem followReference_cases (run : Succeeds (followReference a at_).run s b s') :
    b.base = a.base ∧ ((∃ d, Opens a.shape d b.shape)
      ∨ (a.ref = true ∧ b = { a with position := at_, ref := false })) := by
  unfold followReference at run
  obtain ⟨head, s₁, first, run⟩ := run.bind
  split at run
  · exact absurd run (Succeeds.not_report_bind rfl)
  · next counts =>
    split at run
    · obtain ⟨inner, s₂, tail, run⟩ := run.bind
      obtain ⟨rfl, -⟩ := run.pure
      exact ⟨rfl, .inl ⟨head, opens_of_tail first.lift.1 tail.lift.1⟩⟩
    · next noRef =>
      obtain ⟨rfl, -⟩ := run.pure
      refine ⟨rfl, .inr ⟨?_, rfl⟩⟩
      simpa [noRef] using counts

theorem enter_cases {head? : Option Dim} (run : Succeeds (enter a key at_ kind).run s (b, head?) s') :
    ∃ head, head? = some head ∧ b.base = a.base ∧ b.shape = a.shape ∧ b.shape.head = .ok head
      ∧ (head.is kind || kind == .array && head.is .list) = true := by
  unfold enter at run
  obtain ⟨head, s₁, first, run⟩ := run.bind
  split at run
  · next fits =>
    obtain ⟨⟨⟩, -⟩ := run.pure
    exact ⟨head, rfl, rfl, rfl, first.lift.1, fits⟩
  · exact absurd run (Succeeds.not_report_bind rfl)

/-- A collection of the kind is entered, inside the type of the place, or the arrow did nothing. -/
theorem approach_cases {head? : Option Dim}
    (run : Succeeds (approach a key at_ kind arrow).run s (b, head?) s') :
    (head? = none ∧ a.ref = true ∧ b = { a with position := at_, ref := false })
      ∨ ∃ head, head? = some head ∧ b.base = a.base ∧ b.shape.head = .ok head
        ∧ (head.is kind || kind == .array && head.is .list) = true
        ∧ (b.shape = a.shape ∨ ∃ d, Opens a.shape d b.shape) := by
  unfold approach at run
  obtain ⟨_, s₁, -, run⟩ := run.bind
  split at run
  · obtain ⟨v, s₂, -, run⟩ := run.bind
    obtain ⟨assigned, s₃, -, run⟩ := run.bind
    dsimp only at run
    split at run
    · obtain ⟨dimensions, s₄, sized, run⟩ := run.bind
      split at run
      · obtain ⟨c, s₅, followed, run⟩ := run.bind
        obtain ⟨size, s₆, sized', run⟩ := run.bind
        have before : a.shape.size = .ok dimensions := sized.lift.1
        have after : c.shape.size = .ok size := sized'.lift.1
        obtain ⟨base, ⟨d, opens⟩ | ⟨counts, rfl⟩⟩ := followReference_cases followed
        · split at run
          · next same => exact absurd (eq_of_beq same) (opens.size_ne before after)
          · obtain ⟨head, some_, base', shape, first, fits⟩ := enter_cases run
            exact .inr ⟨head, some_, base'.trans base, first, fits, .inr ⟨d, shape ▸ opens⟩⟩
        · split at run
          · obtain ⟨⟨⟩, -⟩ := run.pure
            exact .inl ⟨rfl, counts, rfl⟩
          · next other => simp_all
      · obtain ⟨head, some_, base, shape, first, fits⟩ := enter_cases run
        exact .inr ⟨head, some_, base, first, fits, .inl shape⟩
    · exact absurd run (Succeeds.not_report_bind rfl)
  · exact absurd run (Succeeds.not_report_bind rfl)

theorem accessElement_cases (run : Succeeds (accessElement a key at_ kind arrow).run s b s') :
    Succeeds (approach a key at_ kind arrow).run s (b, none) s'
      ∨ ∃ c head text, Succeeds (approach a key at_ kind arrow).run s (c, some head) s'
        ∧ elementOf c head key text = .ok b := by
  have ran := run.ran
  rw [Tidying.run_eq (accessElement_on ..) (accessElement_off ..)] at ran
  obtain ⟨⟨c, head?⟩, s₁, approached, ran⟩ := Plain.cut ran
  cases head? with
  | none =>
    cases ran
    exact .inl ⟨run.levels, approached, run.fine⟩
  | some head =>
    obtain ⟨made, rfl⟩ := Plain.lift_eq_ok.1 ran
    exact .inr ⟨c, head, _, ⟨run.levels, approached, run.fine⟩, made⟩

theorem elementOf_place {root : Fragment} {collection : Dim} {text : String}
    (base : a.base = root) (inside : Inside a.shape root.shape) (head : a.shape.head = .ok collection)
    (kept : collection.isCollection = true) (made : elementOf a collection key text = .ok b) :
    ElementOf root b text collection key := by
  obtain ⟨form, formed, made⟩ := bind_eq_ok.1 made
  obtain ⟨inner, tail, ⟨⟩⟩ := bind_eq_ok.1 made
  obtain ⟨ds, whole, parts⟩ := opens_of_tail head tail
  obtain ⟨ds', es, outer, parts'⟩ := inside
  obtain rfl : collection :: ds = ds' := Except.ok.inj (whole.symm.trans parts')
  exact ⟨base, kept, ⟨form, formed, rfl, rfl, rfl, rfl⟩, ⟨es, ds, outer, parts⟩⟩

end Step

theorem isCollection_of_is {name : TypeName} (is : d.is name = true) :
    d.isCollection = name.isCollection := by
  have named : d.name? = some name := eq_of_beq is
  rw [Dim.isCollection, named]
  rfl

theorem Subscript.leads {sub : Subscript} {b : Access} {s s' : State}
    (base : a.base = root) (inside : Inside a.shape root.shape)
    (counts : a.ref = true → ∃ container kind key, ElementOf root a container kind key)
    (run : Succeeds (sub.from a).run s b s') :
    ∃ container kind key, ElementOf root b container kind key := by
  obtain approached | ⟨c, head, text, approached, made⟩ := accessElement_cases run
  · obtain ⟨-, ref, rfl⟩ | ⟨_, ⟨⟩, -⟩ := approach_cases approached
    obtain ⟨container, kind, key, element⟩ := counts ref
    exact ⟨container, kind, key, element.base, element.collection, element.written, element.typed⟩
  · obtain ⟨⟨⟩, -⟩ | ⟨_, ⟨⟩, base', first, fits, shape⟩ := approach_cases approached
    have inside' : Inside c.shape root.shape := by
      obtain same | ⟨d, opens⟩ := shape
      · rw [same]
        exact inside
      · exact inside.opens opens
    have kept : head.isCollection = true := by
      obtain named | list : head.is sub.kind = true ∨ head.is .list = true := by
        rw [Bool.or_eq_true, Bool.and_eq_true] at fits
        exact fits.imp_right And.right
      · rw [isCollection_of_is named, Subscript.kind]
        split <;> rfl
      · exact isCollection_of_is list
    exact ⟨text, head, sub.key, elementOf_place (base'.trans base) inside' first kept made⟩

theorem Path.elementOf {subs : List Subscript} (path : Path root subs a) (some_ : subs ≠ []) :
    ∃ container kind key, ElementOf root a container kind key := by
  induction path with
  | start => exact absurd rfl some_
  | @step subs sub a b s s' before run ih =>
    cases before with
    | start made =>
      obtain ⟨shape, copied, ⟨⟩⟩ := bind_eq_ok.1 made
      exact Subscript.leads rfl (inside_of_copy copied) (fun counts => by cases counts) run
    | step before run' =>
      obtain ⟨container, kind, key, element⟩ := ih (by simp)
      refine Subscript.leads element.base ?_ (fun _ => ⟨container, kind, key, element⟩) run
      obtain ⟨outer, inner, whole, parts⟩ := element.typed
      exact ⟨inner, outer ++ [kind], by simpa using whole, parts⟩

/-- Wherever subscripts lead, the variable stays the one they start from. -/
theorem Path.base {subs : List Subscript} (path : Path root subs a) : a.base = root := by
  cases path with
  | start made =>
    obtain ⟨shape, -, ⟨⟩⟩ := bind_eq_ok.1 made
    rfl
  | step before run =>
    obtain ⟨_, _, _, element⟩ := (before.step run).elementOf (by simp)
    exact element.base

/-! ### The texts of elements -/

def readKey (kind : Dim) (key : Fragment) : Except Fault String :=
  if kind.is .list then .ok key.value else key.toText

def storedKey (kind : Dim) (key : Fragment) : Except Fault String :=
  if kind.is .list then key.toInteger else key.toText

section Texts

variable {root : Fragment} {a : Access} {container exp : String} {outer kind : Dim} {key : Fragment}

/-- How an element is written: like a variable in an array, by calls elsewhere. -/
theorem ElementOf.texts (element : ElementOf root a container kind key) :
    (storeCall kind = none ∧ a.read = "" ∧ a.store = " = " ∧ a.close = "")
      ∨ ∃ function k k', storeCall kind = some function ∧ readKey kind key = .ok k
        ∧ storedKey kind key = .ok k' ∧ a.value = container ∧ a.read = ".get(" ++ k
        ∧ a.store = "." ++ function ++ "(" ++ k' ++ "," ∧ a.close = ")" := by
  obtain ⟨form, formed, value, read, store, close⟩ := element.written
  have collection := element.collection
  unfold elementForm at formed
  unfold Dim.isCollection at collection
  unfold storeCall readKey storedKey Dim.is
  rw [read, store, close, value]
  split at formed
  · next named =>
    obtain ⟨_, -, ⟨⟩⟩ := bind_eq_ok.1 formed
    exact .inl ⟨by rw [named], rfl, rfl, rfl⟩
  · next named =>
    obtain ⟨k', stored, ⟨⟩⟩ := bind_eq_ok.1 formed
    refine .inr ⟨"set", key.value, k', by rw [named], by rw [named]; rfl, by rw [named]; exact stored,
      String.append_empty, rfl, rfl, rfl⟩
  · next noArray noList =>
    obtain ⟨k, spelt, ⟨⟩⟩ := bind_eq_ok.1 formed
    have named : kind.name? = some .hash := by
      cases found : kind.name? with
      | none => simp [found] at collection
      | some name => cases name <;> simp_all [TypeName.isCollection]
    refine .inr ⟨"put", k, k, by rw [named], ?_, ?_, String.append_empty, rfl, rfl, rfl⟩
    · rw [named]
      exact spelt
    · rw [named]
      exact spelt

/-- Whether a key ends the text of a read: it stands on one line and has no such call in it. -/
def EndsRead (call key : String) : Prop :=
  '\n' ∉ key.toList ∧ ¬call.toList <:+: key.toList

/-- When the text that reads an element can be edited into one that stores an expression to it: the
outermost collection is stored to like the innermost, and if that takes a call, the key ends the read,
is the same where the element is stored to, and the expression is a template for itself. -/
structure Editable (outer kind : Dim) (key : Fragment) (exp : String) : Prop where
  call : storeCall outer = storeCall kind
  texts : storeCall kind ≠ none → spellsItself exp.toList = true
    ∧ ∃ k, readKey kind key = .ok k ∧ storedKey kind key = .ok k ∧ EndsRead "get(" k

variable (element : ElementOf root a container kind key)

include element

theorem ElementOf.storeInto_eq (editable : Editable outer kind key exp) :
    Edit.storeInto outer a.readText exp = .ok (a.storeText exp) := by
  obtain ⟨call, read, store, close⟩ | ⟨function, k, k', call, readKey, storedKey, value, read, store,
    close⟩ := element.texts
  · rw [storeInto_assigns (editable.call.trans call), Access.readText, Access.storeText, read, store,
      close]
    simp
  · obtain ⟨spells, k'', same, same', oneLine, last⟩ := editable.texts (by simp [call])
    obtain rfl : k = k'' := Except.ok.inj (readKey.symm.trans same)
    obtain rfl : k' = k := Except.ok.inj (storedKey.symm.trans same')
    have whole : a.readText.toList = (container.toList ++ ['.']) ++ "get(".toList ++ k'.toList ++ [')'] := by
      simp [Access.readText, value, read, close]
    obtain ⟨stored, made, text⟩ := Java.storeInto_eq (editable.call.trans call) whole oneLine last spells
    rw [made]
    refine congrArg Except.ok (String.toList_inj.1 ?_)
    rw [text]
    simp [Access.storeText, value, store, close]

theorem ElementOf.storeCall_eq
    (same : Edit.storeInto outer a.readText exp = .ok (a.storeText exp)) :
    storeCall outer = storeCall kind := by
  obtain ⟨call, read, store, close⟩ | ⟨function, k, k', call, -, -, value, read, store, close⟩ :=
    element.texts
  · cases outerCall : storeCall outer with
    | none => exact call.symm
    | some outerFunction =>
      have text : (a.storeText exp).toList = a.readText.toList ++ (" = ".toList ++ exp.toList) := by
        simp [Access.readText, Access.storeText, read, store, close]
      obtain unchanged | ⟨front, c, rest, rest', -, other, whole, stored⟩ :=
        storeInto_cases outerCall same
      · rw [unchanged] at text
        simp at text
      · rw [whole, stored] at text
        simp [other] at text
  · obtain ⟨c, name, spelt, other, -⟩ := storeCall_spelling call
    have readText : a.readText.toList
        = (container.toList ++ ['.']) ++ 'g' :: ("et(".toList ++ k.toList ++ [')']) := by
      simp [Access.readText, value, read, close]
    have storeText : (a.storeText exp).toList = (container.toList ++ ['.'])
        ++ c :: (name ++ "(".toList ++ k'.toList ++ ",".toList ++ exp.toList ++ [')']) := by
      simp [Access.storeText, value, store, close, spelt]
    cases outerCall : storeCall outer with
    | none =>
      rw [storeInto_assigns outerCall] at same
      have assigned := congrArg String.toList (Except.ok.inj same)
      rw [storeText, String.toList_append, String.toList_append, readText] at assigned
      simp [Ne.symm other] at assigned
    | some outerFunction =>
      obtain unchanged | ⟨front, c', rest, rest', head, other', whole, stored⟩ :=
        storeInto_cases outerCall same
      · rw [unchanged, readText] at storeText
        simp [Ne.symm other] at storeText
      · obtain ⟨-, rfl⟩ := eq_of_differ (Ne.symm other) (Ne.symm other')
          (readText.symm.trans whole) (storeText.symm.trans stored)
        rw [call, storeCall_inj outerCall call (by rw [head, spelt]; rfl)]

theorem ElementOf.readText_of_hash {k : String}
    (hash : kind.name? = some .hash) (spelt : key.toText = .ok k) :
    a.readText.toList = container.toList ++ ".get(".toList ++ k.toList ++ [')'] := by
  obtain ⟨call, -⟩ | ⟨_, k', _, -, readKey, -, value, read, -, close⟩ := element.texts
  · simp [storeCall, hash] at call
  · have notList : kind.is .list = false := by
      rw [Dim.is, hash]
      rfl
    rw [Compile.readKey, notList] at readKey
    obtain rfl : k = k' := Except.ok.inj (spelt.symm.trans readKey)
    simp [Access.readText, value, read, close]

theorem ElementOf.deletion_eq {k : String}
    (hash : kind.name? = some .hash) (spelt : key.toText = .ok k) (ends : EndsRead ".get(" k)
    (line : '\n' ∉ container.toList) :
    Edit.deletion a.readText = "Perl.delete(" ++ container ++ "," ++ k ++ ")" := by
  refine String.toList_inj.1 ?_
  rw [Java.deletion_eq (element.readText_of_hash hash spelt) line ends.1 ends.2]
  simp

end Texts

/-! ### Storing and deleting -/

section Edits

variable {s s' : State} {root c : Fragment} {a : Access} {container exp : String} {kind : Dim}
  {key : Fragment} {id : VarId}

theorem readVariable_found {name : String} {at_ : Position} {package : Option Package}
    (run : Succeeds (readVariable name at_ package).run s c s') :
    c.bare = false ∧ c.slot = none ∧ c.condition = none ∧ ∃ id, c.variable_ = some id := by
  obtain ⟨found, s₁, -, run⟩ := run.bind
  cases found with
  | some id =>
    obtain ⟨v, s₂, -, run⟩ := run.bind
    obtain ⟨shape, s₃, -, run⟩ := run.bind
    obtain ⟨rfl, -⟩ := run.pure
    exact ⟨rfl, rfl, rfl, id, rfl⟩
  | none =>
    obtain ⟨_, s₂, reported, -⟩ := run.bind
    unfold reportNoVariable at reported
    split at reported
    · exact absurd reported (Succeeds.not_report rfl)
    · obtain ⟨now, s₃, -, reported⟩ := reported.bind
      split at reported
      · exact absurd reported (Succeeds.not_report rfl)
      · exact absurd reported (Succeeds.not_report rfl)

theorem run_storeInto {outer : Dim} (whole : c.bare = false) (names : c.variable_ = some id)
    (head : (s.vars.getD id {}).shape.head = .ok outer) (exp : String) :
    (storeInto c exp).run s = (liftM (Edit.storeInto outer c.value exp) : Plain String).run s := by
  have noAccess : Gives s (liftM c.whole) () := .lift (by simp [Fragment.whole, whole])
  have variable_ : Gives s (variableOf id) (s.vars.getD id {}) := .bind .read (.pure _)
  unfold storeInto
  rw [noAccess.run_bind, names, variable_.run_bind, (Gives.lift head).run_bind]

theorem gives_readsHash (element : ElementOf root a container kind key)
    (hash : kind.name? = some .hash) (whole : c.bare = false) (names : c.variable_ = some id)
    (typed : (s.vars.getD id {}).shape = root.shape) (shape : c.shape = a.shape) :
    Gives s (NativeCall.readsHash c) true := by
  obtain ⟨outer, inner, parts, left⟩ := element.typed
  have noAccess : Gives s (liftM c.whole) () := .lift (by simp [Fragment.whole, whole])
  have variable_ : Gives s (variableOf id) (s.vars.getD id {}) := .bind .read (.pure _)
  unfold NativeCall.readsHash
  refine .bind noAccess ?_
  rw [names]
  refine .bind variable_ (.bind (.lift (typed ▸ parts)) (.bind (.lift (a := inner.length) ?_) ?_))
  · rw [shape, Shape.size, left]
    rfl
  · have found : ((outer ++ kind :: inner).reverse.drop inner.length).head?.any (·.is .hash)
        = true := by
      simp [Dim.is, hash]
    rw [if_pos (by simp; omega), found]
    exact .pure true

def readCode (a : Access) : Fragment :=
  { a.base with
    ref := a.ref
    shape := a.shape
    position := a.position
    value := a.readText
    declares := a.base.declares ++ a.declares }

theorem gives_sync (free : c.slot = none) : Gives s (sync c) c := by
  unfold sync
  rw [free]
  exact .pure c

theorem gives_delete {call : NativeCall} (element : ElementOf root a container kind key)
    {k : String} (hash : kind.name? = some .hash) (spelt : key.toText = .ok k)
    (ends : EndsRead ".get(" k) (line : '\n' ∉ container.toList)
    (opening : container.toList.head? ≠ some '(') (whole : root.bare = false)
    (free : root.slot = none) (names : root.variable_ = some id)
    (typed : (s.vars.getD id {}).shape = root.shape)
    (assigned : isAssignedIn s.assigned (s.vars.getD id {}).name false = true)
    (arguments : call.arguments = [readCode a]) :
    Gives s call.delete (call.result ("Perl.delete(" ++ container ++ "," ++ k ++ ")") a.shape
      (root.declares ++ a.declares)) := by
  obtain rfl : a.base = root := element.base
  have readsHash : Gives s (NativeCall.readsHash (readCode a)) true :=
    gives_readsHash element hash whole names typed rfl
  have checked : Gives s (check (readCode a) false) () := by
    refine gives_check whole fun {id'} names' => ?_
    obtain rfl : id = id' := Option.some.inj (names.symm.trans names')
    exact assigned
  have bare : (readCode a).stripParens = readCode a := by
    refine if_neg ?_
    have first : a.readText.toList.head? ≠ some '(' := by
      rw [element.readText_of_hash hash spelt]
      cases text : container.toList with
      | nil => simp
      | cons d rest => simpa [text] using opening
    simp [readCode, first]
  have unwrapped : Gives s (unwrapped (readCode a)) (readCode a) := by
    unfold Compile.unwrapped
    rw [bare]
    exact gives_sync free
  unfold NativeCall.delete NativeCall.single
  rw [arguments]
  refine .bind readsHash (.bind checked (.bind unwrapped ?_))
  rw [← element.deletion_eq hash spelt ends line]
  exact .pure _

end Edits

/-- However an element is reached from a variable by subscripts, the text that reads it becomes the
text that stores an expression to it, where it can be edited, and it does so only where the outermost
collection is stored to like the innermost. The text that reads an element of a hash becomes its
deletion. -/
theorem elements_edited_where_read {name : String} {at_ : Position} {package : Option Package}
    {v : Fragment} {s₀ s₁ s : State} {subscripts : List Subscript} {a : Access}
    (reads : Succeeds (readVariable name at_ package).run s₀ v s₁)
    (path : Path (v.mark .variable_) subscripts a) (some_ : subscripts ≠ [])
    (typed : ∀ {id}, v.variable_ = some id → (s.vars.getD id {}).shape = v.shape) :
    (∃ container kind key, ElementOf (v.mark .variable_) a container kind key)
      ∧ Gives s (valueOf a) (readCode a)
      ∧ ∀ {container kind key outer}, ElementOf (v.mark .variable_) a container kind key →
        v.shape.head = .ok outer →
        (∀ {exp}, Editable outer kind key exp →
          Gives s (storeInto (readCode a) exp) (a.storeText exp))
        ∧ (∀ {exp}, Gives s (storeInto (readCode a) exp) (a.storeText exp) →
          storeCall outer = storeCall kind)
        ∧ ∀ {call : NativeCall} {k}, call.arguments = [readCode a] → kind.name? = some .hash →
          key.toText = .ok k → EndsRead ".get(" k → '\n' ∉ container.toList →
          container.toList.head? ≠ some '(' → (∀ {id}, v.variable_ = some id →
            isAssignedIn s.assigned (s.vars.getD id {}).name false = true) →
          Gives s call.delete (call.result ("Perl.delete(" ++ container ++ "," ++ k ++ ")") a.shape
            (v.declares ++ a.declares)) := by
  obtain ⟨whole, free, -, id, names⟩ := readVariable_found reads
  obtain ⟨container, kind, key, element⟩ := path.elementOf some_
  have base : a.base = v.mark .variable_ := element.base
  have slot : (readCode a).slot = none := by
    rw [readCode, base]
    exact free
  have noAccess : (readCode a).bare = false := by
    rw [readCode, base]
    exact whole
  have named : (readCode a).variable_ = some id := by
    rw [readCode, base]
    exact names
  refine ⟨⟨container, kind, key, element⟩, gives_sync slot, ?_⟩
  intro container kind key outer element head
  have stores (exp : String) : (storeInto (readCode a) exp).run s
      = (liftM (Edit.storeInto outer a.readText exp) : Plain String).run s :=
    run_storeInto noAccess named (typed names ▸ head) exp
  refine ⟨fun editable => ?_, fun stored => ?_, fun arguments hash spelt ends line opening assigned =>
    gives_delete element hash spelt ends line opening whole free names (typed names) (assigned names)
      arguments⟩
  · exact (stores _).trans (Gives.lift (element.storeInto_eq editable))
  · exact element.storeCall_eq (Plain.lift_eq_ok.1 ((stores _).symm.trans stored)).1

def twoHashes : State :=
  { (default : State) with
    vars := #[{ name := some "h", shape := .ofNames [.hash, .hash, .string] },
      { name := some "f", shape := .ofNames [.hash, .string] }]
    declared := [.ofList [("h", 0), ("f", 1)]]
    assigned := [[]] }

def hashCode (name : String) (id : VarId) (shape : Shape) : Fragment :=
  { value := name, shape, position := {}, variable_ := some id }

def inBraces (value : String) : Subscript where
  key := { value, shape := .scalar .string }
  at_ := {}
  braces := true
  arrow := false

def nestedElement : Access where
  base := (hashCode "h" 0 (.ofNames [.hash, .hash, .string])).mark .variable_
  value := "h.get(\"a\")"
  shape := .scalar .string
  position := {}
  read := ".get(\"k\""
  store := ".put(\"k\","
  close := ")"
  ref := true

def callWith (c : Fragment) : NativeCall :=
  { name := "delete", start := {}, arguments := [c], position := {} }

theorem succeeds_twoHashes {α : Type} {x : M α} {a : α} (ran : x twoHashes = .ok a twoHashes) :
    Succeeds x twoHashes a twoHashes :=
  ⟨by decide, ran, rfl⟩

theorem path_nestedElement : Path nestedElement.base [inBraces "\"a\"", inBraces "\"k\""]
    nestedElement :=
  .step (.step (.start rfl) (succeeds_twoHashes (by rfl))) (succeeds_twoHashes (by rfl))

theorem elementOf_nestedElement : ElementOf nestedElement.base nestedElement "h.get(\"a\")"
    (.plain .hash) (inBraces "\"k\"").key where
  base := rfl
  collection := rfl
  written := ⟨_, rfl, rfl, rfl, rfl, rfl⟩
  typed := ⟨[.plain .hash], [.plain .string], rfl, rfl⟩

/-- The element `$h{"a"}{"k"}` is stored to and deleted. -/
theorem nested_element_edited :
    Gives twoHashes (storeInto (readCode nestedElement) "\"\\\"v\"") "h.get(\"a\").put(\"k\",\"\\\"v\")"
      ∧ Gives twoHashes (callWith (readCode nestedElement)).delete
        ((callWith (readCode nestedElement)).result "Perl.delete(h.get(\"a\"),\"k\")"
          (.scalar .string) []) := by
  have reads : Succeeds (readVariable "h" {} none).run twoHashes
      (hashCode "h" 0 (.ofNames [.hash, .hash, .string])) twoHashes := succeeds_twoHashes (by rfl)
  have typed {id : VarId} (names : some 0 = some id) :
      (twoHashes.vars.getD id {}).shape = .ofNames [.hash, .hash, .string] := by
    cases names
    rfl
  have assigned {id : VarId} (names : some 0 = some id) :
      isAssignedIn twoHashes.assigned (twoHashes.vars.getD id {}).name false = true := by
    cases names
    rfl
  have ends (call : String) (is : call = "get(" ∨ call = ".get(") : EndsRead call "\"k\"" := by
    unfold EndsRead
    obtain rfl | rfl := is <;> decide
  obtain ⟨-, -, edited⟩ := elements_edited_where_read reads path_nestedElement (by simp) typed
  obtain ⟨stored, -, deleted⟩ := edited elementOf_nestedElement rfl
  refine ⟨stored ⟨rfl, fun _ => ⟨by decide, "\"k\"", rfl, rfl, ends _ (.inl rfl)⟩⟩, ?_⟩
  exact deleted rfl rfl rfl (ends _ (.inr rfl)) (by decide) (by decide) assigned

/-- The element `$h{$f{"x"}}`. -/
def elementWithReadKey : Access where
  base := (hashCode "h" 0 (.ofNames [.hash, .hash, .string])).mark .variable_
  value := "h"
  shape := .ofNames [.hash, .string]
  position := {}
  read := ".get(f.get(\"x\")"
  store := ".put(f.get(\"x\"),"
  close := ")"
  ref := true

/-- Where the key is itself read from a hash, that hash is stored to instead, and what is deleted is
not the element. -/
theorem element_with_read_key_missed :
    Path elementWithReadKey.base [inBraces "f.get(\"x\")"] elementWithReadKey
      ∧ Gives twoHashes (storeInto (readCode elementWithReadKey) "e") "h.get(f.put(\"x\"),e)"
      ∧ elementWithReadKey.storeText "e" = "h.put(f.get(\"x\"),e)"
      ∧ Gives twoHashes (callWith (readCode elementWithReadKey)).delete
        ((callWith (readCode elementWithReadKey)).result "Perl.delete(h.get(f,\"x\"))"
          (.ofNames [.hash, .string]) []) :=
  ⟨.step (.start rfl) (succeeds_twoHashes (by rfl)), by rfl, by rfl, by rfl⟩

end PerlJava.Compile
