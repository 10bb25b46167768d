/-!
# Maps that keep their order

A finite map whose entries stay in the order in which their keys were first written. Writing a key
again replaces its value where it stands.
-/

namespace PerlJava

/-- A finite map in order of first writing. -/
structure OrderedMap (κ α : Type) where
  entries : List (κ × α) := []
deriving Repr, Inhabited

namespace OrderedMap

variable {κ α : Type} [BEq κ]

/-- Replaces the value of a key in a list of entries, or adds an entry at the end. -/
def insertEntry (key : κ) (value : α) : List (κ × α) → List (κ × α)
  | [] => [(key, value)]
  | (k, v) :: rest => if k == key then (k, value) :: rest else (k, v) :: insertEntry key value rest

variable (m : OrderedMap κ α)

def insert (key : κ) (value : α) : OrderedMap κ α :=
  ⟨insertEntry key value m.entries⟩

def get? (key : κ) : Option α :=
  m.entries.lookup key

def contains (key : κ) : Bool :=
  m.entries.any (·.1 == key)

def erase (key : κ) : OrderedMap κ α :=
  ⟨m.entries.filter fun e => !(e.1 == key)⟩

omit [BEq κ] in
def keys : List κ :=
  m.entries.map (·.1)

omit [BEq κ] in
def values : List α :=
  m.entries.map (·.2)

def merge (m other : OrderedMap κ α) : OrderedMap κ α :=
  other.entries.foldl (fun acc e => acc.insert e.1 e.2) m

def ofList (entries : List (κ × α)) : OrderedMap κ α :=
  entries.foldl (fun acc e => acc.insert e.1 e.2) ⟨[]⟩

section Lemmas

variable [LawfulBEq κ] {m : OrderedMap κ α} {key : κ} {value : α}

theorem mem_of_lookup {entries : List (κ × α)} (found : entries.lookup key = some value) :
    (key, value) ∈ entries := by
  obtain ⟨before, after, rfl, -⟩ := List.lookup_eq_some_iff.1 found
  simp

theorem mem_of_get? (found : m.get? key = some value) : (key, value) ∈ m.entries :=
  mem_of_lookup found

theorem mem_entries_insert {e : κ × α} (member : e ∈ (m.insert key value).entries) :
    e = (key, value) ∨ e ∈ m.entries := by
  obtain ⟨entries⟩ := m
  simp only [insert] at member
  induction entries with
  | nil => exact .inl (by simpa [insertEntry] using member)
  | cons entry rest ih =>
    rw [insertEntry] at member
    split at member
    case isTrue same =>
      obtain rfl | member := List.mem_cons.1 member
      · exact .inl (by rw [eq_of_beq same])
      · exact .inr (List.mem_cons_of_mem _ member)
    case isFalse =>
      obtain rfl | member := List.mem_cons.1 member
      · exact .inr List.mem_cons_self
      · exact (ih member).imp_right (List.mem_cons_of_mem _)

theorem contains_of_get? (found : m.get? key = some value) : m.contains key = true :=
  List.any_eq_true.2 ⟨_, mem_of_get? found, by simp⟩

theorem isSome_get?_of_contains (held : m.contains key = true) : (m.get? key).isSome = true := by
  obtain ⟨e, member, same⟩ := List.any_eq_true.1 held
  rw [get?, ← Option.ne_none_iff_isSome, ne_eq, List.lookup_eq_none_iff]
  intro absent
  exact (bne_iff_ne.1 (absent e member)) (eq_of_beq same).symm

theorem contains_insert (m : OrderedMap κ α) (key : κ) (value : α) (k : κ) :
    (m.insert key value).contains k = (key == k || m.contains k) := by
  obtain ⟨entries⟩ := m
  simp only [contains, insert]
  induction entries with
  | nil => simp [insertEntry]
  | cons entry rest ih =>
    rw [insertEntry]
    split
    case isTrue same =>
      rw [eq_of_beq same, List.any_cons, List.any_cons, eq_of_beq same]
      cases key == k <;> simp
    case isFalse =>
      rw [List.any_cons, List.any_cons, ih]
      cases key == k <;> simp

theorem contains_iff_mem_keys : m.contains key = true ↔ key ∈ m.keys := by
  simp [contains, keys]

theorem mem_keys_insert {k : κ} : k ∈ (m.insert key value).keys ↔ k = key ∨ k ∈ m.keys := by
  rw [← contains_iff_mem_keys, contains_insert, Bool.or_eq_true, contains_iff_mem_keys, beq_iff_eq,
    eq_comm]

theorem get?_insert_self (m : OrderedMap κ α) (key : κ) (value : α) :
    (m.insert key value).get? key = some value := by
  obtain ⟨entries⟩ := m
  simp only [get?, insert]
  induction entries with
  | nil => simp [insertEntry]
  | cons entry rest ih =>
    rw [insertEntry]
    split
    case isTrue same => simp [eq_of_beq same]
    case isFalse other =>
      have other : (key == entry.1) = false := by
        rw [beq_eq_false_iff_ne]
        rintro rfl
        simp at other
      rw [List.lookup_cons, other]
      exact ih

theorem get?_insert_of_ne (m : OrderedMap κ α) {key : κ} (value : α) {k : κ} (other : k ≠ key) :
    (m.insert key value).get? k = m.get? k := by
  have other : (k == key) = false := beq_eq_false_iff_ne.2 other
  obtain ⟨entries⟩ := m
  simp only [get?, insert]
  induction entries with
  | nil => simp [insertEntry, List.lookup_cons, other]
  | cons entry rest ih =>
    obtain ⟨first, v⟩ := entry
    rw [insertEntry]
    split
    case isTrue same => simp [List.lookup_cons, eq_of_beq same, other]
    case isFalse => rw [List.lookup_cons, List.lookup_cons, ih]

theorem mem_of_mem_ofList {entries : List (κ × α)} {e : κ × α}
    (member : e ∈ (ofList entries).entries) : e ∈ entries := by
  suffices ∀ m : OrderedMap κ α, e ∈ (entries.foldl (fun m e => m.insert e.1 e.2) m).entries →
      e ∈ m.entries ∨ e ∈ entries from (this ⟨[]⟩ member).resolve_left List.not_mem_nil
  clear member
  intro m member
  induction entries generalizing m with
  | nil => exact .inl member
  | cons entry rest ih =>
    obtain inserted | later := ih _ member
    · obtain rfl | old := mem_entries_insert inserted
      · exact .inr List.mem_cons_self
      · exact .inl old
    · exact .inr (List.mem_cons_of_mem _ later)

end Lemmas

end OrderedMap

end PerlJava
