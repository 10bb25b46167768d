import PerlJava.Java.Cast
import PerlJava.Proofs.Data.ExceptFold
import PerlJava.Proofs.Java.ArgumentList
import PerlJava.Proofs.Java.Interpolation

/-!
# Arguments of other types

A fragment that is one argument stays one when it is converted to another type.
-/

namespace PerlJava.Java

/-! ### Types in code -/

/-- A text that may stand in code wherever a type may: its brackets are closed in order, and no comma
stands outside them. -/
def IsTypeText (text : String) : Prop :=
  ∀ opened, ∃ afterWord, text.toList.foldlM CodeReading.step ⟨opened, .code false⟩
    = some ⟨opened, .code afterWord⟩

def Shape.Named (s : Shape) : Prop :=
  ∀ ds, s.parts = .ok ds → ∀ d ∈ ds, d.name?.isSome = true

section Types

variable {text : String} {ds whole : List Dim}

theorem IsTypeText.argument (inner : IsTypeText text) {before : String}
    (opens : ∀ opened, before.toList.foldlM CodeReading.step ⟨opened, .code false⟩
      = some ⟨'<' :: opened, .code false⟩) : IsTypeText (before ++ text ++ ">") := by
  intro opened
  obtain ⟨afterWord, read⟩ := inner ('<' :: opened)
  refine ⟨false, ?_⟩
  simp only [String.toList_append, List.foldlM_append, opens, Option.bind_eq_bind, Option.bind_some,
    read]
  rfl

private theorem isTypeText_scalarText {d : Dim} (named : d.name?.isSome = true)
    (printed : d.scalarText = .ok text) : IsTypeText text ∧ '%' ∉ text.toList := by
  cases d with
  | plain name =>
    cases printed
    cases name <;> exact ⟨fun opened => ⟨true, rfl⟩, by decide⟩
  | sized => cases printed
  | letter => cases named
  | missing => cases named

theorem isTypeText_printDims (named : ∀ d ∈ ds, d.name?.isSome = true)
    (printed : printDims ds = .ok text) : IsTypeText text := by
  induction ds generalizing text with
  | nil =>
    cases printed
    exact fun opened => ⟨true, rfl⟩
  | cons d rest ih =>
    simp only [List.forall_mem_cons] at named
    obtain ⟨inner, below, printed⟩ := bind_eq_ok.1 printed
    have inside := ih named.2 below
    split at printed
    · cases printed
      intro opened
      obtain ⟨afterWord, read⟩ := inside opened
      refine ⟨false, ?_⟩
      simp only [String.toList_append, List.foldlM_append, read, Option.bind_eq_bind,
        Option.bind_some]
      rfl
    · cases printed
      exact @IsTypeText.argument _ inside "List<" fun opened => rfl
    · cases printed
      exact @IsTypeText.argument _ inside "Map<String," fun opened => rfl
    · cases printed
      exact @IsTypeText.argument _ inside "Ref<" fun opened => rfl
    · exact (isTypeText_scalarText named.1 printed).1

/-- What stands before the brackets of a new array: a type, or a mark where there is none. -/
def IsElementText (text : String) : Prop :=
  text = "%t" ∨ IsTypeText text ∧ '%' ∉ text.toList

private theorem arrayText_eq (named : ∀ d ∈ whole, d.name?.isSome = true)
    (printed : Shape.arrayText whole ds = .ok text) : ∃ base n, IsElementText base
      ∧ text.toList = base.toList ++ (List.replicate n "[%size]".toList).flatten := by
  have plain {base : String} (element : IsElementText base) :
      ∃ base' n, IsElementText base'
        ∧ base.toList = base'.toList ++ (List.replicate n "[%size]".toList).flatten :=
    ⟨base, 0, element, by simp⟩
  induction ds generalizing text with
  | nil =>
    cases printed
    exact plain (.inl rfl)
  | cons d rest ih =>
    rw [Shape.arrayText] at printed
    split at printed
    · cases below : Shape.arrayText whole rest with
      | error f =>
        rw [below] at printed
        cases printed
      | ok inner =>
        rw [below] at printed
        cases printed
        obtain ⟨base, n, element, same⟩ := ih below
        refine ⟨base, n + 1, element, ?_⟩
        rw [String.toList_append, same, List.append_assoc, List.replicate_succ', List.flatten_append]
        simp
    · cases printed
      exact plain (.inr ⟨fun opened => ⟨true, rfl⟩, by decide⟩)
    · cases printed
      exact plain (.inr ⟨fun opened => ⟨true, rfl⟩, by decide⟩)
    · split at printed
      · next last found =>
        exact plain (.inr (isTypeText_scalarText (named last (List.mem_of_getLast? found)) printed))
      · cases printed

private theorem replaceList_sizes (limit n : Nat) (enough : n ≤ limit) :
    Text.replaceList "%size".toList [] limit 0 (List.replicate n "[%size]".toList).flatten
      = (List.replicate n "[]".toList).flatten := by
  induction n generalizing limit with
  | zero => cases limit <;> rfl
  | succ n ih =>
    obtain ⟨limit, rfl⟩ : ∃ more, limit = more + 1 := Nat.exists_eq_succ_of_ne_zero (by omega)
    rw [List.replicate_succ, List.flatten_cons, List.replicate_succ, List.flatten_cons]
    generalize more : (List.replicate n "[%size]".toList).flatten = rest at ih ⊢
    have found : (Text.dropStart? "%size".toList
        ('%' :: ("size".toList ++ (']' :: rest)))).isSome := rfl
    calc Text.replaceList "%size".toList [] (limit + 1) 0 ("[%size]".toList ++ rest)
      _ = '[' :: Text.replaceList "%size".toList [] (limit + 1) 0
            ('%' :: ("size".toList ++ (']' :: rest))) :=
          @Literal.replaceList_append _ _ ['['] _ _ _ (by decide)
      _ = '[' :: Text.replaceList "%size".toList [] limit "size".toList.length
            ("size".toList ++ (']' :: rest)) := by
          rw [Text.replaceList, if_pos found]
          rfl
      _ = '[' :: ']' :: Text.replaceList "%size".toList [] limit 0 rest := by
          rw [Literal.replaceList_skip]
          exact congrArg _ (@Literal.replaceList_append _ _ [']'] _ _ _ (by decide))
      _ = "[]".toList ++ (List.replicate n "[]".toList).flatten := by
          rw [ih limit (by omega)]
          rfl

private theorem isTypeText_brackets {base : List Char} (n : Nat)
    (element : ∀ opened, ∃ afterWord, base.foldlM CodeReading.step ⟨opened, .code false⟩
      = some ⟨opened, .code afterWord⟩) :
    IsTypeText (String.ofList (base ++ (List.replicate n "[]".toList).flatten)) := by
  have brackets (opened : List Char) (afterWord : Bool) : ∃ afterWord',
      (List.replicate n "[]".toList).flatten.foldlM CodeReading.step ⟨opened, .code afterWord⟩
        = some ⟨opened, .code afterWord'⟩ := by
    induction n generalizing afterWord with
    | zero => exact ⟨afterWord, rfl⟩
    | succ n ih =>
      obtain ⟨afterWord', read⟩ := ih false
      refine ⟨afterWord', ?_⟩
      rw [List.replicate_succ, List.flatten_cons, List.foldlM_append]
      exact read
  intro opened
  obtain ⟨afterWord, read⟩ := element opened
  obtain ⟨afterWord', closed⟩ := brackets opened afterWord
  refine ⟨afterWord', ?_⟩
  rw [String.toList_ofList, List.foldlM_append, read]
  exact closed

/-- A new array without sizes is written as a type with brackets. -/
theorem isTypeText_replaceAll (named : ∀ d ∈ whole, d.name?.isSome = true)
    (printed : Shape.arrayText whole ds = .ok text) :
    IsTypeText (Text.replaceAll text "%size" "") := by
  obtain ⟨base, n, element, same⟩ := arrayText_eq named printed
  have long : n ≤ text.length := by
    rw [← String.length_toList, same]
    simp
    omega
  have sizes := replaceList_sizes text.length n long
  rw [Text.replaceAll, same]
  obtain rfl | ⟨type, free⟩ := element
  · obtain ⟨limit, more⟩ : ∃ limit, text.length = limit + 1 :=
      Nat.exists_eq_succ_of_ne_zero (by rw [← String.length_toList, same]; simp)
    have kept : Text.replaceList "%size".toList [] text.length 0
        ("%t".toList ++ (List.replicate n "[%size]".toList).flatten)
          = "%t".toList ++ (List.replicate n "[]".toList).flatten := by
      rw [← sizes, more]
      exact congrArg ('%' :: ·) (@Literal.replaceList_append _ _ ['t'] _ _ _ (by decide))
    rw [show "".toList = [] from rfl, kept]
    exact isTypeText_brackets n fun opened => ⟨true, rfl⟩
  · have kept : Text.replaceList "%size".toList [] text.length 0
        (base.toList ++ (List.replicate n "[%size]".toList).flatten)
          = base.toList ++ (List.replicate n "[]".toList).flatten :=
      (Literal.replaceList_append free).trans (congrArg _ sizes)
    rw [show "".toList = [] from rfl, kept]
    exact isTypeText_brackets n type

end Types

/-! ### Conversions -/

section Conversions

variable {c : Fragment} {text : String}

private theorem single_ofSize (t : NumberType) (single : Single text) : Single (t.ofSize text) := by
  cases t with
  | integer => exact single
  | long => exact single.called rfl
  | float => exact single.called rfl
  | double => exact single.called rfl

private theorem single_spell (t : NumberType) (single : Single text) : Single (t.spell text) := by
  cases t with
  | integer =>
    have whole := @Single.enclosed _ "(int)" "" [] single rfl (by decide) nofun
    rwa [String.append_empty] at whole
  | long => exact single.followed (by decide)
  | float => exact single.followed (by decide)
  | double => exact single.followed (by decide)

private theorem single_call (t : NumberType) (single : Single text) :
    Single (t.parser ++ "(" ++ text ++ ")") ∧ Single (t.converter ++ "(" ++ text ++ ")") := by
  cases t <;> exact ⟨single.called rfl, single.called rfl⟩

theorem single_toNumberType (t : NumberType) (single : Single c.value)
    (made : c.toNumberType t = .ok text) : Single text := by
  have one : Single ("1" ++ t.suffix) := by cases t <;> decide
  unfold Fragment.toNumberType at made
  dsimp only at made
  obtain ⟨size, -, made⟩ := bind_eq_ok.1 made
  split at made
  all_goals obtain ⟨head, -, made⟩ := bind_eq_ok.1 made
  · split at made <;> cases made
    · exact single_ofSize t (single.followed (by decide))
    · exact single_ofSize t (single.followed (by decide))
    · exact one
  · split at made
    · cases made
      exact (single_call t single).1
    · cases made
      have tested : Single ("(" ++ c.value ++ ")?1") := single.enclosed rfl (by decide) (by decide)
      cases t <;> exact .followed (.followed (tested.followed (by decide)) (by decide)) (by decide)
    · cases made
      exact single_ofSize t (single.called rfl)
    · cases made
      exact one
    · split at made <;> cases made
      · split
        · exact single_spell t single
        · exact (single_call t single).2
      · exact single
    · cases made
      exact single

theorem single_toText (single : Single c.value) (made : c.toText = .ok text) : Single text := by
  have one : Single "\"1\"" := by decide
  unfold Fragment.toText at made
  obtain ⟨size, -, made⟩ := bind_eq_ok.1 made
  split at made
  all_goals obtain ⟨head, -, made⟩ := bind_eq_ok.1 made
  all_goals split at made <;> cases made
  · exact single.enclosed rfl (by decide) (by decide)
  · exact single.enclosed rfl (by decide) (by decide)
  · exact one
  · exact single
  · exact one
  · exact single.called rfl

private theorem single_plain (single : Single c.value) (made : Fragment.toBoolean.plain c = .ok text) :
    Single text := by
  unfold Fragment.toBoolean.plain at made
  obtain ⟨head, -, made⟩ := bind_eq_ok.1 made
  split at made
  · cases made
    exact single.enclosed rfl (by decide) (by decide)
  · cases made
    exact single
  · cases made
    decide
  · split at made <;> cases made
    · split <;> decide
    · exact single.called rfl

theorem single_toBoolean (single : Single c.value) (condition : ∀ text ∈ c.condition, Single text)
    (made : c.toBoolean = .ok text) : Single text := by
  unfold Fragment.toBoolean at made
  obtain ⟨_, -, made⟩ := bind_eq_ok.1 made
  split at made
  · next known =>
    split at made
    · exact single_plain single made
    · cases made
      exact condition _ known
  · exact single_plain single made

theorem single_toPrinted (single : Single c.value) (made : c.toPrinted = .ok text) : Single text := by
  unfold Fragment.toPrinted at made
  obtain ⟨size, -, made⟩ := bind_eq_ok.1 made
  split at made
  all_goals obtain ⟨head, -, made⟩ := bind_eq_ok.1 made
  · cases made
    split
    · decide
    · exact single
  · split at made
    · obtain ⟨inner, -, made⟩ := bind_eq_ok.1 made
      cases made
      unfold Fragment.toPrinted.kindOf
      split
      · decide
      · split
        · decide
        · split <;> decide
    · split at made <;> cases made
      · split <;> decide
      · exact single.called rfl

/-- A fragment whose texts are one argument each, and whose type is made of names. -/
structure Fragment.IsSingle (c : Fragment) : Prop where
  value : Single c.value
  condition : ∀ text ∈ c.condition, Single text
  named : c.shape.Named

theorem Shape.Named.tail {s t : Shape} (named : s.Named) (dropped : s.tail = .ok t) : t.Named := by
  cases s with
  | unset => cases dropped
  | word letters =>
    cases dropped
    rintro _ ⟨⟩ d member
    obtain ⟨c, below, rfl⟩ := List.mem_map.1 member
    exact named _ rfl _ (List.mem_map_of_mem (List.mem_of_mem_drop below))
  | dims ds =>
    cases dropped
    rintro _ ⟨⟩ d member
    exact named ds rfl d (List.mem_of_mem_drop member)

theorem Shape.Named.within {s t : Shape} {d : Dim} (named : s.Named) (isNamed : d.name?.isSome = true)
    (around : s.within [d] = .ok t) : t.Named := by
  cases s with
  | unset | word => cases around
  | dims ds =>
    cases around
    rintro _ ⟨⟩
    exact List.forall_mem_cons.2 ⟨isNamed, named ds rfl⟩

theorem isSingle_toList {d : Fragment} (single : c.IsSingle) (made : c.toList = .ok d) :
    d.IsSingle := by
  unfold Fragment.toList at made
  obtain ⟨head, -, made⟩ := bind_eq_ok.1 made
  split at made
  · obtain ⟨tail, dropped, made⟩ := bind_eq_ok.1 made
    obtain ⟨shape, around, made⟩ := bind_eq_ok.1 made
    cases made
    exact ⟨single.value.called rfl, single.condition, (single.named.tail dropped).within rfl around⟩
  · cases made
    exact single

theorem single_toArray {type : String} (single : Single text) (isType : IsTypeText type) :
    Single (text ++ ".toArray(" ++ ("new " ++ type) ++ "\x7b\x7d)") := by
  obtain ⟨some_, afterWord, read⟩ := single
  obtain ⟨afterWord', typed⟩ := isType ['(']
  have called : (".toArray(" ++ "new ").toList.foldlM CodeReading.step ⟨[], .code afterWord⟩
      = some ⟨['('], .code false⟩ := by
    cases afterWord <;> rfl
  have closed : "\x7b\x7d)".toList.foldlM CodeReading.step ⟨['('], .code afterWord'⟩
      = some ⟨[], .code false⟩ := by
    cases afterWord' <;> rfl
  have parts : (text ++ ".toArray(" ++ ("new " ++ type) ++ "\x7b\x7d)").toList
      = text.toList ++ ((".toArray(" ++ "new ").toList ++ (type.toList ++ "\x7b\x7d)".toList)) := by
    simp
  refine ⟨fun none => some_ ?_, false, ?_⟩
  · simp only [String.append_eq_empty_iff] at none
    exact none.1.1.1
  · rw [parts, List.foldlM_append, read, Option.bind_eq_bind, Option.bind_some, List.foldlM_append,
      called, Option.bind_eq_bind, Option.bind_some, List.foldlM_append, typed]
    exact closed

private theorem creation_array {ds : List Dim} (named : ∀ d ∈ ds, d.name?.isSome = true)
    (made : (Shape.dims (.sized .array none :: ds)).creation [] = .ok text) :
    ∃ type, text = "new " ++ type ∧ IsTypeText type := by
  unfold Shape.creation at made
  obtain ⟨_, ⟨⟩, made⟩ := bind_eq_ok.1 made
  obtain ⟨_, ⟨⟩, made⟩ := bind_eq_ok.1 made
  obtain ⟨brackets, printed, made⟩ := bind_eq_ok.1 made
  cases made
  exact ⟨_, rfl, isTypeText_replaceAll (List.forall_mem_cons.2 ⟨rfl, named⟩) printed⟩

theorem isSingle_toArray {d : Fragment} (single : c.IsSingle) (made : c.toArray = .ok d) :
    d.IsSingle := by
  unfold Fragment.toArray at made
  obtain ⟨head, -, made⟩ := bind_eq_ok.1 made
  split at made
  · obtain ⟨tail, dropped, made⟩ := bind_eq_ok.1 made
    obtain ⟨shape, around, made⟩ := bind_eq_ok.1 made
    obtain ⟨creation, created, made⟩ := bind_eq_ok.1 made
    cases made
    have named := (single.named.tail dropped).within rfl around
    refine ⟨?_, single.condition, named⟩
    cases tail with
    | unset | word => cases around
    | dims ds =>
      cases around
      have below := named _ rfl
      simp only [List.singleton_append, List.forall_mem_cons] at below
      obtain ⟨type, rfl, isType⟩ := creation_array below.2 created
      exact single_toArray single.value isType
  · cases made
    exact single

end Conversions

end PerlJava.Java
