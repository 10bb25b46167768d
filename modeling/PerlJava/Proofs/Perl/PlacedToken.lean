import PerlJava.Perl.Token
import PerlJava.Perl.Vocabulary

/-!
# Tokens with their places

To say how tokens have been rearranged, each of them gets the place at which it was first met and the
braces that were open there. A rearrangement is sound if only movable labels have overtaken other
tokens, and none of them a brace that was still open.
-/

namespace PerlJava.Perl

/-- A token with its place in a sequence. -/
structure Placed where
  token : Token
  /-- How many tokens come before it. -/
  index : Nat
  /-- The places of the braces that are open before it, innermost first. -/
  unclosed : List Nat

def openAfter (index : Nat) (t : Token) (unclosed : List Nat) : List Nat :=
  if t.kind = "LBRACE" then index :: unclosed
  else if t.kind = "RBRACE" then unclosed.drop 1
  else unclosed

def openBracesFrom : (index : Nat) → (unclosed : List Nat) → List Token → List Nat
  | _, unclosed, [] => unclosed
  | index, unclosed, t :: ts => openBracesFrom (index + 1) (openAfter index t unclosed) ts

def openBraces (ts : List Token) : List Nat :=
  openBracesFrom 0 [] ts

/-- Some tokens with their places, the first of which is given. -/
def placedFrom : (index : Nat) → (unclosed : List Nat) → List Token → List Placed
  | _, _, [] => []
  | index, unclosed, t :: ts =>
    ⟨t, index, unclosed⟩ :: placedFrom (index + 1) (openAfter index t unclosed) ts

def placed (ts : List Token) : List Placed :=
  placedFrom 0 [] ts

section Places

variable {index : Nat} {unclosed : List Nat} {ts : List Token} {t : Token}

theorem openBracesFrom_append (index : Nat) (unclosed : List Nat) (ts : List Token) (t : Token) :
    openBracesFrom index unclosed (ts ++ [t])
      = openAfter (index + ts.length) t (openBracesFrom index unclosed ts) := by
  induction ts generalizing index unclosed with
  | nil => rfl
  | cons u ts ih =>
    rw [List.cons_append, openBracesFrom, ih, openBracesFrom, List.length_cons, Nat.add_right_comm,
      Nat.add_assoc]

theorem openBraces_append (ts : List Token) (t : Token) :
    openBraces (ts ++ [t]) = openAfter ts.length t (openBraces ts) := by
  rw [openBraces, openBracesFrom_append, Nat.zero_add, openBraces]

theorem placedFrom_append (index : Nat) (unclosed : List Nat) (ts : List Token) (t : Token) :
    placedFrom index unclosed (ts ++ [t]) = placedFrom index unclosed ts
      ++ [⟨t, index + ts.length, openBracesFrom index unclosed ts⟩] := by
  induction ts generalizing index unclosed with
  | nil => rfl
  | cons u ts ih =>
    rw [List.cons_append, placedFrom, ih, placedFrom, openBracesFrom, List.length_cons,
      Nat.add_right_comm, Nat.add_assoc, List.cons_append]

theorem placed_append (ts : List Token) (t : Token) :
    placed (ts ++ [t]) = placed ts ++ [⟨t, ts.length, openBraces ts⟩] := by
  rw [placed, placedFrom_append, Nat.zero_add, placed, openBraces]

theorem map_token_placedFrom (index : Nat) (unclosed : List Nat) (ts : List Token) :
    (placedFrom index unclosed ts).map (·.token) = ts := by
  induction ts generalizing index unclosed with
  | nil => rfl
  | cons t ts ih => rw [placedFrom, List.map_cons, ih]

theorem map_index_placedFrom (index : Nat) (unclosed : List Nat) (ts : List Token) :
    (placedFrom index unclosed ts).map (·.index) = List.range' index ts.length := by
  induction ts generalizing index unclosed with
  | nil => rfl
  | cons t ts ih => rw [placedFrom, List.map_cons, ih, List.length_cons, List.range'_succ]

theorem map_token_filter (select : Token → Bool) (l : List Placed) :
    (l.filter (select ·.token)).map (·.token) = (l.map (·.token)).filter select := by
  rw [List.filter_map]
  rfl

theorem map_token_placed (ts : List Token) : (placed ts).map (·.token) = ts :=
  map_token_placedFrom 0 [] ts

theorem map_index_placed (ts : List Token) : (placed ts).map (·.index) = List.range ts.length := by
  rw [placed, map_index_placedFrom, List.range_eq_range']

theorem pairwise_placed (ts : List Token) : (placed ts).Pairwise (·.index < ·.index) := by
  rw [← List.pairwise_map, map_index_placed]
  exact List.pairwise_lt_range

theorem index_lt {x : Placed} (member : x ∈ placed ts) : x.index < ts.length := by
  have within : x.index ∈ (placed ts).map (·.index) := List.mem_map_of_mem member
  rwa [map_index_placed, List.mem_range] at within

theorem eq_of_index {a b : Placed} (first : a ∈ placed ts) (second : b ∈ placed ts)
    (same : a.index = b.index) : a = b := by
  have at_ {x : Placed} (member : x ∈ placed ts) : (placed ts)[x.index]? = some x := by
    obtain ⟨i, found⟩ := List.getElem?_of_mem member
    have index : (List.range ts.length)[i]? = some x.index := by
      rw [← map_index_placed, List.getElem?_map, found, Option.map_some]
    obtain ⟨_, at_⟩ := List.getElem?_eq_some_iff.1 index
    rwa [← at_, List.getElem_range]
  exact Option.some.inj ((at_ first).symm.trans (same ▸ at_ second))

theorem openBracesFrom_lt (before : ∀ i ∈ unclosed, i < index) {i : Nat}
    (member : i ∈ openBracesFrom index unclosed ts) : i < index + ts.length := by
  induction ts generalizing index unclosed with
  | nil => exact before i member
  | cons t ts ih =>
    have after : ∀ i ∈ openAfter index t unclosed, i < index + 1 := by
      intro i member
      unfold openAfter at member
      split at member
      · obtain rfl | member := List.mem_cons.1 member
        · exact Nat.lt_succ_self i
        · exact Nat.lt_succ_of_lt (before i member)
      · split at member
        · exact Nat.lt_succ_of_lt (before i (List.mem_of_mem_drop member))
        · exact Nat.lt_succ_of_lt (before i member)
    have bound := ih after member
    rw [List.length_cons]
    omega

theorem openBraces_lt {i : Nat} (member : i ∈ openBraces ts) : i < ts.length := by
  simpa using openBracesFrom_lt (by simp) member

end Places

theorem ne_of_isMovable {kind : String} (movable : isMovable kind = true) :
    kind ≠ "COMMENT" ∧ kind ≠ "LBRACE" ∧ kind ≠ "RBRACE" := by
  refine ⟨?_, ?_, ?_⟩ <;> rintro rfl <;> exact absurd movable (by decide)

/-- Whether a token may come before another: as it did, or as a movable label that has overtaken
something else, which is no brace that was open where the label was. -/
def Placed.MayPrecede (a b : Placed) : Prop :=
  b.index < a.index → isMovable a.token.kind = true ∧ isMovable b.token.kind = false
    ∧ b.index ∉ a.unclosed

structure Arranges (order : List Placed) (ts : List Token) : Prop where
  perm : order.Perm ((placed ts).filter (·.token.kind != "COMMENT"))
  precede : order.Pairwise Placed.MayPrecede

/-- The tokens that are returned are those that were pulled, without the comments. Those that are not
movable labels come in the order in which they were pulled, and so do the labels. Labels are only
moved towards the front, and never past a brace that was open where they were. -/
structure Rearranged (pulled returned : List Token) : Prop where
  perm : returned.Perm (pulled.filter (·.kind != "COMMENT"))
  others : returned.filter (!isMovable ·.kind)
    = (pulled.filter (·.kind != "COMMENT")).filter (!isMovable ·.kind)
  labels : returned.filter (isMovable ·.kind) = pulled.filter (isMovable ·.kind)
  forwards : ∃ order : List Placed, order.map (·.token) = returned ∧ Arranges order pulled

namespace Arranges

variable {order before after : List Placed} {ts : List Token} {t : Token}

theorem nil : Arranges [] [] :=
  ⟨.nil, .nil⟩

theorem index_lt (arranges : Arranges order ts) {x : Placed} (member : x ∈ order) :
    x.index < ts.length :=
  Perl.index_lt (List.mem_filter.1 (arranges.perm.mem_iff.1 member)).1

theorem insert (arranges : Arranges (before ++ after) ts) (noComment : t.kind ≠ "COMMENT")
    (may : ∀ x ∈ after, isMovable t.kind = true ∧ isMovable x.token.kind = false
      ∧ x.index ∉ openBraces ts) :
    Arranges (before ++ ⟨t, ts.length, openBraces ts⟩ :: after) (ts ++ [t]) where
  perm := by
    rw [placed_append, List.filter_append, List.filter_cons_of_pos (by simpa using noComment)]
    exact List.perm_middle.trans ((arranges.perm.cons _).trans (List.perm_append_singleton _ _).symm)
  precede := by
    obtain ⟨first, second, between⟩ := List.pairwise_append.1 arranges.precede
    refine List.pairwise_append.2 ⟨first, List.pairwise_cons.2 ⟨fun x member _ => may x member, second⟩,
      fun a member b later => ?_⟩
    obtain rfl | later := List.mem_cons.1 later
    · have earlier := arranges.index_lt (List.mem_append_left after member)
      exact fun overtaken => absurd earlier (Nat.lt_asymm overtaken)
    · exact between a member b later

variable (arranges : Arranges order ts)

include arranges

theorem comment (comment : t.kind = "COMMENT") : Arranges order (ts ++ [t]) where
  perm := by
    rw [placed_append, List.filter_append, List.filter_cons_of_neg (by simp [comment]),
      List.filter_nil, List.append_nil]
    exact arranges.perm
  precede := arranges.precede

/-- Tokens of which none may overtake another come in the order in which they were met. -/
theorem filter_eq {select : Token → Bool}
    (fixed : ∀ a b : Placed, select a.token = true → select b.token = true → a.MayPrecede b →
      a.index ≤ b.index) :
    (order.map (·.token)).filter select = (ts.filter (·.kind != "COMMENT")).filter select := by
  have met {a : Placed} (member : a ∈ order) : a ∈ placed ts :=
    (List.mem_filter.1 (arranges.perm.mem_iff.1 member)).1
  have same : order.filter (select ·.token)
      = ((placed ts).filter (·.token.kind != "COMMENT")).filter (select ·.token) := by
    refine @List.Perm.eq_of_pairwise _ (·.index ≤ ·.index) _ _ ?_ ?_ ?_ (arranges.perm.filter _)
    · intro a b first second le ge
      refine eq_of_index (met (List.mem_filter.1 first).1) ?_ (Nat.le_antisymm le ge)
      exact (List.mem_filter.1 (List.mem_filter.1 second).1).1
    · exact List.pairwise_filter.2
        (arranges.precede.imp fun may first second => fixed _ _ first second may)
    · exact ((pairwise_placed ts).imp Nat.le_of_lt).filter _ |>.filter _
  rw [← map_token_filter, same, map_token_filter, map_token_filter (·.kind != "COMMENT"),
    map_token_placed]

theorem rearranged : Rearranged ts (order.map (·.token)) where
  perm := by
    have perm := arranges.perm.map (·.token)
    rwa [map_token_filter (·.kind != "COMMENT"), map_token_placed] at perm
  others := by
    refine arranges.filter_eq fun a b other _ may => Nat.le_of_not_lt fun overtaken => ?_
    simp [(may overtaken).1] at other
  labels := by
    rw [arranges.filter_eq fun a b _ label may => Nat.le_of_not_lt fun overtaken => by
      simp [(may overtaken).2.1] at label, List.filter_filter]
    refine List.filter_congr fun t _ => ?_
    cases movable : isMovable t.kind
    · rfl
    · simpa using (ne_of_isMovable movable).1
  forwards := ⟨order, rfl, arranges⟩

end Arranges

end PerlJava.Perl
