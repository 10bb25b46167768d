import PerlJava.Perl.Reader
import PerlJava.Proofs.Perl.PlacedToken
import PerlJava.Proofs.Perl.ScannerProgress

/-!
# The order of labels

What a reader returns are the tokens that it has pulled from its scanner, without the comments and
with the movable labels moved to the front of their statement or block. While a statement is
gathered, the places of the open blocks lie behind the braces that have opened them.
-/

namespace PerlJava.Perl.Reader

/-- Where labels go after a token of code, if the buffer was so long before it. -/
def placesAfter (length : Nat) (t : Token) (places : List Nat) : List Nat :=
  if t.kind = "LBRACE" then (length + 1) :: places
  else if t.kind = "RBRACE" then places.drop 1
  else places

/-- What may be decided about the token at hand. -/
inductive Decided (r : Reader) (g : Gathering) (t : Token) : Move → Prop where
  | label : isMovable t.kind = true →
    Decided r g t (.goOn (r.buffer.insertIdx (g.places.headD 0) t) r.codeLine
      ⟨(g.places.headD 0 + 1) :: g.places.drop 1, true⟩)
  | append {codeLine : Option Nat} {g' : Gathering} : isMovable t.kind = false →
    t.kind ≠ "COMMENT" → g.ended = false → (t.kind = "RBRACE" → 1 < g.places.length) →
    g'.places = placesAfter r.buffer.length t g.places →
    Decided r g t (.goOn (r.buffer ++ [t]) codeLine g')
  | last : isMovable t.kind = false → t.kind ≠ "COMMENT" → Decided r g t (.close (r.buffer ++ [t]))
  | comment : t.kind = "COMMENT" → Decided r g t (.close r.buffer)
  | otherLine : isLabel t.kind = true → r.codeLine ≠ some t.line →
    Decided r g t (.stop (some t.line))
  | ended : g.ended = true → Decided r g t (.stop r.codeLine)

theorem isLabel_comment : isLabel "COMMENT" = false := by
  decide

theorem noBlanks_of_comment {t : Token} (origin : Scanner.Origin t) (comment : t.kind = "COMMENT") :
    (t.value.toList.any fun c => c == ' ' || c == '\t') = false := by
  rw [origin.comment comment]
  decide

theorem decided {keepComments : Bool} {r : Reader} {g : Gathering} {t : Token}
    (origin : Scanner.Origin t) : Decided r g t (decide { keepComments } r g t) := by
  rw [decide]
  split
  · next label =>
    have noComment : t.kind ≠ "COMMENT" := by
      rintro comment
      simp [comment, isLabel_comment] at label
    split
    · next other => exact .otherLine label (by simpa using other)
    · split
      · next movable => exact .label movable
      · next fixed => exact .last (by simpa using fixed) noComment
  · next other =>
    have fixed : isMovable t.kind = false := by
      cases movable : isMovable t.kind
      · rfl
      · exact absurd (by rw [isLabel, ← isMovable, movable, Bool.true_or]) other
    split
    · next ended => exact .ended ended
    · next going =>
      have going : g.ended = false := by simpa using going
      simp only
      split
      · next comment =>
        have comment : t.kind = "COMMENT" := by simpa using comment
        rw [noBlanks_of_comment origin comment, Bool.and_false, Bool.false_and, if_neg Bool.false_ne_true]
        exact .comment comment
      · next noComment =>
        have noComment : t.kind ≠ "COMMENT" := by simpa using noComment
        split
        · exact .last fixed noComment
        · split
          · next closes =>
            have closes : t.kind = "RBRACE" := by simpa using closes
            split
            · next more =>
              refine .append fixed noComment going (fun _ => ?_) (by simp [placesAfter, closes])
              simp only [Bool.and_eq_true, decide_eq_true_eq] at more
              exact more.1
            · exact .last fixed noComment
          · next notClosing =>
            have notClosing : t.kind ≠ "RBRACE" := by simpa using notClosing
            split
            · next opens =>
              have opens : t.kind = "LBRACE" := by simpa using opens
              exact .append fixed noComment going (absurd · notClosing) (by simp [placesAfter, opens])
            · next notOpening =>
              have notOpening : t.kind ≠ "LBRACE" := by simpa using notOpening
              exact .append fixed noComment going (absurd · notClosing)
                (by simp [placesAfter, notOpening, notClosing])

/-- Where labels go while a statement is gathered: behind the braces that are open, and in front of
no label. -/
structure Placing (buffer : List Placed) (unclosed : List Nat) (g : Gathering) : Prop where
  some_ : g.places ≠ []
  bounded : ∀ place ∈ g.places, place ≤ buffer.length
  sorted : g.places.Pairwise (· ≥ ·)
  behind : ∀ j place, g.places[j]? = some place → ∀ x ∈ buffer.drop place,
    x.index ∉ unclosed.drop j
  unlabelled : g.ended = false → ∀ x ∈ buffer, isMovable x.token.kind = false
  inFront : ∀ x ∈ buffer.drop (g.places.headD 0), isMovable x.token.kind = false
  ended : g.ended = true → buffer ≠ []

theorem placing_nil (unclosed : List Nat) : Placing [] unclosed {} where
  some_ := by simp
  bounded := by simp
  sorted := by simp
  behind := by simp
  unlabelled := by simp
  inFront := by simp
  ended := nofun

theorem insertIdx_eq {α : Type} (l : List α) (n : Nat) (a : α) (fits : n ≤ l.length) :
    l.insertIdx n a = l.take n ++ a :: l.drop n := by
  induction n generalizing l with
  | zero => simp
  | succ n ih =>
    cases l with
    | nil => simp at fits
    | cons b l => simp [ih l (Nat.le_of_succ_le_succ fits)]

namespace Placing

variable {buffer : List Placed} {unclosed : List Nat} {g g' : Gathering} {x : Placed}

/-- A label goes behind the braces that are open, and behind the labels before it. -/
theorem label (placing : Placing buffer unclosed g) (fresh : x.index ∉ unclosed) :
    Placing (buffer.insertIdx (g.places.headD 0) x) unclosed
      ⟨(g.places.headD 0 + 1) :: g.places.drop 1, true⟩ := by
  obtain ⟨some_, bounded, sorted, behind, -, inFront, -⟩ := placing
  obtain ⟨place, places, split⟩ := List.exists_cons_of_ne_nil some_
  rw [split] at bounded sorted behind inFront ⊢
  obtain ⟨outer, sorted⟩ := List.pairwise_cons.1 sorted
  have fits : place ≤ buffer.length := bounded place List.mem_cons_self
  have insert := insertIdx_eq buffer place x fits
  have after : (buffer.insertIdx place x).drop (place + 1) = buffer.drop place := by
    rw [insert, List.drop_append, List.length_take, Nat.min_eq_left fits,
      List.drop_of_length_le (by rw [List.length_take]; omega)]
    simp
  have length : (buffer.insertIdx place x).length = buffer.length + 1 :=
    List.length_insertIdx_of_le_length fits x
  simp only [List.headD_cons, List.drop_succ_cons, List.drop_zero] at inFront ⊢
  constructor
  · simp
  · intro p member
    rw [length]
    obtain rfl | member := List.mem_cons.1 member
    · omega
    · have := bounded p (List.mem_cons_of_mem _ member)
      omega
  · refine List.pairwise_cons.2 ⟨fun p member => ?_, sorted⟩
    exact Nat.le_succ_of_le (outer p member)
  · intro j p found y member
    cases j with
    | zero =>
      cases found
      rw [after] at member
      exact behind 0 place rfl y member
    | succ j =>
      have below : p ≤ place := outer p (List.mem_of_getElem? found)
      rw [insert, List.drop_append_of_le_length (by simp; omega), List.mem_append, List.mem_cons]
        at member
      obtain before | rfl | after := member
      · rw [List.drop_take] at before
        exact behind (j + 1) p found y (List.mem_of_mem_take before)
      · exact fun within => fresh (List.mem_of_mem_drop within)
      · refine behind (j + 1) p found y ?_
        rw [← Nat.add_sub_cancel' below, ← List.drop_drop] at after
        exact List.mem_of_mem_drop after
  · nofun
  · rwa [List.headD_cons, after]
  · intro _ empty
    simp [empty] at length

theorem append (placing : Placing buffer unclosed g) (fixed : isMovable x.token.kind = false)
    (going : g.ended = false) (more : x.token.kind = "RBRACE" → 1 < g.places.length)
    (fresh : x.index ∉ unclosed)
    (places : g'.places = placesAfter buffer.length x.token g.places) :
    Placing (buffer ++ [x]) (openAfter x.index x.token unclosed) g' := by
  obtain ⟨some_, bounded, sorted, behind, unlabelled, -, -⟩ := placing
  have allFixed : ∀ y ∈ buffer ++ [x], isMovable y.token.kind = false := by
    intro y member
    obtain member | rfl := by simpa using member
    · exact unlabelled going y member
    · exact fixed
  have stays : ∀ j p, g.places[j]? = some p → ∀ y ∈ (buffer ++ [x]).drop p,
      y.index ∉ unclosed.drop j := by
    intro j p found y member
    rw [List.drop_append_of_le_length (bounded p (List.mem_of_getElem? found))] at member
    obtain member | rfl := by simpa using member
    · exact behind j p found y member
    · exact fun within => fresh (List.mem_of_mem_drop within)
  have grown : ∀ place ∈ g.places, place ≤ (buffer ++ [x]).length := by
    intro place member
    exact Nat.le_trans (bounded place member) (by simp)
  suffices g'.places ≠ [] ∧ (∀ place ∈ g'.places, place ≤ (buffer ++ [x]).length)
      ∧ g'.places.Pairwise (· ≥ ·) ∧ ∀ j place, g'.places[j]? = some place →
        ∀ y ∈ (buffer ++ [x]).drop place, y.index ∉ (openAfter x.index x.token unclosed).drop j by
    obtain ⟨some_, bounded, sorted, behind⟩ := this
    exact ⟨some_, bounded, sorted, behind, fun _ => allFixed,
      fun y member => allFixed y (List.mem_of_mem_drop member), by simp⟩
  rw [places]
  unfold placesAfter openAfter
  split
  · refine ⟨by simp, ?_, List.pairwise_cons.2 ⟨fun p member => ?_, sorted⟩, ?_⟩
    · intro place member
      obtain rfl | member := List.mem_cons.1 member
      · simp
      · exact grown place member
    · exact Nat.le_succ_of_le (bounded p member)
    · intro j place found y member
      cases j with
      | zero =>
        cases found
        simp at member
      | succ j => exact stays j place found y member
  · split
    · next closes =>
      refine ⟨?_, fun place member => grown place (List.mem_of_mem_drop member),
        sorted.sublist (List.drop_sublist 1 _), ?_⟩
      · have := more closes
        simp only [ne_eq, List.drop_eq_nil_iff]
        omega
      · intro j place found y member
        rw [List.getElem?_drop] at found
        rw [List.drop_drop]
        exact stays (1 + j) place found y member
    · exact ⟨some_, grown, sorted, stays⟩

end Placing

/-- A reader whose token at hand has come from its scanner. -/
structure Sound (r : Reader) : Prop where
  fits : r.scanner.cursor.rest.length ≤ r.scanner.size
  origin : ∀ t, r.current = some t → Scanner.Origin t
  atEnd : r.current = none → r.scanner.cursor.rest = []

/-- How many tokens may still come from the scanner, with the one at hand. -/
def load (r : Reader) : Nat :=
  r.current.elim 0 fun _ => r.scanner.weight + 1

theorem fetch_sound {r : Reader} (fits : r.scanner.cursor.rest.length ≤ r.scanner.size) :
    (fetch r).2.Sound ∧ (fetch r).2.load ≤ r.scanner.weight
      ∧ (fetch r).2.scanner.size = r.scanner.size := by
  obtain ⟨size, weight, origin, atEnd⟩ := r.scanner.next_complete (afterSigil r.buffer) fits
  have rest := Scanner.rest_le_of_weight_le (Nat.le_of_add_right_le weight)
  refine ⟨⟨?_, origin, atEnd⟩, ?_, size⟩
  · simp only [fetch, size]
    exact Nat.le_trans rest fits
  · cases found : (r.scanner.next (afterSigil r.buffer)).token with
    | none => simp [load, fetch, found]
    | some t => simpa [load, fetch, found] using weight

structure Accounts (done : List Token) (out buffer : List Placed) (returned : List Token)
    (r : Reader) : Prop where
  isReturned : returned = out.map (·.token)
  isBuffered : r.buffer = buffer.map (·.token)
  arranges : Arranges (out ++ buffer) done

def Rested (pulled returned : List Token) (r : Reader) : Prop :=
  r.Sound ∧ ∃ done out buffer, pulled = done ++ r.current.toList
    ∧ Accounts done out buffer returned r

def Gathered (pulled returned : List Token) (g : Gathering) (r : Reader) : Prop :=
  r.Sound ∧ ∃ done out buffer, pulled = done ++ r.current.toList
    ∧ Accounts done out buffer returned r ∧ Placing buffer (openBraces done) g

def pulledBy (r : Reader) : Move → List Token
  | .stop _ => []
  | move => (perform r move).2.current.toList

theorem Gathered.rested {pulled returned : List Token} {g : Gathering} {r : Reader}
    (gathered : Gathered pulled returned g r) : Rested pulled returned r := by
  obtain ⟨sound, done, out, buffer, same, accounts, -⟩ := gathered
  exact ⟨sound, done, out, buffer, same, accounts⟩

theorem Rested.gathered {pulled returned : List Token} {r : Reader}
    (rested : Rested pulled returned r) (empty : r.buffer = []) :
    Gathered pulled returned {} r := by
  obtain ⟨sound, done, out, buffer, same, accounts⟩ := rested
  obtain rfl : buffer = [] := by simpa [empty] using accounts.isBuffered.symm
  exact ⟨sound, done, out, [], same, accounts, placing_nil _⟩

section Move

variable {pulled returned done : List Token} {out buffer : List Placed} {g : Gathering}
variable {r : Reader} {t : Token} {move : Move}

section

variable (accounts : Accounts done out buffer returned r)

include accounts

theorem Accounts.append {codeLine : Option Nat} (noComment : t.kind ≠ "COMMENT") :
    Accounts (done ++ [t]) out (buffer ++ [⟨t, done.length, openBraces done⟩]) returned
      { r with buffer := r.buffer ++ [t], codeLine } where
  isReturned := accounts.isReturned
  isBuffered := by simp [accounts.isBuffered]
  arranges := by
    have arranges : Arranges (out ++ buffer ++ []) done := by simpa using accounts.arranges
    simpa using arranges.insert noComment (by simp)

/-- A label overtakes what has been gathered since the last brace that is open. -/
theorem Accounts.label
    (placing : Placing buffer (openBraces done) g) (movable : isMovable t.kind = true) :
    Accounts (done ++ [t]) out
      (buffer.insertIdx (g.places.headD 0) ⟨t, done.length, openBraces done⟩) returned
      { r with buffer := r.buffer.insertIdx (g.places.headD 0) t } := by
  obtain ⟨place, places, split⟩ := List.exists_cons_of_ne_nil placing.some_
  have inFront := placing.inFront
  have behind := placing.behind 0 place (by simp [split])
  have fits : place ≤ buffer.length := placing.bounded place (by simp [split])
  rw [split, List.headD_cons] at inFront ⊢
  refine ⟨accounts.isReturned, ?_, ?_⟩
  · simp only [accounts.isBuffered]
    rw [insertIdx_eq _ _ _ fits, insertIdx_eq _ _ _ (by simpa using fits)]
    simp
  · have arranges : Arranges ((out ++ buffer.take place) ++ buffer.drop place) done := by
      simpa using accounts.arranges
    rw [insertIdx_eq _ _ _ fits, ← List.append_assoc]
    exact arranges.insert (ne_of_isMovable movable).1 fun x member =>
      ⟨movable, inFront x member, behind x member⟩

variable (fits : r.scanner.cursor.rest.length ≤ r.scanner.size)

include fits

theorem Accounts.rested : Rested (done ++ (fetch r).2.current.toList) returned (fetch r).2 :=
  ⟨(fetch_sound fits).1, done, out, buffer, rfl,
    accounts.isReturned, accounts.isBuffered, accounts.arranges⟩

theorem Accounts.gathered (placing : Placing buffer (openBraces done) g) :
    Gathered (done ++ (fetch r).2.current.toList) returned g (fetch r).2 :=
  ⟨(fetch_sound fits).1, done, out, buffer, rfl,
    ⟨accounts.isReturned, accounts.isBuffered, accounts.arranges⟩, placing⟩

end

/-- A move keeps account of the tokens. -/
theorem Gathered.step (gathered : Gathered pulled returned g r) (hand : r.current = some t)
    (decided : Decided r g t move) :
    Rested (pulled ++ pulledBy r move) returned (perform r move).2
      ∧ ∀ g', move.gathering? = some g' →
        Gathered (pulled ++ pulledBy r move) returned g' (perform r move).2 := by
  obtain ⟨sound, done, out, buffer, rfl, accounts, placing⟩ := gathered
  have fits := sound.fits
  have fresh : done.length ∉ openBraces done := fun member =>
    Nat.lt_irrefl _ (openBraces_lt member)
  rw [hand, Option.toList_some]
  cases decided with
  | label movable =>
    have accounts := accounts.label placing movable
    have unbraced : openBraces (done ++ [t]) = openBraces done := by
      obtain ⟨-, notOpening, notClosing⟩ := ne_of_isMovable movable
      rw [openBraces_append, openAfter, if_neg notOpening, if_neg notClosing]
    refine ⟨accounts.rested fits, ?_⟩
    rintro g' ⟨⟩
    refine accounts.gathered fits ?_
    rw [unbraced]
    exact placing.label fresh
  | @append codeLine g' fixed noComment going more places =>
    have length : r.buffer.length = buffer.length := by simp [accounts.isBuffered]
    have accounts := @Accounts.append _ _ _ _ _ _ accounts codeLine noComment
    refine ⟨accounts.rested fits, ?_⟩
    rintro g'' ⟨⟩
    refine accounts.gathered fits ?_
    rw [openBraces_append]
    exact placing.append fixed going more fresh (length ▸ places)
  | last fixed noComment =>
    exact ⟨(accounts.append noComment).rested fits, nofun⟩
  | comment comment =>
    have accounts : Accounts (done ++ [t]) out buffer returned r :=
      ⟨accounts.isReturned, accounts.isBuffered, accounts.arranges.comment comment⟩
    exact ⟨accounts.rested fits, nofun⟩
  | otherLine | ended =>
    refine ⟨⟨⟨fits, sound.origin, sound.atEnd⟩, done, out, buffer, ?_, ?_⟩, nofun⟩
    · simp [pulledBy, perform, hand]
    · exact ⟨accounts.isReturned, accounts.isBuffered, accounts.arranges⟩

end Move

section Gather

variable {pulled returned : List Token} {g : Gathering} {r r' : Reader}
variable {token : Option Token} {notices notices' : List Notice} {keepComments : Bool}

def gatherPulls (rules : ReadingRules) : (fuel : Nat) → Gathering → Reader → List Token
  | 0, _, _ => []
  | fuel + 1, g, r =>
    match r.current with
    | none => []
    | some t =>
      let move := decide rules r g t
      let r' := (perform r move).2
      pulledBy r move ++ match move.gathering? with
        | some g => gatherPulls rules fuel g r'
        | none => if r'.buffer = [] then gatherPulls rules fuel {} r' else []

def pulls (rules : ReadingRules) (r : Reader) : List Token :=
  if r.buffer = [] then gatherPulls rules (4 * r.scanner.size + 8) {} r else []

theorem Rested.handOut {t : Token} {buffer : List Token} (rested : Rested pulled returned r)
    (first : r.buffer = t :: buffer) : Rested pulled (returned ++ [t]) { r with buffer } := by
  obtain ⟨sound, done, out, placed, rfl, accounts⟩ := rested
  cases placed with
  | nil => simp [accounts.isBuffered] at first
  | cons x placed =>
    obtain ⟨rfl, rest⟩ : x.token = t ∧ placed.map (·.token) = buffer := by
      simpa [accounts.isBuffered] using first
    refine ⟨⟨sound.fits, sound.origin, sound.atEnd⟩, done, out ++ [x], placed, rfl, ?_, rest.symm, ?_⟩
    · simp [accounts.isReturned]
    · simpa using accounts.arranges

theorem handOut_eq_some {otherwise : Reader → Option Reading} {reading : Reading}
    (run : handOut { keepComments } notices r otherwise = some reading) :
    (r.buffer = [] ∧ otherwise r = some reading)
      ∨ ∃ t buffer, r.buffer = t :: buffer ∧ reading = ⟨notices, some t, { r with buffer }⟩ := by
  obtain ⟨scanner, current, buffer, codeLine⟩ := r
  cases buffer with
  | nil => exact .inl ⟨rfl, run⟩
  | cons t buffer => exact .inr ⟨t, buffer, rfl, (Option.some.inj run).symm⟩

theorem gather_rested {fuel : Nat} (gathered : Gathered pulled returned g r)
    (run : gather { keepComments } fuel notices g r = some ⟨notices', token, r'⟩) :
    Rested (pulled ++ gatherPulls { keepComments } fuel g r) (returned ++ token.toList) r'
      ∧ (token = none → r'.current = none ∧ r'.buffer = []) := by
  induction fuel generalizing pulled notices g r with
  | zero => cases run
  | succ fuel ih =>
    rw [gatherPulls]
    rw [gather] at run
    cases hand : r.current with
    | none =>
      simp only [hand] at run
      obtain ⟨empty, ⟨⟩⟩ | ⟨t, buffer, first, ⟨⟩⟩ := handOut_eq_some run
      · exact ⟨by simpa [hand] using gathered.rested, fun _ => ⟨hand, empty⟩⟩
      · exact ⟨by simpa [hand] using gathered.rested.handOut first, nofun⟩
    | some t =>
      obtain ⟨rested, more⟩ :=
        gathered.step hand (@decided keepComments _ _ _ (gathered.1.origin t hand))
      simp only [hand] at run
      simp only
      rw [← List.append_assoc]
      cases goes : (decide { keepComments } r g t).gathering? with
      | some g' =>
        simp only [goes] at run
        exact ih (more g' goes) run
      | none =>
        simp only [goes] at run
        obtain ⟨empty, again⟩ | ⟨t, buffer, first, ⟨⟩⟩ := handOut_eq_some run
        · rw [if_pos empty]
          exact ih (rested.gathered empty) again
        · exact ⟨by simpa [first] using rested.handOut first, nofun⟩

theorem next_rested (rested : Rested pulled returned r)
    (run : next { keepComments } r = some ⟨notices, token, r'⟩) :
    Rested (pulled ++ pulls { keepComments } r) (returned ++ token.toList) r'
      ∧ (token = none → r'.current = none ∧ r'.buffer = []) := by
  unfold next at run
  rw [pulls]
  split at run
  · next t buffer first =>
    cases run
    exact ⟨by simpa [first] using rested.handOut first, nofun⟩
  · next empty =>
    rw [if_pos empty]
    exact gather_rested (rested.gathered empty) run

end Gather

section Progress

variable {pulled returned : List Token} {g : Gathering} {r : Reader} {keepComments : Bool}

def remaining (r : Reader) : Nat :=
  r.buffer.length + r.load

/-- How many moves gathering may still take: two for each token, and one less for the token at hand
if it is on a line that has been met. -/
def effort (r : Reader) : Nat :=
  2 * r.load + if r.current.any (fun t => r.codeLine ≠ some t.line) then 1 else 0

theorem effort_le (sound : r.Sound) : r.effort ≤ 4 * r.scanner.size + 5 := by
  have load : r.load ≤ r.scanner.weight + 1 := by
    unfold Reader.load
    cases r.current <;> simp
  have fits := sound.fits
  have flag := Bool.toNat_le r.scanner.inComment
  rw [Scanner.weight] at load
  rw [effort]
  split <;> omega

theorem fetch_progress {t : Token} {buffer : List Token} {codeLine : Option Nat}
    (hand : r.current = some t) (fits : r.scanner.cursor.rest.length ≤ r.scanner.size)
    (length : buffer.length ≤ r.buffer.length + 1) :
    (fetch { r with buffer, codeLine }).2.remaining ≤ r.remaining
      ∧ (fetch { r with buffer, codeLine }).2.effort < r.effort := by
  have after : (fetch { r with buffer, codeLine }).2.load ≤ r.scanner.weight :=
    (@fetch_sound { r with buffer, codeLine } fits).2.1
  have before : r.load = r.scanner.weight + 1 := by simp [Reader.load, hand]
  have kept : (fetch { r with buffer, codeLine }).2.buffer = buffer := rfl
  rw [effort, effort, remaining, remaining, kept]
  constructor
  · omega
  · split <;> omega

theorem Gathered.progress {t : Token} {move : Move} (gathered : Gathered pulled returned g r)
    (hand : r.current = some t) (decided : Decided r g t move) :
    (perform r move).2.remaining ≤ r.remaining
      ∧ ((perform r move).2.effort < r.effort
        ∨ (move.gathering? = none ∧ (perform r move).2.buffer ≠ [])) := by
  obtain ⟨sound, done, out, buffer, -, accounts, placing⟩ := gathered
  have fits := sound.fits
  cases decided with
  | label => exact (fetch_progress hand fits List.length_insertIdx_le_succ).imp_right .inl
  | append => exact (fetch_progress hand fits (by simp)).imp_right .inl
  | last => exact (fetch_progress hand fits (by simp)).imp_right .inl
  | comment => exact (fetch_progress hand fits (Nat.le_succ _)).imp_right .inl
  | otherLine _ other => exact ⟨Nat.le_refl _, .inl (by simp [perform, effort, hand, load, other])⟩
  | ended finished =>
    refine ⟨Nat.le_refl _, .inr ⟨rfl, ?_⟩⟩
    simp only [perform, accounts.isBuffered]
    simpa using placing.ended finished

theorem handOut_total {otherwise : Reader → Option Reading} {notices : List Notice}
    (total : r.buffer = [] → ∃ reading, otherwise r = some reading
      ∧ (reading.token = none ∨ reading.reader.remaining < r.remaining)) :
    ∃ reading, handOut { keepComments } notices r otherwise = some reading
      ∧ (reading.token = none ∨ reading.reader.remaining < r.remaining) := by
  obtain ⟨scanner, current, buffer, codeLine⟩ := r
  cases buffer with
  | nil => exact total rfl
  | cons t buffer =>
    refine ⟨_, rfl, .inr ?_⟩
    simp [remaining, load]

/-- Gathering comes to an end. -/
theorem gather_total {fuel : Nat} {notices : List Notice} (gathered : Gathered pulled returned g r)
    (enough : r.effort < fuel) :
    ∃ reading, gather { keepComments } fuel notices g r = some reading
      ∧ (reading.token = none ∨ reading.reader.remaining < r.remaining) := by
  induction fuel generalizing pulled notices g r with
  | zero => omega
  | succ fuel ih =>
    rw [gather]
    cases hand : r.current with
    | none => exact handOut_total fun _ => ⟨_, rfl, .inl rfl⟩
    | some t =>
      have decided := @decided keepComments r g t (gathered.1.origin t hand)
      obtain ⟨rested, more⟩ := gathered.step hand decided
      obtain ⟨fewer, progress⟩ := gathered.progress hand decided
      have onwards {reading : Reading} (answer : reading.token = none
          ∨ reading.reader.remaining < (perform r (decide { keepComments } r g t)).2.remaining) :
          reading.token = none ∨ reading.reader.remaining < r.remaining :=
        answer.imp_right (Nat.lt_of_lt_of_le · fewer)
      simp only
      cases goes : (decide { keepComments } r g t).gathering? with
      | some g' =>
        have less := progress.resolve_right (by simp [goes])
        obtain ⟨reading, run, answer⟩ := ih (more g' goes) (by omega)
        exact ⟨reading, run, onwards answer⟩
      | none =>
        refine (handOut_total fun empty => ?_).imp fun reading => And.imp_right onwards
        have less := progress.resolve_right (by simp [empty])
        exact ih (rested.gathered empty) (by omega)

/-- There always is an answer to what comes next, and tokens do not come for ever. -/
theorem next_total (rested : Rested pulled returned r) :
    ∃ reading, next { keepComments } r = some reading
      ∧ (reading.token = none ∨ reading.reader.remaining < r.remaining) := by
  unfold next
  split
  · next t buffer first =>
    refine ⟨_, rfl, .inr ?_⟩
    simp [remaining, load, first]
  · next empty =>
    have bound := effort_le rested.1
    exact gather_total (rested.gathered empty) (by omega)

end Progress

/-- Reading on until there is no token: what is pulled from the scanner and what is returned. -/
inductive FullRead (rules : ReadingRules) : Reader → List Token → List Token → Reader → Prop where
  | done {r last : Reader} {notices : List Notice} : next rules r = some ⟨notices, none, last⟩ →
    FullRead rules r (pulls rules r) [] last
  | more {r r' last : Reader} {notices : List Notice} {t : Token} {pulled returned : List Token} :
    next rules r = some ⟨notices, some t, r'⟩ → FullRead rules r' pulled returned last →
    FullRead rules r (pulls rules r ++ pulled) (t :: returned) last

section FullRead

variable {pulled returned : List Token} {r last : Reader} {keepComments : Bool}

theorem FullRead.rearranged {pulled' returned' : List Token} (rested : Rested pulled returned r)
    (read : FullRead { keepComments } r pulled' returned' last) :
    Rearranged (pulled ++ pulled') (returned ++ returned') ∧ last.scanner.cursor.rest = [] := by
  induction read generalizing pulled returned with
  | done run =>
    obtain ⟨⟨sound, done, out, buffer, same, accounts⟩, atEnd⟩ := next_rested rested run
    obtain ⟨hand, empty⟩ := atEnd rfl
    obtain rfl : buffer = [] := by simpa [empty] using accounts.isBuffered.symm
    refine ⟨?_, sound.atEnd hand⟩
    have returned := accounts.isReturned
    rw [Option.toList_none] at returned
    rw [same, hand, Option.toList_none, List.append_nil, returned]
    exact Arranges.rearranged (by simpa using accounts.arranges)
  | more run _ ih =>
    have rested := (next_rested rested run).1
    simpa using ih rested

theorem exists_fullRead (rested : Rested pulled returned r) :
    ∃ pulled' returned' last, FullRead { keepComments } r pulled' returned' last := by
  generalize bound : r.remaining = n
  induction n using Nat.strongRecOn generalizing pulled returned r with
  | ind n ih =>
    obtain ⟨⟨notices, token, r'⟩, run, answer⟩ := @next_total _ _ _ keepComments rested
    cases token with
    | none => exact ⟨_, _, _, .done run⟩
    | some t =>
      have fewer : r'.remaining < n := bound ▸ answer.resolve_left nofun
      obtain ⟨pulled, returned, last, read⟩ := ih _ fewer (next_rested rested run).1 rfl
      exact ⟨_, _, _, .more run read⟩

theorem rested_ofText (text : String) :
    Rested (ofText text).2.current.toList [] (ofText text).2 := by
  refine ⟨(fetch_sound ?_).1, [], [], [], rfl, rfl, rfl, .nil⟩
  exact Nat.le_of_eq String.length_toList

end FullRead

/-- Reading a text to its end, a reader returns what it has pulled from its scanner, without the
comments and with the movable labels moved forwards. -/
theorem labels_moved_forwards (text : String) (keepComments : Bool) :
    let start := (ofText text).2
    (∃ pulled returned last, FullRead { keepComments } start pulled returned last)
      ∧ ∀ pulled returned last, FullRead { keepComments } start pulled returned last →
        Rearranged (start.current.toList ++ pulled) returned ∧ last.scanner.cursor.rest = [] := by
  refine ⟨exists_fullRead (rested_ofText text), fun pulled returned last read => ?_⟩
  exact read.rearranged (rested_ofText text)

end PerlJava.Perl.Reader
