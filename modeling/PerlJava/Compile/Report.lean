import PerlJava.Compile.Context

/-!
# Diagnostics and tokens
-/

namespace PerlJava.Compile

open Diagnostic (Printed)

/-- A state in which something more has been printed. An error spoils the generated class. -/
def State.saying (p : Printed) (s : State) : State :=
  { s with printed := s.printed.push p, codeError := s.codeError || p.isError }

/-- Prints something. An error ends the work if so wished. -/
def sayIn (p : Printed) : M Unit := fun s =>
  if p.isError && s.options.errorAbort then .error (.fault .stopped) (s.saying p)
  else .ok () (s.saying p)

theorem printing_saying (p : Printed) (s : State) : Printing [p] s (s.saying p) :=
  ⟨by simp [State.saying], by simp [State.saying, anyError], rfl⟩

theorem endState_sayIn (p : Printed) (s : State) : endState (sayIn p s) = s.saying p := by
  unfold sayIn
  split <;> rfl

theorem sayIn_commutes {p : Printed} {f : State → State}
    (abort : ∀ s, (f s).options.errorAbort = s.options.errorAbort)
    (saying : ∀ s, (f s).saying p = f (s.saying p)) (s : State) :
    sayIn p (f s) = mapState f (sayIn p s) := by
  unfold sayIn
  rw [abort, saying]
  split <;> rfl

theorem candid_sayIn (p : Printed) : Candid (sayIn p) := by
  intro s off
  have quiet : sayIn p s = .ok () (s.saying p) := by
    rw [sayIn, off, Bool.and_false, if_neg Bool.false_ne_true]
  rw [quiet]
  cases error : p.isError with
  | false =>
    have same : sayIn p (s.aborting true) = .ok () ((s.saying p).aborting true) := by
      rw [sayIn, error]
      rfl
    rw [same]
    exact .same (printing_saying p s) (by simp [anyError, error])
  | true =>
    have cut : sayIn p (s.aborting true) = .error (.fault .stopped) ((s.aborting true).saying p) := by
      rw [sayIn, error]
      rfl
    have first : upToError [p] = [p] := by rw [upToError, if_pos error]
    rw [cut]
    refine .stopped (printing_saying p s) (by simp [anyError, error]) ?_
    rw [first]
    exact printing_saying p (s.aborting true)

theorem follows_saying (p : Printed) (s : State) : s.context.Follows (s.saying p).context :=
  ⟨rfl, rfl, rfl, rfl, id, fun failed => Bool.or_eq_true_iff.2 (.inl failed)⟩

instance enacts_sayIn (p : Printed) : Enacts .plain (sayIn p) where
  ok {s s' a} _ _ run := by
    have ended := endState_sayIn p s
    rw [run] at ended
    cases ended
    exact .inl (follows_saying p s)
  error {s s' stop} _ _ run := by
    unfold sayIn at run
    split at run <;> cases run
    exact ⟨Stop.noConfusion, .inl (follows_saying p s)⟩
  types _ s := by
    rw [endState_sayIn]
    exact State.types_prefix rfl
  code _ s := by
    rw [endState_sayIn]
    rfl
  blind _ s optimize := sayIn_commutes (f := (·.optimizing optimize)) (fun _ => rfl) (fun _ => rfl) s
  candid := candid_sayIn p
  detached b := sayIn_commutes (f := (·.against b)) (fun _ => rfl) fun _ => rfl

def say (p : Printed) : Plain Unit :=
  ⟨sayIn p, inferInstance⟩

def print (text : String) : Plain Unit :=
  say (.line text)

def report (m : Message) (at_ : Option Position) (names : Diagnostic.Names) : Plain Unit := do
  let s ← read
  say (.diagnostic s.fileName s.source m at_ names)

theorem report_failed {m : Message} {at_ : Option Position} {names : Diagnostic.Names}
    (isError : m.isWarning = false) {s s' : State} {u : Unit}
    (run : (report m at_ names).run s = .ok u s') : s'.codeError = true := by
  obtain ⟨_, _, ⟨⟩, said⟩ := M.cut run
  change sayIn (.diagnostic s.fileName s.source m at_ names) s = .ok u s' at said
  have ended := endState_sayIn (.diagnostic s.fileName s.source m at_ names) s
  rw [said] at ended
  cases ended
  simp [Printed.isError, isError]

theorem Enacts.refuse {α : Type} {e : Effect} {m : Message} {at_ : Option Position}
    {names : Diagnostic.Names} (stays : e.mayStay = true) (isError : m.isWarning = false) (a : α) :
    Enacts e (do report m at_ names; return a : M α) := by
  refine of_failed stays fun {s b s'} run => ?_
  obtain ⟨u, s₁, reported, ⟨⟩⟩ := M.cut run
  exact report_failed isError reported

def reportNotice : Perl.Notice → Plain Unit
  | .illegal c at_ => report .ilegalToken at_ [("c", String.singleton c)]
  | .unknownLabel word at_ => report .labelUnknownIgnore at_ [("label", word)]

def reportNotices (notices : List Perl.Notice) : Plain Unit :=
  notices.forM reportNotice

/-- How many arguments functions take, for putting in parentheses. -/
def State.arities (s : State) : Perl.Parens.Arities where
  own name := (s.functions.get? name).map (·.arguments.length)
  ofPackage package name := do
    let p ← s.packages.get? package
    let f ← p.functions.get? name
    return f.arguments.length

def State.readingRules (s : State) : Perl.ReadingRules where
  keepComments := s.options.readComments
  parens := if s.options.insertParens then Perl.Parens.insert s.arities else some

def openText (text : String) (reader : Perl.Reader) : M Unit :=
  modify fun s => { s with source := text, reader }

def advance : M Perl.Reader.Reading := fun s =>
  match s.reader.next s.readingRules with
  | none => .error (.fault .exhausted) s
  | some reading => .ok reading { s with reader := reading.reader }

def advanceRaw : M Perl.Scanner.Reading := fun s =>
  let reading := s.reader.scanner.next false
  .ok reading { s with reader := { s.reader with scanner := reading.scanner } }

instance does_openText (text : String) (reader : Perl.Reader) :
    Does .plain (openText text reader) :=
  .of_total (fun _ _ _ => ⟨(), _, rfl, .refl _⟩)
    ⟨fun _ => State.types_prefix rfl, fun _ => rfl, fun _ _ => rfl,
      .of_unprinted (fun _ => rfl) fun _ => .of_same rfl rfl rfl⟩

instance does_advance : Does .plain advance where
  ok {s s' a} _ _ run := by
    unfold advance at run
    split at run <;> cases run
    exact .inl (.refl _)
  error {s s' stop} _ _ run := by
    unfold advance at run
    split at run <;> cases run
    exact ⟨Stop.noConfusion, .inl (.refl _)⟩
  types _ s := by
    unfold advance
    split <;> exact State.types_prefix rfl
  code _ s := by
    unfold advance
    split <;> rfl
  blind _ s optimize := by
    have same : (s.optimizing optimize).reader.next (s.optimizing optimize).readingRules
        = s.reader.next s.readingRules := rfl
    unfold advance
    rw [same]
    cases s.reader.next s.readingRules <;> rfl
  candid := by
    refine .of_unprinted (fun s => ?_) fun s => ?_
    · have same : (s.aborting true).reader.next (s.aborting true).readingRules
          = s.reader.next s.readingRules := rfl
      unfold advance
      rw [same]
      cases s.reader.next s.readingRules <;> rfl
    · unfold advance
      split <;> exact .of_same rfl rfl rfl

def startReading (text : String) : M Unit := do
  let (notices, reader) := Perl.Reader.ofText text
  openText text reader
  reportNotices notices

def tell (notices : List Perl.Notice) (token : Option Token) : Plain Unit := do
  reportNotices notices
  if (← read).options.lexerDebug then
    print ((token.elim "None" (·.display)) ++ "\n")

def nextToken : M (Option Token) := do
  let reading ← advance
  tell reading.notices reading.token
  return reading.token

def nextRawToken : M (Option Token) := do
  let reading ← advanceRaw
  reportNotices reading.notices
  return reading.token

instance (text : String) : Does .plain (startReading text) := by
  unfold startReading
  infer_instance

instance : Does .plain nextToken := by
  unfold nextToken
  infer_instance

end PerlJava.Compile
