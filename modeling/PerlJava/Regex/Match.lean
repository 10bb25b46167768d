import PerlJava.Regex.Basic

/-!
# Matching by backtracking

`Regex.run` tries the ways in which an expression matches at a place, in order of preference, and
gives the first of them with which the continuation succeeds. An iteration of a repetition that
consumes nothing ends the repetition, so a repetition makes at most as many free iterations as
characters are left, plus one; `fuel` bounds them.
-/

namespace PerlJava

/-- A place in a text: the characters before it, nearest first, and those after it. -/
structure Cursor where
  before : List Char
  rest : List Char
  position : Nat
deriving Repr, DecidableEq, Inhabited

namespace Cursor

def ofList (text : List Char) : Cursor :=
  ⟨[], text, 0⟩

def ofText (text : String) : Cursor :=
  ofList text.toList

def next : Cursor → Cursor
  | ⟨before, c :: rest, position⟩ => ⟨c :: before, rest, position + 1⟩
  | cursor => cursor

def back : Cursor → Cursor
  | ⟨c :: before, rest, position⟩ => ⟨before, c :: rest, position - 1⟩
  | cursor => cursor

/-- Past `n` characters, or to the end. -/
def advance (cursor : Cursor) : Nat → Cursor
  | 0 => cursor
  | n + 1 => cursor.next.advance n

/-- Back over `n` characters, or to the start. -/
def retreat (cursor : Cursor) : Nat → Cursor
  | 0 => cursor
  | n + 1 => cursor.back.retreat n

/-- The characters from `earlier` up to here, when `earlier` lies before on the same text. -/
def textSince (cursor earlier : Cursor) : List Char :=
  earlier.rest.take (cursor.position - earlier.position)

end Cursor

def Anchor.holds (cursor : Cursor) : Anchor → Bool
  | .textStart => cursor.before.isEmpty
  | .lineStart => cursor.before.head?.all (· == '\n')
  | .textEnd => cursor.rest.isEmpty || cursor.rest == ['\n']
  | .lineEnd => cursor.rest.head?.all (· == '\n')
  | .veryEnd => cursor.rest.isEmpty
  | .wordEdge => cursor.before.head?.any Text.isWord != cursor.rest.head?.any Text.isWord
  | .notWordEdge =>
    !(cursor.before.isEmpty && cursor.rest.isEmpty)
      && cursor.before.head?.any Text.isWord == cursor.rest.head?.any Text.isWord
  | .asciiWordEdge =>
    cursor.before.head?.any Text.isAsciiWord != cursor.rest.head?.any Text.isAsciiWord
  | .notAsciiWordEdge =>
    !(cursor.before.isEmpty && cursor.rest.isEmpty)
      && cursor.before.head?.any Text.isAsciiWord == cursor.rest.head?.any Text.isAsciiWord

namespace Regex

/-- How far a match has come: the place, the spans of the groups closed so far, newest first, and
the number of the group closed last. -/
structure Progress where
  cursor : Cursor
  groups : List (Nat × Nat × Nat) := []
  lastGroup : Option Nat := none
deriving Inhabited

def Progress.span? (p : Progress) (number : Nat) : Option (Nat × Nat) :=
  p.groups.lookup number

def spanText (cursor : Cursor) (start stop : Nat) : List Char :=
  if stop ≤ cursor.position then
    ((cursor.before.drop (cursor.position - stop)).take (stop - start)).reverse
  else
    (cursor.before.take (cursor.position - start)).reverse
      ++ cursor.rest.take (stop - cursor.position)

/-- The places reached by reading up to `limit` characters of a set, farthest first, in front of
those in `nearer`. -/
def reach (s : CharSet) (least : Nat) : (limit : Nat) → Cursor → List Cursor → List Cursor
  | 0, cursor, nearer => if least = 0 then cursor :: nearer else nearer
  | limit + 1, cursor, nearer =>
    let nearer := if least = 0 then cursor :: nearer else nearer
    match cursor.rest with
    | c :: _ => if s.contains c then reach s (least - 1) limit cursor.next nearer else nearer
    | [] => nearer

/-- Runs the iterations of a repetition. `last` is the place where the last free iteration began. -/
def iterate {β : Type} (body : Progress → (Progress → Option β) → Option β) (least : Nat)
    (most : Option Nat) (lazily : Bool) (k : Progress → Option β) :
    (fuel count : Nat) → (last : Option Nat) → Progress → Option β
  | 0, _, _, p => k p
  | fuel + 1, count, last, p =>
    if count < least then body p (iterate body least most lazily k fuel (count + 1) last)
    else
      let again := fun (_ : Unit) =>
        if most.all (count < ·) && last != some p.cursor.position then
          body p (iterate body least most lazily k fuel (count + 1) (some p.cursor.position))
        else none
      if lazily then (k p).or (again ()) else (again ()).or (k p)

/-- Tries the matches at a place in order of preference. -/
def run {β : Type} (fuel : Nat) : Regex → Progress → (Progress → Option β) → Option β
  | .empty, p, k => k p
  | .one s, p, k =>
    match p.cursor.rest with
    | c :: _ => if s.contains c then k { p with cursor := p.cursor.next } else none
    | [] => none
  | .seq first second, p, k => run fuel first p fun q => run fuel second q k
  | .alt first second, p, k =>
    match run fuel first p k with
    | some b => some b
    | none => run fuel second p k
  | .rep least most lazily (.one s), p, k =>
    let places := reach s least (most.getD (fuel + least)) p.cursor []
    (if lazily then places.reverse else places).findSome? fun cursor => k { p with cursor }
  | .rep least most lazily body, p, k =>
    iterate (fun q => run fuel body q) least most lazily k (fuel + least) 0 none p
  | .group number body, p, k =>
    run fuel body p fun q =>
      k { q with
        groups := (number, p.cursor.position, q.cursor.position) :: q.groups
        lastGroup := some number }
  | .backref number folding, p, k =>
    match p.span? number with
    | none => none
    | some (start, stop) =>
      let text := spanText p.cursor start stop
      let there := p.cursor.rest.take text.length
      if there.length = text.length && (text.zip there).all fun (c, d) => folding.same c d then
        k { p with cursor := p.cursor.advance text.length }
      else none
  | .anchor a, p, k => if a.holds p.cursor then k p else none
  | .ahead negative body, p, k =>
    match run fuel body p some with
    | some q => if negative then none else k { q with cursor := p.cursor }
    | none => if negative then k p else none
  | .behind negative width body, p, k =>
    let found := if width ≤ p.cursor.position then
        run fuel body { p with cursor := p.cursor.retreat width } fun q =>
          if q.cursor.position = p.cursor.position then some q else none
      else none
    match found with
    | some q => if negative then none else k { q with cursor := p.cursor }
    | none => if negative then k p else none
  | .atomic body, p, k => (run fuel body p some).bind k
  | .ifGroup number yes no, p, k =>
    if (p.span? number).isSome then run fuel yes p k else run fuel no p k

/-- Enough fuel for any repetition over a text of `size` characters. -/
def enough (size : Nat) : Nat :=
  size + 2

variable (r : Regex)

/-- The preferred match at a place of a text of `size` characters. -/
def matchIn (size : Nat) (cursor : Cursor) : Option Progress :=
  run (enough size) r { cursor } some

def matchAt (cursor : Cursor) : Option Progress :=
  r.matchIn (cursor.position + cursor.rest.length) cursor

def matchText (text : String) : Option Progress :=
  r.matchAt (.ofText text)

def matchesStart (text : String) : Bool :=
  (r.matchText text).isSome

/-- The first match at or after a place, with the place where it starts. -/
def search (r : Regex) : (steps : Nat) → Cursor → Option (Cursor × Progress)
  | 0, _ => none
  | steps + 1, cursor =>
    match r.matchAt cursor with
    | some p => some (cursor, p)
    | none => if cursor.rest.isEmpty then none else search r steps cursor.next

/-- The matches from left to right, none touching the inside of another. -/
def findAll (r : Regex) : (steps : Nat) → Cursor → List (Cursor × Progress)
  | 0, _ => []
  | steps + 1, cursor =>
    match r.search (cursor.rest.length + 1) cursor with
    | none => []
    | some (start, p) =>
      if p.cursor.position = start.position then
        (start, p) :: (if start.rest.isEmpty then [] else findAll r steps start.next)
      else (start, p) :: findAll r steps p.cursor

def matchesIn (text : String) : List (Cursor × Progress) :=
  r.findAll (text.length + 1) (.ofText text)

/-- A piece of the text that replaces a match. -/
inductive Piece where
  | text (s : String)
  | group (number : Nat)
deriving Repr, DecidableEq

/-- The text that pieces give for a match. A group that took no part gives nothing. -/
def fill (p : Progress) (pieces : List Piece) : String :=
  String.join (pieces.map fun
    | .text s => s
    | .group number =>
      match p.span? number with
      | some (start, stop) => String.ofList (spanText p.cursor start stop)
      | none => "")

def replace (pieces : List Piece) (text : String) : String :=
  let cs := text.toList
  let (done, out) := (r.matchesIn text).foldl (fun (done, out) (start, p) =>
    (p.cursor.position,
      out ++ String.ofList ((cs.drop done).take (start.position - done)) ++ fill p pieces)) (0, "")
  out ++ String.ofList (cs.drop done)

end Regex

end PerlJava
