import PerlJava.Fault
import PerlJava.Regex.Match

/-!
# Replacement templates

In the template of a replacement a backslash and a number stand for a group, `\g<…>` does so too, a
few letters and octal numbers stand for control characters, and any other escaped character stands
for itself with its backslash. Other letters may not be escaped.
-/

namespace PerlJava.Regex

def controlEscapes : List (Char × Char) :=
  [('a', Char.ofNat 7), ('b', Char.ofNat 8), ('f', Char.ofNat 12), ('n', '\n'), ('r', '\r'),
    ('t', '\t'), ('v', Char.ofNat 11), ('\\', '\\')]

def digit (c : Char) : Nat :=
  c.toNat - '0'.toNat

def isOctal (c : Char) : Bool :=
  '0' ≤ c && c ≤ '7'

def Piece.ofChar (c : Char) : Piece :=
  .text (String.singleton c)

def reference (groups number : Nat) : Except Fault Piece :=
  if number ≤ groups then .ok (.group number) else .error .badTemplate

/-- A group by its name between angle brackets; groups have no names, so only numbers are known. -/
def namedReference (groups : Nat) (name : List Char) : Except Fault Piece :=
  match name with
  | [] => .error .badTemplate
  | c :: _ =>
    if Text.isAsciiDigit c then
      if name.all Text.isAsciiDigit then
        reference groups (name.foldl (fun n d => 10 * n + digit d) 0)
      else .error .badTemplate
    else if name.all Text.isWord then .error .outOfRange
    else .error .badTemplate

/-- The first piece of a template that begins with a backslash, and what follows it. -/
def escapedPiece (groups : Nat) : List Char → Except Fault (Piece × List Char)
  | [] => .error .badTemplate
  | 'g' :: rest =>
    match rest with
    | '<' :: name =>
      if name.contains '>' then do
        let piece ← namedReference groups (name.takeWhile (· != '>'))
        return (piece, (name.dropWhile (· != '>')).drop 1)
      else .error .badTemplate
    | _ => .error .badTemplate
  | '0' :: rest =>
    let more := (rest.take 2).takeWhile isOctal
    let code := more.foldl (fun n d => 8 * n + digit d) 0
    .ok (.ofChar (Char.ofNat code), rest.drop more.length)
  | c :: rest =>
    if Text.isAsciiDigit c then
      match rest with
      | d :: others =>
        if Text.isAsciiDigit d then
          if isOctal c && isOctal d && others.head?.any isOctal then
            let code := (c :: d :: others.take 1).foldl (fun n d => 8 * n + digit d) 0
            if code > 255 then .error .badTemplate
            else .ok (.ofChar (Char.ofNat code), others.drop 1)
          else do return (← reference groups (10 * digit c + digit d), others)
        else do return (← reference groups (digit c), rest)
      | [] => do return (← reference groups (digit c), [])
    else
      match controlEscapes.lookup c with
      | some control => .ok (.ofChar control, rest)
      | none =>
        if Text.isAsciiLetter c then .error .badTemplate
        else .ok (.text (String.ofList ['\\', c]), rest)

/-- The pieces of a template that has at most `fuel` of them. -/
def piecesWithin (groups : Nat) : Nat → List Char → Except Fault (List Piece)
  | 0, _ | _, [] => .ok []
  | fuel + 1, '\\' :: rest => do
    let (piece, others) ← escapedPiece groups rest
    return piece :: (← piecesWithin groups fuel others)
  | fuel + 1, c :: rest => do
    return .ofChar c :: (← piecesWithin groups fuel rest)

/-- The pieces of a template for an expression with some number of groups. Each takes a character at
least. -/
def pieces (groups : Nat) (template : List Char) : Except Fault (List Piece) :=
  piecesWithin groups template.length template

/-- Replaces every match in a text by what a template gives, for an expression with some number of
groups. -/
def substitute (r : Regex) (groups : Nat) (template text : String) : Except Fault String := do
  return r.replace (← pieces groups template.toList) text

end PerlJava.Regex
