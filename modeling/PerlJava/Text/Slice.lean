/-!
# Parts of a text

Cutting, searching and replacing in texts. Positions count characters. A slice bound below zero
counts from the end of the text, and bounds outside the text are drawn in.
-/

namespace PerlJava.Text

/-- The position that a slice bound denotes in a sequence of `size` elements. -/
def clampBound (size : Nat) (bound : Int) : Nat :=
  if bound < 0 then (bound + size).toNat else min bound.toNat size

def sliceList {α : Type} (xs : List α) (start stop : Int) : List α :=
  let i := clampBound xs.length start
  let j := clampBound xs.length stop
  (xs.take j).drop i

/-- The part of a text from position `start` up to `stop`. -/
def slice (text : String) (start stop : Int) : String :=
  String.ofList (sliceList text.toList start stop)

/-- The part of a text from position `start` on. -/
def sliceFrom (text : String) (start : Int) : String :=
  String.ofList (text.toList.drop (clampBound text.length start))

/-- The part of a text before position `stop`. -/
def sliceTo (text : String) (stop : Int) : String :=
  String.ofList (text.toList.take (clampBound text.length stop))

/-- Strips `start` from the front of `text`. -/
def dropStart? : List Char → List Char → Option (List Char)
  | [], text => some text
  | _ :: _, [] => none
  | c :: start, d :: text => if c = d then dropStart? start text else none

/-- The position of the first occurrence of `sought`. -/
def findFrom (sought : List Char) : List Char → Nat → Option Nat
  | [], i => if sought.isEmpty then some i else none
  | c :: text, i =>
    if (dropStart? sought (c :: text)).isSome then some i else findFrom sought text (i + 1)

/-- The position of the first occurrence of `sought` in `text`. -/
def find? (text sought : String) : Option Nat :=
  findFrom sought.toList text.toList 0

def occurs (text sought : String) : Bool :=
  (find? text sought).isSome

def lastIndexOf? (c : Char) (text : List Char) : Option Nat :=
  (text.foldl (fun (acc : Nat × Option Nat) d =>
    (acc.1 + 1, if d = c then some acc.1 else acc.2)) (0, none)).2

/-- Replaces at most `limit` occurrences of a nonempty text, from the left; `skip` characters of an
occurrence just replaced are still to be passed over. -/
def replaceList (sought by_ : List Char) : (limit skip : Nat) → List Char → List Char
  | _, _, [] => []
  | limit, skip + 1, _ :: text => replaceList sought by_ limit skip text
  | 0, 0, text => text
  | limit + 1, 0, c :: text =>
    if (dropStart? sought (c :: text)).isSome then
      by_ ++ replaceList sought by_ limit (sought.length - 1) text
    else c :: replaceList sought by_ (limit + 1) 0 text

/-- Replaces every occurrence of the nonempty text `sought`. -/
def replaceAll (text sought by_ : String) : String :=
  String.ofList (replaceList sought.toList by_.toList text.length 0 text.toList)

def replaceFirst (text sought by_ : String) : String :=
  String.ofList (replaceList sought.toList by_.toList 1 0 text.toList)

def splitAt (c : Char) : List Char → List (List Char)
  | [] => [[]]
  | d :: text =>
    match splitAt c text with
    | [] => [[d]]
    | part :: parts => if d = c then [] :: part :: parts else (d :: part) :: parts

/-- Splits at every occurrence of the nonempty text `sought`; `skip` characters of the occurrence
just met are still to be passed over. -/
def splitByList (sought : List Char) : (skip : Nat) → List Char → List (List Char)
  | _, [] => [[]]
  | skip + 1, _ :: text => splitByList sought skip text
  | 0, c :: text =>
    if (dropStart? sought (c :: text)).isSome then
      [] :: splitByList sought (sought.length - 1) text
    else
      match splitByList sought 0 text with
      | [] => [[c]]
      | part :: parts => (c :: part) :: parts

def splitBy (text sought : String) : List String :=
  (splitByList sought.toList 0 text.toList).map String.ofList

def times (n : Nat) (text : String) : String :=
  String.join (List.replicate n text)

def padRight (width : Nat) (text : String) : String :=
  text ++ times (width - text.length) " "

/-- What was printed, cut into lines; a last line without a line end counts, an empty one does
not. -/
def printedLines (text : String) : List String :=
  let parts := splitAt '\n' text.toList
  let parts := if parts.getLast? == some [] then parts.dropLast else parts
  parts.map String.ofList

end PerlJava.Text
