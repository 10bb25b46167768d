/-!
# Reading quoted texts

The reverse of quoting: texts in single, double or tripled quotes with backslash escapes. Texts that
follow each other directly are joined.
-/

namespace PerlJava.Text

def digitIn? (base : Nat) (c : Char) : Option Nat :=
  let n := if '0' ≤ c ∧ c ≤ '9' then c.toNat - '0'.toNat
    else if 'a' ≤ c ∧ c ≤ 'f' then c.toNat - 'a'.toNat + 10
    else if 'A' ≤ c ∧ c ≤ 'F' then c.toNat - 'A'.toNat + 10
    else base
  if n < base then some n else none

def number? (base : Nat) (digits : List Char) : Option Nat :=
  digits.foldlM (fun n c => (digitIn? base c).map (n * base + ·)) 0

/-- The character that an escape of a single letter stands for. -/
def escapedLetter? : Char → Option Char
  | '\\' => some '\\'
  | '\'' => some '\''
  | '"' => some '"'
  | 'a' => some '\x07'
  | 'b' => some '\x08'
  | 'f' => some '\x0c'
  | 'n' => some '\n'
  | 'r' => some '\x0d'
  | 't' => some '\t'
  | 'v' => some '\x0b'
  | _ => none

/-- How many hexadecimal digits follow the letter of an escape. -/
def hexDigits? : Char → Option Nat
  | 'x' => some 2
  | 'u' => some 4
  | 'U' => some 8
  | _ => none

/-- Reads an escape after its backslash: what it stands for, and how many characters it takes. -/
def readEscape? : List Char → Option (List Char × Nat)
  | [] => none
  | c :: rest =>
    match escapedLetter? c with
    | some d => some ([d], 1)
    | none =>
      match hexDigits? c with
      | some width =>
        let digits := rest.take width
        if digits.length = width then
          (number? 16 digits).map fun n => ([Char.ofNat n], width + 1)
        else none
      | none =>
        let digits := ((c :: rest).take 3).takeWhile fun d => (digitIn? 8 d).isSome
        if digits.isEmpty then some (['\\', c], 1)
        else (number? 8 digits).map fun n => ([Char.ofNat n], digits.length)

/-- Reads up to the closing quotes: the text, and what follows them. -/
def readBody? (closing : List Char) : (skip : Nat) → List Char → Option (List Char × List Char)
  | _, [] => none
  | skip + 1, _ :: text => readBody? closing skip text
  | 0, c :: text =>
    if (c :: text).take closing.length == closing then
      some ([], (c :: text).drop closing.length)
    else if c = '\\' then do
      let (chars, size) ← readEscape? text
      let (body, rest) ← readBody? closing size text
      return (chars ++ body, rest)
    else do
      let (body, rest) ← readBody? closing 0 text
      return (c :: body, rest)

/-- Reads quoted texts that follow each other directly, at most `fuel` of them. -/
def readQuoted? : (fuel : Nat) → List Char → Option (List Char)
  | 0, _ => none
  | fuel + 1, text =>
    match text with
    | [] => some []
    | q :: rest =>
      if q = '\'' ∨ q = '"' then do
        let tripled := rest.take 2 == [q, q]
        let (body, rest) ← readBody? (if tripled then [q, q, q] else [q]) 0
          (if tripled then rest.drop 2 else rest)
        let more ← readQuoted? fuel rest
        return body ++ more
      else none

def unquoted? (text : String) : Option String :=
  (readQuoted? (text.length + 1) text.toList).map String.ofList

end PerlJava.Text
