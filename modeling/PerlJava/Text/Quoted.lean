import PerlJava.Text.CharClass

/-!
# Quoted texts

A text is quoted by single quotes, or by double quotes when it holds a single and no double one.
The quote in use, the backslash and everything that is not printable are escaped.
-/

namespace PerlJava.Text

/-- The lower-case hexadecimal digits of a number, at least `width` of them. -/
def hex (width n : Nat) : String :=
  let digits := Nat.toDigits 16 n
  String.ofList (List.replicate (width - digits.length) '0' ++ digits)

def quoteChar (quote c : Char) : String :=
  if c = quote ∨ c = '\\' then String.ofList ['\\', c]
  else if c = '\n' then "\\n"
  else if c = '\r' then "\\r"
  else if c = '\t' then "\\t"
  else if isPrintable c then String.singleton c
  else if c.toNat < 0x100 then "\\x" ++ hex 2 c.toNat
  else if c.toNat < 0x10000 then "\\u" ++ hex 4 c.toNat
  else "\\U" ++ hex 8 c.toNat

def quoteFor (text : List Char) : Char :=
  if text.contains '\'' && !text.contains '"' then '"' else '\''

def quoted (text : String) : String :=
  let cs := text.toList
  let quote := quoteFor cs
  String.singleton quote ++ String.join (cs.map (quoteChar quote)) ++ String.singleton quote

end PerlJava.Text
