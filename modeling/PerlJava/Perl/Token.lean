import PerlJava.Text.Quoted

/-!
# Tokens and places of a source text
-/

namespace PerlJava

/-- A place in a source text: a line, counted from one, and the number of characters before it. A
zero stands for a part that is not known. -/
structure Position where
  line : Nat := 0
  offset : Nat := 0
deriving Repr, DecidableEq, Inhabited

/-- A token: its kind, its text, and where it starts. -/
structure Token where
  kind : String
  value : String
  line : Nat
  offset : Nat
deriving Repr, DecidableEq, Inhabited

namespace Token

def position (t : Token) : Position :=
  ⟨t.line, t.offset⟩

def display (t : Token) : String :=
  "LexToken(" ++ t.kind ++ "," ++ Text.quoted t.value ++ "," ++ toString t.line ++ ","
    ++ toString t.offset ++ ")"

def beside (t : Token) (kind value : String) : Token :=
  { t with kind, value }

end Token

end PerlJava
