import PerlJava.Text.CharClass

/-!
# Java expressions

How Java reads the text of an expression. The text is cut into lexemes, each as long as it can be,
and the lexemes are arranged to a tree by the precedences of the operators. `Expr.text` writes a
tree down. What it writes is read back as the same tree if the tree is `Proper`, that is arranged as
the precedences ask for without further parentheses, and `Separate`, that is without an operator in
front of a text that it would grow together with.
-/

namespace PerlJava.Java

/-! ### Lexemes -/

/-- The operators and separators of more than one character, and what begins a comment. -/
def longSymbols : List (List Char) :=
  [['+', '+'], ['-', '-'], ['-', '>'], [':', ':'], ['=', '='], ['!', '='], ['<', '='], ['>', '='],
    ['&', '&'], ['|', '|'], ['<', '<'], ['>', '>'], ['>', '>', '>'], ['+', '='], ['-', '='],
    ['*', '='], ['/', '='], ['%', '='], ['&', '='], ['|', '='], ['^', '='], ['<', '<', '='],
    ['>', '>', '='], ['>', '>', '>', '='], ['/', '/'], ['/', '*']]

def isNamePart (c : Char) : Bool :=
  Text.isWord c || c == '$'

/-- Whether a lexeme that has begun goes on with a character. -/
def goesOn : List Char → Char → Bool
  | [], _ => false
  | first :: rest, c =>
    if isNamePart first then isNamePart c || (Text.isAsciiDigit first && c == '.')
    else longSymbols.contains (first :: rest ++ [c])

/-- How far a text has been cut: the lexemes so far, and the one that has begun. -/
structure Cut where
  done : List (List Char) := []
  current : List Char := []
deriving Repr, DecidableEq

namespace Cut

/-- The lexemes, with the one that has begun taken as complete. -/
def finished (s : Cut) : List (List Char) :=
  if s.current.isEmpty then s.done else s.done ++ [s.current]

def step (s : Cut) (c : Char) : Cut :=
  if goesOn s.current c then { s with current := s.current ++ [c] }
  else { done := s.finished, current := if Text.isAsciiBlank c then [] else [c] }

def take (s : Cut) (text : List Char) : Cut :=
  text.foldl step s

end Cut

def lexemesOf (text : List Char) : List (List Char) :=
  (Cut.take {} text).finished

/-- The words that are no names. -/
def keywords : List (List Char) :=
  ["abstract", "assert", "boolean", "break", "byte", "case", "catch", "char", "class", "const",
    "continue", "default", "do", "double", "else", "enum", "extends", "final", "finally", "float",
    "for", "goto", "if", "implements", "import", "instanceof", "int", "interface", "long", "native",
    "new", "package", "private", "protected", "public", "return", "short", "static", "strictfp",
    "super", "switch", "synchronized", "this", "throw", "throws", "transient", "try", "void",
    "volatile", "while"].map String.toList

def isName : List Char → Bool
  | [] => false
  | c :: rest =>
    isNamePart c && !Text.isDigit c && rest.all isNamePart && !keywords.contains (c :: rest)

def isNumber (text : List Char) : Bool :=
  !text.isEmpty && text.all Text.isAsciiDigit

/-! ### Trees -/

/-- Operators in front of their operand. -/
inductive UnaryOp where
  | plus
  | minus
  | increment
  | decrement
  | complement
  | not
deriving Repr, DecidableEq

namespace UnaryOp

def all : List UnaryOp :=
  [plus, minus, increment, decrement, complement, not]

/-- How an operator is written. -/
def text : UnaryOp → List Char
  | plus => ['+']
  | minus => ['-']
  | increment => ['+', '+']
  | decrement => ['-', '-']
  | complement => ['~']
  | not => ['!']

def ofText? (text : List Char) : Option UnaryOp :=
  all.find? (·.text == text)

@[simp] theorem ofText?_text (op : UnaryOp) : ofText? op.text = some op := by
  cases op <;> decide

end UnaryOp

/-- Operators between two operands. -/
inductive BinaryOp where
  | multiply
  | divide
  | remainder
  | add
  | subtract
  | shiftLeft
  | shiftRight
  | less
  | lessEq
  | greater
  | greaterEq
  | equal
  | notEqual
  | bitAnd
  | bitXor
  | bitOr
  | and
  | or
deriving Repr, DecidableEq

namespace BinaryOp

def all : List BinaryOp :=
  [multiply, divide, remainder, add, subtract, shiftLeft, shiftRight, less, lessEq, greater,
    greaterEq, equal, notEqual, bitAnd, bitXor, bitOr, and, or]

/-- How an operator is written. -/
def text : BinaryOp → List Char
  | multiply => ['*']
  | divide => ['/']
  | remainder => ['%']
  | add => ['+']
  | subtract => ['-']
  | shiftLeft => ['<', '<']
  | shiftRight => ['>', '>']
  | less => ['<']
  | lessEq => ['<', '=']
  | greater => ['>']
  | greaterEq => ['>', '=']
  | equal => ['=', '=']
  | notEqual => ['!', '=']
  | bitAnd => ['&']
  | bitXor => ['^']
  | bitOr => ['|']
  | and => ['&', '&']
  | or => ['|', '|']

/-- How tightly an operator binds. All of them group to the left. -/
def level : BinaryOp → Nat
  | multiply | divide | remainder => 10
  | add | subtract => 9
  | shiftLeft | shiftRight => 8
  | less | lessEq | greater | greaterEq => 7
  | equal | notEqual => 6
  | bitAnd => 5
  | bitXor => 4
  | bitOr => 3
  | and => 2
  | or => 1

def ofText? (text : List Char) : Option BinaryOp :=
  all.find? (·.text == text)

@[simp] theorem ofText?_text (op : BinaryOp) : ofText? op.text = some op := by
  cases op <;> decide

theorem one_le_level (op : BinaryOp) : 1 ≤ op.level := by
  cases op <;> decide

theorem level_le_ten (op : BinaryOp) : op.level ≤ 10 := by
  cases op <;> decide

end BinaryOp

/-- An expression as Java understands it. -/
inductive Expr where
  | name (text : List Char)
  | number (digits : List Char)
  | paren (inner : Expr)
  | unary (op : UnaryOp) (operand : Expr)
  /-- The conversion of an operand to a floating-point number. -/
  | toFloat (operand : Expr)
  | binary (op : BinaryOp) (left right : Expr)
  | choice (test yes no : Expr)
  /-- A call of a method of a class, with one argument. -/
  | call (owner method : List Char) (argument : Expr)
  /-- A call of a method of a class, with two arguments. -/
  | call₂ (owner method : List Char) (first second : Expr)
deriving Repr, DecidableEq

namespace Expr

def level : Expr → Nat
  | choice .. => 0
  | binary op .. => op.level
  | _ => 12

/-- How an expression is written. -/
def text : Expr → List Char
  | name t | number t => t
  | paren e => '(' :: (e.text ++ [')'])
  | unary op e => op.text ++ e.text
  | toFloat e => ['(', 'f', 'l', 'o', 'a', 't', ')'] ++ e.text
  | binary op l r => l.text ++ ' ' :: (op.text ++ ' ' :: r.text)
  | choice c a b => c.text ++ '?' :: (a.text ++ ':' :: b.text)
  | call owner method a => owner ++ '.' :: (method ++ '(' :: (a.text ++ [')']))
  | call₂ owner method a b =>
    owner ++ '.' :: (method ++ '(' :: (a.text ++ ',' :: ' ' :: (b.text ++ [')'])))

/-- The lexemes of an expression. -/
def lexemes : Expr → List (List Char)
  | name t | number t => [t]
  | paren e => ['('] :: (e.lexemes ++ [[')']])
  | unary op e => op.text :: e.lexemes
  | toFloat e => ['('] :: ['f', 'l', 'o', 'a', 't'] :: [')'] :: e.lexemes
  | binary op l r => l.lexemes ++ op.text :: r.lexemes
  | choice c a b => c.lexemes ++ ['?'] :: (a.lexemes ++ [':'] :: b.lexemes)
  | call owner method a => owner :: ['.'] :: method :: ['('] :: (a.lexemes ++ [[')']])
  | call₂ owner method a b =>
    owner :: ['.'] :: method :: ['('] :: (a.lexemes ++ [','] :: (b.lexemes ++ [[')']]))

/-- An expression that needs no further parentheses. -/
def Proper : Expr → Prop
  | name t => isName t = true
  | number t => isNumber t = true
  | paren e => e.Proper
  | unary _ e | toFloat e => e.Proper ∧ e.level = 12
  | binary op l r => l.Proper ∧ r.Proper ∧ op.level ≤ l.level ∧ op.level < r.level
  | choice c a b => c.Proper ∧ a.Proper ∧ b.Proper ∧ 1 ≤ c.level
  | call owner method a => isName owner = true ∧ isName method = true ∧ a.Proper
  | call₂ owner method a b =>
    isName owner = true ∧ isName method = true ∧ a.Proper ∧ b.Proper

/-- An expression in which no operator grows together with the operand it stands in front of. -/
def Separate : Expr → Prop
  | name _ | number _ => True
  | paren e | toFloat e => e.Separate
  | unary op e => e.Separate ∧ ∀ c ∈ e.text.head?, goesOn op.text c = false
  | binary _ l r => l.Separate ∧ r.Separate
  | choice c a b => c.Separate ∧ a.Separate ∧ b.Separate
  | call _ _ a => a.Separate
  | call₂ _ _ a b => a.Separate ∧ b.Separate

end Expr

/-! ### Reading -/

/-- Something that waits for the rest of its last operand. -/
inductive Frame where
  | paren
  | unary (op : UnaryOp)
  | toFloat
  | left (op : BinaryOp) (left : Expr)
  /-- Up to the question mark of a choice. -/
  | test (test : Expr)
  /-- Up to the colon of a choice. -/
  | branch (test yes : Expr)
  | argument (owner method : List Char)
  | second (owner method : List Char) (first : Expr)
deriving Repr, DecidableEq

/-- How tightly a frame holds its last operand; other lexemes end those that have no level. -/
def Frame.level? : Frame → Option Nat
  | unary _ | toFloat => some 11
  | left op _ => some op.level
  | branch _ _ => some 0
  | paren | test _ | argument _ _ | second .. => none

def Frame.fill (e : Expr) : Frame → Expr
  | unary op => .unary op e
  | toFloat => .toFloat e
  | left op l => .binary op l e
  | branch c a => .choice c a e
  | paren | test _ | argument _ _ | second .. => e

/-- How far a list of lexemes has been read, with the frames that wait, innermost first. -/
inductive Reading where
  /-- An operand has to come. -/
  | operand (frames : List Frame)
  /-- An operand has been read. -/
  | after (frames : List Frame) (e : Expr)
  /-- The end of a conversion has to come. -/
  | typeName (frames : List Frame)
  /-- The name of a method has to come. -/
  | member (frames : List Frame) (owner : List Char)
  /-- The arguments of a method have to come. -/
  | arguments (frames : List Frame) (owner method : List Char)
deriving Repr, DecidableEq

/-- Ends the frames that hold their operand at least as tightly as a level. -/
def closeTo (level : Nat) : List Frame → Expr → List Frame × Expr
  | [], e => ([], e)
  | f :: frames, e =>
    match f.level? with
    | some n => if level ≤ n then closeTo level frames (f.fill e) else (f :: frames, e)
    | none => (f :: frames, e)

namespace Reading

/-- Reads a lexeme where an operand has to come. -/
def beginOperand (frames : List Frame) (t : List Char) : Option Reading :=
  if t = ['('] then some (operand (.paren :: frames))
  else if t = ['f', 'l', 'o', 'a', 't'] then
    match frames with
    | .paren :: frames => some (typeName frames)
    | _ => none
  else match UnaryOp.ofText? t with
    | some op => some (operand (.unary op :: frames))
    | none =>
      if isName t then some (after frames (.name t))
      else if isNumber t then some (after frames (.number t))
      else none

def closeParen (frames : List Frame) (e : Expr) : Option Reading :=
  match closeTo 0 frames e with
  | (.paren :: frames, e) => some (after frames (.paren e))
  | (.argument owner method :: frames, e) => some (after frames (.call owner method e))
  | (.second owner method a :: frames, e) => some (after frames (.call₂ owner method a e))
  | _ => none

/-- Reads a lexeme after an operand. -/
def goAfter (frames : List Frame) (e : Expr) (t : List Char) : Option Reading :=
  if t = [')'] then closeParen frames e
  else if t = ['.'] then
    match e with
    | .name owner => some (member frames owner)
    | _ => none
  else if t = [','] then
    match closeTo 0 frames e with
    | (.argument owner method :: frames, e) => some (operand (.second owner method e :: frames))
    | _ => none
  else if t = ['?'] then
    let (frames, e) := closeTo 1 frames e
    some (operand (.test e :: frames))
  else if t = [':'] then
    match closeTo 0 frames e with
    | (.test c :: frames, e) => some (operand (.branch c e :: frames))
    | _ => none
  else
    (BinaryOp.ofText? t).map fun op =>
      let (frames, e) := closeTo op.level frames e
      operand (.left op e :: frames)

/-- Reads a lexeme. -/
def step : Reading → List Char → Option Reading
  | operand frames, t => beginOperand frames t
  | after frames e, t => goAfter frames e t
  | typeName frames, t => if t = [')'] then some (operand (.toFloat :: frames)) else none
  | member frames owner, t => if isName t then some (arguments frames owner t) else none
  | arguments frames owner method, t =>
    if t = ['('] then some (operand (.argument owner method :: frames)) else none

def run (s : Reading) (ts : List (List Char)) : Option Reading :=
  ts.foldlM step s

def result? : Reading → Option Expr
  | after frames e =>
    match closeTo 0 frames e with
    | ([], e) => some e
    | _ => none
  | _ => none

end Reading

def readExpr (text : List Char) : Option Expr :=
  ((Reading.operand []).run (lexemesOf text)).bind Reading.result?

/-! ### Written lexemes are found again -/

variable {c : Char} {t : List Char} {frames : List Frame} {level : Nat} {f : Frame}

section

variable (digit : Text.isAsciiDigit c = true)

include digit

theorem toNat_lt_of_isAsciiDigit : c.toNat < 128 := by
  simp only [Text.isAsciiDigit, Bool.and_eq_true, decide_eq_true_eq] at digit
  have bound : c.toNat ≤ 57 := digit.2
  omega

theorem isNamePart_of_isAsciiDigit : isNamePart c = true := by
  simp [isNamePart, Text.isWord, toNat_lt_of_isAsciiDigit digit, digit]

theorem isDigit_of_isAsciiDigit : Text.isDigit c = true := by
  simp [Text.isDigit, toNat_lt_of_isAsciiDigit digit, digit]

end

theorem isAsciiBlank_eq_false (part : isNamePart c = true) :
    Text.isAsciiBlank c = false := by
  have le_iff (a b : Char) : a ≤ b ↔ a.toNat ≤ b.toNat := Iff.rfl
  have eq_iff (a b : Char) : a = b ↔ a.toNat = b.toNat := Char.toNat_inj.symm
  rw [Bool.eq_false_iff]
  intro blank
  simp only [Text.isAsciiBlank, Bool.or_eq_true, beq_iff_eq, Bool.and_eq_true, decide_eq_true_eq,
    eq_iff] at blank
  have small : c.toNat < 128 := by
    have : ' '.toNat = 32 := rfl
    omega
  simp only [isNamePart, Text.isWord, small, ↓reduceIte, Text.isAsciiLetter, Text.isAsciiDigit,
    Bool.or_eq_true, Bool.and_eq_true, beq_iff_eq, decide_eq_true_eq, le_iff, eq_iff] at part
  simp only [Char.reduceToNat] at part blank
  omega

theorem goesOn_eq_false (part : isNamePart c = false) (point : c ≠ '.')
    (ends : longSymbols.all (·.getLast? != some c) = true) (current : List Char) :
    goesOn current c = false := by
  cases current with
  | nil => rfl
  | cons first rest =>
    simp only [goesOn]
    split
    · simp [part, point]
    · rw [List.all_eq_true] at ends
      simp only [List.contains_eq_mem, decide_eq_false_iff_not]
      intro member
      have other := ends _ member
      rw [List.getLast?_concat] at other
      simp at other

/-- A text that begins with a character and is cut into lexemes, the last of which may go on. -/
structure Reads (text : List Char) (c : Char) (ls : List (List Char)) (last : List Char) : Prop where
  first : text.head? = some c
  solid : last ≠ []
  taken (s : Cut) : goesOn s.current c = false → s.take text = ⟨s.finished ++ ls, last⟩

namespace Reads

variable {t u : List Char} {c d : Char} {ls ms : List (List Char)} {last end_ : List Char}

theorem lexemesOf_eq (reads : Reads t c ls last) : lexemesOf t = ls ++ [last] := by
  have solid := reads.solid
  simp [lexemesOf, reads.taken {} rfl, Cut.finished, solid]

/-- Two texts that do not grow together. -/
theorem append (one : Reads t c ls last) (two : Reads u d ms end_)
    (apart : goesOn last d = false) : Reads (t ++ u) c (ls ++ last :: ms) end_ where
  first := by simp [one.first]
  solid := two.solid
  taken s free := by
    have solid := one.solid
    rw [Cut.take, List.foldl_append]
    change ((s.take t).take u) = _
    rw [one.taken s free, two.taken _ apart]
    simp [Cut.finished, solid]

theorem blank (one : Reads t c ls last) (two : Reads u d ms end_) :
    Reads (t ++ ' ' :: u) c (ls ++ last :: ms) end_ where
  first := by simp [one.first]
  solid := two.solid
  taken s free := by
    have solid := one.solid
    have stops : goesOn last ' ' = false :=
      goesOn_eq_false (by decide) (by decide) (by decide) last
    rw [Cut.take, List.foldl_append, List.foldl_cons]
    change (((s.take t).step ' ').take u) = _
    have between : (s.take t).step ' ' = ⟨s.finished ++ ls ++ [last], []⟩ := by
      rw [one.taken s free]
      simp [Cut.step, stops, Cut.finished, solid, show Text.isAsciiBlank ' ' = true by decide]
    rw [between, two.taken _ rfl]
    simp [Cut.finished]

variable (blank : Text.isAsciiBlank c = false)

include blank

theorem single : Reads [c] c [] [c] where
  first := rfl
  solid := List.cons_ne_nil _ _
  taken s free := by simp [Cut.take, Cut.step, free, blank]

theorem double (grows : goesOn [c] d = true) : Reads [c, d] c [] [c, d] where
  first := rfl
  solid := List.cons_ne_nil _ _
  taken s free := by simp [Cut.take, Cut.step, free, blank, grows]

/-- A text of characters of names. -/
theorem word {rest : List Char}
    (parts : ∀ d ∈ c :: rest, isNamePart d = true) : Reads (c :: rest) c [] (c :: rest) where
  first := rfl
  solid := List.cons_ne_nil _ _
  taken s free := by
    have grown : ∀ (more read : List Char), (∀ d ∈ more, isNamePart d = true) →
        Cut.take ⟨s.finished, c :: read⟩ more = ⟨s.finished, c :: (read ++ more)⟩ := by
      intro more
      induction more with
      | nil => simp [Cut.take]
      | cons d more ih =>
        intro read parts'
        have grows : goesOn (c :: read) d = true := by
          simp [goesOn, parts c List.mem_cons_self, parts' d List.mem_cons_self]
        have step : Cut.step ⟨s.finished, c :: read⟩ d = ⟨s.finished, c :: (read ++ [d])⟩ := by
          simp [Cut.step, grows]
        rw [Cut.take, List.foldl_cons, step]
        change Cut.take _ more = _
        rw [ih (read ++ [d]) fun e member => parts' e (List.mem_cons_of_mem d member)]
        simp
    have begun : s.step c = ⟨s.finished, [c]⟩ := by simp [Cut.step, free, blank]
    rw [Cut.take, List.foldl_cons, begun]
    change Cut.take _ rest = _
    rw [grown rest [] fun d member => parts d (List.mem_cons_of_mem c member)]
    simp

end Reads

theorem goesOn_single {x : Char} (part : isNamePart x = false)
    (begins : longSymbols.all (·.head? != some x) = true) (c : Char) : goesOn [x] c = false := by
  rw [List.all_eq_true] at begins
  simp only [goesOn, part, Bool.false_eq_true, ↓reduceIte, List.contains_eq_mem,
    decide_eq_false_iff_not]
  intro member
  simpa using begins _ member

theorem goesOn_opening (c : Char) : goesOn ['('] c = false :=
  goesOn_single (by decide) (by decide) c

theorem goesOn_closing (current : List Char) : goesOn current ')' = false :=
  goesOn_eq_false (by decide) (by decide) (by decide) current

theorem parts_of_isName (named : isName t = true) :
    ∃ c rest, t = c :: rest ∧ Text.isDigit c = false ∧ ∀ d ∈ c :: rest, isNamePart d = true := by
  cases t with
  | nil => cases named
  | cons c rest =>
    simp only [isName, Bool.and_eq_true, Bool.not_eq_true', List.all_eq_true] at named
    obtain ⟨⟨⟨part, digit⟩, parts⟩, -⟩ := named
    exact ⟨c, rest, rfl, digit, by simpa [part] using parts⟩

theorem parts_of_isNumber (number : isNumber t = true) :
    ∃ c rest, t = c :: rest ∧ ∀ d ∈ c :: rest, isNamePart d = true := by
  cases t with
  | nil => cases number
  | cons c rest =>
    simp only [isNumber, Bool.and_eq_true, List.all_eq_true] at number
    exact ⟨c, rest, rfl, fun d member => isNamePart_of_isAsciiDigit (number.2 d member)⟩

theorem BinaryOp.reads_text (op : BinaryOp) : ∃ c, Reads op.text c [] op.text := by
  cases op with
  | shiftLeft | shiftRight | lessEq | greaterEq | equal | notEqual | and | or =>
    exact ⟨_, .double (by decide) (by decide)⟩
  | _ => exact ⟨_, .single (by decide)⟩

theorem UnaryOp.reads_text (op : UnaryOp) : ∃ c, Reads op.text c [] op.text ∧ c ≠ ':' := by
  cases op with
  | increment | decrement => exact ⟨_, .double (by decide) (by decide), by decide⟩
  | _ => exact ⟨_, .single (by decide), by decide⟩

/-- A text that is cut into some lexemes, and may stand on either side of a colon. -/
def ReadsAs (text : List Char) (ls : List (List Char)) : Prop :=
  ∃ c init last, Reads text c init last ∧ ls = init ++ [last] ∧ c ≠ ':' ∧ goesOn last ':' = false

namespace ReadsAs

variable {u : List Char} {ls ms : List (List Char)}

theorem word {rest : List Char} (parts : ∀ d ∈ c :: rest, isNamePart d = true) :
    ReadsAs (c :: rest) [c :: rest] := by
  have part := parts c List.mem_cons_self
  refine ⟨c, [], _, .word (isAsciiBlank_eq_false part) parts, rfl, ?_, ?_⟩
  · rintro rfl
    exact absurd part (by decide)
  · simp [goesOn, part, show isNamePart ':' = false by decide]

theorem name (named : isName t = true) : ReadsAs t [t] := by
  obtain ⟨c, rest, rfl, -, parts⟩ := parts_of_isName named
  exact word parts

theorem parens (inner : ReadsAs t ls) : ReadsAs ('(' :: (t ++ [')'])) (['('] :: (ls ++ [[')']])) := by
  obtain ⟨c, init, last, reads, rfl, -, -⟩ := inner
  have closed := reads.append (.single (c := ')') (by decide)) (goesOn_closing last)
  have opened := (Reads.single (c := '(') (by decide)).append closed (goesOn_opening c)
  exact ⟨_, _, _, opened, by simp, by decide, by decide⟩

/-- An operator stands apart from its operands, between blanks. -/
theorem binary (op : BinaryOp) (left : ReadsAs t ls) (right : ReadsAs u ms) :
    ReadsAs (t ++ ' ' :: (op.text ++ ' ' :: u)) (ls ++ op.text :: ms) := by
  obtain ⟨c, init, last, first, rfl, colon, -⟩ := left
  obtain ⟨d, init', last', second, rfl, -, ends⟩ := right
  obtain ⟨_, spelled⟩ := op.reads_text
  exact ⟨_, _, _, first.blank (spelled.blank second), by simp, colon, ends⟩

/-- An operator in front of a text that it does not grow together with. -/
theorem unary {op : UnaryOp} (operand : ReadsAs t ls)
    (apart : ∀ c ∈ t.head?, goesOn op.text c = false) : ReadsAs (op.text ++ t) (op.text :: ls) := by
  obtain ⟨c, init, last, reads, rfl, -, ends⟩ := operand
  obtain ⟨_, spelled, colon⟩ := op.reads_text
  exact ⟨_, _, _, spelled.append reads (apart c (by rw [reads.first]; rfl)), by simp, colon, ends⟩

theorem toFloat (operand : ReadsAs t ls) :
    ReadsAs (['(', 'f', 'l', 'o', 'a', 't', ')'] ++ t)
      (['('] :: ['f', 'l', 'o', 'a', 't'] :: [')'] :: ls) := by
  obtain ⟨c, init, last, reads, rfl, -, ends⟩ := operand
  have closed := (Reads.single (c := ')') (by decide)).append reads
    (goesOn_single (by decide) (by decide) c)
  have word : Reads ['f', 'l', 'o', 'a', 't'] 'f' [] ['f', 'l', 'o', 'a', 't'] :=
    .word (by decide) (List.all_eq_true.mp (by decide))
  have named := word.append closed (goesOn_closing _)
  have opened := (Reads.single (c := '(') (by decide)).append named (goesOn_opening _)
  exact ⟨_, _, _, opened, by simp, by decide, ends⟩

theorem choice {v : List Char} {ns : List (List Char)} (test : ReadsAs t ls) (yes : ReadsAs u ms)
    (no : ReadsAs v ns) :
    ReadsAs (t ++ '?' :: (u ++ ':' :: v)) (ls ++ ['?'] :: (ms ++ [':'] :: ns)) := by
  obtain ⟨c, init, last, first, rfl, colon, -⟩ := test
  obtain ⟨d, init', last', second, rfl, -, apart⟩ := yes
  obtain ⟨e, init'', last'', third, rfl, apart', ends⟩ := no
  have apart' : goesOn [':'] e = false := by
    have none : ([':', e] ∈ longSymbols) = False := by simp [longSymbols, apart']
    simp [goesOn, show isNamePart ':' = false by decide, none]
  have behind := second.append ((Reads.single (c := ':') (by decide)).append third apart') apart
  have marked := (Reads.single (c := '?') (by decide)).append behind
    (goesOn_single (by decide) (by decide) d)
  have whole := first.append marked (goesOn_eq_false (by decide) (by decide) (by decide) last)
  exact ⟨_, _, _, whole, by simp, colon, ends⟩

theorem method {owner method : List Char} (owned : isName owner = true)
    (named : isName method = true) (arguments : ReadsAs ('(' :: t) (['('] :: ls)) :
    ReadsAs (owner ++ '.' :: (method ++ '(' :: t)) (owner :: ['.'] :: method :: ['('] :: ls) := by
  obtain ⟨c, rest, rfl, digit, parts⟩ := parts_of_isName owned
  obtain ⟨d, rest', rfl, -, parts'⟩ := parts_of_isName named
  obtain ⟨e, init, last, reads, lexemes, -, ends⟩ := arguments
  obtain rfl : '(' = e := Option.some.inj reads.first
  have part := parts c List.mem_cons_self
  have part' := parts' d List.mem_cons_self
  have point : goesOn (c :: rest) '.' = false := by
    have digit : Text.isAsciiDigit c = false :=
      Bool.eq_false_iff.2 fun ascii => by simp [isDigit_of_isAsciiDigit ascii] at digit
    simp [goesOn, part, digit, show isNamePart '.' = false by decide]
  have called := (Reads.word (isAsciiBlank_eq_false part') parts').append reads
    (goesOn_eq_false (by decide) (by decide) (by decide) _)
  have pointed := (Reads.single (c := '.') (by decide)).append called
    (goesOn_single (by decide) (by decide) d)
  have whole := (Reads.word (isAsciiBlank_eq_false part) parts).append pointed point
  refine ⟨_, _, _, by simpa using whole, by simp [lexemes], ?_, ends⟩
  rintro rfl
  exact absurd part (by decide)

theorem comma (one : ReadsAs t ls) (two : ReadsAs u ms) :
    ReadsAs (t ++ ',' :: ' ' :: u) (ls ++ [','] :: ms) := by
  obtain ⟨c, init, last, first, rfl, colon, -⟩ := one
  obtain ⟨d, init', last', second, rfl, -, ends⟩ := two
  have behind := (Reads.single (c := ',') (by decide)).blank second
  have whole := first.append behind (goesOn_eq_false (by decide) (by decide) (by decide) last)
  exact ⟨_, _, _, whole, by simp, colon, ends⟩

end ReadsAs

namespace Expr

/-- What is written for an expression is cut into its lexemes. -/
theorem readsAs {e : Expr} (proper : e.Proper) (separate : e.Separate) :
    ReadsAs e.text e.lexemes := by
  induction e with
  | name t => exact .name proper
  | number t =>
    obtain ⟨c, rest, rfl, parts⟩ := parts_of_isNumber proper
    exact .word parts
  | paren e ih => exact (ih proper separate).parens
  | unary op e ih => exact (ih proper.1 separate.1).unary separate.2
  | toFloat e ih => exact (ih proper.1 separate).toFloat
  | binary op l r left right =>
    exact (left proper.1 separate.1).binary op (right proper.2.1 separate.2)
  | choice c a b test yes no =>
    obtain ⟨properTest, properYes, properNo, -⟩ := proper
    exact (test properTest separate.1).choice (yes properYes separate.2.1) (no properNo separate.2.2)
  | call owner method a ih => exact .method proper.1 proper.2.1 (ih proper.2.2 separate).parens
  | call₂ owner method a b first second =>
    obtain ⟨owned, named, properFirst, properSecond⟩ := proper
    have arguments := (first properFirst separate.1).comma (second properSecond separate.2)
    have whole := ReadsAs.method owned named arguments.parens
    simpa [text, lexemes] using whole

/-- What is written begins with some character, which is no equals sign. -/
theorem text_eq_cons {e : Expr} (proper : e.Proper) : ∃ c rest, e.text = c :: rest ∧ c ≠ '=' := by
  have other {c : Char} (part : isNamePart c = true) : c ≠ '=' := by
    rintro rfl
    exact absurd part (by decide)
  induction e with
  | name t =>
    obtain ⟨c, rest, rfl, -, parts⟩ := parts_of_isName proper
    exact ⟨c, rest, rfl, other (parts c List.mem_cons_self)⟩
  | number t =>
    obtain ⟨c, rest, rfl, parts⟩ := parts_of_isNumber proper
    exact ⟨c, rest, rfl, other (parts c List.mem_cons_self)⟩
  | paren => exact ⟨_, _, rfl, by decide⟩
  | unary op => cases op <;> exact ⟨_, _, rfl, by decide⟩
  | toFloat => exact ⟨_, _, rfl, by decide⟩
  | binary op l r left =>
    obtain ⟨c, rest, text, other⟩ := left proper.1
    exact ⟨c, _, by simp [Expr.text, text]; rfl, other⟩
  | choice c a b test =>
    obtain ⟨c, rest, text, other⟩ := test proper.1
    exact ⟨c, _, by simp [Expr.text, text]; rfl, other⟩
  | call owner | call₂ owner =>
    obtain ⟨c, rest, rfl, -, parts⟩ := parts_of_isName proper.1
    exact ⟨c, _, rfl, other (parts c List.mem_cons_self)⟩

/-- An exclamation mark does not grow together with what it stands in front of. -/
theorem separate_not {e : Expr} (proper : e.Proper) (separate : e.Separate) :
    (unary .not e).Separate := by
  refine ⟨separate, fun c head => ?_⟩
  obtain ⟨d, rest, text, other⟩ := text_eq_cons proper
  rw [text] at head
  obtain rfl := Option.some.inj head
  simpa [goesOn, UnaryOp.text, show isNamePart '!' = false by decide, longSymbols] using other

theorem lexemesOf_text {e : Expr} (proper : e.Proper) (separate : e.Separate) :
    lexemesOf e.text = e.lexemes := by
  obtain ⟨c, init, last, reads, same, -, -⟩ := readsAs proper separate
  rw [reads.lexemesOf_eq, same]

end Expr

/-! ### Lexemes are arranged as before -/

/-- The innermost frame holds its operand less tightly than a level. -/
def Waits (frames : List Frame) (level : Nat) : Prop :=
  ∀ f ∈ frames.head?, ∀ n, f.level? = some n → n < level

theorem closeTo_of_waits (waits : Waits frames level)
    (e : Expr) : closeTo level frames e = (frames, e) := by
  cases frames with
  | nil => rfl
  | cons f frames =>
    unfold closeTo
    split
    · next n found => rw [if_neg (Nat.not_le.2 (waits f rfl n found))]
    · rfl

theorem closeTo_fill {n : Nat} (found : f.level? = some n)
    (closed : level ≤ n) (e : Expr) : closeTo level (f :: frames) e = closeTo level frames (f.fill e) := by
  rw [closeTo]
  simp [found, closed]

theorem Waits.mono {more : Nat} (waits : Waits frames level)
    (le : level ≤ more) : Waits frames more :=
  fun f member n found => Nat.lt_of_lt_of_le (waits f member n found) le

theorem Waits.of_cons (below : ∀ n, f.level? = some n → n < level) : Waits (f :: frames) level := by
  rintro g ⟨⟩
  exact below

theorem Waits.of_none (none : f.level? = none) :
    Waits (f :: frames) level :=
  .of_cons fun n found => by simp [none] at found

namespace Reading

theorem run_append (s : Reading) (ts us : List (List Char)) :
    s.run (ts ++ us) = (s.run ts).bind (·.run us) :=
  List.foldlM_append

theorem run_cons (s : Reading) (t : List Char) (ts : List (List Char)) :
    s.run (t :: ts) = (s.step t).bind (·.run ts) :=
  List.foldlM_cons

/-- Reading some lexemes with some frames waiting comes to the same as having read an expression,
whenever frames are ended that hold their operands less tightly than it is held together. -/
def Arrives (frames : List Frame) (ts : List (List Char)) (e : Expr) : Prop :=
  ∃ frames' e', (operand frames).run ts = some (after frames' e')
    ∧ ∀ n ≤ 10, n ≤ e.level → closeTo n frames' e' = closeTo n frames e

variable {ts us : List (List Char)} {e : Expr} {owner method : List Char}

theorem Arrives.run_after {frames : List Frame} {n : Nat} (arrives : Arrives frames ts e)
    (waits : Waits frames n) (le : n ≤ 10) (below : n ≤ e.level) (rest : List (List Char)) :
    ∃ frames' e', (operand frames).run (ts ++ rest) = (after frames' e').run rest
      ∧ closeTo n frames' e' = (frames, e) := by
  obtain ⟨frames', e', ran, closes⟩ := arrives
  refine ⟨frames', e', by rw [run_append, ran]; rfl, ?_⟩
  rw [closes n le below, closeTo_of_waits waits]

/-- Behind an open frame every frame is ended. -/
theorem Arrives.run_open {frames : List Frame} (arrives : Arrives (f :: frames) ts e)
    (none : f.level? = none) (rest : List (List Char)) :
    ∃ frames' e', (operand (f :: frames)).run (ts ++ rest) = (after frames' e').run rest
      ∧ closeTo 0 frames' e' = (f :: frames, e) :=
  arrives.run_after (.of_none none) (Nat.zero_le _) (Nat.zero_le _) rest

theorem step_binary (frames : List Frame) (e : Expr) (op : BinaryOp) :
    (after frames e).step op.text
      = some (operand (.left op (closeTo op.level frames e).2 :: (closeTo op.level frames e).1)) := by
  have other : ∀ t ∈ [[')'], ['.'], [','], ['?'], [':']], op.text ≠ t := by cases op <;> decide
  simp only [List.mem_cons, List.not_mem_nil, or_false, forall_eq_or_imp, forall_eq] at other
  simp [step, goAfter, other]

theorem step_unary (frames : List Frame) (op : UnaryOp) :
    (operand frames).step op.text = some (operand (.unary op :: frames)) := by
  have other : ∀ t ∈ [['('], ['f', 'l', 'o', 'a', 't']], op.text ≠ t := by cases op <;> decide
  simp only [List.mem_cons, List.not_mem_nil, or_false, forall_eq_or_imp, forall_eq] at other
  simp [step, beginOperand, other]

/-- A word of characters of names, `float` apart, is a name or a number. -/
theorem step_word (frames : List Frame) {c : Char} {rest : List Char}
    (part : isNamePart c = true) (other : c :: rest ≠ ['f', 'l', 'o', 'a', 't']) :
    (operand frames).step (c :: rest)
      = if isName (c :: rest) then some (after frames (.name (c :: rest)))
        else if isNumber (c :: rest) then some (after frames (.number (c :: rest))) else none := by
  have opening : c :: rest ≠ ['('] := by
    rintro ⟨⟩
    exact absurd part (by decide)
  have none : UnaryOp.ofText? (c :: rest) = none := by
    simp only [UnaryOp.ofText?, List.find?_eq_none, beq_iff_eq]
    rintro op - same
    obtain ⟨d, tail, text, symbol⟩ : ∃ d tail, op.text = d :: tail ∧ isNamePart d = false := by
      cases op <;> exact ⟨_, _, rfl, by decide⟩
    obtain ⟨rfl, rfl⟩ := List.cons.inj (text.symm.trans same)
    simp [part] at symbol
  simp [step, beginOperand, opening, other, none]

theorem step_name (frames : List Frame) {t : List Char} (named : isName t = true) :
    (operand frames).step t = some (after frames (.name t)) := by
  obtain ⟨c, rest, rfl, -, parts⟩ := parts_of_isName named
  rw [step_word frames (parts c List.mem_cons_self), if_pos named]
  rintro ⟨⟩
  exact absurd named (by decide)

theorem step_number (frames : List Frame) {t : List Char} (number : isNumber t = true) :
    (operand frames).step t = some (after frames (.number t)) := by
  obtain ⟨c, rest, rfl, parts⟩ := parts_of_isNumber number
  have digit : Text.isAsciiDigit c = true := by
    simp only [isNumber, Bool.and_eq_true, List.all_eq_true] at number
    exact number.2 c List.mem_cons_self
  have unnamed : isName (c :: rest) = false := by simp [isName, isDigit_of_isAsciiDigit digit]
  rw [step_word frames (parts c List.mem_cons_self), if_neg (by simp [unnamed]), if_pos number]
  rintro ⟨⟩
  exact absurd digit (by decide)

theorem arrives_of_run {frames : List Frame}
    (ran : (operand frames).run ts = some (after frames e)) : Arrives frames ts e :=
  ⟨frames, e, ran, fun _ _ _ => rfl⟩

variable {frames : List Frame}

theorem Arrives.parens (inner : Arrives (.paren :: frames) ts e) :
    Arrives frames (['('] :: (ts ++ [[')']])) (.paren e) := by
  obtain ⟨frames', e', ran, closed⟩ := inner.run_open rfl [[')']]
  refine arrives_of_run ?_
  rw [run_cons]
  change (operand (.paren :: frames)).run (ts ++ [[')']]) = _
  rw [ran, run_cons]
  simp [step, goAfter, closeParen, closed, run]

theorem Arrives.unary {op : UnaryOp} (atom : e.level = 12)
    (operand : Arrives (.unary op :: frames) ts e) :
    Arrives frames (op.text :: ts) (.unary op e) := by
  obtain ⟨frames', e', ran, closes⟩ := operand
  refine ⟨frames', e', by rw [run_cons, step_unary]; exact ran, fun n le _ => ?_⟩
  rw [closes n le (by omega), closeTo_fill (n := 11) rfl (by omega)]
  rfl

theorem Arrives.toFloat (atom : e.level = 12) (operand : Arrives (.toFloat :: frames) ts e) :
    Arrives frames (['('] :: ['f', 'l', 'o', 'a', 't'] :: [')'] :: ts) (.toFloat e) := by
  obtain ⟨frames', e', ran, closes⟩ := operand
  refine ⟨frames', e', ran, fun n le _ => ?_⟩
  rw [closes n le (by omega), closeTo_fill (n := 11) rfl (by omega)]
  rfl

theorem Arrives.binary {op : BinaryOp} {l r : Expr}
    (waits : Waits frames op.level) (leftLevel : op.level ≤ l.level) (rightLevel : op.level < r.level)
    (left : Arrives frames ts l) (right : Arrives (.left op l :: frames) us r) :
    Arrives frames (ts ++ op.text :: us) (.binary op l r) := by
  obtain ⟨frames₁, e₁, ran, closed⟩ :=
    left.run_after waits op.level_le_ten leftLevel (op.text :: us)
  obtain ⟨frames₂, e₂, ran', closes'⟩ := right
  refine ⟨frames₂, e₂, ?_, fun n le below => ?_⟩
  · rw [ran, run_cons, step_binary, closed]
    exact ran'
  · have below : n ≤ op.level := below
    rw [closes' n le (by omega), closeTo_fill (n := op.level) rfl below]
    rfl

theorem Arrives.choice {vs : List (List Char)} {c a b : Expr} (waits : Waits frames 1)
    (testLevel : 1 ≤ c.level) (test : Arrives frames ts c) (yes : Arrives (.test c :: frames) us a)
    (no : Arrives (.branch c a :: frames) vs b) :
    Arrives frames (ts ++ ['?'] :: (us ++ [':'] :: vs)) (.choice c a b) := by
  obtain ⟨frames₁, e₁, ran₁, tested⟩ :=
    test.run_after waits (by omega) testLevel (['?'] :: (us ++ [':'] :: vs))
  obtain ⟨frames₂, e₂, ran₂, chosen⟩ := yes.run_open rfl ([':'] :: vs)
  obtain ⟨frames₃, e₃, ran₃, closes₃⟩ := no
  refine ⟨frames₃, e₃, ?_, fun n _ below => ?_⟩
  · have question : (after frames₁ e₁).step ['?'] = some (operand (.test c :: frames)) := by
      simp [step, goAfter, tested]
    have colon : (after frames₂ e₂).step [':'] = some (operand (.branch c a :: frames)) := by
      simp [step, goAfter, chosen]
    rw [ran₁, run_cons, question, Option.bind_some, ran₂, run_cons, colon, Option.bind_some, ran₃]
  · obtain rfl : n = 0 := Nat.le_zero.1 below
    rw [closes₃ 0 (by omega) (by omega), closeTo_fill (n := 0) rfl (by omega)]
    rfl

section

variable (owned : isName owner = true)

include owned

variable (named : isName method = true)

include named

theorem run_method (ts : List (List Char)) :
    (operand frames).run (owner :: ['.'] :: method :: ['('] :: ts)
      = (operand (.argument owner method :: frames)).run ts := by
  rw [run_cons, step_name frames owned, Option.bind_some, run_cons]
  simp [step, goAfter, run_cons, named]

theorem Arrives.call (argument : Arrives (.argument owner method :: frames) ts e) :
    Arrives frames (owner :: ['.'] :: method :: ['('] :: (ts ++ [[')']])) (.call owner method e) := by
  obtain ⟨frames', e', ran, closed⟩ := argument.run_open rfl [[')']]
  refine arrives_of_run ?_
  rw [run_method owned named, ran, run_cons]
  simp [step, goAfter, closeParen, closed, run]

theorem Arrives.call₂ {f : Expr} (first : Arrives (.argument owner method :: frames) ts e)
    (second : Arrives (.second owner method e :: frames) us f) :
    Arrives frames (owner :: ['.'] :: method :: ['('] :: (ts ++ [','] :: (us ++ [[')']])))
      (.call₂ owner method e f) := by
  obtain ⟨frames₁, e₁, ran₁, between⟩ := first.run_open rfl ([','] :: (us ++ [[')']]))
  obtain ⟨frames₂, e₂, ran₂, closed⟩ := second.run_open rfl [[')']]
  have comma : (after frames₁ e₁).step [','] = some (operand (.second owner method e :: frames)) := by
    simp [step, goAfter, between]
  refine arrives_of_run ?_
  rw [run_method owned named, ran₁, run_cons, comma, Option.bind_some, ran₂, run_cons]
  simp [step, goAfter, closeParen, closed, run]

end

theorem arrives (proper : e.Proper) (waits : Waits frames (max 1 e.level)) :
    Arrives frames e.lexemes e := by
  induction e generalizing frames with
  | name t => exact arrives_of_run (by rw [Expr.lexemes, run_cons, step_name frames proper]; rfl)
  | number t => exact arrives_of_run (by rw [Expr.lexemes, run_cons, step_number frames proper]; rfl)
  | paren e ih => exact (ih proper (.of_none rfl)).parens
  | unary op e ih =>
    obtain ⟨proper, atom⟩ := proper
    exact (ih proper (.of_cons (by rintro _ ⟨⟩; omega))).unary atom
  | toFloat e ih =>
    obtain ⟨proper, atom⟩ := proper
    exact (ih proper (.of_cons (by rintro _ ⟨⟩; omega))).toFloat atom
  | binary op l r left right =>
    obtain ⟨properLeft, properRight, leftLevel, rightLevel⟩ := proper
    have positive := op.one_le_level
    have waits : Waits frames op.level := waits.mono (Nat.max_le.2 ⟨positive, Nat.le_refl _⟩)
    exact .binary waits leftLevel rightLevel (left properLeft (waits.mono (by omega)))
      (right properRight (.of_cons (by rintro _ ⟨⟩; omega)))
  | choice c a b test yes no =>
    obtain ⟨properTest, properYes, properNo, testLevel⟩ := proper
    have waits : Waits frames 1 := waits
    exact .choice waits testLevel (test properTest (waits.mono (by omega)))
      (yes properYes (.of_none rfl)) (no properNo (.of_cons (by rintro _ ⟨⟩; omega)))
  | call owner method a ih =>
    obtain ⟨owned, named, proper⟩ := proper
    exact .call owned named (ih proper (.of_none rfl))
  | call₂ owner method a b first second =>
    obtain ⟨owned, named, properFirst, properSecond⟩ := proper
    exact .call₂ owned named (first properFirst (.of_none rfl)) (second properSecond (.of_none rfl))

end Reading

/-- What is written for an expression is read as the same expression. -/
theorem readExpr_text {e : Expr} (proper : e.Proper) (separate : e.Separate) :
    readExpr e.text = some e := by
  have arrives : Reading.Arrives [] e.lexemes e := Reading.arrives proper (by rintro _ ⟨⟩)
  obtain ⟨frames, e', ran, closes⟩ := arrives
  have closed : closeTo 0 frames e' = ([], e) := closes 0 (by omega) (by omega)
  simp [readExpr, Expr.lexemesOf_text proper separate, ran, Reading.result?, closed]

end PerlJava.Java
