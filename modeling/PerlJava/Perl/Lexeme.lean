import PerlJava.Regex.Match

/-!
# The shapes of lexemes

Rules for numbers, strings, comments and words are tried in the order of `Rule.all`, and then the
operators from the longest spelling to the shortest. Inside a comment the label rules hold.
-/

namespace PerlJava.Perl

open Regex

/-- What the rules outside comments recognise. -/
inductive Rule where
  | newlines
  | packageUse
  | floatNumber
  | intNumber
  | quotedString
  | doubleQuotedString
  | command
  | matching
  | substitution
  | transliteration
  | shebang
  | ignoredLine
  | ignoredBlock
  | javaImport
  | javaLine
  | comment
  | repeatAssign
  | word
deriving Repr, DecidableEq

namespace Rule

def all : List Rule :=
  [newlines, packageUse, floatNumber, intNumber, quotedString, doubleQuotedString, command,
    matching, substitution, transliteration, shebang, ignoredLine, ignoredBlock, javaImport,
    javaLine, comment, repeatAssign, word]

def digits : Regex :=
  many1 (oneOf [.digit])

/-- Integers: decimal, hexadecimal and binary with a leading letter, octal. -/
def integer : Regex :=
  (oneOf [.range '1' '9'] ++ many (oneOf [.digit]))
    <|> (char 'o' ++ oneOf [.char 'x', .char 'X']
      ++ many1 (oneOf [.range 'a' 'f', .range 'A' 'F', .digit]))
    <|> (char 'o' ++ oneOf [.char 'b', .char 'B'] ++ many1 (oneOf [.char '0', .char '1']))
    <|> (char '0' ++ many (oneOf [.range '0' '7']))

def fraction : Regex :=
  (many (oneOf [.digit]) ++ char '.' ++ digits) <|> (digits ++ char '.' ++ many (oneOf [.digit]))

def scientific : Regex :=
  (integer <|> fraction) ++ oneOf [.char 'e', .char 'E'] ++ opt (lit "+-") ++ integer

def between (quote : Char) : Regex :=
  char quote ++ many (noneOf [.char quote, .char '\\', .char '\n'] <|> (char '\\' ++ dot))
    ++ char quote

/-- The part of a regular expression up to the next slash that is not escaped, and that slash. -/
def upToSlash : Regex :=
  many (noneOf [.char '\n', .char '\\', .char '/'] <|> (char '\\' ++ dot)) ++ char '/'

def modifier : Regex :=
  opt (oneOf (['i', 's', 'm', 'x', 'o', 'p', 'd', 'a', 'u', 'l', 'g'].map .char) <|> lit "cg"
    <|> char 'e')

def restOfLine : Regex :=
  many dot

def pattern : Rule → Regex
  | newlines => many1 (char '\n')
  | packageUse =>
    (lit "use" ++ restOfLine ++ char ';') <|> (lit "require" ++ restOfLine ++ char ';')
  | floatNumber => fraction <|> scientific
  | intNumber => integer
  | quotedString => between '\''
  | doubleQuotedString => between '"'
  | command => char (Char.ofNat 0x60) ++ many1 dot ++ char (Char.ofNat 0x60)
  | matching => lit "m/" ++ upToSlash ++ modifier
  | substitution => lit "s/" ++ upToSlash ++ upToSlash ++ modifier
  | transliteration => (char 'y' <|> lit "tr") ++ char '/' ++ upToSlash ++ upToSlash ++ modifier
  | shebang => lit "#!" ++ restOfLine
  | ignoredLine => restOfLine ++ lit "#<ignore-line>" ++ restOfLine
  | ignoredBlock =>
    lit "#<ignore-block>\n" ++ many anything ++ lit "#<ignore-block>" ++ restOfLine
  | javaImport => lit "#<java-import>" ++ restOfLine
  | javaLine => lit "#<java-line>" ++ restOfLine
  | comment => char '#'
  | repeatAssign => lit "x="
  | word => oneOf [.range 'A' 'Z', .range 'a' 'z', .char '_'] ++ many (oneOf [.word])

end Rule

/-- What the rules inside comments recognise. -/
inductive LabelRule where
  | varName
  | word
  | size
  | other
  | lineEnd
deriving Repr, DecidableEq

namespace LabelRule

def all : List LabelRule :=
  [varName, word, size, other, lineEnd]

def pattern : LabelRule → Regex
  | varName =>
    char '<' ++ oneOf [.char '$', .char '@', .char '%'] ++ Rule.word.pattern ++ char '>'
  | word => char '<' ++ Rule.word.pattern ++ char '>'
  | size => char '<' ++ oneOf [.range '1' '9'] ++ many (oneOf [.range '0' '9']) ++ char '>'
  | other => dot
  | lineEnd => char '\n'

end LabelRule

/-- The operators and delimiters with the kinds of their tokens, longer spellings first. -/
def operators : List (String × List Char) :=
  [("STDIN", "<STDIN>"), ("COMMA", ","), ("COMMA", "=>"), ("LOREQUAL", "||="), ("POWEQUAL", "**="),
    ("LOR", "||"), ("PLUSPLUS", "++"), ("POW", "**"), ("TWO_PERIOD", ".."), ("CMP_NUM", "<=>"),
    ("LANDEQUAL", "&&="), ("LSHIFTEQUAL", "<<="), ("OREQUAL", "|="), ("PERIODEQUAL", ".="),
    ("PLUSEQUAL", "+="), ("RSHIFTEQUAL", ">>="), ("TIMESEQUAL", "*="), ("XOREQUAL", "^="),
    ("ANDEQUAL", "&="), ("BACKSLASH", "\\"), ("DIVEQUAL", "/="), ("DOLLAR", "$"), ("LAND", "&&"),
    ("LBRACE", "\x7b"), ("LBRACKET", "["), ("LPAREN", "("), ("LSHIFT", "<<"), ("MINUSEQUAL", "-="),
    ("MINUSMINUS", "--"), ("MODEQUAL", "%="), ("NUM_EQ", "=="), ("NUM_GE", ">="), ("NUM_LE", "<="),
    ("NUM_NE", "!="), ("OR", "|"), ("PERIOD", "."), ("PLUS", "+"), ("POINTED", "->"),
    ("QUEST_CLOSE", "?"), ("RBRACE", "\x7d"), ("RBRACKET", "]"), ("RPAREN", ")"), ("RSHIFT", ">>"),
    ("SMART_EQ", "~~"), ("STR_NO_REX", "!~"), ("STR_REX", "=~"), ("TIMES", "*"),
    ("TWO_COLON", "::"), ("XOR", "^"), ("AND", "&"), ("AT", "@"), ("COLON", ":"), ("DIVIDE", "/"),
    ("EQUALS", "="), ("LNOT", "!"), ("MINUS", "-"), ("NOT", "~"), ("NUM_GT", ">"), ("NUM_LT", "<"),
    ("PERCENTAGE", "%"), ("SEMI", ";")].map fun (kind, text) => (kind, text.toList)

end PerlJava.Perl
