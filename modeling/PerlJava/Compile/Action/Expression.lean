import PerlJava.Compile.Action.Declaration
import PerlJava.Compile.Operator

/-!
# Actions for expressions
-/

namespace PerlJava.Compile

open Java

variable [Interfaces]

def parenthesised : PlainAction := fun p => do
  let c ← p.code 2
  let opening ← p.text 1
  let closing ← p.text 3
  let c ← sync { c with position := p.at_ 3, value := opening ++ c.value ++ closing }
  c.whole
  return .code { c with condition := c.condition.map fun text =>
    if text.isEmpty then text else opening ++ text ++ closing }

def binary (f : Fragment → Fragment → Plain Fragment) : PlainAction := fun p =>
  return .code (← f (← p.code 1) (← p.code 3))

def binaryBy (f : String → Fragment → Fragment → Plain Fragment) : PlainAction := fun p =>
  return .code (← f (← p.text 2) (← p.code 1) (← p.code 3))

def unary (f : Fragment → Plain Fragment) : PlainAction := fun p =>
  return .code (← f (← p.code 2))

def change (native : List TypeName) (operation : Fragment → Fragment → Plain Fragment) :
    Args → Tidying Value :=
  fun p => return .code (← changeBy (← p.text 2) native operation (← p.access 1) (← p.code 3))

abbrev between (name operator : Perl.Symbol) : PlainAction → Perl.Production × Action :=
  rule name [.expression, operator, .expression]

abbrev changing (operator : Perl.Symbol) : (Args → Tidying Value) → Perl.Production × Action :=
  ruleTidying .assignment [.var_access, operator, .expression]

def regexText (text : String) : Plain String :=
  interpolate (Literal.escapeChars ['"'] (Literal.fixEscapes true text))

def onRegex (f : Fragment → String → Position → Plain Fragment) : PlainAction := fun p => do
  let regex ← regexText (← p.text 3)
  return .code (← f (← p.code 1) regex (p.at_ 3))

def expressionActions : Actions := [
  rule .expression [.LPAREN, .expression, .RPAREN] parenthesised,
  rule .expression [.assignment] (passOn 1),
  rule .expression [.arithmetic] (passOn 1),
  rule .expression [.comparations] (passOn 1),
  rule .expression [.regex] (passOn 1),
  rule .expression [.binary] (passOn 1),
  rule .expression [.logical] (passOn 1),
  rule .expression [.value] (passOn 1),
  rule .expression [.function_call] (passOn 1),
  rule .expression [.var_access] fun p => return .code (← valueOf (← p.access 1)),
  rule .list [.expression, .COMMA, .list] fun p => return .codes ((← p.code 1) :: (← p.codes 3)),
  rule .list [.expression] fun p => return .codes [← p.code 1],
  rule .list [.expression, .COMMA] fun p => return .codes [← p.code 1]]

def assignmentActions : Actions := [
  ruleTidying .assignment [.var_access, .EQUALS, .expression] fun p =>
    return .code (← assignTo (← p.access 1) (← p.code 3) false),
  ruleTidying .assignment [.var_access, .EQUALS, .LPAREN, .RPAREN] fun p =>
    return .code (← assignNothing (← p.access 1) false),
  ruleTidying .assignment [.var_access, .EQUALS, .UNDEF] fun p =>
    return .code (← assignNothing (← p.access 1) true),
  ruleTidying .assignment [.var_access, .EQUALS, .STDIN] fun p =>
    return .code (← assignFromInput (← p.access 1)),
  ruleTidying .assignment [.var_access, .EQUALS, .NUM_LT, .var_access, .NUM_GT] fun p =>
    return .code (← assignFromFile (← p.access 1) (← p.access 4) (p.at_ 5)),
  changing .PLUSEQUAL (change [] (arithmetic "+")),
  changing .MINUSEQUAL (change [] (arithmetic "-")),
  changing .TIMESEQUAL (change [] (arithmetic "*")),
  changing .DIVEQUAL (change [] division),
  changing .MODEQUAL (change [] remainder),
  changing .POWEQUAL (change [] power),
  changing .ANDEQUAL (change [.integer, .long] (bitwise "&")),
  changing .OREQUAL (change [.integer, .long] (bitwise "|")),
  changing .XOREQUAL (change [.integer, .long] (bitwise "^")),
  changing .LSHIFTEQUAL (change [.integer, .long] (bitwise "<")),
  changing .RSHIFTEQUAL (change [.integer, .long] (bitwise ">")),
  changing .LANDEQUAL (change [.boolean] (logical "&&" "and" false)),
  changing .LOREQUAL (change [.boolean] (logical "||" "or" false)),
  changing .XEQUAL (change [] repetition),
  changing .PERIODEQUAL fun p =>
    return .code (← changeBy "+=" [.string] concatenation (← p.access 1) (← p.code 3)),
  ruleTidying .multi_equals [.LPAREN, .list, .RPAREN, .EQUALS, .expression] fun p =>
    return .codes (← assignElements (← p.codes 2) (← p.code 5)),
  ruleTidying .multi_equals [.LPAREN, .list, .RPAREN, .EQUALS, .LPAREN, .list, .RPAREN] fun p =>
    return .codes (← assignMany (← p.codes 2) (← p.codes 6))]

/-- Arithmetic, bits, comparisons and logic. -/
def operatorActions : Actions := [
  between .arithmetic .PLUS (binaryBy arithmetic),
  between .arithmetic .MINUS (binaryBy arithmetic),
  between .arithmetic .TIMES (binaryBy arithmetic),
  between .arithmetic .DIVIDE (binary division),
  between .arithmetic .POW (binary power),
  between .arithmetic .X (binary repetition),
  rule .arithmetic [.PLUS, .expression] (passOn 2),
  rule .arithmetic [.MINUS, .expression] (unary opposite),
  between .arithmetic .PERCENTAGE (binary remainder),
  rule .arithmetic [.PLUSPLUS, .var_access] fun p =>
    return .code (← stepBefore "+" (← p.access 2)),
  rule .arithmetic [.MINUSMINUS, .var_access] fun p =>
    return .code (← stepBefore "-" (← p.access 2)),
  rule .arithmetic [.var_access, .PLUSPLUS] fun p =>
    return .code (← stepAfter "+" "-" none (← p.access 1)),
  rule .arithmetic [.var_access, .MINUSMINUS] fun p =>
    return .code (← stepAfter "-" "+" (some .double) (← p.access 1)),
  between .arithmetic .PERIOD (binary concatenation),
  between .comparations .NUM_EQ (binaryBy compareNumbers),
  between .comparations .NUM_NE (binaryBy compareNumbers),
  between .comparations .NUM_LT (binaryBy compareNumbers),
  between .comparations .NUM_LE (binaryBy compareNumbers),
  between .comparations .NUM_GT (binaryBy compareNumbers),
  between .comparations .NUM_GE (binaryBy compareNumbers),
  between .comparations .CMP_NUM (binary orderNumbers),
  between .comparations .STR_EQ (binary (compareStrings "== 0")),
  between .comparations .STR_NE (binary (compareStrings "!= 0")),
  between .comparations .STR_LT (binary (compareStrings "< 0")),
  between .comparations .STR_LE (binary (compareStrings "<= 0")),
  between .comparations .STR_GT (binary (compareStrings "> 0")),
  between .comparations .STR_GE (binary (compareStrings ">= 0")),
  between .comparations .CMP fun _ => fail .illTyped,
  between .comparations .SMART_EQ fun p =>
    return .code (← smartMatch (← p.code 1) (← p.code 3) (p.at_ 2)),
  rule .regex [.expression, .STR_NO_REX, .M_REGEX] (onRegex (matching true)),
  rule .regex [.expression, .STR_REX, .M_REGEX] (onRegex (matching false)),
  rule .regex [.expression, .STR_REX, .S_REGEX] (onRegex (changeByRegex "s")),
  rule .regex [.expression, .STR_REX, .Y_REGEX] (onRegex (changeByRegex "tr")),
  between .binary .OR (binary (bitwise "|")),
  between .binary .AND (binary (bitwise "&")),
  rule .binary [.NOT, .expression] (unary complement),
  between .binary .XOR (binary (bitwise "^")),
  between .binary .LSHIFT (binary (bitwise "<<")),
  between .binary .RSHIFT (binary (bitwise ">>")),
  between .logical .LOR (binary (logical "||" "or" false)),
  between .logical .LAND (binary (logical "&&" "and" false)),
  rule .logical [.LNOT, .expression] (unary (negation false)),
  between .logical .LLOR (binary (logical "||" "or" true)),
  between .logical .LLAND (binary (logical "&&" "and" true)),
  rule .logical [.LLNOT, .expression] (unary (negation true)),
  between .logical .LLXOR (binary exclusive),
  rule .logical [.expression, .QUEST_CLOSE, .expression, .COLON, .expression] fun p =>
    return .code (← conditional (← p.code 1) (← p.code 3) (← p.code 5))]

def element (kind : TypeName) (key close : Nat) (arrow : Bool) : Args → Tidying Value := fun p =>
  return .access (← accessElement (← p.access 1) (← p.code key) (p.at_ close) kind arrow)

def bracedReferent : PlainAction := fun p =>
  return .access (← followReference (← p.access 3) (p.at_ 4))

def referent : PlainAction := fun p => do
  let a ← p.access 2
  return .access (← followReference a a.base.position)

def ownVariable : PlainAction := fun p =>
  return .code (← readVariable (← p.text 2) (p.at_ 2) none)

def packageVariable : PlainAction := fun p =>
  return .code (← readVariable (← p.text 3) (p.at_ 3) (some (← p.package 2)))

def newOne (shared : Bool) : PlainAction := fun p =>
  return .code (← createVariable (← p.text 3) (p.at_ 3) shared)

/-- Productions that differ in the sigil. -/
def sigils (name : Perl.Symbol) (before after : List Perl.Symbol) (action : PlainAction) : Actions :=
  [.DOLLAR, .AT, .PERCENTAGE].map fun sigil => rule name (before ++ sigil :: after) action

/-- Variables and the places they lead to. -/
def variableActions : Actions := [
  rule .var_access [.variable_] fun p => do
    return .access (← Access.ofFragment ((← p.code 1).mark .variable_)),
  ruleTidying .var_access [.LBRACKET, .list, .RBRACKET] fun p =>
    return .access (← Access.ofFragment (← arrayLiteral (← p.codes 2))),
  ruleTidying .var_access [.LBRACE, .list, .RBRACE] fun p =>
    return .access (← Access.ofFragment (← hashLiteral (← p.codes 2))),
  rule .var_access [.LPAREN, .expression, .TWO_PERIOD, .expression, .RPAREN]
    fun _ => fail .noMember,
  ruleTidying .var_access [.var_access, .LBRACKET, .expression, .RBRACKET] (element .array 3 4 false),
  ruleTidying .var_access [.var_access, .LBRACE, .expression, .RBRACE] (element .hash 3 4 false),
  ruleTidying .var_access [.var_access, .POINTED, .LBRACKET, .expression, .RBRACKET]
    (element .array 4 5 true),
  ruleTidying .var_access [.var_access, .POINTED, .LBRACE, .expression, .RBRACE] (element .hash 4 5 true),
  rule .var_access [.BACKSLASH, .var_access] fun p =>
    return .access (← takeReference (← p.access 2)),
  rule .variable_ [.variable_my] (passOn 1)]
  ++ sigils .var_access [] [.LBRACE, .var_access, .RBRACE] bracedReferent
  ++ sigils .var_access [] [.var_access] referent
  ++ sigils .variable_ [] [.ID] ownVariable
  ++ sigils .variable_ [] [.package, .ID] packageVariable
  ++ sigils .variable_my [.MY] [.ID] (newOne false)
  ++ sigils .variable_my [.OUR] [.ID] (newOne true)

def literal (type : TypeName) (text : String → Plain String) : PlainAction := fun p => do
  let value ← text (← p.text 1)
  return .code { value, shape := .scalar type, position := p.at_ 1 }

def quotedText (text : String) : Plain String :=
  return "\"" ++ Literal.fixEscapes false (Literal.escapeChars ['"'] text) ++ "\""

/-- A string between double quotes as a Java literal, with its variables spliced in. -/
def doubleQuotedText (text : String) : Plain String :=
  return "\"" ++ (← interpolate (Literal.fixEscapes false text)) ++ "\""

def valueActions : Actions := [
  rule .value [.INT_NUMBER] (literal .integer pure),
  rule .value [.FLOAT_NUMBER] (literal .double pure),
  rule .value [.STRING_QUOTE] (literal .string quotedText),
  rule .value [.STRING_DOUBLE_QUOTE] (literal .string doubleQuotedText),
  rule .value [.CMD] fun p => do
    let text ← interpolate (Literal.fixEscapes false (← p.text 1))
    return .code (← commandValue text (p.at_ 1))]

end PerlJava.Compile
