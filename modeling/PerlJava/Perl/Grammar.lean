import PerlJava.LR.RuleText
import PerlJava.Perl.Symbol

/-!
# The grammar

The productions of the language, in the order of their numbers, and the precedences of its
operators.
-/

namespace PerlJava.Perl

/-- Productions of one symbol. -/
def rulesOf (name : Symbol) (sides : List (List Symbol)) : List (Production × Option Symbol) :=
  sides.map fun symbols => (⟨name, symbols⟩, none)

/-- Productions of one symbol that have the precedence of another. -/
def ranked (rank name : Symbol) (sides : List (List Symbol)) : List (Production × Option Symbol) :=
  sides.map fun symbols => (⟨name, symbols⟩, some rank)

/-- Operators between two operands. -/
def between (name left : Symbol) (operators : List Symbol) : List (Production × Option Symbol) :=
  rulesOf name (operators.map fun operator => [left, operator, .expression])

/-- Calls of native functions with parentheses. -/
def parenCalls (words : List Symbol) : List (Production × Option Symbol) :=
  rulesOf .function_call (words.map fun word => [word, .LPAREN, .list, .RPAREN])

/-- Calls of native functions with parentheses and without. -/
def bothCalls (words : List Symbol) : List (Production × Option Symbol) :=
  words.flatMap fun word =>
    parenCalls [word] ++ ranked .FUNCTION .function_call [[word, .expression]]

/-- The productions, some with the symbol whose precedence they have. -/
def grammarRules : List (Production × Option Symbol) := [
  rulesOf .mapper_init [[.MAPPER_CODE], [.MAPPER_CODE, .TYPE, .TYPE, .TYPE]],
  rulesOf .reducer_init [[.REDUCER_CODE], [.REDUCER_CODE, .TYPE, .TYPE, .TYPE, .TYPE]],
  bothCalls [.PRINT, .SAY],
  rulesOf .statement_type [[.mapper_init, .LBRACE, .block_header, .statements, .RBRACE]],
  rulesOf .loop_head [[.MAPPER_LOOP, .WHILE, .LPAREN, .var_access, .EQUALS, .STDIN, .RPAREN]],
  rulesOf .file [[.code]],
  rulesOf .function_call [[.PRINT, .expression, .LPAREN, .list, .RPAREN],
    [.PRINT, .LPAREN, .expression, .LPAREN, .list, .RPAREN, .RPAREN],
    [.SAY, .expression, .LPAREN, .list, .RPAREN],
    [.SAY, .LPAREN, .expression, .LPAREN, .list, .RPAREN, .RPAREN]],
  rulesOf .code [[.statements, .function]],
  rulesOf .block [[.loop_head, .LBRACE, .statements, .RBRACE]],
  rulesOf .function [[], [.function_body, .code]],
  rulesOf .function_header [[.args_opt, .returns_opt, .SUB, .ID]],
  rulesOf .function_call [[.HADOOP_PRINT, .PRINT, .LPAREN, .list, .RPAREN]],
  rulesOf .function_body [[.function_header, .LBRACE, .statements, .RBRACE]],
  parenCalls [.SPLIT],
  rulesOf .args_opt [[], [.ARGS, .function_types]],
  rulesOf .block [[.REDUCER_OP, .block_header, .LBRACE, .statements, .RBRACE]],
  rulesOf .returns_opt [[], [.RETURNS, .function_types]],
  parenCalls [.JOIN],
  rulesOf .block [[.REDUCER_CHANGE, .LBRACE, .block_header, .statements, .RBRACE]],
  rulesOf .function_types [[], [.function_types, .TYPE],
    [.function_types, .REF, .dimension, .TYPE]],
  rulesOf .statement_type [[.labels_line, .list, .post_block, .SEMI, .REDUCER_KEY, .line_comment]],
  rulesOf .statements [[], [.statements, .statement_type]],
  rulesOf .statement_type [[.labels_line, .list, .post_block, .SEMI, .line_comment]],
  bothCalls [.KEYS, .VALUES],
  rulesOf .statement_type [[.labels_line, .list, .post_block, .SEMI, .REDUCER_VALUE, .line_comment],
    [.labels_line, .multi_equals, .post_block, .SEMI, .line_comment], [.special_statement, .SEMI],
    [.block_header, .block]],
  rulesOf .block [[.reducer_init, .LBRACE, .block_header, .REDUCER_VAR, .statements, .REDUCER_VAR,
    .statements, .RBRACE]],
  rulesOf .statement_type [[.LBRACE, .block_header, .statements, .RBRACE], [.declare, .TYPE],
    [.declare, .dimension, .TYPE], [.declare, .REF, .dimension, .TYPE]],
  bothCalls [.CHOMP, .CHOP],
  rulesOf .statement_type [[.COMMENT], [.SEMI, .line_comment], [.PACKAGE, .ID, .SEMI], [.JAVA_LINE],
    [.JAVA_IMPORT], [.error, .SEMI]],
  rulesOf .special_statement [[.LAST], [.NEXT], [.RETURN, .LPAREN, .list, .RPAREN],
    [.RETURN, .list]],
  rulesOf .function_call [[.LPAREN, .list, .RPAREN, .EQUALS, .EACH, .var_access]],
  rulesOf .special_statement [[.RETURN]],
  rulesOf .line_comment [[], [.COMMENT_LINE]],
  rulesOf .labels_line [[], [.TYPE], [.dimension, .TYPE], [.REF, .dimension, .TYPE], [.declare]],
  rulesOf .dimension [[.L_HASH, .size_opt], [.L_ARRAY, .size_opt]],
  bothCalls [.DEFINED],
  rulesOf .dimension [[.L_LIST, .size_opt], [.dimension, .L_HASH, .size_opt],
    [.dimension, .L_ARRAY, .size_opt], [.dimension, .L_LIST, .size_opt]],
  rulesOf .size_opt [[]],
  parenCalls [.OPEN],
  rulesOf .size_opt [[.SIZE]],
  rulesOf .declare [[.VAR], [.SIZE], [.declare, .VAR], [.declare, .SIZE]],
  bothCalls [.CLOSE],
  rulesOf .change_init [[]],
  rulesOf .block_header [[]],
  rulesOf .block [[.if_block, .elif], [.WHILE, .change_init, .LPAREN, .expression, .RPAREN,
    .change_init, .LBRACE, .statements, .RBRACE], [.UNTIL, .change_init, .LPAREN, .expression,
    .RPAREN, .change_init, .LBRACE, .statements, .RBRACE], [.DO, .LBRACE, .statements, .RBRACE,
    .WHILE, .change_init, .LPAREN, .expression, .RPAREN, .change_init, .SEMI]],
  rulesOf .sort_head [[.SORT]],
  rulesOf .block [[.DO, .LBRACE, .statements, .RBRACE, .UNTIL, .change_init, .LPAREN, .expression,
    .RPAREN, .change_init, .SEMI], [.FOR, .LPAREN, .opt_list, .change_init, .SEMI, .opt_list, .SEMI,
    .opt_list, .RPAREN, .change_init, .LBRACE, .statements, .RBRACE],
    [.for_each, .LBRACE, .statements, .RBRACE]],
  rulesOf .for_type [[]],
  rulesOf .function_call [[.sort_head, .LBRACE, .expression, .RBRACE, .LPAREN, .list, .RPAREN]],
  ranked .FUNCTION .function_call [[.sort_head, .LBRACE, .expression, .RBRACE, .expression]],
  rulesOf .for_variable [[.variable_]],
  rulesOf .opt_list [[], [.list]],
  rulesOf .for_each [[.FOR, .for_type, .for_variable, .LPAREN, .expression, .RPAREN],
    [.FOR, .LPAREN, .expression, .RPAREN]],
  rulesOf .if_block [[.IF, .LPAREN, .expression, .RPAREN, .LBRACE, .statements, .RBRACE],
    [.UNLESS, .LPAREN, .expression, .RPAREN, .LBRACE, .statements, .RBRACE]],
  rulesOf .elif [[], [.block_header, .elif_block, .elif]],
  parenCalls [.SORT],
  rulesOf .elif [[.block_header, .ELSE, .LBRACE, .statements, .RBRACE]],
  rulesOf .elif_block [[.ELSIF, .change_init, .LPAREN, .expression, .RPAREN, .change_init, .LBRACE,
    .statements, .RBRACE]],
  rulesOf .post_block [[], [.IF, .expression], [.UNLESS, .expression]],
  bothCalls [.LC, .LCFIRST, .UC, .UCFIRST],
  rulesOf .post_block [[.WHILE, .expression], [.UNTIL, .expression], [.FOR, .expression]],
  rulesOf .expression [[.LPAREN, .expression, .RPAREN], [.assignment], [.arithmetic]],
  bothCalls [.DIE],
  rulesOf .expression [[.comparations], [.regex], [.binary], [.logical], [.value]],
  bothCalls [.DELETE],
  rulesOf .expression [[.function_call], [.var_access]],
  rulesOf .list [[.expression, .COMMA, .list], [.expression], [.expression, .COMMA]],
  rulesOf .assignment [[.var_access, .EQUALS, .expression]],
  bothCalls [.EXISTS],
  rulesOf .assignment [[.var_access, .EQUALS, .LPAREN, .RPAREN], [.var_access, .EQUALS, .UNDEF],
    [.var_access, .EQUALS, .STDIN], [.var_access, .EQUALS, .NUM_LT, .var_access, .NUM_GT],
    [.var_access, .PLUSEQUAL, .expression]],
  bothCalls [.EXIT],
  between .assignment .var_access [.MINUSEQUAL, .TIMESEQUAL, .DIVEQUAL, .MODEQUAL, .POWEQUAL,
    .ANDEQUAL],
  bothCalls [.LENGTH, .SYSTEM],
  between .assignment .var_access [.OREQUAL, .XOREQUAL, .LSHIFTEQUAL, .RSHIFTEQUAL, .LANDEQUAL],
  parenCalls [.SUBSTR],
  between .assignment .var_access [.LOREQUAL, .XEQUAL, .PERIODEQUAL],
  rulesOf .multi_equals [[.LPAREN, .list, .RPAREN, .EQUALS, .expression],
    [.LPAREN, .list, .RPAREN, .EQUALS, .LPAREN, .list, .RPAREN]],
  between .arithmetic .expression [.PLUS, .MINUS, .TIMES, .DIVIDE, .POW, .X],
  parenCalls [.SPLICE],
  ranked .UNITARY .arithmetic [[.PLUS, .expression], [.MINUS, .expression]],
  rulesOf .arithmetic [[.expression, .PERCENTAGE, .expression], [.PLUSPLUS, .var_access],
    [.MINUSMINUS, .var_access], [.var_access, .PLUSPLUS], [.var_access, .MINUSMINUS],
    [.expression, .PERIOD, .expression]],
  between .comparations .expression [.NUM_EQ, .NUM_NE, .NUM_LT, .NUM_LE, .NUM_GT],
  parenCalls [.PUSH, .UNSHIFT],
  between .comparations .expression [.NUM_GE, .CMP_NUM, .STR_EQ, .STR_NE, .STR_LT, .STR_LE, .STR_GT,
    .STR_GE, .CMP, .SMART_EQ],
  rulesOf .regex [[.expression, .STR_NO_REX, .M_REGEX], [.expression, .STR_REX, .M_REGEX]],
  bothCalls [.POP, .SHIFT],
  rulesOf .regex [[.expression, .STR_REX, .S_REGEX], [.expression, .STR_REX, .Y_REGEX]],
  between .binary .expression [.OR, .AND],
  rulesOf .binary [[.NOT, .expression]],
  between .binary .expression [.XOR, .LSHIFT, .RSHIFT],
  between .logical .expression [.LOR, .LAND],
  rulesOf .logical [[.LNOT, .expression]],
  between .logical .expression [.LLOR, .LLAND],
  rulesOf .logical [[.LLNOT, .expression], [.expression, .LLXOR, .expression],
    [.expression, .QUEST_CLOSE, .expression, .COLON, .expression]],
  rulesOf .function_call [[.ID, .LPAREN, .RPAREN]],
  bothCalls [.ID],
  ranked .UNITARY .function_call [[.ID]],
  rulesOf .function_call [[.package, .ID, .LPAREN, .RPAREN],
    [.package, .ID, .LPAREN, .list, .RPAREN]],
  ranked .FUNCTION .function_call [[.package, .ID, .expression], [.package, .ID]],
  rulesOf .package [[.ID, .TWO_COLON]],
  rulesOf .var_access [[.variable_], [.LBRACKET, .list, .RBRACKET], [.LBRACE, .list, .RBRACE],
    [.LPAREN, .expression, .TWO_PERIOD, .expression, .RPAREN],
    [.var_access, .LBRACKET, .expression, .RBRACKET], [.var_access, .LBRACE, .expression, .RBRACE],
    [.var_access, .POINTED, .LBRACKET, .expression, .RBRACKET],
    [.var_access, .POINTED, .LBRACE, .expression, .RBRACE],
    [.DOLLAR, .LBRACE, .var_access, .RBRACE], [.AT, .LBRACE, .var_access, .RBRACE],
    [.PERCENTAGE, .LBRACE, .var_access, .RBRACE]],
  ranked .UNITARY .var_access [[.DOLLAR, .var_access], [.AT, .var_access],
    [.PERCENTAGE, .var_access], [.BACKSLASH, .var_access]],
  rulesOf .variable_ [[.DOLLAR, .ID], [.AT, .ID], [.PERCENTAGE, .ID], [.DOLLAR, .package, .ID],
    [.AT, .package, .ID], [.PERCENTAGE, .package, .ID], [.variable_my]],
  rulesOf .variable_my [[.MY, .DOLLAR, .ID], [.MY, .AT, .ID], [.MY, .PERCENTAGE, .ID],
    [.OUR, .DOLLAR, .ID], [.OUR, .AT, .ID], [.OUR, .PERCENTAGE, .ID]],
  rulesOf .value [[.INT_NUMBER], [.FLOAT_NUMBER], [.STRING_QUOTE], [.STRING_DOUBLE_QUOTE],
    [.CMD]]].flatten

def grammarPrecedence : List (LR.Assoc × List Symbol) := [
  (.left, [.LLOR, .LLXOR]),
  (.left, [.LLAND]),
  (.left, [.LLNOT]),
  (.left, [.COMMA]),
  (.right, [.EQUALS, .TIMESEQUAL, .DIVEQUAL, .MODEQUAL, .PLUSEQUAL, .MINUSEQUAL, .LSHIFTEQUAL,
    .RSHIFTEQUAL, .ANDEQUAL, .OREQUAL, .XOREQUAL, .POWEQUAL, .LANDEQUAL, .LOREQUAL, .PERIODEQUAL,
    .XEQUAL]),
  (.right, [.COLON, .QUEST_CLOSE]),
  (.nonassoc, [.TWO_PERIOD]),
  (.left, [.LOR]),
  (.left, [.LAND]),
  (.left, [.OR, .XOR]),
  (.left, [.AND]),
  (.nonassoc, [.NUM_EQ, .NUM_NE, .STR_EQ, .STR_NE, .CMP, .CMP_NUM, .SMART_EQ]),
  (.nonassoc, [.NUM_LT, .NUM_LE, .NUM_GT, .NUM_GE, .STR_LT, .STR_LE, .STR_GT, .STR_GE]),
  (.left, [.LSHIFT, .RSHIFT]),
  (.left, [.PLUS, .MINUS, .PERIOD]),
  (.left, [.TIMES, .DIVIDE, .PERCENTAGE, .X]),
  (.left, [.STR_REX, .STR_NO_REX]),
  (.left, [.LNOT, .NOT, .UNITARY]),
  (.right, [.POW]),
  (.nonassoc, [.PLUSPLUS, .MINUSMINUS]),
  (.left, [.FUNCTION]),
  (.right, [.LPAREN, .RPAREN, .LBRACKET, .RBRACKET, .LBRACE, .RBRACE])]

def writtenSymbols : Production × Option Symbol → List String
  | (rule, none) => rule.symbols.map (·.text)
  | (rule, some term) => rule.symbols.map (·.text) ++ ["%prec", term.text]

def writeRules (rules : List (Production × Option Symbol)) : List LR.WrittenRule :=
  rules.zipIdx.map fun (rule, n) => ⟨⟨"", n + 1⟩, rule.1.name.text, writtenSymbols rule⟩

/-- The kinds of tokens: the symbols without productions. -/
def grammarTokens (rules : List LR.WrittenRule) : List String :=
  (rules.flatMap (·.bareSymbols)).foldl (fun acc s =>
    if acc.contains s || s == "error" || rules.any (·.name == s) then acc else acc ++ [s]) []

def addPrecedence (g : LR.Grammar) (level : Nat) (assoc : LR.Assoc) (terms : List Symbol) :
    Except Fault LR.Grammar :=
  terms.foldlM (fun g term => g.setPrecedence term.text assoc.text level) g

def grammar : Except Fault LR.Grammar := do
  let levels := grammarPrecedence.zipIdx
  let written := writeRules grammarRules
  let g ← levels.foldlM (fun g ((assoc, terms), n) => addPrecedence g (n + 1) assoc terms)
    (LR.Grammar.ofTokens (grammarTokens written))
  (← g.addRules none written).setStart (some Symbol.file.text)

end PerlJava.Perl
