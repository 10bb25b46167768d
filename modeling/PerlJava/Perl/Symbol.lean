/-!
# Grammar symbols

The symbols of the grammar, spelt as they are written: nonterminals in small letters, the kinds of
tokens in capitals.
-/

namespace PerlJava.Perl

/-- A symbol of the grammar. The names `FUNCTION` and `UNITARY` stand for precedences only. -/
inductive Symbol where
  /-- What everything is derived from. -/
  | start
  | file | code | function | function_header | function_body | args_opt | returns_opt
  | function_types | statements | statement_type | special_statement | line_comment | labels_line
  | dimension | size_opt | declare | change_init | block_header | block | if_block | elif
  | elif_block | for_type | for_variable | for_each | opt_list | post_block | mapper_init
  | reducer_init | loop_head | expression | list | assignment | multi_equals | arithmetic
  | comparations | regex | binary | logical | function_call | sort_head | package | var_access
  | variable_ | variable_my | value
  /-- Stands for what is left out after a syntax error. -/
  | error
  | AND | ANDEQUAL | ARGS | AT | BACKSLASH | CHOMP | CHOP | CLOSE | CMD | CMP | CMP_NUM | COLON
  | COMMA | COMMENT | COMMENT_LINE | DEFINED | DELETE | DIE | DIVEQUAL | DIVIDE | DO | DOLLAR
  | EACH | ELSE | ELSIF | EQUALS | EXISTS | EXIT | FLOAT_NUMBER | FOR | FUNCTION | HADOOP_PRINT
  | ID | IF | INT_NUMBER | JAVA_IMPORT | JAVA_LINE | JOIN | KEYS | LAND | LANDEQUAL | LAST
  | LBRACE | LBRACKET | LC | LCFIRST | LENGTH | LLAND | LLNOT | LLOR | LLXOR | LNOT | LOR
  | LOREQUAL | LPAREN | LSHIFT | LSHIFTEQUAL | L_ARRAY | L_HASH | L_LIST | MAPPER_CODE
  | MAPPER_LOOP | MINUS | MINUSEQUAL | MINUSMINUS | MODEQUAL | MY | M_REGEX | NEXT | NOT | NUM_EQ
  | NUM_GE | NUM_GT | NUM_LE | NUM_LT | NUM_NE | OPEN | OR | OREQUAL | OUR | PACKAGE | PERCENTAGE
  | PERIOD | PERIODEQUAL | PLUS | PLUSEQUAL | PLUSPLUS | POINTED | POP | POW | POWEQUAL | PRINT
  | PUSH | QUEST_CLOSE | RBRACE | RBRACKET | REDUCER_CHANGE | REDUCER_CODE | REDUCER_KEY
  | REDUCER_OP | REDUCER_VALUE | REDUCER_VAR | REF | RETURN | RETURNS | RPAREN | RSHIFT
  | RSHIFTEQUAL | SAY | SEMI | SHIFT | SIZE | SMART_EQ | SORT | SPLICE | SPLIT | STDIN
  | STRING_DOUBLE_QUOTE | STRING_QUOTE | STR_EQ | STR_GE | STR_GT | STR_LE | STR_LT | STR_NE
  | STR_NO_REX | STR_REX | SUB | SUBSTR | SYSTEM | S_REGEX | TIMES | TIMESEQUAL | TWO_COLON
  | TWO_PERIOD | TYPE | UC | UCFIRST | UNDEF | UNITARY | UNLESS | UNSHIFT | UNTIL | VALUES | VAR
  | WHILE | X | XEQUAL | XOR | XOREQUAL | Y_REGEX
deriving Repr, DecidableEq, Inhabited

namespace Symbol

/-- How a symbol is written. -/
def text : Symbol → String
  | start => "S'"
  | file => "file" | code => "code" | function => "function"
  | function_header => "function_header" | function_body => "function_body"
  | args_opt => "args_opt" | returns_opt => "returns_opt" | function_types => "function_types"
  | statements => "statements" | statement_type => "statement_type"
  | special_statement => "special_statement" | line_comment => "line_comment"
  | labels_line => "labels_line" | dimension => "dimension" | size_opt => "size_opt"
  | declare => "declare" | change_init => "change_init" | block_header => "block_header"
  | block => "block" | if_block => "if_block" | elif => "elif" | elif_block => "elif_block"
  | for_type => "for_type" | for_variable => "for_variable" | for_each => "for_each"
  | opt_list => "opt_list" | post_block => "post_block" | mapper_init => "mapper_init"
  | reducer_init => "reducer_init" | loop_head => "loop_head" | expression => "expression"
  | list => "list" | assignment => "assignment" | multi_equals => "multi_equals"
  | arithmetic => "arithmetic" | comparations => "comparations" | regex => "regex"
  | binary => "binary" | logical => "logical" | function_call => "function_call"
  | sort_head => "sort_head" | package => "package" | var_access => "var_access"
  | variable_ => "variable" | variable_my => "variable_my" | value => "value"
  | error => "error" | AND => "AND" | ANDEQUAL => "ANDEQUAL" | ARGS => "ARGS" | AT => "AT"
  | BACKSLASH => "BACKSLASH" | CHOMP => "CHOMP" | CHOP => "CHOP" | CLOSE => "CLOSE" | CMD => "CMD"
  | CMP => "CMP" | CMP_NUM => "CMP_NUM" | COLON => "COLON" | COMMA => "COMMA"
  | COMMENT => "COMMENT" | COMMENT_LINE => "COMMENT_LINE" | DEFINED => "DEFINED"
  | DELETE => "DELETE" | DIE => "DIE" | DIVEQUAL => "DIVEQUAL" | DIVIDE => "DIVIDE" | DO => "DO"
  | DOLLAR => "DOLLAR" | EACH => "EACH" | ELSE => "ELSE" | ELSIF => "ELSIF" | EQUALS => "EQUALS"
  | EXISTS => "EXISTS" | EXIT => "EXIT" | FLOAT_NUMBER => "FLOAT_NUMBER" | FOR => "FOR"
  | FUNCTION => "FUNCTION" | HADOOP_PRINT => "HADOOP_PRINT" | ID => "ID" | IF => "IF"
  | INT_NUMBER => "INT_NUMBER" | JAVA_IMPORT => "JAVA_IMPORT" | JAVA_LINE => "JAVA_LINE"
  | JOIN => "JOIN" | KEYS => "KEYS" | LAND => "LAND" | LANDEQUAL => "LANDEQUAL" | LAST => "LAST"
  | LBRACE => "LBRACE" | LBRACKET => "LBRACKET" | LC => "LC" | LCFIRST => "LCFIRST"
  | LENGTH => "LENGTH" | LLAND => "LLAND" | LLNOT => "LLNOT" | LLOR => "LLOR" | LLXOR => "LLXOR"
  | LNOT => "LNOT" | LOR => "LOR" | LOREQUAL => "LOREQUAL" | LPAREN => "LPAREN"
  | LSHIFT => "LSHIFT" | LSHIFTEQUAL => "LSHIFTEQUAL" | L_ARRAY => "L_ARRAY" | L_HASH => "L_HASH"
  | L_LIST => "L_LIST" | MAPPER_CODE => "MAPPER_CODE" | MAPPER_LOOP => "MAPPER_LOOP"
  | MINUS => "MINUS" | MINUSEQUAL => "MINUSEQUAL" | MINUSMINUS => "MINUSMINUS"
  | MODEQUAL => "MODEQUAL" | MY => "MY" | M_REGEX => "M_REGEX" | NEXT => "NEXT" | NOT => "NOT"
  | NUM_EQ => "NUM_EQ" | NUM_GE => "NUM_GE" | NUM_GT => "NUM_GT" | NUM_LE => "NUM_LE"
  | NUM_LT => "NUM_LT" | NUM_NE => "NUM_NE" | OPEN => "OPEN" | OR => "OR" | OREQUAL => "OREQUAL"
  | OUR => "OUR" | PACKAGE => "PACKAGE" | PERCENTAGE => "PERCENTAGE" | PERIOD => "PERIOD"
  | PERIODEQUAL => "PERIODEQUAL" | PLUS => "PLUS" | PLUSEQUAL => "PLUSEQUAL"
  | PLUSPLUS => "PLUSPLUS" | POINTED => "POINTED" | POP => "POP" | POW => "POW"
  | POWEQUAL => "POWEQUAL" | PRINT => "PRINT" | PUSH => "PUSH" | QUEST_CLOSE => "QUEST_CLOSE"
  | RBRACE => "RBRACE" | RBRACKET => "RBRACKET" | REDUCER_CHANGE => "REDUCER_CHANGE"
  | REDUCER_CODE => "REDUCER_CODE" | REDUCER_KEY => "REDUCER_KEY" | REDUCER_OP => "REDUCER_OP"
  | REDUCER_VALUE => "REDUCER_VALUE" | REDUCER_VAR => "REDUCER_VAR" | REF => "REF"
  | RETURN => "RETURN" | RETURNS => "RETURNS" | RPAREN => "RPAREN" | RSHIFT => "RSHIFT"
  | RSHIFTEQUAL => "RSHIFTEQUAL" | SAY => "SAY" | SEMI => "SEMI" | SHIFT => "SHIFT"
  | SIZE => "SIZE" | SMART_EQ => "SMART_EQ" | SORT => "SORT" | SPLICE => "SPLICE"
  | SPLIT => "SPLIT" | STDIN => "STDIN" | STRING_DOUBLE_QUOTE => "STRING_DOUBLE_QUOTE"
  | STRING_QUOTE => "STRING_QUOTE" | STR_EQ => "STR_EQ" | STR_GE => "STR_GE" | STR_GT => "STR_GT"
  | STR_LE => "STR_LE" | STR_LT => "STR_LT" | STR_NE => "STR_NE" | STR_NO_REX => "STR_NO_REX"
  | STR_REX => "STR_REX" | SUB => "SUB" | SUBSTR => "SUBSTR" | SYSTEM => "SYSTEM"
  | S_REGEX => "S_REGEX" | TIMES => "TIMES" | TIMESEQUAL => "TIMESEQUAL"
  | TWO_COLON => "TWO_COLON" | TWO_PERIOD => "TWO_PERIOD" | TYPE => "TYPE" | UC => "UC"
  | UCFIRST => "UCFIRST" | UNDEF => "UNDEF" | UNITARY => "UNITARY" | UNLESS => "UNLESS"
  | UNSHIFT => "UNSHIFT" | UNTIL => "UNTIL" | VALUES => "VALUES" | VAR => "VAR" | WHILE => "WHILE"
  | X => "X" | XEQUAL => "XEQUAL" | XOR => "XOR" | XOREQUAL => "XOREQUAL" | Y_REGEX => "Y_REGEX"

end Symbol

/-- A production: what its left side may consist of. -/
structure Production where
  name : Symbol
  symbols : List Symbol
deriving Repr, DecidableEq, Inhabited

end PerlJava.Perl
