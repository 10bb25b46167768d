/-!
# Words with a meaning of their own

Reserved words of Perl with the kinds of their tokens, the words of `#<...>` labels, and how many
arguments the native functions take when they are written without parentheses.
-/

namespace PerlJava.Perl

def nativeFunctions : List String :=
  ["CHOMP", "CHOP", "CLOSE", "DEFINED", "DELETE", "DIE", "EACH", "EXISTS", "EXIT", "JOIN", "KEYS",
    "LC", "LCFIRST", "LENGTH", "OPEN", "POP", "PRINT", "PUSH", "SAY", "SHIFT", "SORT", "SPLICE",
    "SPLIT", "SUBSTR", "SYSTEM", "UC", "UCFIRST", "UNSHIFT", "VALUES"]

def reservedKinds : List String :=
  ["MY", "SUB", "OUR", "PACKAGE", "WHILE", "DO", "FOR", "UNTIL", "IF", "ELSIF", "ELSE", "UNLESS",
    "LAST", "NEXT", "RETURN", "CMP", "X", "UNDEF"] ++ nativeFunctions

def renamedWords : List (String × String) :=
  [("foreach", "FOR"), ("and", "LLAND"), ("or", "LLOR"), ("xor", "LLXOR"), ("not", "LLNOT"),
    ("le", "STR_LE"), ("gt", "STR_GT"), ("lt", "STR_LT"), ("ge", "STR_GE"), ("eq", "STR_EQ"),
    ("ne", "STR_NE")]

def reservedWords : List (String × String) :=
  renamedWords ++ reservedKinds.map fun kind => (kind.toLower, kind)

def wordKind (word : String) : String :=
  (reservedWords.lookup word).getD "ID"

/-- Labels whose token is named as they are; they stay where they are written. -/
def fixedLabels : List String :=
  ["REF", "ARGS", "RETURNS", "MAPPER_CODE", "MAPPER_LOOP", "HADOOP_PRINT", "REDUCER_CODE",
    "REDUCER_OP", "REDUCER_CHANGE", "REDUCER_KEY", "REDUCER_VALUE", "REDUCER_VAR"]

def movableLabels : List String :=
  ["VAR", "TYPE", "SIZE", "L_ARRAY", "L_HASH", "L_LIST", "REF"]

def labelWords : List (String × String) :=
  ["boolean", "integer", "long", "float", "double", "string", "file"].map (·, "TYPE")
    ++ [("array", "L_ARRAY"), ("hash", "L_HASH"), ("list", "L_LIST")]
    ++ fixedLabels.map fun kind => (kind.toLower, kind)

def isLabel (kind : String) : Bool :=
  movableLabels.contains kind || fixedLabels.contains kind

def isMovable (kind : String) : Bool :=
  movableLabels.contains kind

/-- How many arguments a native function takes when it is written without parentheses; a negative
number stands for all that follow. -/
def nativeArity? (kind : String) : Option Int :=
  [("CHOMP", 1), ("CHOP", 1), ("CLOSE", 1), ("DEFINED", 1), ("DELETE", 1), ("DIE", 1),
    ("EXISTS", 1), ("EXIT", 1), ("JOIN", 2), ("KEYS", 1), ("LC", 1), ("LCFIRST", 1), ("LENGTH", 1),
    ("OPEN", 3), ("POP", 1), ("PRINT", -1), ("PUSH", 2), ("SAY", -1), ("SHIFT", 1), ("SORT", 1),
    ("SPLICE", 4), ("SPLIT", 2), ("SUBSTR", 4), ("SYSTEM", 1), ("UC", 1), ("UCFIRST", 1),
    ("UNSHIFT", 2), ("VALUES", 1)].lookup kind

end PerlJava.Perl
