/-!
# The texts of diagnostics

Every message has a key under which it is looked up and a template. In a template, a name after a
percent sign is a hole.
-/

namespace PerlJava

/-- The messages of the compiler and of its command line. -/
inductive Message where
  | helpToolDescription
  | helpFiles
  | helpMain
  | helpOut
  | helpComments
  | helpInsertParens
  | helpOptimizeCode
  | helpUnrecheableCode
  | helpJregex
  | helpErrorAbort
  | helpDebugger
  | helpDebuggerLexer
  | helpDebuggerParser
  | helpDebuggerSize
  | helpDebuggerFile
  | helpDebuggerDetails
  | fileNotFound
  | fileNotAccess
  | outNotFound
  | outNotAccess
  | errorWord
  | warningWord
  | ilegalToken
  | labelUnknownIgnore
  | syntaxErrorToken
  | syntaxErrorEof
  | varNotDeclare
  | varNotType
  | varNotExist
  | varErrorAccess
  | varAlreadyDeclare
  | wordNativeDeclare
  | varRequires
  | varAlreadyTyped
  | varForTyped
  | varRefRequires
  | varRefScalar
  | colectionRequires
  | scalarRequires
  | readBeforeAssign
  | imposibleCast
  | sizeRequired
  | functionNotExist
  | functionAlreadyDeclare
  | functionArgsError
  | functionNativeError
  | functionNativeVar
  | invalidMultiEquals
  | hashNotValue
  | refOperation
  | refRequires
  | returnParamError
  | nextError
  | lastError
  | returnError
  | foreachError
  | smartEq
  | incDecColection
  | unreachableStatement
  | declareAccess
  | alreadyExtends
  | specialLocalBlock
  | packNotExist
  | packVarNotExist
  | packFunctionNotExist
  | packDifName
  | packAfterCode
  | fileArrayError
  | fileStringError
  | notFile
  | notStringConcat
  | eachError
  | sortTypeAError
  | sortTypeError
  | funArrayError
  | deleteNotHash
  | colectionConcatError
  | hdMapperManyLoop
  | hdMapperLoopAlone
  | hdNextLast
  | hdPrint
  | hdReducerKey
  | hdReducerValue
  | hdReducerIncomplete
deriving Repr, DecidableEq, Inhabited

namespace Message

/-- The key and the template of a message. -/
def entry : Message → String × String
  | .helpToolDescription => ("HELP_TOOL_DESCRIPTION",
    "Perldoop 2.0: Un compilador fuente-a-fuente Perl-Java.")
  | .helpFiles => ("HELP_FILES", "Ficheros Perl para ser analizados.")
  | .helpMain => ("HELP_MAIN",
    "Crea una función de inicio \"main\" en el último fichero para poder ejecutar el código "
      ++ "directamente.")
  | .helpOut => ("HELP_OUT",
    "Carpeta donde se guardará los ficheros generados, por defecto es el directorio actual.")
  | .helpComments => ("HELP_COMMENTS",
    "Los comentarios dentro del código Perl, se mantendrán en el código java.")
  | .helpInsertParens => ("HELP_EMULATE_PAREN",
    "Añade automáticamente los paréntesis a las funciones, si el código es sintácticamente "
      ++ "correcto, debería hacerlo correctamente.")
  | .helpOptimizeCode => ("HELP_OPTIMIZE_CODE",
    "Mejora el código de salida haciéndolo más visible y eliminado redundancias dando lugar a un "
      ++ "mayor rendimiento.")
  | .helpUnrecheableCode => ("HELP_UNRECHEABLE_CODE",
    "Comprueba la existencia de código muerto, si existe, el código resultante no podrá ser "
      ++ "copilado.")
  | .helpJregex => ("HELP_JREGEX",
    "Utiliza las librerías java Jregex y Jtr para evaluar las expresiones regulares en lugar de "
      ++ "invocar a perl. (Más rápido pero puede no funcionar en todos los casos)")
  | .helpErrorAbort => ("HELP_ERROR_ABORT", "Para el análisis en caso de encontrar un error.")
  | .helpDebugger => ("HELP_DEBUGGER", "Opciones para la depuración del análisis.")
  | .helpDebuggerLexer => ("HELP_DEBUGGER_LEXER",
    "Activa la impresión de tokens para el analizador léxico.")
  | .helpDebuggerParser => ("HELP_DEBUGGER_PARSER",
    "Activa la impresión de reglas para el analizador sintáctico.")
  | .helpDebuggerSize => ("HELP_DEBUGGER_SIZE",
    "Tamaño del código mostrado para cada regla durante la depuración.")
  | .helpDebuggerFile => ("HELP_DEBUGGER_FILE",
    "Fichero para almacenar la depuración de reglas para mejorar su visibilidad y compresión.")
  | .helpDebuggerDetails => ("HELP_DEBUGGER_DETAILS",
    "Si se usa un fichero, podrán mostrarse más detalles sobre las reglas al analizar.")
  | .fileNotFound => ("FILE_NOT_FOUND", "No se ha encontrado el fichero %file.")
  | .fileNotAccess => ("FILE_NOT_ACCESS", "No se ha podido acceder al fiero %file.")
  | .outNotFound => ("OUT_NOT_FOUND", "El directorio de salida no existe.")
  | .outNotAccess => ("OUT_NOT_ACCESS",
    "No tienes permiso de escritura en el directorio de salida.")
  | .errorWord => ("ERROR", "Error")
  | .warningWord => ("WARNING", "Aviso")
  | .ilegalToken => ("ILEGAL_TOKEN", "El carácter %c no está permitido")
  | .labelUnknownIgnore => ("LABEL_UNKNOWN_IGNORE", "La etiqueta %label ha sido ignorada.")
  | .syntaxErrorToken => ("SYNTAX_ERROR_TOKEN", "No se esperaba el componente %type \"%token\".")
  | .syntaxErrorEof => ("SYNTAX_ERROR_EOF", "Error sintactico, final de fichero inexperado.")
  | .varNotDeclare => ("VAR_NOT_DECLARE",
    "La variable \"%var\" tiene definido un tipo pero no ha sido declarada.")
  | .varNotType => ("VAR_NOT_TYPE", "La variable \"%var\" no tiene asignado un tipo")
  | .varNotExist => ("VAR_NOT_EXIST", "La variable \"%var\" no ha sido declarada.")
  | .varErrorAccess => ("VAR_ERROR_ACCESS", "Se esperaba acceder a %type pero se encontro %find")
  | .varAlreadyDeclare => ("VAR_ALREADY_DECLARE",
    "La variable %var ya habia sido declarada en la linea %line")
  | .wordNativeDeclare => ("WORD_NATIVE_DECLARE",
    "La palabra %word es una palabra reservada, no se puede usar.")
  | .varRequires => ("VAR_REQUIRES", "No se puede asignar un valor a algo que no sea una variable.")
  | .varAlreadyTyped => ("VAR_ALREADY_TYPED",
    "Definicion de tipo sobre %var despues de ser declarada.")
  | .varForTyped => ("VAR_FOR_TYPED",
    "La variable %var tiene un tipo declarado en la linea %line que sera ignorado.")
  | .varRefRequires => ("VAR_REF_REQUIRES", "Se esperaba una referencia a %var.")
  | .varRefScalar => ("VAR_REF_SCAlAR", "Solo se pueden crear punteros a variables colecciones.")
  | .colectionRequires => ("COLECTION_REQUIRES", "La variable %var no es una coleccion.")
  | .scalarRequires => ("SCALAR_REQUIRES", "La variable %var debe ser un escalar.")
  | .readBeforeAssign => ("READ_BEFORE_ASSIGN",
    "La variable \"%var\" fue leida antes de asignarle un valor.")
  | .imposibleCast => ("IMPOSIBLE_CAST", "No se puede castear %type a %cast")
  | .sizeRequired => ("SIZE_REQUIRED",
    "La declaracion de \"%var\" requiere al menos una etiqueta de tamaño.")
  | .functionNotExist => ("FUNCTION_NOT_EXIST", "La funcion %funct no existe.")
  | .functionAlreadyDeclare => ("FUNCTION_ALREADY_DECLARE",
    "La funcion %funct ya habia sido declarada en la linea %line")
  | .functionArgsError => ("FUNCTION_ARGS_ERROR",
    "La funcion %funct espera %exp argumentos en vez de %find")
  | .functionNativeError => ("FUNCTION_NATIVE_ERROR",
    "La funcion %funct tiene un numero incorrecto de parametros.")
  | .functionNativeVar => ("FUNCTION_NATIVE_VAR",
    "El argumento %n de %funct debe ser una variable.")
  | .invalidMultiEquals => ("INVALID_MULTI_EQUALS",
    "El tipo de la parte derecha de la multi asignacion no es valido.")
  | .hashNotValue => ("HASH_NOT_VALUE", "La ultima clave del hash no tiene un valor.")
  | .refOperation => ("REF_OPERATION", "No se puede realizar operaciones sobre referencias.")
  | .refRequires => ("REF_REQUIRES",
    "Las colecciones solo pueden pasarse como referencia a las funciones.")
  | .returnParamError => ("RETURN_PARAM_ERROR",
    "Return esperaba %num argumentos pero recibio %find")
  | .nextError => ("NEXT_ERROR", "No puedes usar next fuera de un bucle.")
  | .lastError => ("LAST_ERROR", "No puedes usar last fuera de un bucle.")
  | .returnError => ("RETURN_ERROR", "No puedes usar return fuera de una funcion.")
  | .foreachError => ("FOREACH_ERROR", "Foreach solo puede usarse sobre colecciones.")
  | .smartEq => ("SMART_EQ", "El operador ~~ no esta soportado por razones de eficiencia.")
  | .incDecColection => ("INC_DEC_COLECTION",
    "Los operadores de incremento y decremento no pueden usarse en colecciones.")
  | .unreachableStatement => ("UNREACHABLE_STATEMENT",
    "El codigo despues de un LAST, NEXT o RETURN nunca sera ejecutado.")
  | .declareAccess => ("DECLARE_ACCESS",
    "Acceder a una coleccion que no esta guardada en una variable no esta permitido.")
  | .alreadyExtends => ("ALREADY_EXTENDS",
    "Solo puede haber un bloque especial(MAPPER,REDUCER,...) en el codigo.")
  | .specialLocalBlock => ("SPECIAL_LOCAL_BLOCK",
    "Los bloques especiales no pueden estar dentro de otro bloque.")
  | .packNotExist => ("PACK_NOT_EXIST", "El paquete %pack no existe.")
  | .packVarNotExist => ("PACK_VAR_NOT_EXIST", "La variable \"%var\" no existe en el paquete %pack")
  | .packFunctionNotExist => ("PACK_FUNCTION_NOT_EXIST",
    "La funcion \"%funct no existe en el paquete %pack\"")
  | .packDifName => ("PACK_DIF_NAME",
    "El nombre del paquete debe coincidir con el nombre del fichero.")
  | .packAfterCode => ("PACK_AFTER_CODE", "La directiva package debe ser la primera en el codigo.")
  | .fileArrayError => ("FILE_ARRAY_ERROR",
    "No puedes leer todo un fichero en algo que no sea un array o una lista de Strings.")
  | .fileStringError => ("FILE_STRING_ERROR",
    "No puedes leer un fichero en una variable que no es un String.")
  | .notFile => ("NOT_FILE", "La variable \"%var\" no es un fichero.")
  | .notStringConcat => ("NOT_STRING_CONCAT", "El operador . debe estar precedido por una cadena")
  | .eachError => ("EACH_ERROR",
    "La funcion each necesita dos variables a la izquierda y un hash a la derecha.")
  | .sortTypeAError => ("SORT_TYPE_A_ERROR",
    "La funcion sort necesita la declaracion de tipo de a.")
  | .sortTypeError => ("SORT_TYPE_ERROR", "El tipo de a no coincide con el tipo de %var.")
  | .funArrayError => ("FUN_ARRAY_ERROR", "La funcion %fun solo funciona sobre arrays o listas.")
  | .deleteNotHash => ("DELETE_NOT_HASH",
    "La funcion delete solo puede usarse sobre variables de tipo hash.")
  | .colectionConcatError => ("COLECTION_CONCAT_ERROR",
    "La funcion %funct no puede concatenar dos colecciones de distinto tipo.")
  | .hdMapperManyLoop => ("HD_MAPPER_MANY_LOOP",
    "Solo se puede usar una vez la etiqueta <mapper_loop>.")
  | .hdMapperLoopAlone => ("HD_MAPPER_LOOP_ALONE",
    "La etiqueta <mapper_loop> debe usarse en un bloque <mapper_code>.")
  | .hdNextLast => ("HD_NEXT_LAST",
    "No se pueden usar modificadores NEXT o LAST en un bucle <mapper_loop>.")
  | .hdPrint => ("HD_PRINT",
    "El print de Hadoop debe constar de 4 argumentos (key,separador1,valor,separador2).")
  | .hdReducerKey => ("HD_REDUCER_KEY", "No se ha encontrado la variable key para el reducer.")
  | .hdReducerValue => ("HD_REDUCER_VALUE",
    "No se ha encontrado la variable value para el reducer.")
  | .hdReducerIncomplete => ("HD_REDUCER_INCOMPLETE",
    "No se han especificado todos los bloques del reducer.")

/-- All messages, in their order. -/
def all : List Message :=
  (List.range (hdReducerIncomplete.ctorIdx + 1)).map ofNat

def key (m : Message) : String :=
  m.entry.1

def template (m : Message) : String :=
  m.entry.2

def ofKey? (key : String) : Option Message :=
  all.find? (·.key == key)

/-- Messages that warn only: what they are about does not spoil the generated class. -/
def isWarning (m : Message) : Bool :=
  m == .varForTyped || m == .labelUnknownIgnore

end Message

end PerlJava
