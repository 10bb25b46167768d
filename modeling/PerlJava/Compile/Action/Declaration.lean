import PerlJava.Compile.MapReduce
import PerlJava.Compile.Value

/-!
# Actions for files, functions, types and labels
-/

namespace PerlJava.Compile

open Java

variable [Interfaces]

def passOn (i : Nat) : PlainAction := fun p => return p.value i

def makeNothing : PlainAction := fun _ => return .nothing

/-- A kind of collection in front of the dimensions so far; some need an import. -/
def dimension (name : TypeName) (need : Option String) (before : Args → Except Fault (List Dim))
    (size : Nat) : PlainAction := fun p => do
  if let some need := need then addImport need
  return .dims ((← before p) ++ [.sized name (p.text? size)])

def fileActions : Actions := [
  ruleWith .writes .file [.code] fun _ => return .text (← finishFile),
  ruleWith .writes .code [.statements, .function] fun p => do
    let statements ← checkLoopMarks (← p.code 1)
    prependCode statements.value (← p.text 2)
    return .nothing,
  rule .function [] fun _ => return .text "",
  rule .function [.function_body, .code] (passOn 1),
  ruleWith .opensLevel .function_header [.args_opt, .returns_opt, .SUB, .ID] fun p => do
    functionHead (p.types 1) (p.types 2) (← p.text 4) (p.at_ 4)
    return p.value 4,
  ruleWith .closesLevel .function_body [.function_header, .LBRACE, .statements, .RBRACE] fun p =>
    return .text (← functionText (← p.text 1) (← p.code 3)),
  rule .args_opt [] makeNothing,
  rule .args_opt [.ARGS, .function_types] (passOn 2),
  rule .returns_opt [] makeNothing,
  rule .returns_opt [.RETURNS, .function_types] (passOn 2),
  rule .function_types [] fun _ => return .types [],
  rule .function_types [.function_types, .TYPE] fun p =>
    return .types (p.types 1 ++ [.scalar (← p.type 2)]),
  rule .function_types [.function_types, .REF, .dimension, .TYPE] fun p =>
    return .types (p.types 1 ++
      [.dims (.sized .ref none :: (← p.dims 3) ++ [.plain (← p.type 4)])])]

def setLineType (shape : Shape) : M Value := do
  modify fun s => { s with lineType := some shape }
  return .nothing

def setLineSizes (labels : List Label) : M Value := do
  modify fun s => { s with lineSizes := some labels }
  return .nothing

instance (shape : Shape) : Enacts .setsLabels (setLineType shape) :=
  .of_total fun _ _ _ => ⟨.nothing, _, rfl, rfl, rfl, rfl, rfl, fun _ => rfl, id⟩

instance (labels : List Label) : Enacts .setsLabels (setLineSizes labels) :=
  .of_total fun _ _ _ => ⟨.nothing, _, rfl, rfl, rfl, rfl, rfl, fun _ => rfl, id⟩

def labelActions : Actions := [
  rule .statement_type [.declare, .TYPE] fun p =>
    return .code (← declareTypes (← p.labels 1) (.scalar (← p.type 2)) (p.at_ 2)),
  rule .statement_type [.declare, .dimension, .TYPE] fun p =>
    return .code (← declareTypes (← p.labels 1) (.dims ((← p.dims 2) ++ [.plain (← p.type 3)]))
      (p.at_ 3)),
  rule .statement_type [.declare, .REF, .dimension, .TYPE] fun p =>
    return .code (← declareTypes (← p.labels 1)
      (.dims (.sized .ref none :: (← p.dims 3) ++ [.plain (← p.type 4)])) (p.at_ 4)),
  rule .labels_line [] makeNothing,
  ruleWith .setsLabels .labels_line [.TYPE] fun p => do setLineType (.scalar (← p.type 1)),
  ruleWith .setsLabels .labels_line [.dimension, .TYPE] fun p => do
    setLineType (.dims ((← p.dims 1) ++ [.plain (← p.type 2)])),
  ruleWith .setsLabels .labels_line [.REF, .dimension, .TYPE] fun p => do
    setLineType (.dims (.sized .ref none :: (← p.dims 2) ++ [.plain (← p.type 3)])),
  ruleWith .setsLabels .labels_line [.declare] fun p => do setLineSizes (← p.labels 1),
  rule .dimension [.L_HASH, .size_opt] (dimension .hash (some "Map") (fun _ => .ok []) 2),
  rule .dimension [.L_ARRAY, .size_opt] (dimension .array none (fun _ => .ok []) 2),
  rule .dimension [.L_LIST, .size_opt] (dimension .list (some "List") (fun _ => .ok []) 2),
  rule .dimension [.dimension, .L_HASH, .size_opt] (dimension .hash (some "Map") (·.dims 1) 3),
  rule .dimension [.dimension, .L_ARRAY, .size_opt] (dimension .array none (·.dims 1) 3),
  rule .dimension [.dimension, .L_LIST, .size_opt] (dimension .list (some "List") (·.dims 1) 3),
  rule .size_opt [] makeNothing,
  rule .size_opt [.SIZE] (passOn 1),
  rule .declare [.VAR] fun p => return .labels [⟨← p.text 1, p.at_ 1, true⟩],
  rule .declare [.SIZE] fun p => return .labels [⟨← p.text 1, p.at_ 1, false⟩],
  rule .declare [.declare, .VAR] fun p =>
    return .labels ((← p.labels 1) ++ [⟨← p.text 2, p.at_ 2, true⟩]),
  rule .declare [.declare, .SIZE] fun p =>
    return .labels ((← p.labels 1) ++ [⟨← p.text 2, p.at_ 2, false⟩])]

/-- Mappers and reducers. -/
def jobActions : Actions := [
  rule .mapper_init [.MAPPER_CODE] fun p => do
    startMapper none (p.at_ 1)
    return .nothing,
  rule .mapper_init [.MAPPER_CODE, .TYPE, .TYPE, .TYPE] fun p => do
    startMapper (some [← p.type 2, ← p.type 3, ← p.type 4]) (p.at_ 1)
    return .nothing,
  rule .reducer_init [.REDUCER_CODE] makeNothing,
  rule .reducer_init [.REDUCER_CODE, .TYPE, .TYPE, .TYPE, .TYPE] fun p => do
    let types := [← p.type 2, ← p.type 3, ← p.type 4, ← p.type 5]
    changeJob fun job => { job with types }
    return .nothing,
  ruleWith .endsJob .statement_type [.mapper_init, .LBRACE, .block_header, .statements,
      .RBRACE] fun p =>
    return .code (← finishMapper (← p.code 4)),
  ruleTidying .loop_head [.MAPPER_LOOP, .WHILE, .LPAREN, .var_access, .EQUALS, .STDIN, .RPAREN] fun p =>
    return .code (← mapperLoopHead (← p.access 4) (p.at_ 1)),
  ruleWith .closesLevel .block [.loop_head, .LBRACE, .statements, .RBRACE] fun p =>
    return .code (← mapperLoop (← p.code 1) (← p.code 3) (p.at_ 2)),
  rule .function_call [.HADOOP_PRINT, .PRINT, .LPAREN, .list, .RPAREN] fun p =>
    return .code (← writePair (← p.codes 4) (p.at_ 2)),
  ruleWith .closesLevel .block [.REDUCER_OP, .block_header, .LBRACE, .statements, .RBRACE]
    fun p =>
    return .code (← reducerOperation (← p.code 4)),
  ruleWith .closesLevel .block [.REDUCER_CHANGE, .LBRACE, .block_header, .statements, .RBRACE]
    fun p =>
    return .code (← reducerChange (← p.code 4)),
  ruleWith .dropsLabels .statement_type [.labels_line, .list, .post_block, .SEMI, .REDUCER_KEY,
      .line_comment] fun p =>
    return .code (← reducerKey (← p.codes 2) (p.code? 3) (p.code? 6) (p.at_ 4) (p.at_ 5)),
  ruleWith .dropsLabels .statement_type [.labels_line, .list, .post_block, .SEMI,
      .REDUCER_VALUE, .line_comment] fun p =>
    return .code (← reducerValue (← p.codes 2) (p.code? 3) (p.code? 6) (p.at_ 4) (p.at_ 5)),
  ruleWith .endsJob .block [.reducer_init, .LBRACE, .block_header, .REDUCER_VAR,
      .statements, .REDUCER_VAR, .statements, .RBRACE] fun p =>
    return .code (← finishReducer (← p.code 5) (p.at_ 1) (p.at_ 4))]

end PerlJava.Compile
