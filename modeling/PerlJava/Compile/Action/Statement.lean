import PerlJava.Compile.Action.Declaration
import PerlJava.Compile.Block

/-!
# Actions for statements and blocks
-/

namespace PerlJava.Compile

open Java

variable [Interfaces]

def plainStatement (p : Args) : M Value :=
  return .code (← finishStatement (← p.codes 2) (p.code? 3) (p.code? 5) (p.at_ 4))

instance (p : Args) : Enacts .dropsLabels (plainStatement p) := by
  unfold plainStatement; infer_instance

def statementActions : Actions := [
  rule .statements [] fun _ => return .code {},
  rule .statements [.statements, .statement_type] fun p =>
    return .code (← appendStatement (← p.code 1) (p.code? 2)),
  ruleWith .dropsLabels .statement_type [.labels_line, .list, .post_block, .SEMI, .line_comment]
    plainStatement,
  ruleWith .dropsLabels .statement_type [.labels_line, .multi_equals, .post_block, .SEMI,
      .line_comment] plainStatement,
  rule .statement_type [.special_statement, .SEMI] fun p => do
    let c ← p.code 1
    return .code { c with position := p.at_ 2, value := c.value ++ ";\n" },
  rule .statement_type [.block_header, .block] (passOn 2),
  ruleWith .closesLevel .statement_type [.LBRACE, .block_header, .statements, .RBRACE] fun p =>
    return .code (← plainBlock (← p.code 3) (p.at_ 4)),
  rule .statement_type [.COMMENT] fun p =>
    return .code { value := "/*" ++ (← p.text 1) ++ "*/\n" },
  rule .statement_type [.SEMI, .line_comment] (passOn 2),
  rule .statement_type [.PACKAGE, .ID, .SEMI] fun p => do
    declarePackage (← p.text 2) (p.at_ 2)
    return .code {},
  rule .statement_type [.JAVA_LINE] fun p => return .code { value := ← p.text 1 },
  rule .statement_type [.JAVA_IMPORT] fun p => do
    let text ← p.text 1
    update fun s => { s with packageCode := s.packageCode ++ text }
    return .code {},
  rule .statement_type [.error, .SEMI] fun _ => return .code {},
  rule .special_statement [.LAST] fun _ => return .code { value := "break", flags := [.last] },
  rule .special_statement [.NEXT] fun _ => return .code { value := "continue", flags := [.next] },
  rule .special_statement [.RETURN, .LPAREN, .list, .RPAREN] fun p =>
    return .code (← returnStatement (← p.codes 3) (p.at_ 4)),
  rule .special_statement [.RETURN, .list] fun p => do
    let exps ← p.codes 2
    let some last := exps.getLast? | fail .outOfRange
    return .code (← returnStatement exps last.position),
  rule .special_statement [.RETURN] fun p =>
    return .code (← returnStatement [] (p.at_ 1)),
  rule .line_comment [] makeNothing,
  rule .line_comment [.COMMENT_LINE] fun p =>
    return .code { value := "//" ++ (← p.text 1), position := p.at_ 1 }]

/-- What is made of a head and the code of a block. -/
abbrev withBody (f : Fragment → Fragment → Position → M Fragment) (head body close : Nat) (p : Args) :
    M Value :=
  return .code (← f (← p.code head) (← p.code body) (p.at_ close))

/-- Blocks and loops. -/
def blockActions : Actions := [
  ruleWith .togglesInit .change_init [] fun _ => do
    toggleInit
    return .nothing,
  ruleWith .opensLevel .block_header [] fun _ => do
    pushLevel
    return .nothing,
  rule .block [.if_block, .elif] fun p =>
    return .code (← conditionalBlock (← p.code 1) (p.code? 2)),
  ruleWith .closesLevel .block [.WHILE, .change_init, .LPAREN, .expression, .RPAREN,
      .change_init, .LBRACE, .statements, .RBRACE]
    (withBody whileLoop 4 8 9),
  ruleWith .closesLevel .block [.UNTIL, .change_init, .LPAREN, .expression, .RPAREN,
      .change_init, .LBRACE, .statements, .RBRACE]
    (withBody untilLoop 4 8 9),
  ruleWith .closesLevel .block [.DO, .LBRACE, .statements, .RBRACE, .WHILE, .change_init,
      .LPAREN, .expression, .RPAREN, .change_init, .SEMI]
    (withBody doWhileLoop 8 3 11),
  ruleWith .closesLevel .block [.DO, .LBRACE, .statements, .RBRACE, .UNTIL, .change_init,
      .LPAREN, .expression, .RPAREN, .change_init, .SEMI]
    (withBody doUntilLoop 8 3 11),
  ruleWith .closesLevel .block [.FOR, .LPAREN, .opt_list, .change_init, .SEMI, .opt_list, .SEMI,
      .opt_list, .RPAREN, .change_init, .LBRACE, .statements, .RBRACE]
    fun p => return .code (← forLoop (← p.codes 3) (← p.codes 6) (← p.codes 8) (← p.code 12)
      (p.at_ 13)),
  ruleWith .closesLevel .block [.for_each, .LBRACE, .statements, .RBRACE] (withBody foreachLoop 1 3 4),
  ruleWith .entersForeach .for_type [] fun _ => do
    startLoopVariable
    return .nothing,
  ruleWith .leavesForeach .for_variable [.variable_]
    fun p => return .code (← finishLoopVariable (← p.code 1)),
  rule .opt_list [] fun _ => return .codes [],
  rule .opt_list [.list] (passOn 1),
  ruleWith .retypes .for_each [.FOR, .for_type, .for_variable, .LPAREN, .expression, .RPAREN] fun p =>
    return .code (← foreachHead (← p.code 3) (← p.code 5)),
  rule .for_each [.FOR, .LPAREN, .expression, .RPAREN] fun p =>
    return .code (← repeatHead (← p.code 3)),
  ruleWith .closesLevel .if_block [.IF, .LPAREN, .expression, .RPAREN, .LBRACE, .statements,
      .RBRACE] (withBody ifBranch 3 6 7),
  ruleWith .closesLevel .if_block [.UNLESS, .LPAREN, .expression, .RPAREN, .LBRACE, .statements,
      .RBRACE] (withBody unlessBranch 3 6 7),
  rule .elif [] makeNothing,
  rule .elif [.block_header, .elif_block, .elif] fun p =>
    return .code (joinBranches (← p.code 2) (p.code? 3)),
  ruleWith .closesLevel .elif [.block_header, .ELSE, .LBRACE, .statements, .RBRACE] fun p =>
    return .code (← elseBranch (← p.code 4) (p.at_ 5)),
  ruleWith .closesLevel .elif_block [.ELSIF, .change_init, .LPAREN, .expression, .RPAREN,
      .change_init, .LBRACE, .statements, .RBRACE]
    (withBody elsifBranch 4 8 9),
  rule .post_block [] makeNothing,
  rule .post_block [.IF, .expression] fun p =>
    return .code (← postfixControl "if(" ")\x7b" (← p.code 2)),
  rule .post_block [.UNLESS, .expression] fun p =>
    return .code (← postfixControl "if(!(" "))\x7b" (← p.code 2)),
  rule .post_block [.WHILE, .expression] fun p =>
    return .code (← postfixControl "while(" ")\x7b" (← p.code 2)),
  rule .post_block [.UNTIL, .expression] fun p =>
    return .code (← postfixControl "while(!(" "))\x7b" (← p.code 2)),
  rule .post_block [.FOR, .expression] fun p => return .code (← repeatHead (← p.code 2))]

end PerlJava.Compile
