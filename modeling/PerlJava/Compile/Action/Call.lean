import PerlJava.Compile.Action.Declaration
import PerlJava.Compile.Builtin

/-!
# Actions for calls
-/

namespace PerlJava.Compile

open Java

variable [Interfaces] (f : NativeCall → Plain Fragment)

def parensCall : PlainAction := fun p =>
  return .code (← f ⟨← p.text 1, p.at_ 1, ← p.codes 3, p.at_ 4⟩)

def plainCall : PlainAction := fun p => do
  let c ← p.code 2
  return .code (← f ⟨← p.text 1, p.at_ 1, [c], c.position⟩)

def parensOnly (words : List Perl.Symbol) : Actions :=
  words.map fun word => rule .function_call [word, .LPAREN, .list, .RPAREN] (parensCall f)

def bothForms (words : List Perl.Symbol) : Actions :=
  parensOnly f words
    ++ words.map fun word => rule .function_call [word, .expression] (plainCall f)

/-- Printing to a file, which stands before the arguments; everything may be in parentheses. -/
def printToFile (words : List Perl.Symbol) : Actions :=
  words.map (fun word =>
      rule .function_call [word, .expression, .LPAREN, .list, .RPAREN] fun p =>
        return .code (← NativeCall.printTo ⟨← p.text 1, p.at_ 1, ← p.codes 4, p.at_ 5⟩
          (← p.code 2)))
    ++ words.map fun word =>
      rule .function_call [word, .LPAREN, .expression, .LPAREN, .list, .RPAREN, .RPAREN] fun p =>
        return .code (← NativeCall.printTo ⟨← p.text 1, p.at_ 1, ← p.codes 5, p.at_ 7⟩
          (← p.code 3))

/-- Native functions. -/
def nativeActions : Actions :=
  bothForms NativeCall.print [.PRINT, .SAY]
    ++ printToFile [.PRINT, .SAY]
    ++ parensOnly NativeCall.split [.SPLIT]
    ++ parensOnly NativeCall.join [.JOIN]
    ++ bothForms NativeCall.keysOrValues [.KEYS, .VALUES]
    ++ bothForms NativeCall.chop [.CHOMP, .CHOP]
    ++ bothForms NativeCall.defined [.DEFINED]
    ++ parensOnly NativeCall.open_ [.OPEN]
    ++ bothForms NativeCall.close [.CLOSE]
    ++ parensOnly NativeCall.sort [.SORT]
    ++ bothForms (NativeCall.onText · .string) [.LC, .LCFIRST, .UC, .UCFIRST]
    ++ bothForms (NativeCall.onText · .boolean) [.DIE]
    ++ bothForms NativeCall.delete [.DELETE]
    ++ bothForms NativeCall.exists_ [.EXISTS]
    ++ bothForms NativeCall.exit [.EXIT]
    ++ bothForms (NativeCall.onText · .integer) [.LENGTH, .SYSTEM]
    ++ parensOnly NativeCall.substr [.SUBSTR]
    ++ parensOnly NativeCall.splice [.SPLICE]
    ++ parensOnly NativeCall.push [.PUSH, .UNSHIFT]
    ++ bothForms NativeCall.pop [.POP, .SHIFT]
    ++ [rule .function_call [.LPAREN, .list, .RPAREN, .EQUALS, .EACH, .var_access] fun p =>
          return .code (← NativeCall.each (← p.codes 2) (← p.access 6)),
        ruleWith .opensLevel .sort_head [.SORT] fun p => do
          NativeCall.startSort (p.at_ 1)
          return .nothing,
        ruleWith .mayCloseLevel .function_call
            [.sort_head, .LBRACE, .expression, .RBRACE, .LPAREN, .list, .RPAREN] fun p =>
          return .code (← NativeCall.sortBy ⟨"None", p.at_ 1, ← p.codes 6, p.at_ 7⟩
            (← p.code 3)),
        ruleWith .mayCloseLevel .function_call
            [.sort_head, .LBRACE, .expression, .RBRACE, .expression] fun p => do
          let c ← p.code 5
          return .code (← NativeCall.sortBy ⟨"None", p.at_ 1, [c], c.position⟩ (← p.code 3))]

def callActions : Actions := [
  rule .function_call [.ID, .LPAREN, .RPAREN] fun p =>
    return .code (← callFunction (← p.text 1) (p.at_ 3) [] none),
  rule .function_call [.ID, .LPAREN, .list, .RPAREN] fun p =>
    return .code (← callFunction (← p.text 1) (p.at_ 4) (← p.codes 3) none),
  rule .function_call [.ID, .expression] fun p => do
    let c ← p.code 2
    return .code (← callFunction (← p.text 1) c.position [c] none),
  rule .function_call [.ID] fun p =>
    return .code (← callFunction (← p.text 1) (p.at_ 1) [] none),
  rule .function_call [.package, .ID, .LPAREN, .RPAREN] fun p =>
    return .code (← callFunction (← p.text 2) (p.at_ 4) [] (some (← p.package 1))),
  rule .function_call [.package, .ID, .LPAREN, .list, .RPAREN] fun p =>
    return .code (← callFunction (← p.text 2) (p.at_ 5) (← p.codes 4) (some (← p.package 1))),
  rule .function_call [.package, .ID, .expression] fun p => do
    let c ← p.code 3
    return .code (← callFunction (← p.text 2) c.position [c] (some (← p.package 1))),
  rule .function_call [.package, .ID] fun p =>
    return .code (← callFunction (← p.text 2) (p.at_ 2) [] (some (← p.package 1))),
  rule .package [.ID, .TWO_COLON] fun p =>
    return .package (← accessPackage (← p.text 1) (p.at_ 1))]

end PerlJava.Compile
