import PerlJava.LR.Grammar
import PerlJava.Text.Lines
import PerlJava.Text.Words

/-!
# Rules as text

A rule is written `name : symbols`, and each line that starts with a bar gives one more production
of the name above.
-/

namespace PerlJava.LR

/-- A production as it was written. -/
structure WrittenRule where
  place : Place
  name : String
  symbols : List String
deriving Repr, DecidableEq, Inhabited

def WrittenRule.bareSymbols (rule : WrittenRule) : List String :=
  if rule.symbols.contains "%prec" then rule.symbols.dropLast.dropLast else rule.symbols

/-- Reads lines of rules; `line` is the number of the line before, `last` the name that bars belong
to. -/
def readRuleLines (file : String) : (line : Nat) → (last : Option String) → List String →
    Except Fault (List WrittenRule)
  | _, _, [] => .ok []
  | line, last, text :: rest => do
    let place : Place := ⟨file, line + 1⟩
    match Text.words text with
    | [] => readRuleLines file (line + 1) last rest
    | "|" :: symbols =>
      match last with
      | none => throw (.malformed (some (place.text ++ ": Misplaced '|'")))
      | some name =>
        return ⟨place, name, symbols⟩ :: (← readRuleLines file (line + 1) last rest)
    | [_] =>
      throw (.malformed (some (place.text ++ ": Syntax error in rule "
        ++ Text.quoted (Text.strip text))))
    | name :: assign :: symbols =>
      unless assign == ":" || assign == "::=" do
        throw (.malformed (some (place.text ++ ": Syntax error. Expected ':'")))
      return ⟨place, name, symbols⟩ :: (← readRuleLines file (line + 1) (some name) rest)

def readRules (text file : String) (line : Nat) : Except Fault (List WrittenRule) :=
  readRuleLines file line none (Text.bareLines text)

def Grammar.addRules (g : Grammar) (function : Option String) (rules : List WrittenRule) :
    Except Fault Grammar :=
  rules.foldlM (fun g rule => g.addProduction rule.name rule.symbols function rule.place) g

end PerlJava.LR
