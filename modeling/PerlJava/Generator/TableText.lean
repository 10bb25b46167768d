import PerlJava.Generator.Folder
import PerlJava.Text.Slice

/-!
# Tables as text

The table of a parser is written as a module. Actions and targets are grouped by symbol: for each
symbol the states in which it has an entry, and the entries.
-/

namespace PerlJava.Generator

namespace TableText

/-- An action as a number: a shift is positive, a reduction negative, and zero accepts. -/
def action : Option LR.Action → String
  | some (.shift state) => toString state
  | some (.reduce production) => if production = 0 then "0" else "-" ++ toString production
  | some .accept => "0"
  | none => "None"

def bySymbol {α : Type} (rows : List (List (String × α))) : OrderedMap String (List (Nat × α)) :=
  rows.zipIdx.foldl (fun m (row, state) =>
    row.foldl (fun m (name, a) => m.insert name ((m.get? name).getD [] ++ [(state, a)])) m) {}

def items (entries : OrderedMap String (List (Nat × String))) : String :=
  "\x7b" ++ String.join (entries.entries.map fun (name, found) =>
    Text.quoted name ++ ":([" ++ String.join (found.map fun (state, _) => toString state ++ ",")
      ++ "],[" ++ String.join (found.map fun (_, entry) => entry ++ ",") ++ "]),") ++ "\x7d"

def production (p : TableProduction) : String :=
  let head := "  (" ++ Text.quoted p.text ++ "," ++ Text.quoted p.name ++ "," ++ toString p.length
  match p.function with
  | some (name, place) =>
    head ++ "," ++ Text.quoted name ++ "," ++ Text.quoted place.file ++ ","
      ++ toString place.line ++ "),\n"
  | none => head ++ ",None,None,None),\n"

def unpacking (name blank : String) : String :=
  name ++ " = \x7b\x7d\nfor _k, _v in " ++ name ++ "_items.items():\n   for _x," ++ blank
    ++ "_y in zip(_v[0]," ++ blank ++ "_v[1]):\n"

/-- The text of a table in a file. The signature is left out. -/
def ofTable (file : String) (t : ParserTable) : String :=
  let actions := bySymbol (t.actions.toList.map fun row =>
    row.map fun (name, a) => (name, action a))
  let gotos := bySymbol (t.gotos.toList.map fun row =>
    row.map fun (name, state) => (name, toString state))
  "\n# " ++ file ++ "\n# This file is automatically generated. Do not edit.\n"
    ++ "_tabversion = " ++ Text.quoted t.version ++ "\n\n"
    ++ "_lr_method = " ++ Text.quoted t.method ++ "\n\n"
    ++ "_lr_signature = ''\n    \n"
    ++ "_lr_action_items = " ++ items actions ++ "\n\n"
    ++ unpacking "_lr_action" ""
    ++ "      if not _x in _lr_action:  _lr_action[_x] = \x7b\x7d\n"
    ++ "      _lr_action[_x][_k] = _y\ndel _lr_action_items\n\n"
    ++ "_lr_goto_items = " ++ items gotos ++ "\n\n"
    ++ unpacking "_lr_goto" " "
    ++ "       if not _x in _lr_goto: _lr_goto[_x] = \x7b\x7d\n"
    ++ "       _lr_goto[_x][_k] = _y\ndel _lr_goto_items\n"
    ++ "_lr_productions = [\n" ++ String.join (t.productions.map production) ++ "]\n"

end TableText

end PerlJava.Generator
