import StructuralTypes.Decimal.Layout
import StructuralTypes.Json.Basic
import StructuralTypes.Text.Quoted

/-!
JSON values as messages show them: `None`, `True` and `False` for the constants, quoted text, lists
in brackets and objects in braces, each element after a comma and a space.
-/

namespace StructuralTypes.Json

mutual

def display : Json → String
  | .null => "None"
  | .bool true => "True"
  | .bool false => "False"
  | .int n => toString n
  | .float x => Decimal.display.write x
  | .str s => Text.quoted s
  | .arr items => "[" ++ displayItems items ++ "]"
  | .obj members => "\x7b" ++ displayMembers members ++ "\x7d"

def displayItems : List Json → String
  | [] => ""
  | [v] => display v
  | v :: w :: rest => display v ++ ", " ++ displayItems (w :: rest)

def displayMembers : List (String × Json) → String
  | [] => ""
  | [(name, v)] => Text.quoted name ++ ": " ++ display v
  | (name, v) :: m :: rest =>
      Text.quoted name ++ ": " ++ display v ++ ", " ++ displayMembers (m :: rest)

end

/-- A value in running text: strings stand bare, all else is displayed. -/
def bare : Json → String
  | .str s => s
  | v => display v

end StructuralTypes.Json
