import StructuralTypes.Json.Display
import StructuralTypes.Term.Basic

/-!
Short descriptions of the terms that have one: literals, names, recursive functions, and fields of
these.
-/

namespace StructuralTypes

def Literal.display : Literal → String
  | .bool b => Json.display (.bool b)
  | .int n => Json.display (.int n)
  | .float x => Json.display (.float x)

def Term.summary {P : Type} : Term P → Option String
  | .literal _ value => some ("<lit:" ++ value.display ++ ">")
  | .ref _ name => some ("<ref:" ++ name ++ ">")
  | .field _ owner name => owner.summary.map fun s => "<" ++ s ++ "." ++ name ++ ">"
  | .letRec _ name params _ _ _ =>
      some ("<function " ++ name ++ "/" ++ toString params.length ++ ">")
  | _ => none

end StructuralTypes
