import StructuralTypes.Text.Quoted
import StructuralTypes.Ty.Render

/-!
Defects: types that a caller should never have handed over. They are not verdicts on a program, and
nothing recovers from them.
-/

namespace StructuralTypes

inductive Defect where
  /-- A variable stands where no binder is left for it. -/
  | escapedVariable (name : String)
  /-- A recursive type is compared without being unfolded. -/
  | recursiveLeaf (type : Ty)
  /-- Unfolding comes back to the same head. -/
  | nonContractive (type : Ty)
  /-- A type that is not recursive is unfolded. -/
  | notRecursive (type : Ty)
  /-- An object has two fields of one name. -/
  | repeatedField (fields : Row)
  /-- A comparison outlasts the bound that holds for closed types. -/
  | exhausted
  deriving Repr

def Row.listing (fields : Row) : String :=
  ", ".intercalate (fields.map fun f =>
    "Field(name=" ++ Text.quoted f.1 ++ ", type=" ++ f.2.render ++ ")")

def Defect.message : Defect → String
  | .escapedVariable name => "Type variable " ++ name ++ " escaped its binder"
  | .recursiveLeaf t => "Recursive type " ++ t.render ++ " reached a leaf comparison"
  | .nonContractive t => "Non-contractive recursive type: " ++ t.render
  | .notRecursive t => t.render
  | .repeatedField fields => "Duplicate field name in (" ++ fields.listing ++ ")"
  | .exhausted => "Comparison of open types does not come to an end"

def Ty.mkObject (fields : Row) : Except Defect Ty :=
  if fields.labels.Nodup then .ok (.object fields) else .error (.repeatedField fields)

theorem Ty.mkObject_of_nodup {fields : Row} (h : fields.labels.Nodup) :
    Ty.mkObject fields = .ok (.object fields) :=
  if_pos h

end StructuralTypes
