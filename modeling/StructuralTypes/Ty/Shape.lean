import StructuralTypes.Ty.Basic

/-!
Shapes. Two types have the same shape if they agree node by node up to the names of binders, the
names of parameters and the order of fields. The test is finite: it unfolds nothing, and answers
only whether a comparison has been here before.
-/

namespace StructuralTypes.Ty

/-- The partner of each binder on the left, innermost binder first. -/
abbrev Renaming := List (String × String)

mutual

/-- Whether two types have the same shape when `names` gives the partners of the variables on the
left. A variable without a partner matches nothing. -/
def sameShape (names : Renaming) : Ty → Ty → Bool
  | boolean, boolean => true
  | number, number => true
  | func params result, func params' result' =>
      sameParams names params params' && sameShape names result result'
  | object fields, object fields' =>
      fields.length == fields'.length && sameFields names fields fields'
  | mu x body, mu y body' => sameShape ((x, y) :: names) body body'
  | var x, var y => names.lookup x == some y
  | _, _ => false

/-- Parameters correspond by position. -/
def sameParams (names : Renaming) : Row → Row → Bool
  | [], [] => true
  | (_, t) :: row, (_, u) :: row' => sameShape names t u && sameParams names row row'
  | _, _ => false

/-- Fields correspond by name. -/
def sameFields (names : Renaming) : Row → Row → Bool
  | [], _ => true
  | (name, t) :: row, fields =>
      (match fields.lookup name with
        | some u => sameShape names t u
        | none => false) && sameFields names row fields

end

end StructuralTypes.Ty
