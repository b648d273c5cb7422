import StructuralTypes.Ty.Comparison

/-!
Subtyping: a value of one type may stand in for another. Functions are contravariant in their
parameters and covariant in their results, objects may have more fields than are asked for, and a
primitive type is related only to itself. Recursive types are unfolded as in equality.
-/

namespace StructuralTypes.Ty

/-- Compares the nodes at the heads of a type and a wider one and, by `compare`, what lies below
them. At parameters the two sides change places. -/
def subsumesHeads (compare : Ty → Ty → Except Defect Bool) : Ty → Ty → Except Defect Bool
  | var x, _ => .error (.escapedVariable x)
  | boolean, boolean => .ok true
  | number, number => .ok true
  | func give result, func need result' =>
      if give.length = need.length then do
        let ok ← (need.zip give).allM fun (n, g) => compare n.2 g.2
        if ok then compare result result' else return false
      else .ok false
  | object offered, object need =>
      need.allM fun (name, u) =>
        match offered.lookup name with
        | some t => compare t u
        | none => .ok false
  | _, mu x body => .error (.recursiveLeaf (mu x body))
  | _, var x => .error (.escapedVariable x)
  | _, _ => .ok false

def subtypeUnder (seen : Assumptions) (a b : Ty) : Except Defect Bool :=
  compareUnder subsumesHeads seen a b

/-- Whether a value of the first type may be used where the second is expected. -/
def isSubtype (a b : Ty) : Except Defect Bool := subtypeUnder [] a b

end StructuralTypes.Ty
