import StructuralTypes.Ty.Comparison

/-!
Equality of types: two types are equal if their infinite unfoldings are the same tree. Binders are
unfolded as they are met, the left one first, and the assumptions close the cycles.
-/

namespace StructuralTypes.Ty

/-- Compares the nodes at the heads of two types and, by `compare`, what lies below them. The names
of parameters and the order of fields do not count. -/
def equalHeads (compare : Ty → Ty → Except Defect Bool) : Ty → Ty → Except Defect Bool
  | var x, _ => .error (.escapedVariable x)
  | boolean, boolean => .ok true
  | number, number => .ok true
  | func params result, func params' result' =>
      if params.length = params'.length then do
        let ok ← (params.zip params').allM fun (p, q) => compare p.2 q.2
        if ok then compare result result' else return false
      else .ok false
  | object fields, object fields' =>
      if fields.length = fields'.length then
        fields'.allM fun (name, u) =>
          match fields.lookup name with
          | some t => compare t u
          | none => .ok false
      else .ok false
  | _, mu x body => .error (.recursiveLeaf (mu x body))
  | _, var x => .error (.escapedVariable x)
  | _, _ => .ok false

def equalsUnder (seen : Assumptions) (a b : Ty) : Except Defect Bool :=
  compareUnder equalHeads seen a b

/-- Whether two types denote the same tree. -/
def equals (a b : Ty) : Except Defect Bool := equalsUnder [] a b

end StructuralTypes.Ty
