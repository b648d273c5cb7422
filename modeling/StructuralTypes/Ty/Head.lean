import StructuralTypes.Ty.Shape
import StructuralTypes.Ty.Unfolding

/-!
The head of a type: what is left when the binders in front have been unfolded. A type such as
`mu X. X` has none; unfolding it returns to a head of the same shape.
-/

namespace StructuralTypes.Ty

/-- Unfolds until the head is no binder, at most `bound` times. `first` is the type at the start,
and `heads` are the types met since, latest first. -/
def headFrom (first : Ty) : (bound : Nat) → (heads : List Ty) → Ty → Except Defect Ty
  | bound, heads, mu x body =>
      if heads.any fun h => sameShape [] h (mu x body) then .error (.nonContractive first)
      else
        match bound with
        | 0 => .error .exhausted
        | bound + 1 => headFrom first bound (mu x body :: heads) (unroll x body)
  | _, _, t => .ok t

/-- The head of a type. The binders a type begins with bound the unfoldings: after as many, either
the head has come out or an earlier one has come back. -/
def head (t : Ty) : Except Defect Ty := headFrom t t.binders [] t

end StructuralTypes.Ty
