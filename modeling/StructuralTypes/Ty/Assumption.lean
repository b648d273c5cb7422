import StructuralTypes.Ty.Defect
import StructuralTypes.Ty.Shape

/-!
Comparison of recursive types rests on assumptions: the pairs under comparison on the way down from
the root. A pair that comes back in the same shape holds if nothing contradicts it elsewhere, so its
branch is closed. Each branch sees the assumptions of its own path only.
-/

namespace StructuralTypes

abbrev Assumptions := List (Ty × Ty)

/-- Whether a pair of the same shape is among the assumptions. -/
def Assumptions.cover (seen : Assumptions) (a b : Ty) : Bool :=
  seen.any fun p => p.1.sameShape [] a && p.2.sameShape [] b

end StructuralTypes
