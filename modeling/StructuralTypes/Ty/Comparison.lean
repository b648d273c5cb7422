import StructuralTypes.Ty.Assumption
import StructuralTypes.Ty.Unfolding

/-!
The walk that equality and subtyping share. Binders are unfolded as they are met, the left one
first, and every unfolded pair becomes an assumption; where no binder is left in front, the heads
are compared. The two relations differ in that last step only, which is a parameter here.
-/

namespace StructuralTypes.Ty

/-- A comparison of two heads, given how to compare what lies below them. -/
abbrev HeadComparison := (Ty → Ty → Except Defect Bool) → Ty → Ty → Except Defect Bool

/-- A bound on the depth of a comparison of closed types. With `n` nodes on both sides together at
most `n` types are ever met, so at most `n ^ 2` pairs are unfolded on a path, and at most `n` steps
go down between two unfoldings. -/
def depthBound (a b : Ty) : Nat :=
  let n := a.size + b.size + 1
  n * n * n

def compareTo (heads : HeadComparison) : (bound : Nat) → Assumptions → Ty → Ty → Except Defect Bool
  | 0, _, _, _ => .error .exhausted
  | bound + 1, seen, a, b =>
      if seen.cover a b then .ok true
      else
        match a, b with
        | mu x body, b => compareTo heads bound ((mu x body, b) :: seen) (unroll x body) b
        | a, mu y body => compareTo heads bound ((a, mu y body) :: seen) a (unroll y body)
        | a, b => heads (compareTo heads bound seen) a b

def compareUnder (heads : HeadComparison) (seen : Assumptions) (a b : Ty) : Except Defect Bool :=
  compareTo heads (depthBound a b) seen a b

end StructuralTypes.Ty
