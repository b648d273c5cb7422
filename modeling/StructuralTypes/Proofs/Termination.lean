import StructuralTypes.Proofs.Engines

/-!
Both comparisons of closed types come to an end with a verdict. Nothing is asked of the assumptions
at the start, and nothing of the binders: they may shadow one another, and unfolding them may never
uncover a head. The verdict is the one that any greater depth gives, so the bound on the depth shows
nowhere, and as it is a verdict, no defect has come up on the way.
-/

namespace StructuralTypes

open Ty

namespace Comparison

variable {C : Comparison} {a b : Ty}

/-- The verdict of a comparison without a bound. -/
theorem exists_verdict_beyond (ha : a.Proper) (hb : b.Proper) (seen : Assumptions) :
    ∃ r, compareUnder C.heads seen a b = .ok r ∧
      ∀ bound, depthBound a b ≤ bound → compareTo C.heads bound seen a b = .ok r := by
  obtain ⟨r, hr⟩ := C.exists_verdict ha hb seen
  exact ⟨r, hr, fun bound hbound => C.run_mono ha hb hbound hr⟩

end Comparison

/-- Comparing closed types comes to a verdict under all assumptions, and it is the verdict to every
greater depth: the bound on the depth is never what decides. -/
theorem equalsUnder_subtypeUnder_total {a b : Ty} (ha : a.Closed) (hb : b.Closed)
    (hda : a.DistinctFields) (hdb : b.DistinctFields) (seen : Assumptions) :
    (∃ r, equalsUnder seen a b = .ok r ∧
      ∀ bound, depthBound a b ≤ bound → compareTo equalHeads bound seen a b = .ok r) ∧
    (∃ r, subtypeUnder seen a b = .ok r ∧
      ∀ bound, depthBound a b ≤ bound → compareTo subsumesHeads bound seen a b = .ok r) := by
  have hpa : a.Proper := ⟨ha, hda⟩
  have hpb : b.Proper := ⟨hb, hdb⟩
  exact ⟨equality.exists_verdict_beyond hpa hpb seen, subtyping.exists_verdict_beyond hpa hpb seen⟩

/-- A function on itself under a shadowed binder against a type without a head, with an assumption
about an open type. -/
theorem equalsUnder_subtypeUnder_total_headless :
    let a := mu "X" (mu "X" (func [("f", var "X")] (object [("m", var "X"), ("n", number)])))
    let b := mu "Y" (mu "Z" (var "Y"))
    a.Closed ∧ b.Closed ∧ a.DistinctFields ∧ b.DistinctFields ∧
      (∃ r, equalsUnder [(var "W", b)] a b = .ok r ∧
        ∀ bound, depthBound a b ≤ bound → compareTo equalHeads bound [(var "W", b)] a b = .ok r) ∧
      (∃ r, subtypeUnder [(var "W", b)] a b = .ok r ∧
        ∀ bound, depthBound a b ≤ bound →
          compareTo subsumesHeads bound [(var "W", b)] a b = .ok r) := by
  intro a b
  have ha : a.Closed := by decide
  have hb : b.Closed := by decide
  have hda : a.DistinctFields := by decide
  have hdb : b.DistinctFields := by decide
  exact ⟨ha, hb, hda, hdb, equalsUnder_subtypeUnder_total ha hb hda hdb _⟩

end StructuralTypes
