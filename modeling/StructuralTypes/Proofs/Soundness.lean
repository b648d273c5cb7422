import StructuralTypes.Proofs.Coherence
import StructuralTypes.Proofs.Engines
import StructuralTypes.Proofs.Variants
import StructuralTypes.Proofs.Walk

/-!
When an answer of yes is right. Subtyping is right about contractive types that are named coherently
with one another, equality about contractive types that are named coherently each for itself.

Without coherent names equality may be wrong, since a match of shapes may then mistake one type for
another. The answer is right just when it is right about the pairs that are recognised on the way,
and it is right if every match on the way also holds from right to left.
-/

namespace StructuralTypes

open Ty

namespace Comparison

variable {C : Comparison} {a b : Ty} {G G' : Assignment}

/-- Where both sides stay well named, no match of shapes is mistaken. -/
theorem truthful_of_stable (hR : Stable C fun a b => WellNamed G a ∧ WellNamed G' b)
    (ha : WellNamed G a) (hb : WellNamed G' b) : Truthful C ⟨[], a, b⟩ := by
  intro place hv p hp hleft hright
  obtain ⟨⟨hl, hr⟩, hseen⟩ := hR.visits hv ⟨⟨ha, hb⟩, List.forall_mem_nil _⟩
  obtain ⟨hpl, hpr⟩ := hseen p hp
  exact ⟨hpl.tree_eq_of_sameShape hl hleft, hpr.tree_eq_of_sameShape hr hright⟩

/-- No match of shapes is mistaken that also holds the other way round. -/
theorem Reversible.truthful (ha : a.Proper) (hb : b.Proper) (h : Reversible C ⟨[], a, b⟩) :
    Truthful C ⟨[], a, b⟩ := by
  intro place hv p hp hleft hright
  have hR : Stable C fun a b => a.Proper ∧ b.Proper :=
    stable_of_step fun _ _ hstep => hstep.proper
  obtain ⟨⟨hl, hr⟩, hseen⟩ := hR.visits hv ⟨⟨ha, hb⟩, List.forall_mem_nil _⟩
  obtain ⟨hpl, hpr⟩ := hseen p hp
  obtain ⟨hleft', hright'⟩ := h place hv p hp hleft hright
  exact ⟨(Renamed.of_sameShape hpl.distinct hl.distinct hleft hleft').tree_eq hpl,
    (Renamed.of_sameShape hpr.distinct hr.distinct hright hright').tree_eq hpr⟩

end Comparison

/-! ### Subtyping -/

/-- One assignment makes the names of both types coherent. -/
def JointlyCoherent (a b : Ty) : Prop := ∃ G, Coherent G a ∧ Coherent G b

theorem below_of_isSubtype {sub sup : Ty} (hsub : sub.Guarded) (hsup : sup.Guarded)
    (hcoherent : JointlyCoherent sub sup) (h : isSubtype sub sup = .ok true) :
    sub.tree.Below sup.tree := by
  obtain ⟨G, hG, hG'⟩ := hcoherent
  -- Parameters change sides, so one assignment has to serve both.
  have hR : subtyping.Stable fun a b => WellNamed G a ∧ WellNamed G b :=
    Comparison.stable_of_step fun _ _ hstep => hstep.wellNamed
  have htruth := Comparison.truthful_of_stable hR ⟨hsub, hG⟩ ⟨hsup, hG'⟩
  exact Tree.below_iff_forall_belowTo.mpr (subtyping.holds_of_truthful hsub hsup h htruth)

/-- A type found to be a subtype has a tree below that of the other, provided that one assignment
makes the names of both coherent. There is such an assignment if all binders have names of their
own. -/
theorem isSubtype_sound_of_coherent {sub sup : Ty} (hsub : sub.Closed) (hsup : sup.Closed)
    (hcsub : sub.Contractive) (hcsup : sup.Contractive) (hdsub : sub.DistinctFields)
    (hdsup : sup.DistinctFields) :
    (JointlyCoherent sub sup → isSubtype sub sup = .ok true → sub.tree.Below sup.tree) ∧
      ((sub.binderNames ++ sup.binderNames).Nodup → JointlyCoherent sub sup) :=
  ⟨below_of_isSubtype ⟨⟨hsub, hdsub⟩, hcsub⟩ ⟨⟨hsup, hdsup⟩, hcsup⟩,
    exists_coherent_of_nodup hsub hsup⟩

/-- Functions on functions on themselves, which change sides twice, with more fields below. -/
theorem isSubtype_sound_of_coherent_twice :
    let sub := mu "S" (func [("f", func [("g", var "S")] number)]
      (object [("m", var "S"), ("n", number)]))
    let sup := mu "T" (func [("f", func [("g", var "T")] number)] (object [("m", var "T")]))
    sub.Closed ∧ sup.Closed ∧ sub.Contractive ∧ sup.Contractive ∧ sub.DistinctFields ∧
      sup.DistinctFields ∧ JointlyCoherent sub sup ∧ isSubtype sub sup = .ok true ∧
      sub.tree.Below sup.tree := by
  intro sub sup
  have hsub : sub.Closed := by decide
  have hsup : sup.Closed := by decide
  have hcsub : sub.Contractive := by decide
  have hcsup : sup.Contractive := by decide
  have hdsub : sub.DistinctFields := by decide
  have hdsup : sup.DistinctFields := by decide
  obtain ⟨hsound, hnodup⟩ := isSubtype_sound_of_coherent hsub hsup hcsub hcsup hdsub hdsup
  have hcoherent := hnodup (by decide)
  have h : isSubtype sub sup = .ok true := rfl
  exact ⟨hsub, hsup, hcsub, hcsup, hdsub, hdsup, hcoherent, h, hsound hcoherent h⟩

/-! ### Equality -/

/-- Equality keeps its sides apart. -/
theorem stable_equality {P Q : Ty → Prop} (hP : ∀ s t, Step s t → P s → P t)
    (hQ : ∀ s t, Step s t → Q s → Q t) : equality.Stable fun a b => P a ∧ Q b where
  left := fun h => ⟨hP _ _ (.unroll _ _) h.1, h.2⟩
  right := fun h => ⟨h.1, hQ _ _ (.unroll _ _) h.2⟩
  below := by
    intro a b p q _ _ hd h
    obtain ⟨hp, hq⟩ := step_of_equalDemands hd
    exact ⟨hP _ _ hp h.1, hQ _ _ hq h.2⟩

theorem holds_equality_iff {a b : Ty} : equality.Holds a b ↔ a.tree = b.tree :=
  Tree.eq_iff_forall_agreesTo.symm

theorem tree_eq_of_equals {a b : Ty} (ha : a.Guarded) (hb : b.Guarded)
    (hGa : ∃ G, Coherent G a) (hGb : ∃ G, Coherent G b) (h : equals a b = .ok true) :
    a.tree = b.tree := by
  obtain ⟨G, hG⟩ := hGa
  obtain ⟨G', hG'⟩ := hGb
  have hR : equality.Stable fun a b => WellNamed G a ∧ WellNamed G' b :=
    stable_equality (fun _ _ hstep => hstep.wellNamed) (fun _ _ hstep => hstep.wellNamed)
  have htruth := Comparison.truthful_of_stable hR ⟨ha, hG⟩ ⟨hb, hG'⟩
  exact holds_equality_iff.mp (equality.holds_of_truthful ha hb h htruth)

/-- Two types found equal have one tree exactly if the pairs do that were recognised on the way, as
having the shape of a pair assumed before. They do so wherever the match of shapes also holds the
other way round, and whenever the names of each type are coherent by themselves. -/
theorem equals_sound_iff {a b : Ty} (ha : a.Closed) (hb : b.Closed) (hca : a.Contractive)
    (hcb : b.Contractive) (hda : a.DistinctFields) (hdb : b.DistinctFields)
    (h : equals a b = .ok true) :
    (a.tree = b.tree ↔ ∀ place, Visits equality ⟨[], a, b⟩ place → place.Recognised →
        place.left.tree = place.right.tree) ∧
      (equality.Reversible ⟨[], a, b⟩ → a.tree = b.tree) ∧
      ((∃ G, Coherent G a) → (∃ G, Coherent G b) → a.tree = b.tree) := by
  have hga : a.Guarded := ⟨⟨ha, hda⟩, hca⟩
  have hgb : b.Guarded := ⟨⟨hb, hdb⟩, hcb⟩
  refine ⟨?_, fun hreversible => ?_, fun hGa hGb => tree_eq_of_equals hga hgb hGa hGb h⟩
  · simp only [← holds_equality_iff]
    exact equality.holds_iff_recognised hga.toProper hgb.toProper h
  · have htruth := hreversible.truthful hga.toProper hgb.toProper
    exact holds_equality_iff.mp (equality.holds_of_truthful hga hgb h htruth)

/-- Cycles of different lengths. -/
theorem equals_sound_iff_cycles :
    let a := mu "X" (object [("n", var "X")])
    let b := mu "Y" (object [("n", mu "Z" (object [("n", var "Y")]))])
    a.Closed ∧ b.Closed ∧ a.Contractive ∧ b.Contractive ∧ a.DistinctFields ∧ b.DistinctFields ∧
      equals a b = .ok true ∧ a.tree = b.tree := by
  intro a b
  have ha : a.Closed := by decide
  have hb : b.Closed := by decide
  have hca : a.Contractive := by decide
  have hcb : b.Contractive := by decide
  have hda : a.DistinctFields := by decide
  have hdb : b.DistinctFields := by decide
  have h : equals a b = .ok true := rfl
  obtain ⟨G, hGa, hGb⟩ := exists_coherent_of_nodup ha hb (by decide)
  have htree := (equals_sound_iff ha hb hca hcb hda hdb h).2.2 ⟨G, hGa⟩ ⟨G, hGb⟩
  exact ⟨ha, hb, hca, hcb, hda, hdb, h, htree⟩

/-- A binder shadowed by one of its own name is taken for one that is not, and two different types
are found equal. -/
theorem equals_unsound_shadowed :
    let a := mu "X" (object [
      ("n", mu "Z" (object [
        ("p", mu "A" (object [("n", var "Z"), ("m", mu "A" (object [("k", var "A")]))]))])),
      ("m", mu "Y" (object [("k", var "X")]))])
    let b := mu "U" (object [
      ("n", object [("p", var "U")]),
      ("m", mu "V" (object [("k", var "U")]))])
    a.Closed ∧ b.Closed ∧ a.Contractive ∧ b.Contractive ∧ a.DistinctFields ∧ b.DistinctFields ∧
      equals a b = .ok true ∧ equals b a = .ok true ∧
      a.tree [.field "n", .field "p", .field "m", .field "k"] = some (.object {"k"}) ∧
      b.tree [.field "n", .field "p", .field "m", .field "k"] = some (.object {"n", "m"}) := by
  intro a b
  exact ⟨by decide, by decide, by decide, by decide, by decide, by decide, rfl, rfl, by decide,
    by decide⟩

end StructuralTypes
