import StructuralTypes.Proofs.Completeness
import StructuralTypes.Proofs.Soundness

/-!
The two comparisons agree. Trees that are below each other are equal: an object with no fewer fields
and no more has the same ones, and at parameters, where the sides change places, being below each
other is the same both ways. Among contractive types that are named coherently with one another each
comparison decides its relation of trees, so two types are found equal just when each of them is
found to be a subtype of the other.
-/

namespace StructuralTypes

open Ty

namespace Tree

theorem Below.root {s t : Tree} (h : s.Below t) : RootBelow Below s t := by
  obtain ⟨R, hR, hst⟩ := h
  exact (hR s t hst).mono fun u v huv => ⟨R, hR, huv⟩

/-- Where the rules hold both ways, the roots have one label, and what is below them is related both
ways again. -/
theorem RootBelow.both {R : Tree → Tree → Prop} {s t : Tree} (h : RootBelow R s t)
    (h' : RootBelow R t s) :
    ∃ l, s [] = some l ∧ t [] = some l ∧
      ∀ e, l.Has e → R (s.sub e) (t.sub e) ∧ R (t.sub e) (s.sub e) := by
  cases h with
  | boolean hs ht => exact ⟨.boolean, hs, ht, fun _ he => he.elim⟩
  | number hs ht => exact ⟨.number, hs, ht, fun _ he => he.elim⟩
  | hole hs ht => exact ⟨.hole, hs, ht, fun _ he => he.elim⟩
  | @func arity hs ht params result =>
      obtain ⟨-, params', result'⟩ := h'.func_inv ht
      refine ⟨.func arity, hs, ht, fun e he => ?_⟩
      cases e with
      | param i => exact ⟨params' i he, params i he⟩
      | result => exact ⟨result, result'⟩
      | field name => exact he.elim
  | @object names names' hs ht width depth =>
      obtain ⟨width', depth'⟩ := h'.object_inv ht hs
      obtain rfl : names = names' := Finset.Subset.antisymm width' width
      refine ⟨.object names, hs, ht, fun e he => ?_⟩
      cases e with
      | param i => exact he.elim
      | result => exact he.elim
      | field name => exact ⟨depth name he, depth' name he⟩

end Tree

namespace Ty

theorem tree_eq_of_below_of_below {a b : Ty} (h : a.tree.Below b.tree) (h' : b.tree.Below a.tree) :
    a.tree = b.tree := by
  rw [Tree.eq_iff_forall_agreesTo]
  intro n
  induction n generalizing a b with
  | zero => exact Tree.agreesTo_zero _ _
  | succ n ih =>
      obtain ⟨l, ha, hb, hsub⟩ := h.root.both h'.root
      rw [tree_nil, Option.some.injEq] at ha hb
      rw [agreesTo_tree_succ_iff]
      refine ⟨ha.trans hb.symm, fun e c d hc hd => ?_⟩
      have he : l.Has e := by
        rw [← ha, ← Node.isSome_child_iff, hc]
        rfl
      obtain ⟨hcd, hdc⟩ := hsub e he
      rw [sub_tree hc, sub_tree hd] at hcd hdc
      exact ih hcd hdc

/-! ### What the comparisons decide -/

section Decides

variable {G : Assignment} {a b : Ty}

theorem WellNamed.equals_eq_true_iff (ha : WellNamed G a) (hb : WellNamed G b) :
    equals a b = .ok true ↔ a.tree = b.tree :=
  ⟨tree_eq_of_equals ha.toGuarded hb.toGuarded ⟨G, ha.coherent⟩ ⟨G, hb.coherent⟩,
    equals_of_tree_eq ha.toProper hb.toProper⟩

theorem WellNamed.isSubtype_eq_true_iff (ha : WellNamed G a) (hb : WellNamed G b) :
    isSubtype a b = .ok true ↔ a.tree.Below b.tree :=
  ⟨below_of_isSubtype ha.toGuarded hb.toGuarded ⟨G, ha.coherent, hb.coherent⟩,
    isSubtype_of_below ha.toProper hb.toProper⟩

end Decides

end Ty

/-- Types are found equal exactly if each is found to be a subtype of the other, as long as one
assignment makes the names of both coherent. -/
theorem equals_iff_isSubtype_isSubtype {a b : Ty} (ha : a.Closed) (hb : b.Closed)
    (hca : a.Contractive) (hcb : b.Contractive) (hda : a.DistinctFields) (hdb : b.DistinctFields)
    (hcoherent : JointlyCoherent a b) :
    equals a b = .ok true ↔ isSubtype a b = .ok true ∧ isSubtype b a = .ok true := by
  obtain ⟨G, hG, hG'⟩ := hcoherent
  have hna : WellNamed G a := ⟨⟨⟨ha, hda⟩, hca⟩, hG⟩
  have hnb : WellNamed G b := ⟨⟨⟨hb, hdb⟩, hcb⟩, hG'⟩
  rw [hna.equals_eq_true_iff hnb, hna.isSubtype_eq_true_iff hnb, hnb.isSubtype_eq_true_iff hna]
  constructor
  · intro h
    exact ⟨h ▸ a.below_refl, h ▸ b.below_refl⟩
  · rintro ⟨h, h'⟩
    exact tree_eq_of_below_of_below h h'

/-- Functions on themselves with cycles of different lengths, their fields in another order. -/
theorem equals_iff_isSubtype_isSubtype_cycles :
    let a := mu "X" (func [("f", var "X")] (object [("m", var "X"), ("n", number)]))
    let b := mu "Y" (func [("g", mu "Z" (func [("f", var "Y")]
        (object [("n", number), ("m", var "Z")])))] (object [("n", number), ("m", var "Y")]))
    a.Closed ∧ b.Closed ∧ a.Contractive ∧ b.Contractive ∧ a.DistinctFields ∧ b.DistinctFields ∧
      JointlyCoherent a b ∧ equals a b = .ok true ∧ isSubtype a b = .ok true ∧
      isSubtype b a = .ok true := by
  intro a b
  have ha : a.Closed := by decide
  have hb : b.Closed := by decide
  have hca : a.Contractive := by decide
  have hcb : b.Contractive := by decide
  have hda : a.DistinctFields := by decide
  have hdb : b.DistinctFields := by decide
  have hcoherent : JointlyCoherent a b := exists_coherent_of_nodup ha hb (by decide)
  have h : equals a b = .ok true := rfl
  have hboth := (equals_iff_isSubtype_isSubtype ha hb hca hcb hda hdb hcoherent).mp h
  exact ⟨ha, hb, hca, hcb, hda, hdb, hcoherent, h, hboth⟩

end StructuralTypes
