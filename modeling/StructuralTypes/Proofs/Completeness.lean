import StructuralTypes.Proofs.Engines
import StructuralTypes.Proofs.Variants

/-!
No false negatives. A comparison of two closed types whose trees are related never says no:
unfolding leaves the trees as they are, and what the heads demand is related again. As it does come
to an end, it says yes. Nothing is asked of the binders here; a type that never uncovers a head is
related to such types alone.

It follows that a type is equal to itself and to each of its variants, and below and above them.
-/

namespace StructuralTypes

open Ty

namespace Comparison

variable {C : Comparison} {a b : Ty} {seen : Assumptions}

/-- Related types are not told apart, to whatever depth they are compared. -/
theorem run_ne_false (ha : a.Proper) (hb : b.Proper) (h : C.Holds a b) (n : Nat) :
    C.run n seen a b ≠ .ok false := by
  induction n generalizing seen a b with
  | zero =>
      intro hrun
      cases hrun
  | succ n ih =>
      by_cases hcover : seen.cover a b = true
      · rw [run, compareTo_of_cover hcover]
        simp
      · rcases solid_or_mu ha.closed hb.closed with
          ⟨x, body, rfl⟩ | ⟨hsa, x, body, rfl⟩ | ⟨hsa, hsb⟩
        · rw [run, compareTo_unroll_left hcover]
          exact ih ((Step.unroll x body).proper ha) hb (h.of_tree_eq (tree_unroll x body) rfl)
        · rw [run, compareTo_unroll_right hcover hsa]
          exact ih ha ((Step.unroll x body).proper hb) (h.of_tree_eq rfl (tree_unroll x body))
        · rw [C.run_heads hcover hsa hsb]
          intro hfalse
          obtain ⟨d, hd, hask⟩ := exists_of_allM_eq_ok_false hfalse
          obtain ⟨p, q, rfl, hpq⟩ := h.of_demand hsa hsb ha.distinct hb.distinct hd
          obtain ⟨hp, hq⟩ := demand_proper hd ha hb
          exact ih hp hq hpq hask

theorem compareUnder_eq_true (ha : a.Proper) (hb : b.Proper) (h : C.Holds a b)
    (seen : Assumptions) : compareUnder C.heads seen a b = .ok true := by
  obtain ⟨r, hr⟩ := C.exists_verdict ha hb seen
  cases r with
  | true => exact hr
  | false => exact absurd hr (run_ne_false ha hb h _)

end Comparison

theorem Ty.below_refl (t : Ty) : t.tree.Below t.tree := by
  refine ⟨fun s u => ∃ t : Ty, s = t.tree ∧ u = t.tree, ?_, t, rfl, rfl⟩
  rintro _ _ ⟨t, rfl, rfl⟩
  have hchild {e : Edge} (h : t.node.label.Has e) :
      ∃ c : Ty, t.tree.sub e = c.tree ∧ t.tree.sub e = c.tree := by
    obtain ⟨c, hc⟩ := Option.isSome_iff_exists.mp (Node.isSome_child_iff.mpr h)
    exact ⟨c, sub_tree hc, sub_tree hc⟩
  cases hlabel : t.node.label with
  | boolean => exact .boolean (by rw [tree_nil, hlabel]) (by rw [tree_nil, hlabel])
  | number => exact .number (by rw [tree_nil, hlabel]) (by rw [tree_nil, hlabel])
  | hole => exact .hole (by rw [tree_nil, hlabel]) (by rw [tree_nil, hlabel])
  | func arity =>
      rw [hlabel] at hchild
      exact .func (by rw [tree_nil, hlabel]) (by rw [tree_nil, hlabel])
        (fun i hi => hchild (e := .param i) hi) (hchild (e := .result) trivial)
  | object names =>
      rw [hlabel] at hchild
      exact .object (by rw [tree_nil, hlabel]) (by rw [tree_nil, hlabel]) (Finset.Subset.refl _)
        fun name hname => hchild (e := .field name) hname

theorem equals_of_tree_eq {a b : Ty} (ha : a.Proper) (hb : b.Proper) (h : a.tree = b.tree) :
    equals a b = .ok true :=
  Comparison.compareUnder_eq_true (C := equality) ha hb (Tree.eq_iff_forall_agreesTo.mp h) []

theorem isSubtype_of_below {a b : Ty} (ha : a.Proper) (hb : b.Proper)
    (h : a.tree.Below b.tree) : isSubtype a b = .ok true :=
  Comparison.compareUnder_eq_true (C := subtyping) ha hb (Tree.below_iff_forall_belowTo.mp h) []

/-- Both comparisons say yes, in both directions. -/
def Interchangeable (a b : Ty) : Prop :=
  equals a b = .ok true ∧ equals b a = .ok true ∧
    isSubtype a b = .ok true ∧ isSubtype b a = .ok true

theorem interchangeable_of_tree_eq {a b : Ty} (ha : a.Proper) (hb : b.Proper)
    (h : a.tree = b.tree) : Interchangeable a b := by
  have hab : a.tree.Below b.tree := h ▸ a.below_refl
  have hba : b.tree.Below a.tree := h ▸ b.below_refl
  exact ⟨equals_of_tree_eq ha hb h, equals_of_tree_eq hb ha h.symm, isSubtype_of_below ha hb hab,
    isSubtype_of_below hb ha hba⟩

/-- The comparisons miss nothing: types with one tree are found equal, and a type whose tree is
below that of another is found to be its subtype. So a closed type is interchangeable with
everything that comes of it by renaming binders, naming parameters anew, reordering fields and
unfolding, any number of times. -/
theorem equals_isSubtype_complete {a b : Ty} (ha : a.Closed) (hb : b.Closed)
    (hda : a.DistinctFields) (hdb : b.DistinctFields) :
    (a.tree = b.tree → equals a b = .ok true) ∧
      (a.tree.Below b.tree → isSubtype a b = .ok true) ∧
      (∀ c, Variant a c → Interchangeable a c) := by
  have hpa : a.Proper := ⟨ha, hda⟩
  have hpb : b.Proper := ⟨hb, hdb⟩
  refine ⟨equals_of_tree_eq hpa hpb, isSubtype_of_below hpa hpb, fun c hc => ?_⟩
  obtain ⟨hpc, htree⟩ := hc.proper_and_tree_eq hpa
  exact interchangeable_of_tree_eq hpa hpc htree

/-- A recursive function against what is left of it with another name for its binder, its fields
reordered, and unfolded once. -/
theorem equals_isSubtype_complete_unfolded :
    let a := mu "X" (func [("f", var "X")] (object [("m", var "X"), ("n", number)]))
    let r := mu "Y" (func [("g", var "Y")] (object [("n", number), ("m", var "Y")]))
    let b := func [("g", r)] (object [("n", number), ("m", r)])
    a.Closed ∧ b.Closed ∧ a.DistinctFields ∧ b.DistinctFields ∧ Variant a b ∧
      equals a b = .ok true ∧ isSubtype a b = .ok true ∧ Interchangeable a b := by
  intro a r b
  have ha : a.Closed := by decide
  have hda : a.DistinctFields := by decide
  have hrenamed : Renamed [] a r := by
    refine .mu (.func rfl (fun i c d hc hd => ?_) (.object (.swap _ _ _) fun name c d hc hd => ?_))
    · cases i with
      | zero =>
          obtain rfl : var "X" = c := Option.some.inj hc
          obtain rfl : var "Y" = d := Option.some.inj hd
          exact .var (.here _ _)
      | succ i => cases hc
    · have hc := Row.mem_of_lookup hc
      have hd := Row.mem_of_lookup hd
      simp only [List.mem_cons, List.not_mem_nil, or_false, Prod.mk.injEq] at hc hd
      rcases hc with ⟨rfl, rfl⟩ | ⟨rfl, rfl⟩
      · obtain rfl : d = var "Y" := by simpa using hd
        exact .var (.here _ _)
      · obtain rfl : d = number := by simpa using hd
        exact .number
  have hr : r.Proper := hrenamed.proper ⟨ha, hda⟩
  have hunfolded : Unfolded r b := .here hr.closed
  have hvariant : Variant a b := .tail (.single (.inl hrenamed)) (.inr hunfolded)
  obtain ⟨⟨hb, hdb⟩, htree⟩ := hvariant.proper_and_tree_eq ⟨ha, hda⟩
  obtain ⟨hequals, hsubtype, hvariants⟩ := equals_isSubtype_complete ha hb hda hdb
  exact ⟨ha, hb, hda, hdb, hvariant, hequals htree, hsubtype (htree ▸ a.below_refl),
    hvariants b hvariant⟩

end StructuralTypes
