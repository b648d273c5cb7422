import StructuralTypes.Proofs.Meaning
import StructuralTypes.Proofs.Shape
import StructuralTypes.Ty.Head

/-!
What looking for the head of a type finds. Each unfolding uses up a binder in front, and a match of
shapes counts binders, so a type that has a head comes to it without meeting any shape twice. The
head has the tree of the type, and it is reached by steps, so it keeps what steps keep.
-/

namespace StructuralTypes.Ty

theorem headFrom_eq_uncovered {first t : Ty} {bound : Nat} {heads : List Ty} (h : ¬ t.Headless)
    (hbound : t.binders ≤ bound) (hheads : ∀ s ∈ heads, t.binders < s.binders) :
    headFrom first bound heads t = .ok t.uncovered := by
  induction bound generalizing heads t with
  | zero =>
      cases t with
      | mu x body => exact absurd hbound (Nat.not_succ_le_zero _)
      | _ => rfl
  | succ bound ih =>
      cases t with
      | mu x body =>
          have htail : body.tailVar ≠ some x := fun htail => h (headless_mu_of_tailVar htail)
          have hbinders : (unroll x body).binders = body.binders := binders_unroll htail
          have hnew : ¬ (heads.any fun s => sameShape [] s (mu x body)) = true := by
            rw [List.any_eq_true]
            rintro ⟨s, hs, hshape⟩
            exact (hheads s hs).ne' (binders_eq_of_sameShape hshape)
          rw [headFrom, if_neg hnew, uncovered_mu htail]
          apply ih
          · exact fun hunroll => h ((headless_unroll_iff htail).mp hunroll)
          · rw [hbinders]
            exact Nat.le_of_succ_le_succ hbound
          · rw [hbinders]
            have hlt : body.binders < (mu x body).binders := Nat.lt_succ_self _
            exact List.forall_mem_cons.mpr ⟨hlt, fun s hs => hlt.trans (hheads s hs)⟩
      | _ => rfl

theorem head_eq_uncovered {t : Ty} (h : ¬ t.Headless) : t.head = .ok t.uncovered :=
  headFrom_eq_uncovered h (Nat.le_refl _) (List.forall_mem_nil _)

theorem tree_uncovered (t : Ty) : t.uncovered.tree = t.tree := tree_iterate_peel _ t

theorem uncovered_of_step {I : Ty → Prop} (hstep : ∀ s t, Step s t → I s → I t) {t : Ty}
    (h : I t) : I t.uncovered := by
  unfold uncovered
  generalize t.binders = n
  induction n with
  | zero => exact h
  | succ n ih =>
      rw [Function.iterate_succ_apply']
      generalize peel^[n] t = s at *
      cases s with
      | mu x body => exact hstep _ _ (.unroll x body) ih
      | _ => exact ih

theorem Guarded.solid_uncovered {t : Ty} (h : t.Guarded) : t.uncovered.Solid := by
  have hmu := uncovered_ne_mu h.contractive.not_headless
  have hclosed : t.uncovered.Closed := uncovered_of_step (fun _ _ hstep => hstep.closed) h.closed
  cases ht : t.uncovered with
  | mu x body => exact absurd ht (hmu x body)
  | var x => exact absurd (ht ▸ hclosed) (not_closed_var x)
  | _ => trivial

theorem Guarded.head_eq {t : Ty} (h : t.Guarded) : t.head = .ok t.uncovered :=
  head_eq_uncovered h.contractive.not_headless

end StructuralTypes.Ty
