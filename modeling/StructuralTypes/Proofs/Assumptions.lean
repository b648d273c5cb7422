import StructuralTypes.Proofs.Engines
import StructuralTypes.Proofs.Identity

/-!
What a comparison makes of its assumptions. More of them close a branch earlier and change which
types are unfolded, but a branch that is closed is answered with yes, so no answer of yes is lost:
the two walks go the same way until the one with more assumptions stops. In the end only the set of
assumed pairs matters, and of these only what textual identity shows.
-/

namespace StructuralTypes

open Ty

/-- Every assumption is identical to one of `seen'`, which may stand anywhere among others. -/
def Assumptions.Among (seen seen' : Assumptions) : Prop :=
  ∀ p ∈ seen, ∃ q ∈ seen', p.1.identical q.1 = true ∧ p.2.identical q.2 = true

namespace Assumptions

variable {seen seen' : Assumptions} {a b : Ty}

theorem Among.cons (h : seen.Among seen') (p : Ty × Ty) :
    Assumptions.Among (p :: seen) (p :: seen') := by
  intro r hr
  rcases List.mem_cons.mp hr with rfl | hr
  · exact ⟨r, List.mem_cons_self, identical_refl r.1, identical_refl r.2⟩
  · obtain ⟨q, hq, hleft, hright⟩ := h r hr
    exact ⟨q, List.mem_cons_of_mem p hq, hleft, hright⟩

/-- More assumptions recognise more pairs. -/
theorem Among.cover (h : seen.Among seen') (hcover : seen.cover a b = true) :
    seen'.cover a b = true := by
  rw [cover_iff] at hcover ⊢
  obtain ⟨p, hp, hleft, hright⟩ := hcover
  obtain ⟨q, hq, hpq, hpq'⟩ := h p hp
  refine ⟨q, hq, ?_, ?_⟩
  · rwa [← sameShape_eq_of_identical hpq]
  · rwa [← sameShape_eq_of_identical hpq']

theorem Among.cover_eq (h : seen.Among seen') (h' : seen'.Among seen) (a b : Ty) :
    seen.cover a b = seen'.cover a b := by
  rw [Bool.eq_iff_iff]
  exact ⟨h.cover, h'.cover⟩

end Assumptions

/-- A comparison looks at its assumptions only to recognise pairs. -/
theorem Ty.compareTo_eq_of_cover_eq {heads : HeadComparison} {seen seen' : Assumptions}
    (h : ∀ a b, seen.cover a b = seen'.cover a b) (n : Nat) :
    compareTo heads n seen = compareTo heads n seen' := by
  induction n generalizing seen seen' with
  | zero => rfl
  | succ n ih =>
      have hcons (p : Ty × Ty) :
          compareTo heads n (p :: seen) = compareTo heads n (p :: seen') := by
        apply ih
        intro a b
        have hab := h a b
        unfold Assumptions.cover at hab ⊢
        rw [List.any_cons, List.any_cons, hab]
      funext a b
      simp only [compareTo, h, hcons, ih h]

namespace Comparison

variable {C : Comparison} {seen seen' : Assumptions} {a b : Ty} {n : Nat}

/-- An answer of yes is given again, and no deeper, under more assumptions. -/
theorem run_eq_true_of_among (h : seen.Among seen') (ha : a.Closed) (hb : b.Closed)
    (hrun : C.run n seen a b = .ok true) : C.run n seen' a b = .ok true := by
  induction n generalizing seen seen' a b with
  | zero => cases hrun
  | succ n ih =>
      by_cases hcover : seen'.cover a b = true
      · exact compareTo_of_cover hcover
      · -- The pair is recognised on neither side, so both walks take the same turn.
        rcases run_eq_true_cases ha hb hrun with hseen | ⟨-, hcases⟩
        · exact absurd (h.cover hseen) hcover
        · rcases hcases with ⟨x, body, rfl, hrun⟩ | ⟨hsa, x, body, rfl, hrun⟩ | ⟨hsa, hsb, hrun⟩
          · rw [run, compareTo_unroll_left hcover]
            exact ih (h.cons _) ha.unroll hb hrun
          · rw [run, compareTo_unroll_right hcover hsa]
            exact ih (h.cons _) ha hb.unroll hrun
          · rw [C.run_heads hcover hsa hsb, allM_eq_ok_true_iff]
            intro d hd
            obtain ⟨p, q, rfl, hpq⟩ := hrun d hd
            obtain ⟨hp, hq⟩ := demand_of_step (fun _ _ hstep => hstep.closed) hd ha hb
            exact ih h hp hq hpq

end Comparison

/-- An answer of yes stays one under more assumptions, and assumptions that are the same up to
order, repetition and names of parameters give the same answers. -/
theorem equalsUnder_subtypeUnder_of_among {seen seen' : Assumptions} (h : seen.Among seen')
    {a b : Ty} (ha : a.Closed) (hb : b.Closed) :
    (equalsUnder seen a b = .ok true → equalsUnder seen' a b = .ok true) ∧
      (subtypeUnder seen a b = .ok true → subtypeUnder seen' a b = .ok true) ∧
      (seen'.Among seen → equalsUnder seen a b = equalsUnder seen' a b ∧
        subtypeUnder seen a b = subtypeUnder seen' a b) := by
  refine ⟨Comparison.run_eq_true_of_among (C := equality) h ha hb,
    Comparison.run_eq_true_of_among (C := subtyping) h ha hb, fun h' => ?_⟩
  have hcompare (heads : HeadComparison) :
      compareUnder heads seen a b = compareUnder heads seen' a b := by
    rw [compareUnder, compareTo_eq_of_cover_eq (h.cover_eq h'), compareUnder]
  exact ⟨hcompare equalHeads, hcompare subsumesHeads⟩

/-- Streams of booleans pass for streams of numbers once booleans are assumed to be numbers, and
also among more assumptions, in another order, with another name for a parameter. -/
theorem equalsUnder_subtypeUnder_of_among_streams :
    let a := mu "X" (object [("item", boolean), ("next", func [("n", number)] (var "X"))])
    let b := mu "Y" (object [("next", func [("m", number)] (var "Y")), ("item", number)])
    let thunk (name : String) := func [(name, number)] boolean
    let seen : Assumptions := [(boolean, number), (thunk "i", number)]
    let seen' : Assumptions := [(number, boolean), (thunk "j", number), (boolean, number)]
    a.Closed ∧ b.Closed ∧ seen.Among seen' ∧
      equalsUnder seen a b = .ok true ∧ equalsUnder seen' a b = .ok true ∧
      subtypeUnder seen a b = .ok true ∧ subtypeUnder seen' a b = .ok true := by
  intro a b thunk seen seen'
  have ha : a.Closed := by decide
  have hb : b.Closed := by decide
  have h : seen.Among seen' := by
    simp [seen, seen', thunk, Assumptions.Among, identical, identicalParams]
  have hequals : equalsUnder seen a b = .ok true := rfl
  have hsubtype : subtypeUnder seen a b = .ok true := rfl
  obtain ⟨hequals', hsubtype', -⟩ := equalsUnder_subtypeUnder_of_among h ha hb
  exact ⟨ha, hb, h, hequals, hequals' hequals, hsubtype, hsubtype' hsubtype⟩

end StructuralTypes
