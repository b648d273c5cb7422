import Mathlib.Data.Finset.Card
import Mathlib.Data.Finset.Prod
import Mathlib.Tactic.Linarith
import StructuralTypes.Proofs.Meaning
import StructuralTypes.Proofs.Reachable
import StructuralTypes.Proofs.Shape
import StructuralTypes.Ty.Comparison

/-!
Comparisons of types in general. What a comparison of heads asks for is a list of demands: pairs to
be compared below, and a demand that nothing meets where the heads do not fit. With the demands
comes the relation of trees that the comparison is meant to decide. What both engines have in common
follows from these two.

A comparison of closed types comes to an end, whatever it assumes at the start (`exists_verdict`).
The types met are among finitely many, a pair that comes back is recognised, and between two
unfoldings the types get smaller.
-/

namespace StructuralTypes

/-! ### Conjunctions that may fail -/

section AllM

variable {α ε : Type} {f g : α → Except ε Bool} {l : List α}

theorem allM_eq_ok_true_iff : l.allM f = .ok true ↔ ∀ x ∈ l, f x = .ok true := by
  induction l with
  | nil => simp [pure, Except.pure]
  | cons x l ih =>
      rw [List.allM_cons, List.forall_mem_cons, ← ih]
      rcases f x with e | _ | _ <;> simp [bind, Except.bind, pure, Except.pure]

theorem exists_of_allM_eq_ok_false (h : l.allM f = .ok false) : ∃ x ∈ l, f x = .ok false := by
  induction l with
  | nil => simp [pure, Except.pure] at h
  | cons x l ih =>
      rw [List.allM_cons] at h
      cases hx : f x with
      | error e => simp [hx, bind, Except.bind] at h
      | ok r =>
          cases r with
          | false => exact ⟨x, List.mem_cons_self, hx⟩
          | true =>
              rw [hx] at h
              obtain ⟨y, hy, hfy⟩ := ih h
              exact ⟨y, List.mem_cons_of_mem x hy, hfy⟩

theorem exists_allM_eq_ok (h : ∀ x ∈ l, ∃ r, f x = .ok r) : ∃ r, l.allM f = .ok r := by
  induction l with
  | nil => exact ⟨true, rfl⟩
  | cons x l ih =>
      obtain ⟨hx, hl⟩ := List.forall_mem_cons.mp h
      obtain ⟨r, hr⟩ := hx
      rw [List.allM_cons, hr]
      cases r with
      | false => exact ⟨false, rfl⟩
      | true => exact ih hl

theorem allM_eq_ok_of_imp {r : Bool} (hfg : ∀ x ∈ l, ∀ r, f x = .ok r → g x = .ok r)
    (h : l.allM f = .ok r) : l.allM g = .ok r := by
  induction l with
  | nil => exact h
  | cons x l ih =>
      obtain ⟨hx, hl⟩ := List.forall_mem_cons.mp hfg
      rw [List.allM_cons] at h ⊢
      cases hfx : f x with
      | error e => simp [hfx, bind, Except.bind] at h
      | ok b =>
          rw [hfx] at h
          rw [hx b hfx]
          cases b with
          | false => exact h
          | true => exact ih hl h

end AllM

namespace Ty

/-! ### The walk -/

theorem solid_or_mu {a b : Ty} (ha : a.Closed) (hb : b.Closed) :
    (∃ x body, a = mu x body) ∨ (a.Solid ∧ ∃ x body, b = mu x body) ∨ (a.Solid ∧ b.Solid) := by
  have front {t : Ty} (ht : t.Closed) : (∃ x body, t = mu x body) ∨ t.Solid := by
    cases t with
    | mu x body => exact .inl ⟨x, body, rfl⟩
    | var x => exact absurd ht (not_closed_var x)
    | _ => exact .inr trivial
  rcases front ha with ha | ha
  · exact .inl ha
  · rcases front hb with hb | hb
    · exact .inr (.inl ⟨ha, hb⟩)
    · exact .inr (.inr ⟨ha, hb⟩)

section Walk

variable {heads : HeadComparison} {n : Nat} {seen : Assumptions} {a b : Ty} {x : String} {body : Ty}

theorem compareTo_of_cover (h : seen.cover a b = true) :
    compareTo heads (n + 1) seen a b = .ok true := by
  unfold compareTo
  rw [if_pos h]

theorem compareTo_unroll_left (h : ¬ seen.cover (mu x body) b = true) :
    compareTo heads (n + 1) seen (mu x body) b =
      compareTo heads n ((mu x body, b) :: seen) (unroll x body) b := by
  rw [compareTo, if_neg h]

theorem compareTo_unroll_right (h : ¬ seen.cover a (mu x body) = true) (ha : a.Solid) :
    compareTo heads (n + 1) seen a (mu x body) =
      compareTo heads n ((a, mu x body) :: seen) a (unroll x body) := by
  rw [compareTo, if_neg h]
  exact ha.ne_mu

theorem compareTo_heads (h : ¬ seen.cover a b = true) (ha : a.Solid) (hb : b.Solid) :
    compareTo heads (n + 1) seen a b = heads (compareTo heads n seen) a b := by
  rw [compareTo, if_neg h]
  · exact ha.ne_mu
  · exact hb.ne_mu

end Walk

end Ty

open Ty

/-- A pair to be compared below two heads, or a demand that nothing meets. -/
abbrev Demand := Option (Ty × Ty)

def Demand.ask (compare : Ty → Ty → Except Defect Bool) : Demand → Except Defect Bool
  | none => .ok false
  | some (p, q) => compare p q

/-- A comparison of heads, what it demands, and the relation of trees that it is meant to decide,
as far as each number of levels shows. -/
structure Comparison where
  heads : HeadComparison
  demands : Ty → Ty → List Demand
  HoldsTo : Nat → Tree → Tree → Prop
  heads_eq : ∀ {a b : Ty} (compare : Ty → Ty → Except Defect Bool), a.Solid → b.Solid →
    heads compare a b = (demands a b).allM (Demand.ask compare)
  step_of_demand : ∀ {a b p q : Ty}, some (p, q) ∈ demands a b →
    (Step a p ∧ Step b q) ∨ (Step b p ∧ Step a q)
  holdsTo_zero : ∀ s t : Tree, HoldsTo 0 s t
  holdsTo_pred : ∀ {n : Nat} {s t : Tree}, HoldsTo (n + 1) s t → HoldsTo n s t
  holdsTo_succ_iff : ∀ {n : Nat} {a b : Ty}, a.Solid → b.Solid → a.DistinctFields →
    b.DistinctFields → (HoldsTo (n + 1) a.tree b.tree ↔
      ∀ d ∈ demands a b, ∃ p q, d = some (p, q) ∧ HoldsTo n p.tree q.tree)

namespace Comparison

variable (C : Comparison) {a b p q : Ty} {seen : Assumptions} {n m : Nat}

abbrev run (n : Nat) (seen : Assumptions) (a b : Ty) : Except Defect Bool :=
  compareTo C.heads n seen a b

theorem run_heads (h : ¬ seen.cover a b = true) (ha : a.Solid) (hb : b.Solid) :
    C.run (n + 1) seen a b = (C.demands a b).allM (Demand.ask (C.run n seen)) := by
  rw [run, compareTo_heads h ha hb, C.heads_eq _ ha hb]

variable {C}

/-- A property of types that steps keep is one that demands keep. -/
theorem demand_of_step {P : Ty → Prop} (hstep : ∀ s t, Step s t → P s → P t)
    (h : some (p, q) ∈ C.demands a b) (ha : P a) (hb : P b) : P p ∧ P q := by
  rcases C.step_of_demand h with ⟨hp, hq⟩ | ⟨hp, hq⟩
  · exact ⟨hstep _ _ hp ha, hstep _ _ hq hb⟩
  · exact ⟨hstep _ _ hp hb, hstep _ _ hq ha⟩

theorem demand_proper (h : some (p, q) ∈ C.demands a b) (ha : a.Proper) (hb : b.Proper) :
    p.Proper ∧ q.Proper :=
  demand_of_step (fun _ _ hstep => hstep.proper) h ha hb

/-- More depth changes no verdict. -/
theorem run_mono (ha : a.Proper) (hb : b.Proper) {r : Bool} (hnm : n ≤ m)
    (h : C.run n seen a b = .ok r) : C.run m seen a b = .ok r := by
  induction n generalizing m seen a b r with
  | zero => cases h
  | succ n ih =>
      obtain ⟨m, rfl⟩ : ∃ k, m = k + 1 := ⟨m - 1, by omega⟩
      have hnm : n ≤ m := Nat.le_of_succ_le_succ hnm
      by_cases hcover : seen.cover a b = true
      · rw [run, compareTo_of_cover hcover] at h ⊢
        exact h
      · rcases solid_or_mu ha.closed hb.closed with
          ⟨x, body, rfl⟩ | ⟨hsa, x, body, rfl⟩ | ⟨hsa, hsb⟩
        · rw [run, compareTo_unroll_left hcover] at h ⊢
          exact ih ((Step.unroll x body).proper ha) hb hnm h
        · rw [run, compareTo_unroll_right hcover hsa] at h ⊢
          exact ih ha ((Step.unroll x body).proper hb) hnm h
        · rw [C.run_heads hcover hsa hsb] at h ⊢
          refine allM_eq_ok_of_imp (fun d hd s hs => ?_) h
          cases d with
          | none => exact hs
          | some pq =>
              obtain ⟨hp, hq⟩ := demand_proper hd ha hb
              exact ih hp hq hnm hs

/-- What an answer of yes rests on: the pair is recognised, or the answer below is yes. -/
theorem run_eq_true_cases (ha : a.Closed) (hb : b.Closed) (h : C.run (n + 1) seen a b = .ok true) :
    seen.cover a b = true ∨ ¬ seen.cover a b = true ∧
      ((∃ x body, a = mu x body ∧ C.run n ((a, b) :: seen) (unroll x body) b = .ok true) ∨
        (a.Solid ∧ ∃ x body, b = mu x body ∧
          C.run n ((a, b) :: seen) a (unroll x body) = .ok true) ∨
        (a.Solid ∧ b.Solid ∧
          ∀ d ∈ C.demands a b, ∃ p q, d = some (p, q) ∧ C.run n seen p q = .ok true)) := by
  by_cases hcover : seen.cover a b = true
  · exact .inl hcover
  · refine .inr ⟨hcover, ?_⟩
    rcases solid_or_mu ha hb with ⟨x, body, rfl⟩ | ⟨hsa, x, body, rfl⟩ | ⟨hsa, hsb⟩
    · rw [run, compareTo_unroll_left hcover] at h
      exact .inl ⟨x, body, rfl, h⟩
    · rw [run, compareTo_unroll_right hcover hsa] at h
      exact .inr (.inl ⟨hsa, x, body, rfl, h⟩)
    · rw [C.run_heads hcover hsa hsb, allM_eq_ok_true_iff] at h
      refine .inr (.inr ⟨hsa, hsb, fun d hd => ?_⟩)
      cases d with
      | none => nomatch h none hd
      | some pq => exact ⟨pq.1, pq.2, rfl, h _ hd⟩

/-! ### Being right -/

/-- The comparison is right about the trees, however deep one looks. -/
def Holds (C : Comparison) (a b : Ty) : Prop := ∀ n, C.HoldsTo n a.tree b.tree

theorem Holds.of_tree_eq {a' b' : Ty} (ha : a'.tree = a.tree) (hb : b'.tree = b.tree)
    (h : C.Holds a b) : C.Holds a' b' := by
  intro n
  rw [ha, hb]
  exact h n

theorem Holds.of_demand (h : C.Holds a b) (ha : a.Solid) (hb : b.Solid) (hda : a.DistinctFields)
    (hdb : b.DistinctFields) {d : Demand} (hd : d ∈ C.demands a b) :
    ∃ p q, d = some (p, q) ∧ C.Holds p q := by
  have hlevel (n : Nat) := (C.holdsTo_succ_iff ha hb hda hdb).mp (h (n + 1)) d hd
  obtain ⟨p, q, hpq, -⟩ := hlevel 0
  refine ⟨p, q, hpq, fun n => ?_⟩
  -- The demand is the same at every level, so the levels speak about one pair.
  obtain ⟨p', q', hpq', hn⟩ := hlevel n
  obtain ⟨rfl, rfl⟩ : p = p' ∧ q = q' := by simpa using hpq.symm.trans hpq'
  exact hn

/-! ### Coming to an end -/

/-- Finitely many types that steps do not lead out of, none with a crown above `height`. -/
structure Stock (S : Finset Ty) (height : Nat) : Prop where
  proper : ∀ t ∈ S, t.Proper
  step : ∀ s ∈ S, ∀ t, Step s t → t ∈ S
  crown_le : ∀ t ∈ S, t.crown ≤ height

open Classical in
/-- The pairs of a stock that are not yet among the assumptions. -/
noncomputable def unseen (S : Finset Ty) (seen : Assumptions) : Nat :=
  ((S ×ˢ S) \ seen.toFinset).card

theorem unseen_le (S : Finset Ty) (seen : Assumptions) : unseen S seen ≤ S.card * S.card := by
  classical
  rw [← Finset.card_product]
  exact Finset.card_le_card Finset.sdiff_subset

/-- An unfolded pair is new, so one pair fewer is left. -/
theorem unseen_cons_lt {S : Finset Ty} (ha : a ∈ S) (hb : b ∈ S) (h : (a, b) ∉ seen) :
    unseen S ((a, b) :: seen) < unseen S seen := by
  classical
  have hmem : (a, b) ∈ (S ×ˢ S) \ seen.toFinset := by
    rw [Finset.mem_sdiff, Finset.mem_product, List.mem_toFinset]
    exact ⟨⟨ha, hb⟩, h⟩
  unfold unseen
  rw [List.toFinset_cons, Finset.sdiff_insert]
  convert Finset.card_erase_lt_of_mem hmem

theorem exists_verdict_of_stock {S : Finset Ty} {height : Nat} (hS : Stock S height)
    (ha : a ∈ S) (hb : b ∈ S)
    (hn : unseen S seen * (height + 1) + max a.crown b.crown < n) :
    ∃ r, C.run n seen a b = .ok r := by
  induction n generalizing seen a b with
  | zero => exact absurd hn (Nat.not_lt_zero _)
  | succ n ih =>
      have hpa := hS.proper a ha
      have hpb := hS.proper b hb
      by_cases hcover : seen.cover a b = true
      · exact ⟨true, compareTo_of_cover hcover⟩
      · have hnew : (a, b) ∉ seen := fun hmem =>
          hcover (Assumptions.cover_of_mem hmem hpa hpb)
        -- One unfolding pays for a whole descent.
        have hpaid {s t : Ty} (hs : s ∈ S) (ht : t ∈ S) :
            unseen S ((a, b) :: seen) * (height + 1) + max s.crown t.crown < n := by
          have hlt := unseen_cons_lt ha hb hnew
          have hmul := Nat.mul_le_mul_right (height + 1) hlt
          rw [Nat.succ_mul] at hmul
          have := hS.crown_le s hs
          have := hS.crown_le t ht
          omega
        rcases solid_or_mu hpa.closed hpb.closed with
          ⟨x, body, rfl⟩ | ⟨hsa, x, body, rfl⟩ | ⟨hsa, hsb⟩
        · have hmem := hS.step _ ha _ (Step.unroll x body)
          rw [run, compareTo_unroll_left hcover]
          exact ih hmem hb (hpaid hmem hb)
        · have hmem := hS.step _ hb _ (Step.unroll x body)
          rw [run, compareTo_unroll_right hcover hsa]
          exact ih ha hmem (hpaid ha hmem)
        · rw [C.run_heads hcover hsa hsb]
          refine exists_allM_eq_ok fun d hd => ?_
          cases d with
          | none => exact ⟨false, rfl⟩
          | some pq =>
              -- Both sides go down from a head, whichever way round the pair is demanded.
              obtain ⟨p, q⟩ := pq
              rcases C.step_of_demand hd with ⟨hp, hq⟩ | ⟨hp, hq⟩
              · have := hp.crown_lt hsa.ne_mu
                have := hq.crown_lt hsb.ne_mu
                exact ih (hS.step a ha p hp) (hS.step b hb q hq) (by omega)
              · have := hp.crown_lt hsb.ne_mu
                have := hq.crown_lt hsa.ne_mu
                exact ih (hS.step b hb p hp) (hS.step a ha q hq) (by omega)

open Classical in
theorem stock_reachable (ha : a.Proper) (hb : b.Proper) :
    Stock (a.reachable ++ b.reachable).toFinset (a.size + b.size) where
  proper := by
    intro t ht
    rw [List.mem_toFinset, List.mem_append] at ht
    exact ht.elim ha.of_mem_reachable hb.of_mem_reachable
  step := by
    intro s hs t hstep
    rw [List.mem_toFinset, List.mem_append] at hs ⊢
    exact hs.imp (step_mem_reachable ha.closed · hstep) (step_mem_reachable hb.closed · hstep)
  crown_le := by
    intro t ht
    rw [List.mem_toFinset, List.mem_append] at ht
    rcases ht with ht | ht
    · exact Nat.le_trans (crown_le_of_mem_reachable ha.closed ht) (Nat.le_add_right _ _)
    · exact Nat.le_trans (crown_le_of_mem_reachable hb.closed ht) (Nat.le_add_left _ _)

/-- The bound on the depth is enough for closed types, whatever is assumed at the start. -/
theorem exists_verdict (ha : a.Proper) (hb : b.Proper) (seen : Assumptions) :
    ∃ r, C.run (depthBound a b) seen a b = .ok r := by
  classical
  have hS := stock_reachable ha hb
  have hmema : a ∈ (a.reachable ++ b.reachable).toFinset := by
    simp [self_mem_reachable]
  have hmemb : b ∈ (a.reachable ++ b.reachable).toFinset := by
    simp [self_mem_reachable]
  refine exists_verdict_of_stock hS hmema hmemb ?_
  have hcard : (a.reachable ++ b.reachable).toFinset.card ≤ a.size + b.size := by
    refine Nat.le_trans (List.toFinset_card_le _) ?_
    rw [List.length_append, length_reachable, length_reachable]
  have hunseen : unseen (a.reachable ++ b.reachable).toFinset seen ≤
      (a.size + b.size) * (a.size + b.size) :=
    Nat.le_trans (unseen_le _ seen) (Nat.mul_le_mul hcard hcard)
  have hca := hS.crown_le a hmema
  have hcb := hS.crown_le b hmemb
  unfold depthBound
  generalize a.size + b.size = k at *
  calc unseen (a.reachable ++ b.reachable).toFinset seen * (k + 1) + max a.crown b.crown
      ≤ k * k * (k + 1) + k := Nat.add_le_add (Nat.mul_le_mul_right _ hunseen) (max_le hca hcb)
    _ < (k + 1) * (k + 1) * (k + 1) := by nlinarith [Nat.zero_le k]

end Comparison

end StructuralTypes
