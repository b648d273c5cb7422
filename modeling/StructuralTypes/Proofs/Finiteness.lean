import Mathlib.Data.Set.Card
import StructuralTypes.Proofs.Identity
import StructuralTypes.Proofs.Reachable

/-!
Unfolding stays within finite bounds. Each unfolding copies a type into its own body, so the types
on the way down grow as texts without a bound that a step would keep; what bounds them is where they
come from. Each is the closing of one node of the type at the start, and there are no more of them
than that type has nodes. Steps lead from closed types to closed types, and from contractive ones to
contractive ones, so that every type on the way has both properties if the first has.
-/

namespace StructuralTypes.Ty

open Relation

variable {t u : Ty}

theorem Closed.of_steps (ht : t.Closed) (h : ReflTransGen Step t u) : u.Closed := by
  induction h with
  | refl => exact ht
  | tail _ hstep ih => exact hstep.closed ih

theorem Contractive.of_steps (ht : t.Contractive) (hclosed : t.Closed)
    (h : ReflTransGen Step t u) : u.Contractive := by
  induction h with
  | refl => exact ht
  | tail hsteps hstep ih => exact hstep.contractive (hclosed.of_steps hsteps) ih

/-- No more types are met than the type at the start has nodes, even if names of parameters tell
them apart. -/
theorem encard_steps_le (ht : t.Closed) : {u | ReflTransGen Step t u}.encard ≤ t.size := by
  classical
  have hset : {u | ReflTransGen Step t u} = ↑t.reachable.toFinset := by
    ext u
    rw [List.coe_toFinset]
    exact (mem_reachable_iff ht).symm
  rw [hset, Set.encard_coe_eq_coe_finsetCard, Nat.cast_le, ← length_reachable t]
  exact List.toFinset_card_le _

/-- Unfolding a closed type meets closed types only, no more of them than it has nodes, up to the
names of parameters, and contractive ones if it is contractive. -/
theorem steps_closed_and_encard_le (ht : t.Closed) :
    (∀ u, ReflTransGen Step t u → u.Closed) ∧
      (Set.image (Quotient.mk identity) {u | ReflTransGen Step t u}).encard ≤ t.size ∧
      (t.Contractive → ∀ u, ReflTransGen Step t u → u.Contractive) := by
  refine ⟨fun u => ht.of_steps, ?_, fun hcontractive u => hcontractive.of_steps ht⟩
  exact (Set.encard_image_le _ _).trans (encard_steps_le ht)

/-- A binder is shadowed inside another one that refers to both around it. -/
theorem steps_closed_and_encard_le_shadowed :
    let t := mu "X" (func [("f", var "X")] (mu "Y" (object [("m", var "X"),
      ("n", mu "X" (object [("k", var "X"), ("l", var "Y")]))])))
    t.Closed ∧ t.Contractive ∧
      (∀ u, ReflTransGen Step t u → u.Closed) ∧
      (Set.image (Quotient.mk identity) {u | ReflTransGen Step t u}).encard ≤ 10 ∧
      ∀ u, ReflTransGen Step t u → u.Contractive := by
  intro t
  have ht : t.Closed := by decide
  have hcontractive : t.Contractive := by decide
  obtain ⟨hclosed, hcard, hinherited⟩ := steps_closed_and_encard_le ht
  exact ⟨ht, hcontractive, hclosed, hcard, hinherited hcontractive⟩

end StructuralTypes.Ty
