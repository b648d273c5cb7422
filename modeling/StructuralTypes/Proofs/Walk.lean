import Mathlib.Logic.Relation
import StructuralTypes.Proofs.Comparison

/-!
The walk that a comparison makes, and when its answer of yes is right. A place of the walk is a
pair with the assumptions made on the way to it, and a turn unfolds a side or goes below two heads.

An answer of yes is right just when it is right about the pairs that the walk recognises
(`holds_iff_recognised`). For contractive types it is also right if the walk never takes a pair for
an assumption with other trees (`holds_of_truthful`). That is the coinductive argument: at each
depth the assumptions are used only after a head has been passed, for between two heads unfolding
uses up binders, and a match of shapes counts them.
-/

namespace StructuralTypes

open Ty

/-- A place in a comparison: the assumptions made on the way and the pair to be compared. -/
structure Place where
  seen : Assumptions
  left : Ty
  right : Ty

/-- The pair has the shape of an assumption. -/
def Place.Recognised (place : Place) : Prop := place.seen.cover place.left place.right = true

/-- The turns that a comparison takes from a pair it does not recognise. -/
inductive Turn (C : Comparison) : Place → Place → Prop
  | left {seen : Assumptions} {x : String} {body b : Ty}
      (h : ¬ seen.cover (mu x body) b = true) :
      Turn C ⟨seen, mu x body, b⟩ ⟨(mu x body, b) :: seen, unroll x body, b⟩
  | right {seen : Assumptions} {a : Ty} {x : String} {body : Ty}
      (h : ¬ seen.cover a (mu x body) = true) (ha : a.Solid) :
      Turn C ⟨seen, a, mu x body⟩ ⟨(a, mu x body) :: seen, a, unroll x body⟩
  | below {seen : Assumptions} {a b p q : Ty} (h : ¬ seen.cover a b = true) (ha : a.Solid)
      (hb : b.Solid) (hd : some (p, q) ∈ C.demands a b) : Turn C ⟨seen, a, b⟩ ⟨seen, p, q⟩

abbrev Visits (C : Comparison) : Place → Place → Prop := Relation.ReflTransGen (Turn C)

namespace Comparison

variable {C : Comparison} {a b : Ty} {seen : Assumptions} {n bound : Nat} {place place' : Place}

/-! ### What a walk keeps -/

/-- A relation of pairs that no turn leads out of. -/
structure Stable (C : Comparison) (R : Ty → Ty → Prop) : Prop where
  left : ∀ {x body b}, R (mu x body) b → R (unroll x body) b
  right : ∀ {a x body}, R a (mu x body) → R a (unroll x body)
  below : ∀ {a b p q}, a.Solid → b.Solid → some (p, q) ∈ C.demands a b → R a b → R p q

theorem stable_of_step {P : Ty → Prop} (hstep : ∀ s t, Step s t → P s → P t) :
    Stable C fun a b => P a ∧ P b where
  left := fun h => ⟨hstep _ _ (.unroll _ _) h.1, h.2⟩
  right := fun h => ⟨h.1, hstep _ _ (.unroll _ _) h.2⟩
  below := fun _ _ hd h => demand_of_step hstep hd h.1 h.2

def Within (R : Ty → Ty → Prop) (place : Place) : Prop :=
  R place.left place.right ∧ ∀ p ∈ place.seen, R p.1 p.2

theorem Stable.turn {R : Ty → Ty → Prop} (hR : Stable C R) (h : Turn C place place')
    (hplace : Within R place) : Within R place' := by
  obtain ⟨hpair, hseen⟩ := hplace
  cases h with
  | left => exact ⟨hR.left hpair, List.forall_mem_cons.mpr ⟨hpair, hseen⟩⟩
  | right => exact ⟨hR.right hpair, List.forall_mem_cons.mpr ⟨hpair, hseen⟩⟩
  | below _ ha hb hd => exact ⟨hR.below ha hb hd hpair, hseen⟩

theorem Stable.visits {R : Ty → Ty → Prop} (hR : Stable C R) (h : Visits C place place')
    (hplace : Within R place) : Within R place' := by
  induction h with
  | refl => exact hplace
  | tail _ hturn ih => exact hR.turn hturn ih

structure Right (C : Comparison) (a b : Ty) : Prop where
  left : a.Proper
  right : b.Proper
  holds : C.Holds a b

theorem stable_right : Stable C (Right C) where
  left := fun h => ⟨(Step.unroll _ _).proper h.left, h.right,
    h.holds.of_tree_eq (tree_unroll _ _) rfl⟩
  right := fun h => ⟨h.left, (Step.unroll _ _).proper h.right,
    h.holds.of_tree_eq rfl (tree_unroll _ _)⟩
  below := by
    intro a b p q ha hb hd h
    obtain ⟨p', q', hpq, hholds⟩ :=
      h.holds.of_demand ha hb h.left.distinct h.right.distinct hd
    obtain ⟨rfl, rfl⟩ : p = p' ∧ q = q' := by simpa using hpq
    obtain ⟨hp, hq⟩ := demand_proper hd h.left h.right
    exact ⟨hp, hq, hholds⟩

/-! ### The pairs that are recognised -/

/-- An answer of yes holds if it holds of every pair that is recognised. -/
theorem holds_of_recognised (ha : a.Proper) (hb : b.Proper) (h : C.run bound seen a b = .ok true)
    (hplace : ∀ place, Visits C ⟨seen, a, b⟩ place → place.Recognised →
      C.Holds place.left place.right) : C.Holds a b := by
  induction bound generalizing seen a b with
  | zero => cases h
  | succ bound ih =>
      -- What is ahead of a turn is ahead of the place before it.
      have hturn {next : Place} (ht : Turn C ⟨seen, a, b⟩ next) (place : Place)
          (hv : Visits C next place) (hr : place.Recognised) : C.Holds place.left place.right :=
        hplace place (.head ht hv) hr
      rcases run_eq_true_cases ha.closed hb.closed h with hcover | ⟨hcover, h⟩
      · exact hplace _ .refl hcover
      · rcases h with ⟨x, body, rfl, h⟩ | ⟨hsa, x, body, rfl, h⟩ | ⟨hsa, hsb, h⟩
        · exact (ih ((Step.unroll x body).proper ha) hb h (hturn (.left hcover))).of_tree_eq
            (tree_unroll x body).symm rfl
        · exact (ih ha ((Step.unroll x body).proper hb) h (hturn (.right hcover hsa))).of_tree_eq
            rfl (tree_unroll x body).symm
        · intro n
          cases n with
          | zero => exact C.holdsTo_zero _ _
          | succ n =>
              rw [C.holdsTo_succ_iff hsa hsb ha.distinct hb.distinct]
              intro d hd
              obtain ⟨p, q, rfl, hpq⟩ := h d hd
              obtain ⟨hp, hq⟩ := demand_proper hd ha hb
              exact ⟨p, q, rfl, ih hp hq hpq (hturn (.below hcover hsa hsb hd)) n⟩

/-- An answer of yes is right if and only if it is right about the pairs that are recognised. -/
theorem holds_iff_recognised (ha : a.Proper) (hb : b.Proper)
    (h : C.run bound [] a b = .ok true) :
    C.Holds a b ↔
      ∀ place, Visits C ⟨[], a, b⟩ place → place.Recognised → C.Holds place.left place.right := by
  constructor
  · intro hholds place hv _
    exact (stable_right.visits hv ⟨⟨ha, hb, hholds⟩, List.forall_mem_nil _⟩).1.holds
  · exact holds_of_recognised ha hb h

/-! ### Shapes that are matched -/

/-- From here on, a pair with the shape of an assumption also has its trees. -/
def Truthful (C : Comparison) (place : Place) : Prop :=
  ∀ ahead, Visits C place ahead → ∀ p ∈ ahead.seen, sameShape [] p.1 ahead.left = true →
    sameShape [] p.2 ahead.right = true →
      p.1.tree = ahead.left.tree ∧ p.2.tree = ahead.right.tree

/-- From here on, an assumption whose shape a pair has also has the shape of that pair. -/
def Reversible (C : Comparison) (place : Place) : Prop :=
  ∀ ahead, Visits C place ahead → ∀ p ∈ ahead.seen, sameShape [] p.1 ahead.left = true →
    sameShape [] p.2 ahead.right = true →
      sameShape [] ahead.left p.1 = true ∧ sameShape [] ahead.right p.2 = true

theorem Truthful.turn (h : Truthful C place) (hturn : Turn C place place') : Truthful C place' :=
  fun ahead hv => h ahead (.head hturn hv)

/-- As far as `n` levels show, an answer of yes is right if the assumptions are. -/
def SoundTo (C : Comparison) (n : Nat) : Prop :=
  ∀ {bound : Nat} {seen : Assumptions} {a b : Ty}, a.Guarded → b.Guarded →
    Truthful C ⟨seen, a, b⟩ → C.run bound seen a b = .ok true →
    (∀ p ∈ seen, C.HoldsTo n p.1.tree p.2.tree) → C.HoldsTo n a.tree b.tree

/-- An assumption holds at a level, and at the next level unless it is one of those made since the
last head. These have more binders than the pair at hand, so the pair cannot have their shape. -/
def Carried (C : Comparison) (n : Nat) (a b : Ty) (p : Ty × Ty) : Prop :=
  C.HoldsTo n p.1.tree p.2.tree ∧
    (C.HoldsTo (n + 1) p.1.tree p.2.tree ∨
      a.binders + b.binders < p.1.binders + p.2.binders)

theorem Carried.of_le {a' b' : Ty} {p : Ty × Ty} (h : Carried C n a b p)
    (hle : a'.binders + b'.binders ≤ a.binders + b.binders) : Carried C n a' b' p :=
  ⟨h.1, h.2.imp_right hle.trans_lt⟩

theorem SoundTo.holdsTo_succ (hn : C.SoundTo n) (ha : a.Guarded) (hb : b.Guarded)
    (htruth : Truthful C ⟨seen, a, b⟩) (h : C.run bound seen a b = .ok true)
    (hseen : ∀ p ∈ seen, Carried C n a b p) : C.HoldsTo (n + 1) a.tree b.tree := by
  induction bound generalizing seen a b with
  | zero => cases h
  | succ bound ih =>
      have hab : C.HoldsTo n a.tree b.tree := hn ha hb htruth h fun p hp => (hseen p hp).1
      -- The pair is carried along once it is unfolded.
      have hcarried {a' b' : Ty} (hlt : a'.binders + b'.binders < a.binders + b.binders) :
          ∀ p ∈ (a, b) :: seen, Carried C n a' b' p :=
        List.forall_mem_cons.mpr ⟨⟨hab, .inr hlt⟩, fun p hp => (hseen p hp).of_le hlt.le⟩
      rcases run_eq_true_cases ha.closed hb.closed h with hcover | ⟨hcover, h⟩
      · obtain ⟨p, hp, hleft, hright⟩ := Assumptions.cover_iff.mp hcover
        have hbinders := congrArg₂ (· + ·) (binders_eq_of_sameShape hleft)
          (binders_eq_of_sameShape hright)
        have hp' := (hseen p hp).2.resolve_right (fun hlt => absurd hbinders hlt.ne')
        obtain ⟨htree, htree'⟩ := htruth _ .refl p hp hleft hright
        rwa [htree, htree'] at hp'
      · rcases h with ⟨x, body, rfl, h⟩ | ⟨hsa, x, body, rfl, h⟩ | ⟨hsa, hsb, h⟩
        · rw [← tree_unroll]
          exact ih ((Step.unroll x body).guarded ha) hb (htruth.turn (.left hcover)) h
            (hcarried (Nat.add_lt_add_right ha.binders_unroll_lt _))
        · rw [← tree_unroll]
          exact ih ha ((Step.unroll x body).guarded hb) (htruth.turn (.right hcover hsa)) h
            (hcarried (Nat.add_lt_add_left hb.binders_unroll_lt _))
        · rw [C.holdsTo_succ_iff hsa hsb ha.distinct hb.distinct]
          intro d hd
          obtain ⟨p, q, rfl, hpq⟩ := h d hd
          obtain ⟨hp, hq⟩ := demand_of_step (fun _ _ hstep => hstep.guarded) hd ha hb
          exact ⟨p, q, rfl, hn hp hq (htruth.turn (.below hcover hsa hsb hd)) hpq
            fun p hp => (hseen p hp).1⟩

theorem soundTo (C : Comparison) (n : Nat) : C.SoundTo n := by
  induction n with
  | zero => exact fun _ _ _ _ _ => C.holdsTo_zero _ _
  | succ n ih =>
      intro bound seen a b ha hb htruth h hseen
      exact ih.holdsTo_succ ha hb htruth h fun p hp => ⟨C.holdsTo_pred (hseen p hp),
        .inl (hseen p hp)⟩

/-- An answer of yes about contractive types is right if no match of shapes is mistaken. -/
theorem holds_of_truthful (ha : a.Guarded) (hb : b.Guarded) (h : C.run bound [] a b = .ok true)
    (htruth : Truthful C ⟨[], a, b⟩) : C.Holds a b :=
  fun n => C.soundTo n ha hb htruth h (List.forall_mem_nil _)

end Comparison

end StructuralTypes
