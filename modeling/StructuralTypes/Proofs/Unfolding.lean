import Mathlib.Tactic.Tauto
import StructuralTypes.Ty.WellFormed

/-!
What unfolding keeps. A step leads from a type to its unfolding or to a type right below its head.
Steps from a closed type stay among closed types, and none of them gives up contractiveness or the
distinctness of fields.

The row of binders in front of a type decides how far it can be unfolded there. Substitution leaves
that row alone unless it ends in the replaced variable, and a row that ends in one of its own
variables never comes to an end.
-/

namespace StructuralTypes.Ty

/-! ### Free variables -/

/-- Substitution of a closed type removes one variable from the free ones and adds none. -/
theorem free_subst_iff {x y : String} {r : Ty} (hr : r.Closed) (t : Ty) :
    Free y (subst x r t) ↔ y ≠ x ∧ Free y t := by
  have row (row : Row) (ih : ∀ p ∈ row, (Free y (subst x r p.2) ↔ y ≠ x ∧ Free y p.2)) :
      FreeIn y (substRow x r row) ↔ y ≠ x ∧ FreeIn y row := by
    simp only [freeIn_iff, substRow_eq_map, List.mem_map]
    constructor
    · rintro ⟨_, ⟨p, hp, rfl⟩, hfree⟩
      obtain ⟨hne, hfree⟩ := (ih p hp).mp hfree
      exact ⟨hne, p, hp, hfree⟩
    · rintro ⟨hne, p, hp, hfree⟩
      exact ⟨_, ⟨p, hp, rfl⟩, (ih p hp).mpr ⟨hne, hfree⟩⟩
  induction t with
  | boolean => simp [subst, Free]
  | number => simp [subst, Free]
  | func params result hparams hresult =>
      simp only [subst, Free, row params hparams, hresult]
      tauto
  | object fields hfields => simp only [subst, Free, row fields hfields]
  | mu z body ih =>
      by_cases hz : z = x
      · subst hz
        simp only [subst, if_true, Free]
        tauto
      · simp only [subst, hz, if_false, Free, ih]
        tauto
  | var z =>
      by_cases hz : z = x
      · subst hz
        simp only [subst, if_true, Free]
        exact ⟨fun h => absurd h (hr y), fun h => absurd h.2.symm h.1⟩
      · simp only [subst, hz, if_false, Free]
        exact ⟨fun h => ⟨fun hyx => hz (h.trans hyx), h⟩, fun h => h.2⟩

theorem Closed.unroll {x : String} {body : Ty} (h : (mu x body).Closed) :
    (unroll x body).Closed := by
  intro y hy
  obtain ⟨hne, hfree⟩ := (free_subst_iff h body).mp hy
  exact h y ⟨hne.symm, hfree⟩

theorem not_closed_var (x : String) : ¬ (var x).Closed := fun h => h x rfl

/-! ### The binders in front -/

def leading : Ty → List String
  | mu x body => x :: body.leading
  | _ => []

theorem binders_eq_length_leading (t : Ty) : t.binders = t.leading.length := by
  induction t with
  | mu x body ih => simp [binders, leading, ih]
  | _ => rfl

/-- The binders in front end in a variable that one of them binds, so that unfolding them never
comes to a head. -/
def Headless (t : Ty) : Prop := ∃ x ∈ t.leading, t.tailVar = some x

theorem Headless.eq_mu {t : Ty} (h : t.Headless) : ∃ x body, t = mu x body := by
  obtain ⟨x, hx, -⟩ := h
  cases t with
  | mu y body => exact ⟨y, body, rfl⟩
  | _ => cases hx

theorem headless_mu {body : Ty} (x : String) (h : body.Headless) : (mu x body).Headless := by
  obtain ⟨y, hy, htail⟩ := h
  exact ⟨y, List.mem_cons_of_mem x hy, htail⟩

theorem headless_mu_of_tailVar {x : String} {body : Ty} (h : body.tailVar = some x) :
    (mu x body).Headless :=
  ⟨x, List.mem_cons_self, h⟩

theorem leading_subst {x : String} {r t : Ty} (h : t.tailVar ≠ some x) :
    (subst x r t).leading = t.leading := by
  induction t with
  | mu y body ih =>
      by_cases hy : y = x
      · simp [subst, hy]
      · simp [subst, hy, leading, ih h]
  | var y =>
      have hy : y ≠ x := fun hy => h (congrArg some hy)
      simp [subst, hy]
  | _ => rfl

theorem binders_unroll {x : String} {body : Ty} (h : body.tailVar ≠ some x) :
    (unroll x body).binders = body.binders := by
  rw [binders_eq_length_leading, binders_eq_length_leading, unroll, leading_subst h]

theorem tailVar_subst {x : String} {r t : Ty} (h : t.tailVar ≠ some x) :
    (subst x r t).tailVar = t.tailVar := by
  induction t with
  | mu y body ih =>
      by_cases hy : y = x
      · simp [subst, hy]
      · simpa [subst, hy, tailVar] using ih h
  | var y =>
      have hy : y ≠ x := fun hy => h (congrArg some hy)
      simp [subst, hy]
  | _ => rfl

theorem tailVar_subst_eq_or (x : String) (r t : Ty) :
    (subst x r t).tailVar = t.tailVar ∨ (subst x r t).tailVar = r.tailVar := by
  induction t with
  | mu y body ih =>
      by_cases hy : y = x
      · exact .inl (by rw [subst, if_pos hy])
      · rw [subst, if_neg hy]
        exact ih
  | var y =>
      by_cases hy : y = x
      · exact .inr (by rw [subst, if_pos hy])
      · exact .inl (by rw [subst, if_neg hy])
  | _ => exact .inl rfl

theorem headless_unroll_iff {x : String} {body : Ty} (h : body.tailVar ≠ some x) :
    (unroll x body).Headless ↔ (mu x body).Headless := by
  unfold Headless unroll
  rw [leading_subst h, tailVar_subst h]
  constructor
  · rintro ⟨y, hy, htail⟩
    exact ⟨y, List.mem_cons_of_mem x hy, htail⟩
  · rintro ⟨y, hy, htail⟩
    rcases List.mem_cons.mp hy with rfl | hy
    · exact absurd htail h
    · exact ⟨y, hy, htail⟩

/-- Where the row of binders ends in the replaced variable, or never ends, it takes over that a
headless replacement never ends. -/
theorem headless_subst {x : String} {r t : Ty} (hr : r.Headless)
    (h : t.Headless ∨ t.tailVar = some x) : (subst x r t).Headless := by
  induction t with
  | mu y body ih =>
      by_cases hy : y = x
      · subst hy
        rw [subst, if_pos rfl]
        exact h.elim id fun htail => headless_mu_of_tailVar htail
      · rw [subst, if_neg hy]
        -- The row either takes in the replacement or keeps its own end.
        by_cases htail : body.tailVar = some x
        · exact headless_mu y (ih (.inr htail))
        · rcases h with ⟨z, hz, hzt⟩ | h
          · rcases List.mem_cons.mp hz with rfl | hz
            · exact headless_mu_of_tailVar ((tailVar_subst htail).trans hzt)
            · exact headless_mu y (ih (.inl ⟨z, hz, hzt⟩))
          · exact absurd h htail
  | var y =>
      rcases h with ⟨_, hz, -⟩ | h
      · cases hz
      · have hy : y = x := Option.some.inj h
        rwa [subst, if_pos hy]
  | _ =>
      rcases h with ⟨_, hz, -⟩ | h
      · cases hz
      · cases h

theorem Headless.unroll {x : String} {body : Ty} (h : (mu x body).Headless) :
    (unroll x body).Headless := by
  by_cases htail : body.tailVar = some x
  · exact headless_subst h (.inr htail)
  · exact (headless_unroll_iff htail).mpr h

/-! ### Contractive types -/

theorem forall_mem_substRow {P : Ty → Prop} {x : String} {r : Ty} {row : Row} :
    (∀ p ∈ substRow x r row, P p.2) ↔ ∀ p ∈ row, P (subst x r p.2) := by
  rw [substRow_eq_map, List.forall_mem_map]

theorem Contractive.not_headless {t : Ty} (h : t.Contractive) : ¬ t.Headless := by
  induction t with
  | mu x body ih =>
      rintro ⟨y, hy, htail⟩
      rcases List.mem_cons.mp hy with rfl | hy
      · exact h.1 htail
      · exact ih h.2 ⟨y, hy, htail⟩
  | _ => exact fun ⟨_, hy, _⟩ => nomatch hy

/-- The variable behind the binders in front is free unless one of them binds it. -/
theorem free_of_tailVar {x : String} {t : Ty} (htail : t.tailVar = some x) (hx : x ∉ t.leading) :
    Free x t := by
  induction t with
  | mu y body ih =>
      rw [leading, List.mem_cons, not_or] at hx
      exact ⟨Ne.symm hx.1, ih htail hx.2⟩
  | var y => exact Option.some.inj htail
  | _ => cases htail

theorem Closed.tailVar_eq_none {t : Ty} (hclosed : t.Closed) (h : ¬ t.Headless) :
    t.tailVar = none := by
  cases htail : t.tailVar with
  | none => rfl
  | some x =>
      have hx : x ∉ t.leading := fun hx => h ⟨x, hx, htail⟩
      exact absurd (free_of_tailVar htail hx) (hclosed x)

theorem Contractive.subst {x : String} {r t : Ty} (hr : r.Contractive) (hclosed : r.Closed)
    (h : t.Contractive) : (subst x r t).Contractive := by
  have row (row : Row) (ih : ∀ p ∈ row, p.2.Contractive → (Ty.subst x r p.2).Contractive)
      (hrow : ContractiveRow row) : ContractiveRow (substRow x r row) := by
    rw [contractiveRow_iff] at hrow ⊢
    exact forall_mem_substRow.mpr fun p hp => ih p hp (hrow p hp)
  induction t with
  | boolean => exact h
  | number => exact h
  | func params result hparams hresult =>
      exact ⟨row params hparams h.1, hresult h.2⟩
  | object fields hfields => exact row fields hfields h
  | mu y body ih =>
      by_cases hy : y = x
      · rw [Ty.subst, if_pos hy]
        exact h
      · rw [Ty.subst, if_neg hy]
        refine ⟨?_, ih h.2⟩
        -- A closed contractive type ends in no variable, so the row may at most lose its end.
        have hr' : r.tailVar = none := hclosed.tailVar_eq_none hr.not_headless
        rcases tailVar_subst_eq_or x r body with hend | hend
        · rw [hend]
          exact h.1
        · simp [hend, hr']
  | var y =>
      by_cases hy : y = x
      · rwa [Ty.subst, if_pos hy]
      · rwa [Ty.subst, if_neg hy]

theorem DistinctFields.subst {x : String} {r t : Ty} (hr : r.DistinctFields)
    (h : t.DistinctFields) : (subst x r t).DistinctFields := by
  have row (row : Row) (ih : ∀ p ∈ row, p.2.DistinctFields → (Ty.subst x r p.2).DistinctFields)
      (hrow : DistinctFieldsRow row) : DistinctFieldsRow (substRow x r row) := by
    rw [distinctFieldsRow_iff] at hrow ⊢
    exact forall_mem_substRow.mpr fun p hp => ih p hp (hrow p hp)
  induction t with
  | boolean => exact h
  | number => exact h
  | func params result hparams hresult =>
      exact ⟨row params hparams h.1, hresult h.2⟩
  | object fields hfields =>
      refine ⟨?_, row fields hfields h.2⟩
      rw [labels_substRow]
      exact h.1
  | mu y body ih =>
      by_cases hy : y = x
      · rwa [Ty.subst, if_pos hy]
      · rw [Ty.subst, if_neg hy]
        exact ih h
  | var y =>
      by_cases hy : y = x
      · rwa [Ty.subst, if_pos hy]
      · rwa [Ty.subst, if_neg hy]

/-! ### Steps -/

/-- One step down from a type: to its unfolding, or to a type right below its head. -/
inductive Step : Ty → Ty → Prop
  | unroll (x : String) (body : Ty) : Step (mu x body) (unroll x body)
  | param {params : Row} {p : String × Ty} (result : Ty) (h : p ∈ params) :
      Step (func params result) p.2
  | result (params : Row) (result : Ty) : Step (func params result) result
  | field {fields : Row} {f : String × Ty} (h : f ∈ fields) : Step (object fields) f.2

structure Proper (t : Ty) : Prop where
  closed : t.Closed
  distinct : t.DistinctFields

theorem Step.closed {s t : Ty} (h : Step s t) (hs : s.Closed) : t.Closed := by
  cases h with
  | unroll x body => exact hs.unroll
  | param result hp => exact fun x hx => hs x (.inl (freeIn_iff.mpr ⟨_, hp, hx⟩))
  | result params result => exact fun x hx => hs x (.inr hx)
  | field hf => exact fun x hx => hs x (freeIn_iff.mpr ⟨_, hf, hx⟩)

theorem Step.distinctFields {s t : Ty} (h : Step s t) (hs : s.DistinctFields) :
    t.DistinctFields := by
  cases h with
  | unroll x body => exact DistinctFields.subst (r := mu x body) hs hs
  | param result hp => exact distinctFieldsRow_iff.mp hs.1 _ hp
  | result params result => exact hs.2
  | field hf => exact distinctFieldsRow_iff.mp hs.2 _ hf

theorem Step.contractive {s t : Ty} (h : Step s t) (hclosed : s.Closed) (hs : s.Contractive) :
    t.Contractive := by
  cases h with
  | unroll x body => exact hs.subst hclosed hs.2
  | param result hp => exact contractiveRow_iff.mp hs.1 _ hp
  | result params result => exact hs.2
  | field hf => exact contractiveRow_iff.mp hs _ hf

theorem Step.proper {s t : Ty} (h : Step s t) (hs : s.Proper) : t.Proper :=
  ⟨h.closed hs.closed, h.distinctFields hs.distinct⟩

structure Guarded (t : Ty) : Prop extends Proper t where
  contractive : t.Contractive

theorem guarded_iff {t : Ty} : t.Guarded ↔ t.Closed ∧ t.Contractive ∧ t.DistinctFields :=
  ⟨fun h => ⟨h.closed, h.contractive, h.distinct⟩, fun h => ⟨⟨h.1, h.2.2⟩, h.2.1⟩⟩

theorem Step.guarded {s t : Ty} (h : Step s t) (hs : s.Guarded) : t.Guarded :=
  ⟨h.proper hs.toProper, h.contractive hs.closed hs.contractive⟩

theorem Guarded.binders_unroll_lt {x : String} {body : Ty} (h : (mu x body).Guarded) :
    (unroll x body).binders < (mu x body).binders := by
  rw [binders_unroll h.contractive.1, binders]
  exact Nat.lt_succ_self _

end StructuralTypes.Ty
