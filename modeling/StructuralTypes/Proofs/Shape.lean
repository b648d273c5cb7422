import Mathlib.Data.Finset.Card
import StructuralTypes.Proofs.Unfolding
import StructuralTypes.Ty.Assumption

/-!
What a match of shapes says. Parameters match in pairs, every field of the left has a partner of its
name on the right, and the binders in front are as many on both sides. A closed type with distinct
fields has its own shape, so a comparison that comes back to a pair recognises it.
-/

namespace StructuralTypes

/-! ### Rows -/

@[simp] theorem Row.length_labels (row : Row) : row.labels.length = row.length := List.length_map _

@[simp] theorem Row.length_types (row : Row) : row.types.length = row.length := List.length_map _

theorem Row.mem_of_lookup {row : Row} {name : String} {t : Ty} (h : row.lookup name = some t) :
    (name, t) ∈ row := by
  obtain ⟨before, after, rfl, -⟩ := List.lookup_eq_some_iff.mp h
  simp

theorem Row.lookup_of_mem {row : Row} (hrow : row.labels.Nodup) {p : String × Ty} (hp : p ∈ row) :
    row.lookup p.1 = some p.2 := by
  induction row with
  | nil => cases hp
  | cons q row ih =>
      obtain ⟨hq, hrow⟩ := List.nodup_cons.mp hrow
      rcases List.mem_cons.mp hp with rfl | hp
      · exact List.lookup_cons_self
      · have hne : p.1 ≠ q.1 := by
          intro h
          exact hq (h ▸ List.mem_map_of_mem hp)
        rw [List.lookup_cons, beq_false_of_ne hne]
        exact ih hrow hp

theorem Row.mem_labels_of_lookup {row : Row} {name : String} {t : Ty}
    (h : row.lookup name = some t) : name ∈ row.labels :=
  List.mem_map_of_mem (Row.mem_of_lookup h)

/-- A row of distinct names that all occur in a row no longer has the same names as that row. -/
theorem Row.toFinset_labels_eq {row row' : Row} (h : row.labels.Nodup)
    (hlength : row'.length ≤ row.length) (hsub : ∀ f ∈ row, f.1 ∈ row'.labels) :
    row.labels.toFinset = row'.labels.toFinset := by
  refine Finset.eq_of_subset_of_card_le (fun name hname => ?_) ?_
  · obtain ⟨f, hf, rfl⟩ := List.mem_map.mp (List.mem_toFinset.mp hname)
    exact List.mem_toFinset.mpr (hsub f hf)
  · calc row'.labels.toFinset.card ≤ row'.labels.length := List.toFinset_card_le _
      _ = row'.length := row'.length_labels
      _ ≤ row.length := hlength
      _ = row.labels.length := row.length_labels.symm
      _ = row.labels.toFinset.card := (List.toFinset_card_of_nodup h).symm

namespace Ty

/-! ### Rows of one shape -/

theorem sameParams_iff {names : Renaming} {row row' : Row} :
    sameParams names row row' = true ↔
      List.Forall₂ (fun p q => sameShape names p.2 q.2 = true) row row' := by
  induction row generalizing row' with
  | nil => cases row' <;> simp [sameParams]
  | cons p row ih => cases row' <;> simp [sameParams, ih]

theorem sameFields_iff {names : Renaming} {row fields : Row} :
    sameFields names row fields = true ↔
      ∀ p ∈ row, ∃ u, fields.lookup p.1 = some u ∧ sameShape names p.2 u = true := by
  induction row with
  | nil => simp [sameFields]
  | cons p row ih =>
      rw [sameFields, Bool.and_eq_true, ih, List.forall_mem_cons]
      cases fields.lookup p.1 <;> simp

theorem length_eq_of_sameParams {names : Renaming} {row row' : Row}
    (h : sameParams names row row' = true) : row.length = row'.length :=
  (sameParams_iff.mp h).length_eq

theorem sameShape_of_sameParams {names : Renaming} {row row' : Row}
    (h : sameParams names row row' = true) {i : Nat} {c d : Ty}
    (hc : (Row.types row)[i]? = some c) (hd : (Row.types row')[i]? = some d) :
    sameShape names c d = true := by
  rw [Row.types, List.getElem?_map, Option.map_eq_some_iff] at hc hd
  obtain ⟨p, hp, rfl⟩ := hc
  obtain ⟨q, hq, rfl⟩ := hd
  have hpq : (p, q) ∈ row.zip row' :=
    List.mem_of_getElem? (List.getElem?_zip_eq_some.mpr ⟨hp, hq⟩)
  exact (List.forall₂_iff_zip.mp (sameParams_iff.mp h)).2 hpq

theorem sameShape_of_sameFields {names : Renaming} {fields fields' : Row}
    (h : sameFields names fields fields' = true) {name : String} {c d : Ty}
    (hc : fields.lookup name = some c) (hd : fields'.lookup name = some d) :
    sameShape names c d = true := by
  obtain ⟨u, hu, hshape⟩ := sameFields_iff.mp h _ (Row.mem_of_lookup hc)
  obtain rfl : u = d := Option.some.inj (hu.symm.trans hd)
  exact hshape

theorem toFinset_labels_of_sameFields {names : Renaming} {fields fields' : Row}
    (hnodup : fields.labels.Nodup) (hlength : fields.length = fields'.length)
    (h : sameFields names fields fields' = true) :
    fields.labels.toFinset = fields'.labels.toFinset := by
  refine Row.toFinset_labels_eq hnodup hlength.ge fun f hf => ?_
  obtain ⟨u, hu, -⟩ := sameFields_iff.mp h f hf
  exact Row.mem_labels_of_lookup hu

/-- A match of shapes pairs off the binders in front. -/
theorem binders_eq_of_sameShape {names : Renaming} {s t : Ty} (h : sameShape names s t = true) :
    s.binders = t.binders := by
  induction s generalizing names t with
  | mu x body ih =>
      cases t with
      | mu y body' => exact congrArg (· + 1) (ih h)
      | _ => exact absurd h Bool.false_ne_true
  | _ =>
      cases t with
      | mu y body' => exact absurd h Bool.false_ne_true
      | _ => rfl

/-- A type has its own shape as long as its free variables are their own partners. -/
theorem sameShape_self {names : Renaming} {t : Ty} (ht : t.DistinctFields)
    (hnames : ∀ x, Free x t → names.lookup x = some x) : sameShape names t t = true := by
  induction t generalizing names with
  | boolean => rfl
  | number => rfl
  | func params result hparams hresult =>
      rw [sameShape, Bool.and_eq_true, sameParams_iff]
      refine ⟨List.forall₂_same.mpr fun p hp => ?_, hresult ht.2 fun x hx => hnames x (.inr hx)⟩
      exact hparams p hp (distinctFieldsRow_iff.mp ht.1 p hp) fun x hx =>
        hnames x (.inl (freeIn_iff.mpr ⟨p, hp, hx⟩))
  | object fields hfields =>
      rw [sameShape, beq_self_eq_true, Bool.true_and, sameFields_iff]
      intro f hf
      refine ⟨f.2, Row.lookup_of_mem ht.1 hf, ?_⟩
      exact hfields f hf (distinctFieldsRow_iff.mp ht.2 f hf) fun x hx =>
        hnames x (freeIn_iff.mpr ⟨f, hf, hx⟩)
  | mu y body ih =>
      rw [sameShape]
      refine ih ht fun x hx => ?_
      by_cases hxy : x = y
      · rw [hxy, List.lookup_cons_self]
      · rw [List.lookup_cons, beq_false_of_ne hxy]
        exact hnames x ⟨Ne.symm hxy, hx⟩
  | var x => simp [sameShape, hnames x rfl]

theorem Proper.sameShape_self {t : Ty} (h : t.Proper) : sameShape [] t t = true :=
  Ty.sameShape_self h.distinct fun x hx => absurd hx (h.closed x)

end Ty

theorem Assumptions.cover_of_mem {seen : Assumptions} {a b : Ty} (h : (a, b) ∈ seen)
    (ha : a.Proper) (hb : b.Proper) : seen.cover a b = true := by
  rw [Assumptions.cover, List.any_eq_true]
  exact ⟨(a, b), h, by rw [ha.sameShape_self, hb.sameShape_self, Bool.and_self]⟩

theorem Assumptions.cover_iff {seen : Assumptions} {a b : Ty} :
    seen.cover a b = true ↔
      ∃ p ∈ seen, p.1.sameShape [] a = true ∧ p.2.sameShape [] b = true := by
  simp [Assumptions.cover, List.any_eq_true]

end StructuralTypes
