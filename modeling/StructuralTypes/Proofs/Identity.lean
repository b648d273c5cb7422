import StructuralTypes.Ty.Shape

/-!
Textual identity. Two types are identical if nothing but the names of their parameters tells them
apart, that is, if they are one type once these names are dropped (`identical_iff`). So identity is
an equivalence. The match of shapes never looks at the names of parameters either, and identical
types match the same types.
-/

namespace StructuralTypes.Ty

mutual

def unnamed : Ty → Ty
  | boolean => boolean
  | number => number
  | func params result => func (unnamedParams params) (unnamed result)
  | object fields => object (unnamedFields fields)
  | mu x body => mu x (unnamed body)
  | var x => var x

def unnamedParams : Row → Row
  | [] => []
  | (_, t) :: row => ("", unnamed t) :: unnamedParams row

/-- Fields keep their names. -/
def unnamedFields : Row → Row
  | [] => []
  | (name, t) :: row => (name, unnamed t) :: unnamedFields row

end

theorem identicalParams_iff {row row' : Row}
    (h : ∀ p ∈ row, ∀ u, identical p.2 u = true ↔ unnamed p.2 = unnamed u) :
    identicalParams row row' = true ↔ unnamedParams row = unnamedParams row' := by
  induction row generalizing row' with
  | nil => cases row' <;> simp [identicalParams, unnamedParams]
  | cons p row ih =>
      obtain ⟨hp, hrow⟩ := List.forall_mem_cons.mp h
      cases row' with
      | nil => simp [identicalParams, unnamedParams]
      | cons q row' => simp [identicalParams, unnamedParams, hp q.2, ih hrow]

theorem identicalFields_iff {row row' : Row}
    (h : ∀ p ∈ row, ∀ u, identical p.2 u = true ↔ unnamed p.2 = unnamed u) :
    identicalFields row row' = true ↔ unnamedFields row = unnamedFields row' := by
  induction row generalizing row' with
  | nil => cases row' <;> simp [identicalFields, unnamedFields]
  | cons p row ih =>
      obtain ⟨hp, hrow⟩ := List.forall_mem_cons.mp h
      cases row' with
      | nil => simp [identicalFields, unnamedFields]
      | cons q row' => simp [identicalFields, unnamedFields, hp q.2, ih hrow]

theorem identical_iff {s t : Ty} : s.identical t = true ↔ s.unnamed = t.unnamed := by
  induction s generalizing t with
  | boolean => cases t <;> simp [identical, unnamed]
  | number => cases t <;> simp [identical, unnamed]
  | func params result hparams hresult =>
      have hrow (row : Row) : identicalParams params row = true ↔
          unnamedParams params = unnamedParams row :=
        identicalParams_iff fun p hp _ => hparams p hp
      cases t <;> simp [identical, unnamed, hrow, hresult]
  | object fields hfields =>
      have hrow (row : Row) : identicalFields fields row = true ↔
          unnamedFields fields = unnamedFields row :=
        identicalFields_iff fun f hf _ => hfields f hf
      cases t <;> simp [identical, unnamed, hrow]
  | mu x body ih => cases t <;> simp [identical, unnamed, ih]
  | var x => cases t <;> simp [identical, unnamed]

def identity : Setoid Ty where
  r s t := s.identical t = true
  iseqv :=
    { refl := identical_refl
      symm := fun h => identical_iff.mpr (identical_iff.mp h).symm
      trans := fun h h' => identical_iff.mpr ((identical_iff.mp h).trans (identical_iff.mp h')) }

theorem sameParams_unnamed {names : Renaming} {row row' : Row}
    (h : ∀ p ∈ row, ∀ u, sameShape names p.2.unnamed u = sameShape names p.2 u) :
    sameParams names (unnamedParams row) row' = sameParams names row row' := by
  induction row generalizing row' with
  | nil => rfl
  | cons p row ih =>
      obtain ⟨hp, hrow⟩ := List.forall_mem_cons.mp h
      cases row' with
      | nil => rfl
      | cons q row' => rw [unnamedParams, sameParams, hp, ih hrow, sameParams]

theorem sameFields_unnamed {names : Renaming} {row fields : Row}
    (h : ∀ p ∈ row, ∀ u, sameShape names p.2.unnamed u = sameShape names p.2 u) :
    sameFields names (unnamedFields row) fields = sameFields names row fields := by
  induction row with
  | nil => rfl
  | cons p row ih =>
      obtain ⟨hp, hrow⟩ := List.forall_mem_cons.mp h
      simp only [unnamedFields, sameFields, hp, ih hrow]

theorem length_unnamedFields (row : Row) : (unnamedFields row).length = row.length := by
  induction row with
  | nil => rfl
  | cons p row ih => rw [unnamedFields, List.length_cons, ih, List.length_cons]

theorem sameShape_unnamed (names : Renaming) (s t : Ty) :
    sameShape names s.unnamed t = sameShape names s t := by
  induction s generalizing names t with
  | boolean => rfl
  | number => rfl
  | func params result hparams hresult =>
      cases t with
      | func params' result' =>
          rw [unnamed, sameShape, sameParams_unnamed fun p hp => hparams p hp names, hresult,
            sameShape]
      | _ => rfl
  | object fields hfields =>
      cases t with
      | object fields' =>
          rw [unnamed, sameShape, sameFields_unnamed fun f hf => hfields f hf names,
            length_unnamedFields, sameShape]
      | _ => rfl
  | mu x body ih =>
      cases t with
      | mu y body' => exact ih _ body'
      | _ => rfl
  | var x => rfl

/-- Identical types have the same shape as the same types. -/
theorem sameShape_eq_of_identical {s s' : Ty} (h : s.identical s' = true) (names : Renaming)
    (t : Ty) : sameShape names s t = sameShape names s' t := by
  rw [← sameShape_unnamed, identical_iff.mp h, sameShape_unnamed]

end StructuralTypes.Ty
