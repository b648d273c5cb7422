import StructuralTypes.Ty.Unfolding

/-!
What callers promise of types. A type is closed if every variable is under a binder of its name,
contractive if no row of binders ends in a variable that one of them binds, and its fields are
distinct if no object has two of one name. All three are decided by computation. Closed types are
unfolded without capture, since substitution changes nothing where the variable is not free.
-/

namespace StructuralTypes.Ty

mutual

/-- Whether `x` occurs outside every binder of its name. -/
def Free (x : String) : Ty → Prop
  | boolean => False
  | number => False
  | func params result => FreeIn x params ∨ Free x result
  | object fields => FreeIn x fields
  | mu y body => y ≠ x ∧ Free x body
  | var y => y = x

def FreeIn (x : String) : Row → Prop
  | [] => False
  | (_, t) :: row => Free x t ∨ FreeIn x row

end

def Closed (t : Ty) : Prop := ∀ x, ¬ t.Free x

@[simp] theorem freeIn_iff {x : String} {row : Row} :
    FreeIn x row ↔ ∃ p ∈ row, Free x p.2 := by
  induction row with
  | nil => simp [FreeIn]
  | cons p row ih => simp [FreeIn, ih]

mutual

/-- The free variables, each as often as it occurs. -/
def freeVars : Ty → List String
  | boolean => []
  | number => []
  | func params result => freeVarsRow params ++ freeVars result
  | object fields => freeVarsRow fields
  | mu x body => (freeVars body).filter (· != x)
  | var x => [x]

def freeVarsRow : Row → List String
  | [] => []
  | (_, t) :: row => freeVars t ++ freeVarsRow row

end

theorem mem_freeVars_iff {x : String} {t : Ty} : x ∈ t.freeVars ↔ Free x t := by
  have row (row : Row) (ih : ∀ p ∈ row, x ∈ p.2.freeVars ↔ Free x p.2) :
      x ∈ freeVarsRow row ↔ FreeIn x row := by
    induction row with
    | nil => simp [freeVarsRow, FreeIn]
    | cons p row ihrow =>
        obtain ⟨hp, hrow⟩ := List.forall_mem_cons.mp ih
        rw [freeVarsRow, FreeIn, List.mem_append, hp, ihrow hrow]
  induction t with
  | boolean => simp [freeVars, Free]
  | number => simp [freeVars, Free]
  | func params result hparams hresult =>
      exact List.mem_append.trans (or_congr (row params hparams) hresult)
  | object fields hfields => exact row fields hfields
  | mu y body ih =>
      have hy : (x != y) = true ↔ y ≠ x := bne_iff_ne.trans ne_comm
      exact List.mem_filter.trans ((and_congr ih hy).trans and_comm)
  | var y => simp [freeVars, Free, eq_comm]

instance (x : String) (t : Ty) : Decidable (Free x t) :=
  decidable_of_decidable_of_iff mem_freeVars_iff

instance (t : Ty) : Decidable t.Closed :=
  decidable_of_decidable_of_iff (p := t.freeVars = []) (by
    simp only [List.eq_nil_iff_forall_not_mem, mem_freeVars_iff, Closed])

theorem subst_of_not_free {x : String} {r t : Ty} (h : ¬ Free x t) : subst x r t = t := by
  have row (row : Row) (ih : ∀ p ∈ row, ¬ Free x p.2 → subst x r p.2 = p.2)
      (hrow : ¬ FreeIn x row) : substRow x r row = row := by
    rw [substRow_eq_map]
    refine (List.map_congr_left fun p hp => ?_).trans (List.map_id row)
    have hp' : ¬ Free x p.2 := fun hfree => hrow (freeIn_iff.mpr ⟨p, hp, hfree⟩)
    rw [ih p hp hp', id]
  induction t with
  | boolean => rfl
  | number => rfl
  | func params result hparams hresult =>
      simp only [Free, not_or] at h
      rw [subst, row params hparams h.1, hresult h.2]
  | object fields hfields =>
      rw [subst, row fields hfields h]
  | mu y body ih =>
      by_cases hy : y = x
      · simp [subst, hy]
      · simp only [Free, not_and] at h
        simp [subst, hy, ih (h hy)]
  | var y =>
      have hy : y ≠ x := h
      simp [subst, hy]

/-- The variable at the end of the binders a type begins with, if there is one. -/
def tailVar : Ty → Option String
  | mu _ body => body.tailVar
  | var x => some x
  | _ => none

mutual

/-- No row of binders ends in a variable that one of them binds. -/
def Contractive : Ty → Prop
  | boolean => True
  | number => True
  | func params result => ContractiveRow params ∧ Contractive result
  | object fields => ContractiveRow fields
  | mu x body => body.tailVar ≠ some x ∧ Contractive body
  | var _ => True

def ContractiveRow : Row → Prop
  | [] => True
  | (_, t) :: row => Contractive t ∧ ContractiveRow row

end

@[simp] theorem contractiveRow_iff {row : Row} :
    ContractiveRow row ↔ ∀ p ∈ row, Contractive p.2 := by
  induction row with
  | nil => simp [ContractiveRow]
  | cons p row ih => simp [ContractiveRow, ih]

mutual

def decContractive : (t : Ty) → Decidable t.Contractive
  | boolean => isTrue trivial
  | number => isTrue trivial
  | func params result => @instDecidableAnd _ _ (decContractiveRow params) (decContractive result)
  | object fields => decContractiveRow fields
  | mu _ body => @instDecidableAnd _ _ inferInstance (decContractive body)
  | var _ => isTrue trivial

def decContractiveRow : (row : Row) → Decidable (ContractiveRow row)
  | [] => isTrue trivial
  | (_, t) :: row => @instDecidableAnd _ _ (decContractive t) (decContractiveRow row)

end

instance (t : Ty) : Decidable t.Contractive := decContractive t

mutual

/-- No object has two fields of one name. -/
def DistinctFields : Ty → Prop
  | boolean => True
  | number => True
  | func params result => DistinctFieldsRow params ∧ DistinctFields result
  | object fields => (Row.labels fields).Nodup ∧ DistinctFieldsRow fields
  | mu _ body => DistinctFields body
  | var _ => True

def DistinctFieldsRow : Row → Prop
  | [] => True
  | (_, t) :: row => DistinctFields t ∧ DistinctFieldsRow row

end

@[simp] theorem distinctFieldsRow_iff {row : Row} :
    DistinctFieldsRow row ↔ ∀ p ∈ row, DistinctFields p.2 := by
  induction row with
  | nil => simp [DistinctFieldsRow]
  | cons p row ih => simp [DistinctFieldsRow, ih]

mutual

def decDistinctFields : (t : Ty) → Decidable t.DistinctFields
  | boolean => isTrue trivial
  | number => isTrue trivial
  | func params result =>
      @instDecidableAnd _ _ (decDistinctFieldsRow params) (decDistinctFields result)
  | object fields => @instDecidableAnd _ _ inferInstance (decDistinctFieldsRow fields)
  | mu _ body => decDistinctFields body
  | var _ => isTrue trivial

def decDistinctFieldsRow : (row : Row) → Decidable (DistinctFieldsRow row)
  | [] => isTrue trivial
  | (_, t) :: row => @instDecidableAnd _ _ (decDistinctFields t) (decDistinctFieldsRow row)

end

instance (t : Ty) : Decidable t.DistinctFields := decDistinctFields t

end StructuralTypes.Ty
