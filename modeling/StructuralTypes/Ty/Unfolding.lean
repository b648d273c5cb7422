import StructuralTypes.Ty.Defect

/-!
Unfolding a recursive type puts the whole type in place of its name inside its own body. The result
is one level of the infinite tree and mentions the binder wherever the name occurred, so it can be
unfolded again.
-/

namespace StructuralTypes.Ty

mutual

/-- Replaces the free occurrences of `x` by `r`. A binder of the same name hides them; a binder of
another name may capture what is free in `r`, which is harmless for closed `r`. -/
def subst (x : String) (r : Ty) : Ty → Ty
  | boolean => boolean
  | number => number
  | func params result => func (substRow x r params) (subst x r result)
  | object fields => object (substRow x r fields)
  | mu y body => if y = x then mu y body else mu y (subst x r body)
  | var y => if y = x then r else var y

def substRow (x : String) (r : Ty) : Row → Row
  | [] => []
  | (name, t) :: row => (name, subst x r t) :: substRow x r row

end

@[simp] theorem substRow_eq_map (x : String) (r : Ty) (row : Row) :
    substRow x r row = row.map fun p => (p.1, subst x r p.2) := by
  induction row with
  | nil => rfl
  | cons p row ih => simp [substRow, ih]

@[simp] theorem labels_substRow (x : String) (r : Ty) (row : Row) :
    Row.labels (substRow x r row) = Row.labels row := by
  simp [Row.labels]

def unroll (x : String) (body : Ty) : Ty := subst x (mu x body) body

def unfold : Ty → Except Defect Ty
  | mu x body => .ok (unroll x body)
  | t => .error (.notRecursive t)

end StructuralTypes.Ty
