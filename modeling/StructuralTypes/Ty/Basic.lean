/-!
Types. A recursive type is a binder whose body may mention its name to mean the whole type again, so
a type is always a finite tree and the cycle is only meant. Parameters of functions and fields of
objects are rows: lists of labelled types.
-/

namespace StructuralTypes

inductive Ty where
  | boolean
  | number
  | func (params : List (String × Ty)) (result : Ty)
  | object (fields : List (String × Ty))
  | mu (binder : String) (body : Ty)
  | var (name : String)
  deriving Inhabited, Repr

abbrev Row := List (String × Ty)

def Row.labels (row : Row) : List String := row.map Prod.fst

def Row.types (row : Row) : List Ty := row.map Prod.snd

namespace Ty

/-- Induction on types, with the hypothesis for a row given for each of its members. -/
@[elab_as_elim, induction_eliminator]
theorem ind {motive : Ty → Prop}
    (boolean : motive .boolean) (number : motive .number)
    (func : ∀ params result, (∀ p ∈ params, motive p.2) → motive result →
      motive (.func params result))
    (object : ∀ fields, (∀ f ∈ fields, motive f.2) → motive (.object fields))
    (mu : ∀ binder body, motive body → motive (.mu binder body))
    (var : ∀ name, motive (.var name)) (t : Ty) : motive t :=
  @Ty.rec motive (fun row => ∀ p ∈ row, motive p.2) (fun p => motive p.2)
    boolean number func object mu var
    (fun _ h => nomatch h)
    (fun _ _ head rest p hp => by
      cases hp with
      | head => exact head
      | tail _ h => exact rest p h)
    (fun _ _ h => h) t

mutual

def size : Ty → Nat
  | boolean => 1
  | number => 1
  | func params result => sizeRow params + size result + 1
  | object fields => sizeRow fields + 1
  | mu _ body => size body + 1
  | var _ => 1

def sizeRow : Row → Nat
  | [] => 0
  | (_, t) :: row => size t + sizeRow row

end

theorem size_le_sizeRow {row : Row} {p : String × Ty} (h : p ∈ row) : p.2.size ≤ sizeRow row := by
  induction row with
  | nil => nomatch h
  | cons q row ih =>
      obtain ⟨n, t⟩ := q
      simp only [sizeRow]
      rcases List.mem_cons.mp h with rfl | h
      · exact Nat.le_add_right _ _
      · exact Nat.le_trans (ih h) (Nat.le_add_left _ _)

mutual

/-- Textual identity, in which only the names of parameters do not count. -/
def identical : Ty → Ty → Bool
  | boolean, boolean => true
  | number, number => true
  | func params result, func params' result' =>
      identicalParams params params' && identical result result'
  | object fields, object fields' => identicalFields fields fields'
  | mu x body, mu y body' => x == y && identical body body'
  | var x, var y => x == y
  | _, _ => false

def identicalParams : Row → Row → Bool
  | [], [] => true
  | (_, t) :: row, (_, u) :: row' => identical t u && identicalParams row row'
  | _, _ => false

def identicalFields : Row → Row → Bool
  | [], [] => true
  | (n, t) :: row, (m, u) :: row' => n == m && identical t u && identicalFields row row'
  | _, _ => false

end

theorem identical_refl (t : Ty) : t.identical t = true := by
  induction t with
  | boolean => rfl
  | number => rfl
  | func params result hparams hresult =>
      have h : identicalParams params params = true := by
        clear hresult
        induction params with
        | nil => rfl
        | cons p row ih =>
            simp only [identicalParams, Bool.and_eq_true]
            exact ⟨hparams p (by simp), ih fun q hq => hparams q (by simp [hq])⟩
      simp [identical, h, hresult]
  | object fields hfields =>
      have h : identicalFields fields fields = true := by
        induction fields with
        | nil => rfl
        | cons f row ih =>
            simp only [identicalFields, beq_self_eq_true, Bool.true_and, Bool.and_eq_true]
            exact ⟨hfields f (by simp), ih fun q hq => hfields q (by simp [hq])⟩
      simp [identical, h]
  | mu x body ih => simp [identical, ih]
  | var x => simp [identical]

/-- For each type of a list, where the first one identical to it stands. -/
def firstIdentical (types : List Ty) : List Nat :=
  types.map fun t => types.findIdx (identical t)

def binders : Ty → Nat
  | mu _ body => body.binders + 1
  | _ => 0

end Ty

end StructuralTypes
