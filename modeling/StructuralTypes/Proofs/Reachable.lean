import Mathlib.Logic.Function.Basic
import Mathlib.Logic.Relation
import StructuralTypes.Proofs.Unfolding

/-!
The types met on the way down from a closed type. Unfolding copies a type into its own body, so the
types met grow, and yet there are only as many as the type has nodes: each of them is a node of the
type with its variables closed off, every variable standing for the closed-off binder it belongs to.

`close` does the closing off, `closings` collects the results node by node, and a step from one of
them leads to another (`step_mem_closings`), so that these are the types met
(`mem_reachable_iff`). Between two unfoldings the part of a type above its
binders gets smaller; `crown` measures it, and no type met has more of it than the type at the start
has nodes.
-/

namespace StructuralTypes.Ty

/-! ### Closing off -/

/-- What the variables stand for; a variable without a value stays as it is. -/
abbrev Values := String → Option Ty

def Values.All (P : Ty → Prop) (σ : Values) : Prop := ∀ x u, σ x = some u → P u

theorem Values.All.update {P : Ty → Prop} {σ : Values} (h : σ.All P) (x : String)
    {v : Option Ty} (hv : ∀ u, v = some u → P u) :
    Values.All P (Function.update σ x v) := by
  intro y u hy
  by_cases hyx : y = x
  · subst hyx
    rw [Function.update_self] at hy
    exact hv u hy
  · rw [Function.update_of_ne hyx] at hy
    exact h y u hy

theorem Values.All.without {P : Ty → Prop} {σ : Values} (h : σ.All P) (x : String) :
    Values.All P (Function.update σ x none) :=
  h.update x fun _ hu => nomatch hu

mutual

/-- Puts the values of all free variables in place at once. -/
def close (σ : Values) : Ty → Ty
  | boolean => boolean
  | number => number
  | func params result => func (closeRow σ params) (close σ result)
  | object fields => object (closeRow σ fields)
  | mu x body => mu x (close (Function.update σ x none) body)
  | var x => (σ x).getD (var x)

def closeRow (σ : Values) : Row → Row
  | [] => []
  | (name, t) :: row => (name, close σ t) :: closeRow σ row

end

@[simp] theorem closeRow_eq_map (σ : Values) (row : Row) :
    closeRow σ row = row.map fun p => (p.1, close σ p.2) := by
  induction row with
  | nil => rfl
  | cons p row ih => simp [closeRow, ih]

theorem types_closeRow (σ : Values) (row : Row) :
    Row.types (closeRow σ row) = (Row.types row).map (close σ) := by
  simp [Row.types]

theorem labels_closeRow (σ : Values) (row : Row) :
    Row.labels (closeRow σ row) = Row.labels row := by
  simp [Row.labels]

theorem close_eq_self {σ : Values} {t : Ty} (h : ∀ x, Free x t → σ x = none) :
    close σ t = t := by
  have row {σ : Values} (row : Row) (ih : ∀ p ∈ row, close σ p.2 = p.2) :
      closeRow σ row = row := by
    rw [closeRow_eq_map]
    refine (List.map_congr_left fun p hp => ?_).trans (List.map_id row)
    rw [ih p hp, id]
  induction t generalizing σ with
  | boolean => rfl
  | number => rfl
  | func params result hparams hresult =>
      rw [close, hresult fun x hx => h x (.inr hx), row params fun p hp => hparams p hp fun x hx =>
        h x (.inl (freeIn_iff.mpr ⟨p, hp, hx⟩))]
  | object fields hfields =>
      rw [close, row fields fun f hf => hfields f hf fun x hx =>
        h x (freeIn_iff.mpr ⟨f, hf, hx⟩)]
  | mu y body ih =>
      rw [close, ih fun x hx => ?_]
      by_cases hxy : x = y
      · rw [hxy, Function.update_self]
      · rw [Function.update_of_ne hxy]
        exact h x ⟨Ne.symm hxy, hx⟩
  | var x =>
      rw [close, h x rfl]
      rfl

theorem close_none (t : Ty) : close (fun _ => none) t = t := close_eq_self fun _ _ => rfl

theorem Closed.close_eq {t : Ty} (h : t.Closed) (σ : Values) : close σ t = t :=
  close_eq_self fun x hx => absurd hx (h x)

/-- A value that was left out may be put in afterwards. -/
theorem subst_close {σ : Values} {x : String} {r : Ty} (h : σ.All fun u => ¬ Free x u)
    (t : Ty) :
    subst x r (close (Function.update σ x none) t) = close (Function.update σ x (some r)) t := by
  have row (σ : Values) (row : Row)
      (ih : ∀ p ∈ row, subst x r (close (Function.update σ x none) p.2) =
        close (Function.update σ x (some r)) p.2) :
      substRow x r (closeRow (Function.update σ x none) row) =
        closeRow (Function.update σ x (some r)) row := by
    simp only [substRow_eq_map, closeRow_eq_map, List.map_map]
    refine List.map_congr_left fun p hp => ?_
    simp [ih p hp]
  induction t generalizing σ with
  | boolean => rfl
  | number => rfl
  | func params result hparams hresult =>
      rw [close, subst, row σ params fun p hp => hparams p hp h, hresult h, close]
  | object fields hfields =>
      rw [close, subst, row σ fields fun p hp => hfields p hp h, close]
  | mu y body ih =>
      by_cases hy : y = x
      · subst hy
        simp [close, subst]
      · rw [close, subst, if_neg hy, Function.update_comm (Ne.symm hy), ih (h.without y), close,
          Function.update_comm hy]
  | var y =>
      by_cases hy : y = x
      · subst hy
        simp [close, subst]
      · rw [close, close, Function.update_of_ne hy, Function.update_of_ne hy]
        cases hσ : σ y with
        | none => simp [subst, hy]
        | some u => exact subst_of_not_free (h y u hσ)

theorem subst_eq_close (x : String) (r t : Ty) :
    subst x r t = close (Function.update (fun _ => none) x (some r)) t := by
  have h := subst_close (σ := fun _ => none) (x := x) (r := r) (fun _ _ hu => nomatch hu) t
  rwa [Function.update_eq_self, close_none] at h

theorem free_close {σ : Values} (h : σ.All Closed) {x : String} {t : Ty}
    (hx : Free x (close σ t)) : Free x t ∧ σ x = none := by
  have row (σ : Values) (row : Row)
      (ih : ∀ p ∈ row, Free x (close σ p.2) → Free x p.2 ∧ σ x = none)
      (hrow : FreeIn x (closeRow σ row)) : FreeIn x row ∧ σ x = none := by
    rw [closeRow_eq_map, freeIn_iff] at hrow
    obtain ⟨_, hq, hfree⟩ := hrow
    obtain ⟨p, hp, rfl⟩ := List.mem_map.mp hq
    obtain ⟨hfree, hσ⟩ := ih p hp hfree
    exact ⟨freeIn_iff.mpr ⟨p, hp, hfree⟩, hσ⟩
  induction t generalizing σ with
  | boolean => cases hx
  | number => cases hx
  | func params result hparams hresult =>
      rcases hx with hx | hx
      · obtain ⟨hfree, hσ⟩ := row σ params (fun p hp => hparams p hp h) hx
        exact ⟨.inl hfree, hσ⟩
      · obtain ⟨hfree, hσ⟩ := hresult h hx
        exact ⟨.inr hfree, hσ⟩
  | object fields hfields => exact row σ fields (fun p hp => hfields p hp h) hx
  | mu y body ih =>
      obtain ⟨hne, hx⟩ := hx
      obtain ⟨hfree, hnone⟩ := ih (h.without y) hx
      rw [Function.update_of_ne (Ne.symm hne)] at hnone
      exact ⟨⟨hne, hfree⟩, hnone⟩
  | var y =>
      rw [close] at hx
      cases hσ : σ y with
      | none =>
          rw [hσ] at hx
          have hy : y = x := hx
          exact ⟨hy, hy ▸ hσ⟩
      | some u =>
          rw [hσ] at hx
          exact absurd hx (h y u hσ x)

/-- The values close a type off: they are closed, no more of them is in sight than a binder, and
none is missing. -/
structure Closing (σ : Values) (t : Ty) : Prop where
  closed : σ.All Closed
  recursive : σ.All fun u => ∃ x body, u = mu x body
  total : ∀ x, Free x t → ∃ u, σ x = some u

theorem Closing.closed_close {σ : Values} {t : Ty} (h : Closing σ t) : (close σ t).Closed := by
  intro x hx
  obtain ⟨hfree, hnone⟩ := free_close h.closed hx
  obtain ⟨u, hu⟩ := h.total x hfree
  rw [hnone] at hu
  cases hu

theorem closing_none {t : Ty} (h : t.Closed) : Closing (fun _ => none) t where
  closed := fun _ _ hu => nomatch hu
  recursive := fun _ _ hu => nomatch hu
  total := fun x hx => absurd hx (h x)

theorem Closing.params {σ : Values} {params : Row} {result : Ty}
    (h : Closing σ (func params result)) {p : String × Ty} (hp : p ∈ params) : Closing σ p.2 :=
  ⟨h.closed, h.recursive, fun x hx => h.total x (.inl (freeIn_iff.mpr ⟨p, hp, hx⟩))⟩

theorem Closing.result {σ : Values} {params : Row} {result : Ty}
    (h : Closing σ (func params result)) : Closing σ result :=
  ⟨h.closed, h.recursive, fun x hx => h.total x (.inr hx)⟩

theorem Closing.fields {σ : Values} {fields : Row} (h : Closing σ (object fields))
    {f : String × Ty} (hf : f ∈ fields) : Closing σ f.2 :=
  ⟨h.closed, h.recursive, fun x hx => h.total x (freeIn_iff.mpr ⟨f, hf, hx⟩)⟩

/-- The values inside a binder: its name stands for the closed-off binder itself. -/
def Values.enter (σ : Values) (x : String) (body : Ty) : Values :=
  Function.update σ x (some (close σ (mu x body)))

theorem Closing.enter {σ : Values} {x : String} {body : Ty} (h : Closing σ (mu x body)) :
    Closing (σ.enter x body) body where
  closed := h.closed.update x fun u hu => by
    rw [← Option.some.inj hu]
    exact h.closed_close
  recursive := h.recursive.update x fun u hu => by
    rw [← Option.some.inj hu]
    exact ⟨x, _, rfl⟩
  total := by
    intro y hy
    by_cases hyx : y = x
    · exact ⟨_, by rw [hyx, Values.enter, Function.update_self]⟩
    · obtain ⟨u, hu⟩ := h.total y ⟨Ne.symm hyx, hy⟩
      exact ⟨u, by rw [Values.enter, Function.update_of_ne hyx, hu]⟩

/-- Unfolding a closed-off binder closes its body off. -/
theorem Closing.unroll_close {σ : Values} {x : String} {body : Ty} (h : Closing σ (mu x body)) :
    unroll x (close (Function.update σ x none) body) = close (σ.enter x body) body :=
  subst_close (fun y u hu => h.closed y u hu x) body

/-! ### The closings of a type -/

mutual

def closings (σ : Values) : Ty → List Ty
  | boolean => [boolean]
  | number => [number]
  | func params result =>
      close σ (func params result) :: (closingsRow σ params ++ closings σ result)
  | object fields => close σ (object fields) :: closingsRow σ fields
  | mu x body => close σ (mu x body) :: closings (σ.enter x body) body
  | var x => [close σ (var x)]

def closingsRow (σ : Values) : Row → List Ty
  | [] => []
  | (_, t) :: row => closings σ t ++ closingsRow σ row

end

theorem mem_closingsRow {σ : Values} {row : Row} {u : Ty} :
    u ∈ closingsRow σ row ↔ ∃ p ∈ row, u ∈ closings σ p.2 := by
  induction row with
  | nil => simp [closingsRow]
  | cons p row ih => simp [closingsRow, ih]

theorem close_mem_closings (σ : Values) (t : Ty) : close σ t ∈ closings σ t := by
  cases t <;> simp [closings, close]

theorem length_closings (σ : Values) (t : Ty) : (closings σ t).length = t.size := by
  have row (σ : Values) (row : Row) (ih : ∀ p ∈ row, (closings σ p.2).length = p.2.size) :
      (closingsRow σ row).length = sizeRow row := by
    induction row with
    | nil => rfl
    | cons p row ihrow =>
        rw [closingsRow, List.length_append, sizeRow, ih p List.mem_cons_self,
          ihrow fun q hq => ih q (List.mem_cons_of_mem p hq)]
  induction t generalizing σ with
  | boolean => rfl
  | number => rfl
  | func params result hparams hresult =>
      simp [closings, size, row σ params fun p hp => hparams p hp σ, hresult]
  | object fields hfields => simp [closings, size, row σ fields fun p hp => hfields p hp σ]
  | mu x body ih => simp [closings, size, ih]
  | var x => rfl

/-- Steps lead from closings to closings, provided that they do so from the values of variables. -/
theorem step_mem_closings {P : Ty → Prop} {σ : Values} {t : Ty} (h : Closing σ t)
    (hP : ∀ u ∈ closings σ t, P u) (hσ : σ.All fun u => ∀ v, Step u v → P v) :
    ∀ u ∈ closings σ t, ∀ v, Step u v → P v := by
  have row {σ : Values} {row : Row}
      (ih : ∀ p ∈ row, (∀ u ∈ closings σ p.2, P u) →
        ∀ u ∈ closings σ p.2, ∀ v, Step u v → P v)
      (hP : ∀ u ∈ closingsRow σ row, P u) :
      ∀ u ∈ closingsRow σ row, ∀ v, Step u v → P v := by
    intro u hu
    obtain ⟨p, hp, hu⟩ := mem_closingsRow.mp hu
    exact ih p hp (fun w hw => hP w (mem_closingsRow.mpr ⟨p, hp, hw⟩)) u hu
  -- The type right below a closed-off head is the closed-off type below that head.
  have below {σ : Values} {row : Row} (hP : ∀ u ∈ closingsRow σ row, P u) {p : String × Ty}
      (hp : p ∈ closeRow σ row) : P p.2 := by
    rw [closeRow_eq_map] at hp
    obtain ⟨q, hq, rfl⟩ := List.mem_map.mp hp
    exact hP _ (mem_closingsRow.mpr ⟨q, hq, close_mem_closings σ q.2⟩)
  induction t generalizing σ with
  | boolean =>
      intro u hu v hv
      rw [closings, List.mem_singleton] at hu
      subst hu
      cases hv
  | number =>
      intro u hu v hv
      rw [closings, List.mem_singleton] at hu
      subst hu
      cases hv
  | func params result hparams hresult =>
      simp only [closings, List.mem_cons, List.mem_append] at hP ⊢
      have hPparams := fun u hu => hP u (.inr (.inl hu))
      have hPresult := fun u hu => hP u (.inr (.inr hu))
      rintro u (rfl | hu | hu) v hv
      · cases hv with
        | param _ hp => exact below hPparams hp
        | result => exact hPresult _ (close_mem_closings σ result)
      · exact row (fun p hp hPp => hparams p hp (h.params hp) hPp hσ) hPparams u hu v hv
      · exact hresult h.result hPresult hσ u hu v hv
  | object fields hfields =>
      simp only [closings, List.mem_cons] at hP ⊢
      have hPfields := fun u hu => hP u (.inr hu)
      rintro u (rfl | hu) v hv
      · cases hv with
        | field hf => exact below hPfields hf
      · exact row (fun f hf hPf => hfields f hf (h.fields hf) hPf hσ) hPfields u hu v hv
  | mu x body ih =>
      simp only [closings, List.mem_cons] at hP ⊢
      have hunroll : ∀ v, Step (close σ (mu x body)) v → P v := by
        intro v hv
        cases hv with
        | unroll =>
            rw [h.unroll_close]
            exact hP _ (.inr (close_mem_closings _ body))
      rintro u (rfl | hu)
      · exact hunroll
      -- Inside the body the name stands for the binder, of which the claim has just been shown.
      · refine ih h.enter (fun w hw => hP w (.inr hw)) (hσ.update x ?_) u hu
        intro w hw
        rw [← Option.some.inj hw]
        exact hunroll
  | var x =>
      intro u hu
      rw [closings, List.mem_singleton] at hu
      obtain ⟨w, hw⟩ := h.total x rfl
      rw [hu, close, hw]
      exact hσ x w hw

/-- Every closing is met on some way down. -/
theorem reflTransGen_of_mem_closings {σ : Values} {t : Ty} (h : Closing σ t) :
    ∀ u ∈ closings σ t, Relation.ReflTransGen Step (close σ t) u := by
  have row {σ : Values} {row : Row} {s : Ty}
      (hs : ∀ p ∈ row, Step s (close σ p.2))
      (ih : ∀ p ∈ row, ∀ u ∈ closings σ p.2, Relation.ReflTransGen Step (close σ p.2) u) :
      ∀ u ∈ closingsRow σ row, Relation.ReflTransGen Step s u := by
    intro u hu
    obtain ⟨p, hp, hu⟩ := mem_closingsRow.mp hu
    exact .head (hs p hp) (ih p hp u hu)
  have mem_closeRow {σ : Values} {row : Row} {p : String × Ty} (hp : p ∈ row) :
      (p.1, close σ p.2) ∈ closeRow σ row := by
    rw [closeRow_eq_map]
    exact List.mem_map_of_mem hp
  induction t generalizing σ with
  | boolean => simp [closings, close, Relation.ReflTransGen.refl]
  | number => simp [closings, close, Relation.ReflTransGen.refl]
  | func params result hparams hresult =>
      simp only [closings, List.mem_cons, List.mem_append]
      rintro u (rfl | hu | hu)
      · exact .refl
      · exact row (fun p hp => Step.param _ (mem_closeRow hp))
          (fun p hp => hparams p hp (h.params hp)) u hu
      · exact .head (Step.result _ _) (hresult h.result u hu)
  | object fields hfields =>
      simp only [closings, List.mem_cons]
      rintro u (rfl | hu)
      · exact .refl
      · exact row (fun f hf => Step.field (mem_closeRow hf))
          (fun f hf => hfields f hf (h.fields hf)) u hu
  | mu x body ih =>
      simp only [closings, List.mem_cons]
      rintro u (rfl | hu)
      · exact .refl
      -- A step away from the binder lies its body closed off, which is where its closings begin.
      · have hstep : Step (close σ (mu x body)) (close (σ.enter x body) body) := by
          rw [← h.unroll_close]
          exact Step.unroll x _
        exact .head hstep (ih h.enter u hu)
  | var x =>
      simp only [closings, List.mem_singleton]
      rintro u rfl
      exact .refl

/-! ### The part above the binders -/

mutual

/-- The number of nodes of a type above its binders and variables. -/
def crown : Ty → Nat
  | boolean => 1
  | number => 1
  | func params result => crownRow params + crown result + 1
  | object fields => crownRow fields + 1
  | mu _ _ => 0
  | var _ => 0

def crownRow : Row → Nat
  | [] => 0
  | (_, t) :: row => crown t + crownRow row

end

theorem crown_le_crownRow {row : Row} {p : String × Ty} (h : p ∈ row) :
    p.2.crown ≤ crownRow row := by
  induction row with
  | nil => cases h
  | cons q row ih =>
      rw [crownRow]
      rcases List.mem_cons.mp h with rfl | h
      · exact Nat.le_add_right _ _
      · exact Nat.le_trans (ih h) (Nat.le_add_left _ _)

theorem crown_le_size (t : Ty) : t.crown ≤ t.size := by
  have row (row : Row) (ih : ∀ p ∈ row, p.2.crown ≤ p.2.size) : crownRow row ≤ sizeRow row := by
    induction row with
    | nil => exact Nat.le_refl 0
    | cons p row ihrow =>
        rw [crownRow, sizeRow]
        exact Nat.add_le_add (ih p List.mem_cons_self)
          (ihrow fun q hq => ih q (List.mem_cons_of_mem p hq))
  induction t with
  | boolean => exact Nat.le_refl 1
  | number => exact Nat.le_refl 1
  | func params result hparams hresult =>
      have := row params hparams
      simp only [crown, size]
      omega
  | object fields hfields =>
      have := row fields hfields
      simp only [crown, size]
      omega
  | mu x body ih => exact Nat.zero_le _
  | var x => exact Nat.zero_le _

/-- Away from binders a step goes to a smaller crown. -/
theorem Step.crown_lt {s t : Ty} (h : Step s t) (hs : ∀ x body, s ≠ mu x body) :
    t.crown < s.crown := by
  cases h with
  | unroll x body => exact absurd rfl (hs x body)
  | param result hp =>
      have := crown_le_crownRow hp
      simp only [crown]
      omega
  | result params result =>
      simp only [crown]
      omega
  | field hf =>
      have := crown_le_crownRow hf
      simp only [crown]
      omega

theorem crown_close {σ : Values} (h : σ.All fun u => ∃ x body, u = mu x body) (t : Ty) :
    (close σ t).crown = t.crown := by
  have row (row : Row) (ih : ∀ p ∈ row, (close σ p.2).crown = p.2.crown) :
      crownRow (closeRow σ row) = crownRow row := by
    induction row with
    | nil => rfl
    | cons p row ihrow =>
        rw [closeRow, crownRow, crownRow, ih p List.mem_cons_self,
          ihrow fun q hq => ih q (List.mem_cons_of_mem p hq)]
  induction t with
  | boolean => rfl
  | number => rfl
  | func params result hparams hresult => rw [close, crown, row params hparams, hresult, crown]
  | object fields hfields => rw [close, crown, row fields hfields, crown]
  | mu x body ih => rfl
  | var x =>
      rw [close]
      cases hσ : σ x with
      | none => rfl
      | some u =>
          obtain ⟨y, body, rfl⟩ := h x u hσ
          rfl

theorem crown_le_of_mem_closings {σ : Values} {t : Ty} (h : Closing σ t) :
    ∀ u ∈ closings σ t, u.crown ≤ t.size := by
  have row {σ : Values} {row : Row} {n : Nat} (hn : sizeRow row ≤ n)
      (ih : ∀ p ∈ row, ∀ u ∈ closings σ p.2, u.crown ≤ p.2.size) :
      ∀ u ∈ closingsRow σ row, u.crown ≤ n := by
    intro u hu
    obtain ⟨p, hp, hu⟩ := mem_closingsRow.mp hu
    exact Nat.le_trans (ih p hp u hu) (Nat.le_trans (size_le_sizeRow hp) hn)
  have self {σ : Values} {t : Ty} (h : Closing σ t) : (close σ t).crown ≤ t.size := by
    rw [crown_close h.recursive]
    exact crown_le_size t
  induction t generalizing σ with
  | boolean => simp [closings, crown, size]
  | number => simp [closings, crown, size]
  | func params result hparams hresult =>
      simp only [closings, List.mem_cons, List.mem_append]
      rintro u (rfl | hu | hu)
      · exact self h
      · exact row (by simp only [size]; omega) (fun p hp => hparams p hp (h.params hp)) u hu
      · have := hresult h.result u hu
        simp only [size]
        omega
  | object fields hfields =>
      simp only [closings, List.mem_cons]
      rintro u (rfl | hu)
      · exact self h
      · exact row (by simp only [size]; omega) (fun f hf => hfields f hf (h.fields hf)) u hu
  | mu x body ih =>
      simp only [closings, List.mem_cons]
      rintro u (rfl | hu)
      · exact self h
      · have := ih h.enter u hu
        simp only [size]
        omega
  | var x =>
      simp only [closings, List.mem_singleton]
      rintro u rfl
      exact self h

/-! ### Reachable types -/

/-- The types that steps from a closed type lead to (`mem_reachable_iff`). -/
def reachable (t : Ty) : List Ty := closings (fun _ => none) t

theorem length_reachable (t : Ty) : t.reachable.length = t.size := length_closings _ t

theorem self_mem_reachable (t : Ty) : t ∈ t.reachable := by
  have h := close_mem_closings (fun _ => none) t
  rwa [close_none] at h

theorem step_mem_reachable {t u v : Ty} (ht : t.Closed) (hu : u ∈ t.reachable) (h : Step u v) :
    v ∈ t.reachable :=
  step_mem_closings (P := (· ∈ t.reachable)) (closing_none ht) (fun _ hw => hw)
    (fun _ _ hw => nomatch hw) u hu v h

theorem mem_reachable_iff {t u : Ty} (ht : t.Closed) :
    u ∈ t.reachable ↔ Relation.ReflTransGen Step t u := by
  constructor
  · intro hu
    have h := reflTransGen_of_mem_closings (closing_none ht) u hu
    rwa [close_none] at h
  · intro h
    induction h with
    | refl => exact self_mem_reachable t
    | tail _ hstep ih => exact step_mem_reachable ht ih hstep

theorem Proper.of_mem_reachable {t u : Ty} (ht : t.Proper) (hu : u ∈ t.reachable) : u.Proper := by
  induction (mem_reachable_iff ht.closed).mp hu with
  | refl => exact ht
  | tail h hstep ih => exact hstep.proper (ih ((mem_reachable_iff ht.closed).mpr h))

theorem crown_le_of_mem_reachable {t u : Ty} (ht : t.Closed) (hu : u ∈ t.reachable) :
    u.crown ≤ t.size :=
  crown_le_of_mem_closings (closing_none ht) u hu

end StructuralTypes.Ty
