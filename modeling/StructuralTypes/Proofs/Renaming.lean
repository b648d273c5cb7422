import StructuralTypes.Proofs.Coherence
import StructuralTypes.Proofs.Variants

/-!
What a match of shapes decides: whether a closed type is another one up to the names of binders and
of parameters and the order of fields. A renaming always matches. The converse needs that no binder
on the right is shadowed by one of its own name, for variables are looked up on the left only, and
a name on the right may have been taken by another binder since.
-/

namespace StructuralTypes.Ty

/-! ### Renamings match -/

/-- The partner of a variable with a binder on the left is the one that is found by its name. -/
theorem Partners.lookup_eq {names : Renaming} {x y : String} (h : Partners names x y)
    (hx : x ∈ names.map Prod.fst) : names.lookup x = some y := by
  induction h with
  | here x y => exact List.lookup_cons_self
  | there hxu _ _ ih =>
      rw [List.lookup_cons, beq_false_of_ne hxu]
      exact ih ((List.mem_cons.mp hx).resolve_left hxu)
  | free x => cases hx

theorem sameParams_of_types {names : Renaming} {params params' : Row}
    (arity : params.length = params'.length)
    (h : ∀ (i : Nat) (c d : Ty), (Row.types params)[i]? = some c →
      (Row.types params')[i]? = some d → sameShape names c d = true) :
    sameParams names params params' = true := by
  refine sameParams_iff.mpr (List.forall₂_iff_zip.mpr ⟨arity, fun {p q} hpq => ?_⟩)
  obtain ⟨i, hi⟩ := List.mem_iff_getElem?.mp hpq
  obtain ⟨hp, hq⟩ := List.getElem?_zip_eq_some.mp hi
  exact h i p.2 q.2 (by simp [Row.types, hp]) (by simp [Row.types, hq])

/-- A renaming matches if the stack has a binder for every variable that is free on the left. -/
theorem Renamed.sameShape {names : Renaming} {s t : Ty} (h : Renamed names s t)
    (hs : s.DistinctFields) (hnames : ∀ x, Free x s → x ∈ names.map Prod.fst) :
    sameShape names s t = true := by
  induction h with
  | boolean => rfl
  | number => rfl
  | func arity _ _ hparams hresult =>
      rw [Ty.sameShape, Bool.and_eq_true]
      refine ⟨sameParams_of_types arity fun i c d hc hd => ?_,
        hresult hs.2 fun x hx => hnames x (.inr hx)⟩
      refine hparams i c d hc hd ?_ fun x hx => hnames x (.inl (freeIn_of_types hc hx))
      obtain ⟨p, hp, rfl⟩ := List.mem_map.mp (List.mem_of_getElem? hc)
      exact distinctFieldsRow_iff.mp hs.1 p hp
  | @object _ fields fields' labels _ hfields =>
      have hlength : fields.length = fields'.length := by
        simpa only [Row.length_labels] using labels.length_eq
      rw [Ty.sameShape, Bool.and_eq_true, beq_iff_eq, sameFields_iff]
      refine ⟨hlength, fun f hf => ?_⟩
      obtain ⟨g, -, hd, hc⟩ := exists_partner_field labels.symm (labels.nodup_iff.mp hs.1) hf
      exact ⟨g.2, hd, hfields f.1 f.2 g.2 hc hd (distinctFieldsRow_iff.mp hs.2 f hf)
        fun x hx => hnames x (freeIn_iff.mpr ⟨f, hf, hx⟩)⟩
  | @mu _ x _ _ _ _ ih =>
      refine ih hs fun z hz => ?_
      by_cases hzx : z = x
      · exact hzx ▸ List.mem_cons_self
      · exact List.mem_cons_of_mem _ (hnames z ⟨Ne.symm hzx, hz⟩)
  | @var _ x y h =>
      rw [Ty.sameShape, beq_iff_eq]
      exact h.lookup_eq (hnames x rfl)

/-! ### Matches are renamings -/

mutual

/-- No binder stands in the body of another one of the same name. -/
def Unshadowed : Ty → Prop
  | boolean => True
  | number => True
  | func params result => UnshadowedRow params ∧ Unshadowed result
  | object fields => UnshadowedRow fields
  | mu x body => x ∉ body.binderNames ∧ Unshadowed body
  | var _ => True

def UnshadowedRow : Row → Prop
  | [] => True
  | (_, t) :: row => Unshadowed t ∧ UnshadowedRow row

end

@[simp] theorem unshadowedRow_iff {row : Row} :
    UnshadowedRow row ↔ ∀ p ∈ row, Unshadowed p.2 := by
  induction row with
  | nil => simp [UnshadowedRow]
  | cons p row ih => simp [UnshadowedRow, ih]

mutual

def decUnshadowed : (t : Ty) → Decidable t.Unshadowed
  | boolean => isTrue trivial
  | number => isTrue trivial
  | func params result => @instDecidableAnd _ _ (decUnshadowedRow params) (decUnshadowed result)
  | object fields => decUnshadowedRow fields
  | mu _ body => @instDecidableAnd _ _ inferInstance (decUnshadowed body)
  | var _ => isTrue trivial

def decUnshadowedRow : (row : Row) → Decidable (UnshadowedRow row)
  | [] => isTrue trivial
  | (_, t) :: row => @instDecidableAnd _ _ (decUnshadowed t) (decUnshadowedRow row)

end

instance (t : Ty) : Decidable t.Unshadowed := decUnshadowed t

/-- The names of a stack on the right are taken once each, and not by a binder of the type below. -/
structure Untaken (names : Renaming) (t : Ty) : Prop where
  nodup : (names.map Prod.snd).Nodup
  unshadowed : t.Unshadowed
  fresh : ∀ y ∈ t.binderNames, y ∉ names.map Prod.snd

theorem partners_of_nodup {names : Renaming} {x y : String} (hnodup : (names.map Prod.snd).Nodup)
    (h : names.lookup x = some y) : Partners names x y := by
  induction names with
  | nil => cases h
  | cons p names ih =>
      obtain ⟨u, v⟩ := p
      obtain ⟨hv, hnodup⟩ := List.nodup_cons.mp hnodup
      rw [List.lookup_cons] at h
      by_cases hx : x = u
      · subst hx
        rw [beq_self_eq_true] at h
        obtain rfl : v = y := Option.some.inj h
        exact .here x v
      · rw [beq_false_of_ne hx] at h
        obtain ⟨before, after, rfl, -⟩ := List.lookup_eq_some_iff.mp h
        have hy : y ≠ v := by
          rintro rfl
          exact hv (by simp)
        exact .there hx hy (ih hnodup h)

theorem faithful_untaken : Faithful fun names _ t => Untaken names t where
  param := by
    intro names params params' result result' h i c d _ hd
    obtain ⟨q, hq, rfl⟩ := List.mem_map.mp (List.mem_of_getElem? hd)
    exact ⟨h.nodup, unshadowedRow_iff.mp h.unshadowed.1 q hq,
      fun y hy => h.fresh y (List.mem_append_left _ (mem_binderNamesRow.mpr ⟨q, hq, hy⟩))⟩
  result := fun h =>
    ⟨h.nodup, h.unshadowed.2, fun y hy => h.fresh y (List.mem_append_right _ hy)⟩
  field := by
    intro names fields fields' h name c d _ hd
    have hmem := Row.mem_of_lookup hd
    exact ⟨h.nodup, unshadowedRow_iff.mp h.unshadowed _ hmem,
      fun y hy => h.fresh y (mem_binderNamesRow.mpr ⟨_, hmem, hy⟩)⟩
  body := by
    intro names x y body body' h
    -- The binder of the right joins the stack; its name is new there, and no binder below takes it.
    refine ⟨List.nodup_cons.mpr ⟨h.fresh y List.mem_cons_self, h.nodup⟩, h.unshadowed.2, ?_⟩
    intro z hz hmem
    rcases List.mem_cons.mp hmem with rfl | hmem
    · exact h.unshadowed.1 hz
    · exact h.fresh z (List.mem_cons_of_mem y hz) hmem
  partners := fun h => partners_of_nodup h.nodup

/-- The match of shapes accepts every renaming of a closed type, and accepts nothing else if no
binder on the right stands in another one of its name. -/
theorem sameShape_decides_renamed {a b : Ty} (ha : a.Closed) (hda : a.DistinctFields)
    (hdb : b.DistinctFields) :
    (Renamed [] a b → sameShape [] a b = true) ∧
      (b.Unshadowed → sameShape [] a b = true → Renamed [] a b) := by
  constructor
  · intro h
    exact h.sameShape hda fun x hx => absurd hx (ha x)
  · intro hb h
    exact faithful_untaken.renamed hda hdb h ⟨List.nodup_nil, hb, fun _ _ => List.not_mem_nil⟩

/-- Names are used again on the left, inside and beside a binder of theirs, and fields and
parameters change. -/
theorem sameShape_decides_renamed_shadowed :
    let a := mu "X" (object [
      ("f", func [("p", mu "X" (object [("k", var "X")]))] (var "X")),
      ("g", mu "Y" (func [] (object [("k", var "X"), ("l", var "Y")])))])
    let b := mu "A" (object [
      ("g", mu "B" (func [] (object [("l", var "B"), ("k", var "A")]))),
      ("f", func [("q", mu "B" (object [("k", var "B")]))] (var "A"))])
    a.Closed ∧ a.DistinctFields ∧ b.DistinctFields ∧ b.Unshadowed ∧ sameShape [] a b = true ∧
      Renamed [] a b := by
  intro a b
  have ha : a.Closed := by decide
  have hda : a.DistinctFields := by decide
  have hdb : b.DistinctFields := by decide
  have hb : b.Unshadowed := by decide
  have h : sameShape [] a b = true := rfl
  exact ⟨ha, hda, hdb, hb, h, (sameShape_decides_renamed ha hda hdb).2 hb h⟩

end StructuralTypes.Ty
