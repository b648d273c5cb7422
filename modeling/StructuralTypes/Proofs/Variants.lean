import Mathlib.Logic.Relation
import StructuralTypes.Proofs.Congruence

/-!
Ways to write a type anew that leave its tree as it is: other names for binders (and, beyond that,
for parameters, with fields in another order), and the unfolding of a closed recursive type anywhere
inside. Both keep a type closed and its fields distinct.
-/

namespace StructuralTypes.Ty

/-! ### Other names -/

/-- The types are the same up to the names of binders and of parameters and the order of fields. The
stack pairs off the binders around them. -/
inductive Renamed : Renaming → Ty → Ty → Prop
  | boolean {names : Renaming} : Renamed names boolean boolean
  | number {names : Renaming} : Renamed names number number
  | func {names : Renaming} {params params' : Row} {result result' : Ty}
      (arity : params.length = params'.length)
      (hparams : ∀ (i : Nat) (c d : Ty), (Row.types params)[i]? = some c →
        (Row.types params')[i]? = some d → Renamed names c d)
      (hresult : Renamed names result result') :
      Renamed names (func params result) (func params' result')
  | object {names : Renaming} {fields fields' : Row}
      (labels : (Row.labels fields).Perm (Row.labels fields'))
      (hfields : ∀ (name : String) (c d : Ty), fields.lookup name = some c →
        fields'.lookup name = some d → Renamed names c d) :
      Renamed names (object fields) (object fields')
  | mu {names : Renaming} {x y : String} {body body' : Ty}
      (h : Renamed ((x, y) :: names) body body') : Renamed names (mu x body) (mu y body')
  | var {names : Renaming} {x y : String} (h : Partners names x y) : Renamed names (var x) (var y)

theorem Renamed.congruent {names : Renaming} {s t : Ty} (h : Renamed names s t) :
    Congruent names s t := by
  induction h with
  | boolean => exact .boolean
  | number => exact .number
  | func arity _ _ hparams hresult => exact .func arity hparams hresult
  | object labels _ hfields => exact .object labels hfields
  | mu _ ih => exact .mu ih
  | var h => exact .var h

theorem exists_partner_param {params params' : Row} (arity : params.length = params'.length)
    {q : String × Ty} (hq : q ∈ params') :
    ∃ (i : Nat) (c : Ty), (Row.types params)[i]? = some c ∧ (Row.types params')[i]? = some q.2 ∧
      ∃ p ∈ params, p.2 = c := by
  obtain ⟨i, hi, rfl⟩ := List.getElem_of_mem hq
  have hi' : i < params.length := arity ▸ hi
  exact ⟨i, params[i].2, by simp [Row.types, hi'], by simp [Row.types, hi], params[i],
    List.getElem_mem hi', rfl⟩

theorem exists_partner_field {fields fields' : Row}
    (labels : (Row.labels fields).Perm (Row.labels fields')) (hnodup : fields.labels.Nodup)
    {g : String × Ty} (hg : g ∈ fields') :
    ∃ f ∈ fields, fields.lookup g.1 = some f.2 ∧ fields'.lookup g.1 = some g.2 := by
  have hname : g.1 ∈ fields.labels := labels.mem_iff.mpr (List.mem_map_of_mem hg)
  obtain ⟨f, hf, hfg⟩ := List.mem_map.mp hname
  exact ⟨f, hf, hfg ▸ Row.lookup_of_mem hnodup hf,
    Row.lookup_of_mem (labels.nodup_iff.mp hnodup) hg⟩

theorem Renamed.distinctFields {names : Renaming} {s t : Ty} (h : Renamed names s t)
    (hs : s.DistinctFields) : t.DistinctFields := by
  induction h with
  | boolean => exact hs
  | number => exact hs
  | func arity _ _ hparams hresult =>
      refine ⟨distinctFieldsRow_iff.mpr fun q hq => ?_, hresult hs.2⟩
      obtain ⟨i, c, hc, hd, p, hp, rfl⟩ := exists_partner_param arity hq
      exact hparams i _ _ hc hd (distinctFieldsRow_iff.mp hs.1 p hp)
  | object labels _ hfields =>
      refine ⟨labels.nodup_iff.mp hs.1, distinctFieldsRow_iff.mpr fun g hg => ?_⟩
      obtain ⟨f, hf, hc, hd⟩ := exists_partner_field labels hs.1 hg
      exact hfields _ _ _ hc hd (distinctFieldsRow_iff.mp hs.2 f hf)
  | mu _ ih => exact ih hs
  | var h => trivial

theorem Renamed.exists_free {names : Renaming} {s t : Ty} (h : Renamed names s t)
    (hs : s.DistinctFields) {y : String} (hy : Free y t) : ∃ x, Free x s ∧ Partners names x y := by
  induction h generalizing y with
  | boolean => cases hy
  | number => cases hy
  | func arity _ _ hparams hresult =>
      rcases hy with hy | hy
      · obtain ⟨q, hq, hy⟩ := freeIn_iff.mp hy
        obtain ⟨i, c, hc, hd, p, hp, rfl⟩ := exists_partner_param arity hq
        obtain ⟨x, hx, hxy⟩ := hparams i _ _ hc hd (distinctFieldsRow_iff.mp hs.1 p hp) hy
        exact ⟨x, .inl (freeIn_iff.mpr ⟨p, hp, hx⟩), hxy⟩
      · obtain ⟨x, hx, hxy⟩ := hresult hs.2 hy
        exact ⟨x, .inr hx, hxy⟩
  | object labels _ hfields =>
      obtain ⟨g, hg, hy⟩ := freeIn_iff.mp hy
      obtain ⟨f, hf, hc, hd⟩ := exists_partner_field labels hs.1 hg
      obtain ⟨x, hx, hxy⟩ := hfields _ _ _ hc hd (distinctFieldsRow_iff.mp hs.2 f hf) hy
      exact ⟨x, freeIn_iff.mpr ⟨f, hf, hx⟩, hxy⟩
  | mu _ ih =>
      obtain ⟨hne, hy⟩ := hy
      obtain ⟨x, hx, hxy⟩ := ih hs hy
      -- A variable that stays free outside the binder is none of its own, nor is its partner.
      cases hxy with
      | here => exact absurd rfl hne
      | there hxu _ hxy => exact ⟨x, ⟨Ne.symm hxu, hx⟩, hxy⟩
  | @var _ x y' h =>
      obtain rfl : y' = y := hy
      exact ⟨x, rfl, h⟩

theorem Renamed.proper {s t : Ty} (h : Renamed [] s t) (hs : s.Proper) : t.Proper where
  closed := by
    intro y hy
    obtain ⟨x, hx, -⟩ := h.exists_free hs.distinct hy
    exact hs.closed x hx
  distinct := h.distinctFields hs.distinct

theorem Renamed.tree_eq {s t : Ty} (h : Renamed [] s t) (hs : s.Proper) : s.tree = t.tree :=
  h.congruent.tree_eq hs.closed (h.proper hs).closed

/-- A binder that is the innermost of its name on the left, and its partner so on the right. -/
theorem partners_of_lookup {names : Renaming} {x y : String} (h : names.lookup x = some y)
    (h' : (names.map Prod.swap).lookup y = some x) : Partners names x y := by
  induction names with
  | nil => cases h
  | cons p names ih =>
      obtain ⟨u, v⟩ := p
      rw [List.lookup_cons] at h
      rw [List.map_cons, Prod.swap_prod_mk, List.lookup_cons] at h'
      by_cases hx : x = u
      · subst hx
        rw [beq_self_eq_true] at h
        obtain rfl : v = y := Option.some.inj h
        exact .here x v
      · by_cases hy : y = v
        · subst hy
          rw [beq_self_eq_true] at h'
          exact absurd (Option.some.inj h').symm hx
        · rw [beq_false_of_ne hx] at h
          rw [beq_false_of_ne hy] at h'
          exact .there hx hy (ih h h')

/-- A condition on types under a stack of binders that passes to the types below, and under which a
variable found by its name on the left has found its binder on the right as well. -/
structure Faithful (I : Renaming → Ty → Ty → Prop) : Prop where
  param : ∀ {names params params' result result'},
    I names (func params result) (func params' result') → ∀ {i : Nat} {c d : Ty},
      (Row.types params)[i]? = some c → (Row.types params')[i]? = some d → I names c d
  result : ∀ {names params params' result result'},
    I names (func params result) (func params' result') → I names result result'
  field : ∀ {names fields fields'}, I names (object fields) (object fields') →
    ∀ {name : String} {c d : Ty}, fields.lookup name = some c → fields'.lookup name = some d →
      I names c d
  body : ∀ {names x y body body'}, I names (mu x body) (mu y body') →
    I ((x, y) :: names) body body'
  partners : ∀ {names x y}, I names (var x) (var y) → names.lookup x = some y →
    Partners names x y

theorem Faithful.renamed {I : Renaming → Ty → Ty → Prop} (hI : Faithful I) {names : Renaming}
    {s t : Ty} (hs : s.DistinctFields) (ht : t.DistinctFields) (h : sameShape names s t = true)
    (hst : I names s t) : Renamed names s t := by
  induction s generalizing names t with
  | boolean =>
      cases t with
      | boolean => exact .boolean
      | _ => cases h
  | number =>
      cases t with
      | number => exact .number
      | _ => cases h
  | func params result hparams hresult =>
      cases t with
      | func params' result' =>
          rw [sameShape, Bool.and_eq_true] at h
          refine .func (length_eq_of_sameParams h.1) (fun i c d hc hd => ?_)
            (hresult hs.2 ht.2 h.2 (hI.result hst))
          have hshape := sameShape_of_sameParams h.1 hc hd
          have hcd := hI.param hst hc hd
          obtain ⟨p, hp, rfl⟩ := List.mem_map.mp (List.mem_of_getElem? hc)
          obtain ⟨q, hq, rfl⟩ := List.mem_map.mp (List.mem_of_getElem? hd)
          exact hparams p hp (distinctFieldsRow_iff.mp hs.1 p hp)
            (distinctFieldsRow_iff.mp ht.1 q hq) hshape hcd
      | _ => cases h
  | object fields hfields =>
      cases t with
      | object fields' =>
          rw [sameShape, Bool.and_eq_true, beq_iff_eq] at h
          have hlabels := toFinset_labels_of_sameFields hs.1 h.1 h.2
          refine .object (List.perm_of_nodup_nodup_toFinset_eq hs.1 ht.1 hlabels) ?_
          intro name c d hc hd
          have hmem := Row.mem_of_lookup hc
          have hmem' := Row.mem_of_lookup hd
          exact hfields _ hmem (distinctFieldsRow_iff.mp hs.2 _ hmem)
            (distinctFieldsRow_iff.mp ht.2 _ hmem') (sameShape_of_sameFields h.2 hc hd)
            (hI.field hst hc hd)
      | _ => cases h
  | mu x body ih =>
      cases t with
      | mu y body' => exact .mu (ih hs ht h (hI.body hst))
      | _ => cases h
  | var x =>
      cases t with
      | var y =>
          rw [sameShape, beq_iff_eq] at h
          exact .var (hI.partners hst h)
      | _ => cases h

/-- To match the other way round as well is a faithful condition. -/
theorem faithful_reversed :
    Faithful fun names s t => sameShape (names.map Prod.swap) t s = true where
  param := by
    intro names params params' result result' h i c d hc hd
    rw [sameShape, Bool.and_eq_true] at h
    exact sameShape_of_sameParams h.1 hd hc
  result := by
    intro names params params' result result' h
    rw [sameShape, Bool.and_eq_true] at h
    exact h.2
  field := by
    intro names fields fields' h name c d hc hd
    rw [sameShape, Bool.and_eq_true] at h
    exact sameShape_of_sameFields h.2 hd hc
  body := fun h => h
  partners := by
    intro names x y h hlookup
    rw [sameShape, beq_iff_eq] at h
    exact partners_of_lookup hlookup h

theorem Renamed.of_sameShape {names : Renaming} {s t : Ty} (hs : s.DistinctFields)
    (ht : t.DistinctFields) (h : sameShape names s t = true)
    (h' : sameShape (names.map Prod.swap) t s = true) : Renamed names s t :=
  faithful_reversed.renamed hs ht h h'

/-! ### Unfolding inside a type -/

/-- One closed recursive type inside has been unfolded. -/
inductive Unfolded : Ty → Ty → Prop
  | here {x : String} {body : Ty} (h : (mu x body).Closed) : Unfolded (mu x body) (unroll x body)
  | param {before after : Row} {name : String} {s t result : Ty} (h : Unfolded s t) :
      Unfolded (func (before ++ (name, s) :: after) result)
        (func (before ++ (name, t) :: after) result)
  | result {params : Row} {s t : Ty} (h : Unfolded s t) : Unfolded (func params s) (func params t)
  | field {before after : Row} {name : String} {s t : Ty} (h : Unfolded s t) :
      Unfolded (object (before ++ (name, s) :: after)) (object (before ++ (name, t) :: after))
  | body {x : String} {s t : Ty} (h : Unfolded s t) : Unfolded (mu x s) (mu x t)

theorem Unfolded.free_iff {s t : Ty} (h : Unfolded s t) {x : String} : Free x t ↔ Free x s := by
  induction h with
  | here h => exact ⟨fun hx => absurd hx (h.unroll x), fun hx => absurd hx (h x)⟩
  | param _ ih => simp [Free, or_and_right, exists_or, ih]
  | result _ ih => simp only [Free, ih]
  | field _ ih => simp [Free, or_and_right, exists_or, ih]
  | body _ ih => simp only [Free, ih]

theorem Unfolded.distinctFields {s t : Ty} (h : Unfolded s t) (hs : s.DistinctFields) :
    t.DistinctFields := by
  induction h with
  | @here x body _ => exact Step.distinctFields (.unroll x body) hs
  | param _ ih =>
      simp only [DistinctFields, distinctFieldsRow_iff, List.forall_mem_append,
        List.forall_mem_cons] at hs ⊢
      exact ⟨⟨hs.1.1, ih hs.1.2.1, hs.1.2.2⟩, hs.2⟩
  | result _ ih => exact ⟨hs.1, ih hs.2⟩
  | field _ ih =>
      simp only [DistinctFields, distinctFieldsRow_iff, List.forall_mem_append,
        List.forall_mem_cons, Row.labels, List.map_append, List.map_cons] at hs ⊢
      exact ⟨hs.1, hs.2.1, ih hs.2.2.1, hs.2.2.2⟩
  | body _ ih => exact ih hs

theorem Unfolded.proper {s t : Ty} (h : Unfolded s t) (hs : s.Proper) : t.Proper :=
  ⟨fun x hx => hs.closed x (h.free_iff.mp hx), h.distinctFields hs.distinct⟩

def Unchanged (names : Renaming) : Prop := ∀ p ∈ names, p.1 = p.2

theorem Unchanged.cons {names : Renaming} (h : Unchanged names) (x : String) :
    Unchanged ((x, x) :: names) :=
  List.forall_mem_cons.mpr ⟨rfl, h⟩

theorem Unchanged.partners {names : Renaming} (h : Unchanged names) (x : String) :
    Partners names x x := by
  induction names with
  | nil => exact .free x
  | cons p names ih =>
      obtain ⟨u, v⟩ := p
      obtain ⟨huv, hnames⟩ := List.forall_mem_cons.mp h
      obtain rfl : u = v := huv
      by_cases hx : x = u
      · subst hx
        exact .here x x
      · exact .there hx hx (ih hnames)

theorem Unchanged.congruent {names : Renaming} (h : Unchanged names) (t : Ty) :
    Congruent names t t := by
  induction t generalizing names with
  | boolean => exact .boolean
  | number => exact .number
  | func params result hparams hresult =>
      refine .func rfl (fun i c d hc hd => ?_) (hresult h)
      obtain rfl : c = d := Option.some.inj (hc.symm.trans hd)
      obtain ⟨p, hp, rfl⟩ := List.mem_map.mp (List.mem_of_getElem? hc)
      exact hparams p hp h
  | object fields hfields =>
      refine .object (.refl _) fun name c d hc hd => ?_
      obtain rfl : c = d := Option.some.inj (hc.symm.trans hd)
      exact hfields _ (Row.mem_of_lookup hc) h
  | mu x body ih => exact .mu (ih (h.cons x))
  | var x => exact .var (h.partners x)

/-- Two rows that differ in one type: so do their types at each place, or not at all. -/
theorem types_eq_or {before after : Row} {name : String} {s t c d : Ty} {i : Nat}
    (hc : (Row.types (before ++ (name, s) :: after))[i]? = some c)
    (hd : (Row.types (before ++ (name, t) :: after))[i]? = some d) : (c = s ∧ d = t) ∨ c = d := by
  induction before generalizing i with
  | nil =>
      cases i with
      | zero => exact .inl ⟨(Option.some.inj hc).symm, (Option.some.inj hd).symm⟩
      | succ i => exact .inr (Option.some.inj (hc.symm.trans hd))
  | cons p before ih =>
      cases i with
      | zero => exact .inr (Option.some.inj (hc.symm.trans hd))
      | succ i => exact ih hc hd

theorem lookup_eq_or {before after : Row} {name label : String} {s t c d : Ty}
    (hc : (before ++ (name, s) :: after).lookup label = some c)
    (hd : (before ++ (name, t) :: after).lookup label = some d) : (c = s ∧ d = t) ∨ c = d := by
  induction before with
  | nil =>
      rw [List.nil_append, List.lookup_cons] at hc hd
      cases hlabel : label == name with
      | true =>
          rw [hlabel] at hc hd
          exact .inl ⟨(Option.some.inj hc).symm, (Option.some.inj hd).symm⟩
      | false =>
          rw [hlabel] at hc hd
          exact .inr (Option.some.inj (hc.symm.trans hd))
  | cons p before ih =>
      rw [List.cons_append, List.lookup_cons] at hc hd
      cases hlabel : label == p.1 with
      | true =>
          rw [hlabel] at hc hd
          exact .inr (Option.some.inj (hc.symm.trans hd))
      | false =>
          rw [hlabel] at hc hd
          exact ih hc hd

theorem Unfolded.congruent {s t : Ty} (h : Unfolded s t) {names : Renaming}
    (hnames : Unchanged names) : Congruent names s t := by
  induction h generalizing names with
  -- The binders around do not reach into a closed type, so only its tree counts here.
  | @here x body h => exact .closed h h.unroll (tree_unroll x body).symm
  | param _ ih =>
      refine .func (by simp) (fun i c d hc hd => ?_) (hnames.congruent _)
      rcases types_eq_or hc hd with ⟨rfl, rfl⟩ | rfl
      · exact ih hnames
      · exact hnames.congruent c
  | result _ ih =>
      refine .func rfl (fun i c d hc hd => ?_) (ih hnames)
      obtain rfl : c = d := Option.some.inj (hc.symm.trans hd)
      exact hnames.congruent c
  | field _ ih =>
      refine .object (by simp [Row.labels]) fun name c d hc hd => ?_
      rcases lookup_eq_or hc hd with ⟨rfl, rfl⟩ | rfl
      · exact ih hnames
      · exact hnames.congruent c
  | body _ ih => exact .mu (ih (hnames.cons _))

theorem Unfolded.tree_eq {s t : Ty} (h : Unfolded s t) (hs : s.Proper) : s.tree = t.tree := by
  have hnames : Unchanged [] := List.forall_mem_nil _
  exact (h.congruent hnames).tree_eq hs.closed (h.proper hs).closed

/-! ### Variants -/

def Rewritten (s t : Ty) : Prop := Renamed [] s t ∨ Unfolded s t

theorem Rewritten.proper {s t : Ty} (h : Rewritten s t) (hs : s.Proper) : t.Proper :=
  h.elim (·.proper hs) (·.proper hs)

theorem Rewritten.tree_eq {s t : Ty} (h : Rewritten s t) (hs : s.Proper) : s.tree = t.tree :=
  h.elim (·.tree_eq hs) (·.tree_eq hs)

/-- Written anew any number of times, or not at all. -/
def Variant : Ty → Ty → Prop := Relation.ReflTransGen Rewritten

theorem Variant.proper_and_tree_eq {s t : Ty} (h : Variant s t) (hs : s.Proper) :
    t.Proper ∧ s.tree = t.tree := by
  induction h with
  | refl => exact ⟨hs, rfl⟩
  | tail _ hstep ih =>
      obtain ⟨ht, htree⟩ := ih
      exact ⟨hstep.proper ht, htree.trans (hstep.tree_eq ht)⟩

end StructuralTypes.Ty
