import StructuralTypes.Proofs.Comparison
import StructuralTypes.Ty.Equality
import StructuralTypes.Ty.Subtyping

/-!
Equality and subtyping as comparisons. For each of the two stand here what it demands below two
heads, that its comparison of heads asks for just that, and that the demands are the rules by which
its relation of trees goes from level to level: agreement for equality, `Tree.BelowTo` for
subtyping.
-/

namespace StructuralTypes

open Ty

/-! ### Conjunctions over parameters and a result -/

section AllM

variable {α β : Type} {compare : Ty → Ty → Except Defect Bool}

theorem allM_map (g : β → α) (f : α → Except Defect Bool) (l : List β) :
    (l.map g).allM f = l.allM fun x => f (g x) := by
  induction l with
  | nil => rfl
  | cons x l ih => rw [List.map_cons, List.allM_cons, List.allM_cons, ih]

theorem allM_concat (f : α → Except Defect Bool) (l : List α) (x : α) :
    (l ++ [x]).allM f = (do if ← l.allM f then f x else return false) := by
  induction l with
  | nil =>
      rw [List.nil_append, List.allM_cons]
      rcases f x with e | _ | _ <;> rfl
  | cons y l ih =>
      rw [List.cons_append, List.allM_cons, List.allM_cons, ih]
      rcases f y with e | _ | _ <;> rfl

end AllM

/-- The demands of two functions of one arity: parameters in pairs, then the results. -/
def pairDemands (params params' : Row) (result result' : Ty) : List Demand :=
  (params.zip params').map (fun pq => some (pq.1.2, pq.2.2)) ++ [some (result, result')]

/-- The demands of an object on another one: a partner for each of its fields. -/
def fieldDemands (fields wanted : Row) : List Demand :=
  wanted.map fun f => (fields.lookup f.1).map fun t => (t, f.2)

theorem allM_pairDemands (compare : Ty → Ty → Except Defect Bool) (params params' : Row)
    (result result' : Ty) :
    (pairDemands params params' result result').allM (Demand.ask compare) =
      (do
        let ok ← (params.zip params').allM fun pq => compare pq.1.2 pq.2.2
        if ok then compare result result' else return false) := by
  rw [pairDemands, allM_concat, allM_map]
  rfl

theorem allM_fieldDemands (compare : Ty → Ty → Except Defect Bool) (fields wanted : Row) :
    (fieldDemands fields wanted).allM (Demand.ask compare) =
      wanted.allM fun f =>
        match fields.lookup f.1 with
        | some t => compare t f.2
        | none => .ok false := by
  rw [fieldDemands, allM_map]
  congr 1
  funext f
  cases fields.lookup f.1 <;> rfl

theorem forall_pairDemands_iff {R : Ty → Ty → Prop} {params params' : Row} {result result' : Ty} :
    (∀ d ∈ pairDemands params params' result result', ∃ p q, d = some (p, q) ∧ R p q) ↔
      (∀ (i : Nat) (c d : Ty), (Row.types params)[i]? = some c → (Row.types params')[i]? = some d →
        R c d) ∧
        R result result' := by
  have hzip : (∀ pq ∈ params.zip params', R pq.1.2 pq.2.2) ↔
      ∀ (i : Nat) (c d : Ty), (Row.types params)[i]? = some c → (Row.types params')[i]? = some d →
        R c d := by
    simp only [Row.types, List.getElem?_map, Option.map_eq_some_iff]
    constructor
    · rintro h i _ _ ⟨p, hp, rfl⟩ ⟨q, hq, rfl⟩
      exact h (p, q) (List.mem_of_getElem? (List.getElem?_zip_eq_some.mpr ⟨hp, hq⟩))
    · intro h pq hpq
      obtain ⟨i, hi⟩ := List.mem_iff_getElem?.mp hpq
      obtain ⟨hp, hq⟩ := List.getElem?_zip_eq_some.mp hi
      exact h i _ _ ⟨_, hp, rfl⟩ ⟨_, hq, rfl⟩
  rw [← hzip, pairDemands]
  simp only [List.mem_append, List.mem_map, List.mem_singleton]
  constructor
  · intro h
    constructor
    · intro pq hpq
      obtain ⟨p, q, heq, hR⟩ := h _ (.inl ⟨pq, hpq, rfl⟩)
      simp only [Option.some.injEq, Prod.mk.injEq] at heq
      rwa [heq.1, heq.2]
    · obtain ⟨p, q, heq, hR⟩ := h _ (.inr rfl)
      simp only [Option.some.injEq, Prod.mk.injEq] at heq
      rwa [heq.1, heq.2]
  · rintro ⟨hparams, hresult⟩ d (⟨pq, hpq, rfl⟩ | rfl)
    · exact ⟨_, _, rfl, hparams pq hpq⟩
    · exact ⟨_, _, rfl, hresult⟩

theorem forall_fieldDemands_iff {R : Ty → Ty → Prop} {fields wanted : Row} :
    (∀ d ∈ fieldDemands fields wanted, ∃ p q, d = some (p, q) ∧ R p q) ↔
      ∀ f ∈ wanted, ∃ t, fields.lookup f.1 = some t ∧ R t f.2 := by
  simp only [fieldDemands, List.mem_map, forall_exists_index, and_imp,
    forall_apply_eq_imp_iff₂, Option.map_eq_some_iff]
  refine forall₂_congr fun f _ => ?_
  constructor
  · rintro ⟨p, q, ⟨t, ht, heq⟩, hR⟩
    simp only [Prod.mk.injEq] at heq
    exact ⟨t, ht, by rwa [heq.1, heq.2]⟩
  · rintro ⟨t, ht, hR⟩
    exact ⟨t, f.2, ⟨t, ht, rfl⟩, hR⟩

theorem mem_pairDemands {params params' : Row} {result result' p q : Ty}
    (h : some (p, q) ∈ pairDemands params params' result result') :
    (∃ s ∈ params, ∃ t ∈ params', p = s.2 ∧ q = t.2) ∨ (p = result ∧ q = result') := by
  rw [pairDemands, List.mem_append, List.mem_map, List.mem_singleton] at h
  rcases h with ⟨⟨s, t⟩, hst, heq⟩ | heq
  · simp only [Option.some.injEq, Prod.mk.injEq] at heq
    obtain ⟨hs, ht⟩ := List.of_mem_zip hst
    exact .inl ⟨s, hs, t, ht, heq.1.symm, heq.2.symm⟩
  · simp only [Option.some.injEq, Prod.mk.injEq] at heq
    exact .inr heq

theorem step_of_fieldDemands {fields wanted : Row} {p q : Ty}
    (h : some (p, q) ∈ fieldDemands fields wanted) :
    Step (object fields) p ∧ Step (object wanted) q := by
  obtain ⟨f, hf, heq⟩ := List.mem_map.mp h
  obtain ⟨t, ht, heq⟩ := Option.map_eq_some_iff.mp heq
  simp only [Prod.mk.injEq] at heq
  rw [← heq.1, ← heq.2]
  exact ⟨.field (Row.mem_of_lookup ht), .field hf⟩

/-- With distinct names, two rows of one length have the same names as soon as one has the names of
the other. -/
theorem toFinset_labels_eq_iff {row row' : Row} (h : row.labels.Nodup) (h' : row'.labels.Nodup) :
    row.labels.toFinset = row'.labels.toFinset ↔
      row.length = row'.length ∧ ∀ f ∈ row', f.1 ∈ row.labels := by
  constructor
  · intro heq
    constructor
    · rw [← row.length_labels, ← row'.length_labels, ← List.toFinset_card_of_nodup h,
        ← List.toFinset_card_of_nodup h', heq]
    · intro f hf
      rw [← List.mem_toFinset, heq, List.mem_toFinset]
      exact List.mem_map_of_mem hf
  · rintro ⟨hlen, hsub⟩
    exact (Row.toFinset_labels_eq h' hlen.le hsub).symm

/-! ### Unlike heads -/

def Unlike : Ty → Ty → Prop
  | boolean, boolean => False
  | number, number => False
  | func _ _, func _ _ => False
  | object _, object _ => False
  | _, _ => True

@[elab_as_elim]
theorem solid_cases {motive : Ty → Ty → Prop} {a b : Ty} (ha : a.Solid) (hb : b.Solid)
    (boolean : motive .boolean .boolean) (number : motive .number .number)
    (func : ∀ params result params' result',
      motive (.func params result) (.func params' result'))
    (object : ∀ fields fields', motive (.object fields) (.object fields'))
    (unlike : ∀ a b, a.Solid → b.Solid → Unlike a b → motive a b) : motive a b := by
  by_cases h : Unlike a b
  · exact unlike a b ha hb h
  · cases a with
    | boolean =>
        cases b with
        | boolean => exact boolean
        | _ => exact absurd trivial h
    | number =>
        cases b with
        | number => exact number
        | _ => exact absurd trivial h
    | func params result =>
        cases b with
        | func params' result' => exact func params result params' result'
        | _ => exact absurd trivial h
    | object fields =>
        cases b with
        | object fields' => exact object fields fields'
        | _ => exact absurd trivial h
    | _ => exact absurd trivial h

theorem not_alike_of_unlike {a b : Ty} (ha : a.Solid) (hb : b.Solid) (h : Unlike a b) :
    ¬ a.node.label.Alike b.node.label := by
  rw [ha.node_eq, hb.node_eq]
  cases a <;> cases b <;> simp_all [Unlike, Solid, shown, Node.label, Label.Alike]

/-! ### Equality -/

def equalDemands : Ty → Ty → List Demand
  | boolean, boolean => []
  | number, number => []
  | func params result, func params' result' =>
      if params.length = params'.length then pairDemands params params' result result' else [none]
  | object fields, object fields' =>
      if fields.length = fields'.length then fieldDemands fields fields' else [none]
  | _, _ => [none]

theorem equalDemands_of_unlike {a b : Ty} (h : Unlike a b) : equalDemands a b = [none] := by
  cases a <;> cases b <;> simp_all [Unlike, equalDemands]

theorem equalHeads_of_unlike {a b : Ty} (compare : Ty → Ty → Except Defect Bool) (ha : a.Solid)
    (hb : b.Solid) (h : Unlike a b) : equalHeads compare a b = .ok false := by
  cases a <;> cases b <;> simp_all [Unlike, Solid, equalHeads]

theorem equalHeads_eq_allM {a b : Ty} (compare : Ty → Ty → Except Defect Bool) (ha : a.Solid)
    (hb : b.Solid) : equalHeads compare a b = (equalDemands a b).allM (Demand.ask compare) := by
  refine solid_cases ha hb rfl rfl (fun params result params' result' => ?_)
    (fun fields fields' => ?_) (fun a b ha hb h => ?_)
  · rw [equalHeads, equalDemands]
    split
    · exact (allM_pairDemands compare params params' result result').symm
    · rfl
  · rw [equalHeads, equalDemands]
    split
    · exact (allM_fieldDemands compare fields fields').symm
    · rfl
  · rw [equalHeads_of_unlike compare ha hb h, equalDemands_of_unlike h]
    rfl

theorem step_of_equalDemands {a b p q : Ty} (h : some (p, q) ∈ equalDemands a b) :
    Step a p ∧ Step b q := by
  unfold equalDemands at h
  split at h
  · cases h
  · cases h
  · split at h
    · rcases mem_pairDemands h with ⟨s, hs, t, ht, rfl, rfl⟩ | ⟨rfl, rfl⟩
      · exact ⟨.param _ hs, .param _ ht⟩
      · exact ⟨.result _ _, .result _ _⟩
    · simp at h
  · split at h
    · exact step_of_fieldDemands h
    · simp at h
  · simp at h

theorem agreesTo_func_iff {n : Nat} {params params' : Row} {result result' : Ty} :
    Tree.AgreesTo (n + 1) (func params result).tree (func params' result').tree ↔
      ∀ d ∈ equalDemands (func params result) (func params' result'),
        ∃ p q, d = some (p, q) ∧ Tree.AgreesTo n p.tree q.tree := by
  rw [agreesTo_tree_succ_iff, equalDemands]
  split
  · next hlen =>
      rw [forall_pairDemands_iff (R := fun p q => Tree.AgreesTo n p.tree q.tree)]
      constructor
      · rintro ⟨-, h⟩
        exact ⟨fun i c d hc hd => h (.param i) c d hc hd, h .result result result' rfl rfl⟩
      · rintro ⟨hparams, hresult⟩
        refine ⟨?_, fun e c d hc hd => ?_⟩
        · exact congrArg Label.func (by rwa [Row.length_types, Row.length_types])
        · cases e with
          | param i => exact hparams i c d hc hd
          | result =>
              obtain rfl : result = c := Option.some.inj hc
              obtain rfl : result' = d := Option.some.inj hd
              exact hresult
          | field name => cases hc
  · next hlen =>
      constructor
      · rintro ⟨hlabel, -⟩
        have heq : params.types.length = params'.types.length := Label.func.inj hlabel
        rw [Row.length_types, Row.length_types] at heq
        exact absurd heq hlen
      · intro h
        obtain ⟨p, q, heq, -⟩ := h none List.mem_cons_self
        cases heq

theorem agreesTo_object_iff {n : Nat} {fields fields' : Row} (h : fields.labels.Nodup)
    (h' : fields'.labels.Nodup) :
    Tree.AgreesTo (n + 1) (object fields).tree (object fields').tree ↔
      ∀ d ∈ equalDemands (object fields) (object fields'),
        ∃ p q, d = some (p, q) ∧ Tree.AgreesTo n p.tree q.tree := by
  have hlabel : (object fields).node.label = (object fields').node.label ↔
      fields.length = fields'.length ∧ ∀ f ∈ fields', f.1 ∈ fields.labels := by
    rw [← toFinset_labels_eq_iff h h']
    exact ⟨fun heq => Label.object.inj heq, fun heq => congrArg Label.object heq⟩
  rw [agreesTo_tree_succ_iff, hlabel, equalDemands]
  split
  · next hlen =>
      rw [forall_fieldDemands_iff (R := fun p q => Tree.AgreesTo n p.tree q.tree)]
      constructor
      -- The names are the same on both sides, so every field that is asked for is there.
      · rintro ⟨⟨-, hsub⟩, hchild⟩ f hf
        obtain ⟨g, hg, hname⟩ := List.mem_map.mp (hsub f hf)
        have hlookup : fields.lookup f.1 = some g.2 := hname ▸ Row.lookup_of_mem h hg
        exact ⟨g.2, hlookup, hchild (.field f.1) g.2 f.2 hlookup (Row.lookup_of_mem h' hf)⟩
      · intro hfields
        refine ⟨⟨hlen, fun f hf => ?_⟩, fun e c d hc hd => ?_⟩
        · obtain ⟨t, ht, -⟩ := hfields f hf
          exact Row.mem_labels_of_lookup ht
        · cases e with
          | param i => cases hc
          | result => cases hc
          | field name =>
              obtain ⟨t, ht, hagree⟩ := hfields (name, d) (Row.mem_of_lookup hd)
              obtain rfl : t = c := Option.some.inj (ht.symm.trans hc)
              exact hagree
  · next hlen =>
      constructor
      · rintro ⟨⟨heq, -⟩, -⟩
        exact absurd heq hlen
      · intro hnone
        obtain ⟨p, q, heq, -⟩ := hnone none List.mem_cons_self
        cases heq

theorem agreesTo_iff_equalDemands {n : Nat} {a b : Ty} (ha : a.Solid) (hb : b.Solid)
    (hda : a.DistinctFields) (hdb : b.DistinctFields) :
    Tree.AgreesTo (n + 1) a.tree b.tree ↔
      ∀ d ∈ equalDemands a b, ∃ p q, d = some (p, q) ∧ Tree.AgreesTo n p.tree q.tree := by
  revert hda hdb
  refine solid_cases ha hb (fun _ _ => ?_) (fun _ _ => ?_) (fun _ _ _ _ _ _ => agreesTo_func_iff)
    (fun _ _ h h' => agreesTo_object_iff h.1 h'.1) (fun a b ha hb h _ _ => ?_)
  · exact ⟨fun _ _ hd => (nomatch hd), fun _ _ _ => rfl⟩
  · exact ⟨fun _ _ hd => (nomatch hd), fun _ _ _ => rfl⟩
  · have hlabel : a.node.label ≠ b.node.label := fun heq =>
      not_alike_of_unlike ha hb h (heq ▸ Label.Alike.refl _)
    simp [agreesTo_tree_succ_iff, hlabel, equalDemands_of_unlike h]

def equality : Comparison where
  heads := equalHeads
  demands := equalDemands
  HoldsTo := Tree.AgreesTo
  heads_eq := equalHeads_eq_allM
  step_of_demand := fun h => .inl (step_of_equalDemands h)
  holdsTo_zero := Tree.agreesTo_zero
  holdsTo_pred := Tree.AgreesTo.pred
  holdsTo_succ_iff := agreesTo_iff_equalDemands

/-! ### Subtyping -/

def subtypeDemands : Ty → Ty → List Demand
  | boolean, boolean => []
  | number, number => []
  | func give result, func need result' =>
      if give.length = need.length then pairDemands need give result result' else [none]
  | object offered, object need => fieldDemands offered need
  | _, _ => [none]

theorem subtypeDemands_of_unlike {a b : Ty} (h : Unlike a b) : subtypeDemands a b = [none] := by
  cases a <;> cases b <;> simp_all [Unlike, subtypeDemands]

theorem subsumesHeads_of_unlike {a b : Ty} (compare : Ty → Ty → Except Defect Bool) (ha : a.Solid)
    (hb : b.Solid) (h : Unlike a b) : subsumesHeads compare a b = .ok false := by
  cases a <;> cases b <;> simp_all [Unlike, Solid, subsumesHeads]

theorem subsumesHeads_eq_allM {a b : Ty} (compare : Ty → Ty → Except Defect Bool) (ha : a.Solid)
    (hb : b.Solid) :
    subsumesHeads compare a b = (subtypeDemands a b).allM (Demand.ask compare) := by
  refine solid_cases ha hb rfl rfl (fun give result need result' => ?_)
    (fun offered need => ?_) (fun a b ha hb h => ?_)
  · rw [subsumesHeads, subtypeDemands]
    split
    · exact (allM_pairDemands compare need give result result').symm
    · rfl
  · rw [subsumesHeads, subtypeDemands]
    exact (allM_fieldDemands compare offered need).symm
  · rw [subsumesHeads_of_unlike compare ha hb h, subtypeDemands_of_unlike h]
    rfl

/-- Parameters are demanded the other way round. -/
theorem step_of_subtypeDemands {a b p q : Ty} (h : some (p, q) ∈ subtypeDemands a b) :
    (Step a p ∧ Step b q) ∨ (Step b p ∧ Step a q) := by
  unfold subtypeDemands at h
  split at h
  · cases h
  · cases h
  · split at h
    · rcases mem_pairDemands h with ⟨s, hs, t, ht, rfl, rfl⟩ | ⟨rfl, rfl⟩
      · exact .inr ⟨.param _ hs, .param _ ht⟩
      · exact .inl ⟨.result _ _, .result _ _⟩
    · simp at h
  · exact .inl (step_of_fieldDemands h)
  · simp at h

theorem belowTo_func_iff {n : Nat} {give need : Row} {result result' : Ty} :
    Tree.BelowTo (n + 1) (func give result).tree (func need result').tree ↔
      ∀ d ∈ subtypeDemands (func give result) (func need result'),
        ∃ p q, d = some (p, q) ∧ Tree.BelowTo n p.tree q.tree := by
  have hroot (row : Row) (t : Ty) : (func row t).tree [] = some (.func row.length) := by
    rw [tree_nil]
    exact congrArg (fun k => some (Label.func k)) row.length_types
  have hsub {row : Row} {t : Ty} {i : Nat} {c : Ty} (h : row.types[i]? = some c) :
      (func row t).tree.sub (.param i) = c.tree := sub_tree h
  have hresult (row : Row) (t : Ty) : (func row t).tree.sub .result = t.tree := sub_tree rfl
  rw [subtypeDemands]
  split
  · next hlen =>
      rw [forall_pairDemands_iff (R := fun p q => Tree.BelowTo n p.tree q.tree)]
      constructor
      · intro h
        obtain ⟨-, hparams, hres⟩ := Tree.RootBelow.func_inv h (hroot give result)
        rw [hresult, hresult] at hres
        refine ⟨fun i c d hc hd => ?_, hres⟩
        have hi : i < give.length := by
          rw [← give.length_types]
          exact (List.getElem?_eq_some_iff.mp hd).1
        have := hparams i hi
        rwa [hsub hc, hsub hd] at this
      · rintro ⟨hparams, hres⟩
        refine .func (hroot give result) (hlen ▸ hroot need result') (fun i hi => ?_) ?_
        · have hg : i < give.types.length := give.length_types.symm ▸ hi
          have hn : i < need.types.length := need.length_types.symm ▸ hlen ▸ hi
          have hc := List.getElem?_eq_getElem hn
          have hd := List.getElem?_eq_getElem hg
          rw [hsub hc, hsub hd]
          exact hparams i _ _ hc hd
        · rw [hresult, hresult]
          exact hres
  · next hlen =>
      constructor
      · intro h
        have harity := (Tree.RootBelow.func_inv h (hroot give result)).1
        rw [hroot, Option.some.injEq, Label.func.injEq] at harity
        exact absurd harity.symm hlen
      · intro h
        obtain ⟨p, q, heq, -⟩ := h none List.mem_cons_self
        cases heq

theorem belowTo_object_iff {n : Nat} {offered need : Row} (h : need.labels.Nodup) :
    Tree.BelowTo (n + 1) (object offered).tree (object need).tree ↔
      ∀ d ∈ subtypeDemands (object offered) (object need),
        ∃ p q, d = some (p, q) ∧ Tree.BelowTo n p.tree q.tree := by
  have hroot (row : Row) : (object row).tree [] = some (.object row.labels.toFinset) := rfl
  have hsub {row : Row} {name : String} {c : Ty} (h : row.lookup name = some c) :
      (object row).tree.sub (.field name) = c.tree := sub_tree h
  rw [subtypeDemands, forall_fieldDemands_iff (R := fun p q => Tree.BelowTo n p.tree q.tree)]
  constructor
  · intro hbelow f hf
    obtain ⟨hwidth, hdepth⟩ := Tree.RootBelow.object_inv hbelow (hroot offered) (hroot need)
    have hname : f.1 ∈ need.labels.toFinset :=
      List.mem_toFinset.mpr (List.mem_map_of_mem hf)
    obtain ⟨c, hc⟩ := Option.isSome_iff_exists.mp
      (Node.isSome_child_iff.mpr (show ((object offered).node.label).Has (.field f.1) from
        hwidth hname))
    have := hdepth f.1 hname
    rw [hsub hc, hsub (Row.lookup_of_mem h hf)] at this
    exact ⟨c, hc, this⟩
  · intro hfields
    refine .object (hroot offered) (hroot need) (fun name hname => ?_) (fun name hname => ?_)
    · obtain ⟨f, hf, rfl⟩ := List.mem_map.mp (List.mem_toFinset.mp hname)
      obtain ⟨t, ht, -⟩ := hfields f hf
      exact List.mem_toFinset.mpr (Row.mem_labels_of_lookup ht)
    · obtain ⟨f, hf, rfl⟩ := List.mem_map.mp (List.mem_toFinset.mp hname)
      obtain ⟨t, ht, hbelow⟩ := hfields f hf
      rw [hsub ht, hsub (Row.lookup_of_mem h hf)]
      exact hbelow

theorem belowTo_iff_subtypeDemands {n : Nat} {a b : Ty} (ha : a.Solid) (hb : b.Solid)
    (hdb : b.DistinctFields) :
    Tree.BelowTo (n + 1) a.tree b.tree ↔
      ∀ d ∈ subtypeDemands a b, ∃ p q, d = some (p, q) ∧ Tree.BelowTo n p.tree q.tree := by
  revert hdb
  refine solid_cases ha hb (fun _ => ?_) (fun _ => ?_) (fun _ _ _ _ _ => belowTo_func_iff)
    (fun _ _ h => belowTo_object_iff h.1) (fun a b ha hb h _ => ?_)
  · exact ⟨fun _ _ hd => (nomatch hd), fun _ => .boolean rfl rfl⟩
  · exact ⟨fun _ _ hd => (nomatch hd), fun _ => .number rfl rfl⟩
  · have hbelow : ¬ Tree.BelowTo (n + 1) a.tree b.tree := fun hbelow =>
      not_alike_of_unlike ha hb h (Tree.RootBelow.alike hbelow a.tree_nil b.tree_nil)
    simp [hbelow, subtypeDemands_of_unlike h]

def subtyping : Comparison where
  heads := subsumesHeads
  demands := subtypeDemands
  HoldsTo := Tree.BelowTo
  heads_eq := subsumesHeads_eq_allM
  step_of_demand := step_of_subtypeDemands
  holdsTo_zero := fun _ _ => trivial
  holdsTo_pred := Tree.BelowTo.pred
  holdsTo_succ_iff := fun ha hb _ hdb => belowTo_iff_subtypeDemands ha hb hdb

end StructuralTypes
