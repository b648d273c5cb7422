import StructuralTypes.Proofs.Agreement
import StructuralTypes.Proofs.Head
import StructuralTypes.Proofs.TwoRuns

/-!
Two relations of types that the rules of checking respect. The first is equality, among types with a
property that the rules keep: to be closed, contractive and with distinct fields, and besides that
to be named coherently. The second relates well-named types with one tree: their heads are of one
kind, what stands below these has one tree again, and both comparisons decide relations of trees.
-/

namespace StructuralTypes

open Ty

/-! ### Properties that the rules keep -/

/-- A property of guarded types that is kept by steps down from a type and by the ways in which the
rules put types together. -/
structure Admissible (I : Ty → Prop) : Prop where
  guarded : ∀ {t}, I t → t.Guarded
  step : ∀ {s t}, Step s t → I s → I t
  boolean : I .boolean
  number : I .number
  func : ∀ {params result}, (∀ p ∈ params, I p.2) → I result → I (.func params result)
  object : ∀ {fields : Row}, fields.labels.Nodup → (∀ f ∈ fields, I f.2) → I (.object fields)

theorem admissible_guarded : Admissible Guarded where
  guarded := id
  step := Step.guarded
  boolean := ⟨⟨fun _ h => h, trivial⟩, trivial⟩
  number := ⟨⟨fun _ h => h, trivial⟩, trivial⟩
  func := by
    intro params result hparams hresult
    refine ⟨⟨fun x hx => ?_, ?_⟩, ?_⟩
    · rcases hx with hx | hx
      · obtain ⟨p, hp, hx⟩ := freeIn_iff.mp hx
        exact (hparams p hp).closed x hx
      · exact hresult.closed x hx
    · exact ⟨distinctFieldsRow_iff.mpr fun p hp => (hparams p hp).distinct, hresult.distinct⟩
    · exact ⟨contractiveRow_iff.mpr fun p hp => (hparams p hp).contractive, hresult.contractive⟩
  object := by
    intro fields hnodup hfields
    refine ⟨⟨fun x hx => ?_, ?_⟩, ?_⟩
    · obtain ⟨f, hf, hx⟩ := freeIn_iff.mp hx
      exact (hfields f hf).closed x hx
    · exact ⟨hnodup, distinctFieldsRow_iff.mpr fun f hf => (hfields f hf).distinct⟩
    · exact contractiveRow_iff.mpr fun f hf => (hfields f hf).contractive

theorem admissible_wellNamed (G : Assignment) : Admissible (WellNamed G) where
  guarded := WellNamed.toGuarded
  step := Step.wellNamed
  boolean := ⟨admissible_guarded.boolean, trivial⟩
  number := ⟨admissible_guarded.number, trivial⟩
  func := by
    intro params result hparams hresult
    refine ⟨admissible_guarded.func (fun p hp => (hparams p hp).toGuarded) hresult.toGuarded, ?_⟩
    exact ⟨coherentRow_iff.mpr fun p hp => (hparams p hp).coherent, hresult.coherent⟩
  object := by
    intro fields hnodup hfields
    refine ⟨admissible_guarded.object hnodup fun f hf => (hfields f hf).toGuarded, ?_⟩
    exact coherentRow_iff.mpr fun f hf => (hfields f hf).coherent

theorem Admissible.uncovered {I : Ty → Prop} (hI : Admissible I) {t : Ty} (h : I t) :
    I t.uncovered :=
  uncovered_of_step (fun _ _ hstep => hI.step hstep) h

/-! ### Equality -/

theorem Ty.Guarded.exists_equals {a b : Ty} (ha : a.Guarded) (hb : b.Guarded) :
    ∃ r, a.equals b = .ok r :=
  equality.exists_verdict ha.toProper hb.toProper []

theorem Ty.Guarded.exists_isSubtype {a b : Ty} (ha : a.Guarded) (hb : b.Guarded) :
    ∃ r, a.isSubtype b = .ok r :=
  subtyping.exists_verdict ha.toProper hb.toProper []

def SameType (I : Ty → Prop) (a b : Ty) : Prop := a = b ∧ I a

theorem Row.Alike.eq_and_forall {I : Ty → Prop} {row row' : Row}
    (h : Row.Alike (SameType I) row row') : row = row' ∧ ∀ p ∈ row, I p.2 := by
  induction h with
  | nil => exact ⟨rfl, List.forall_mem_nil _⟩
  | @cons p q row row' hpq _ ih =>
      obtain ⟨hname, htype, hI⟩ := hpq
      exact ⟨congrArg₂ List.cons (Prod.ext hname htype) ih.1,
        List.forall_mem_cons.mpr ⟨hI, ih.2⟩⟩

theorem Ty.Solid.headsAlike_self {R : Ty → Ty → Prop} {s : Ty} (hs : s.Solid)
    (h : ∀ c, Step s c → R c c) : HeadsAlike R s s := by
  cases s with
  | boolean => exact .boolean
  | number => exact .number
  | func params result =>
      exact .func (List.forall₂_same.mpr fun p hp => h p.2 (.param result hp))
        (h result (.result params result))
  | object fields =>
      refine .object fun name => ?_
      cases hc : fields.lookup name with
      | none => exact .none
      | some c => exact .some (h c (Step.field (Row.mem_of_lookup hc)))
  | mu x body => exact hs.elim
  | var x => exact hs.elim

theorem indistinct_sameType {I : Ty → Prop} (hI : Admissible I) : Indistinct (SameType I) where
  boolean := ⟨rfl, hI.boolean⟩
  number := ⟨rfl, hI.number⟩
  func := by
    rintro params params' result _ hparams ⟨rfl, hresult⟩
    obtain ⟨rfl, hall⟩ := hparams.eq_and_forall
    exact ⟨rfl, hI.func hall hresult⟩
  object := by
    intro fields fields' hfields hnodup
    obtain ⟨rfl, hall⟩ := hfields.eq_and_forall
    exact ⟨rfl, hI.object hnodup hall⟩
  head := by
    rintro a _ ⟨rfl, ha⟩
    have hguarded := hI.guarded ha
    refine ⟨a.uncovered, a.uncovered, hguarded.head_eq, hguarded.head_eq, ?_⟩
    exact hguarded.solid_uncovered.headsAlike_self fun c hc => ⟨rfl, hI.step hc (hI.uncovered ha)⟩
  equals := by
    rintro a _ c _ ⟨rfl, ha⟩ ⟨rfl, hc⟩
    obtain ⟨r, hr⟩ := (hI.guarded ha).exists_equals (hI.guarded hc)
    exact ⟨r, hr, hr⟩
  isSubtype := by
    rintro a _ c _ ⟨rfl, ha⟩ ⟨rfl, hc⟩
    obtain ⟨r, hr⟩ := (hI.guarded ha).exists_isSubtype (hI.guarded hc)
    exact ⟨r, hr, hr⟩

/-! ### One tree -/

structure SameMeaning (G : Assignment) (a b : Ty) : Prop where
  left : WellNamed G a
  right : WellNamed G b
  tree_eq : a.tree = b.tree

/-- Below equal trees are equal trees, edge by edge. -/
theorem Ty.child_rel_of_tree_eq {a b : Ty} (h : a.tree = b.tree) (e : Edge) :
    Option.Rel (fun c d => c.tree = d.tree) (a.node.child e) (b.node.child e) := by
  have hlabel : a.node.label = b.node.label :=
    Option.some.inj (by rw [← tree_nil, ← tree_nil, h])
  have hsome : (a.node.child e).isSome ↔ (b.node.child e).isSome := by
    rw [Node.isSome_child_iff, Node.isSome_child_iff, hlabel]
  cases hc : a.node.child e with
  | none =>
      cases hd : b.node.child e with
      | none => exact .none
      | some d => simp [hc, hd] at hsome
  | some c =>
      cases hd : b.node.child e with
      | none => simp [hc, hd] at hsome
      | some d => exact .some (by rw [← sub_tree hc, ← sub_tree hd, h])

theorem forall₂_of_getElem? {α β : Type} {R : α → β → Prop} {l : List α} {l' : List β}
    (h : ∀ i : Nat, Option.Rel R l[i]? l'[i]?) : List.Forall₂ R l l' := by
  induction l generalizing l' with
  | nil =>
      cases l' with
      | nil => exact .nil
      | cons b l' => nomatch h 0
  | cons a l ih =>
      cases l' with
      | nil => nomatch h 0
      | cons b l' =>
          cases h 0 with
          | some hab => exact .cons hab (ih fun i => h (i + 1))

theorem SameMeaning.child_rel {G : Assignment} {s t : Ty} (h : SameMeaning G s t) (hs : s.Solid)
    (ht : t.Solid) (e : Edge) :
    Option.Rel (SameMeaning G) (s.shown.child e) (t.shown.child e) := by
  have hchild := child_rel_of_tree_eq h.tree_eq e
  rw [hs.node_eq, ht.node_eq] at hchild
  generalize hc : s.shown.child e = c at *
  generalize hd : t.shown.child e = d at *
  cases hchild with
  | none => exact .none
  | some htree =>
      exact .some ⟨(hs.step_of_child hc).wellNamed h.left, (ht.step_of_child hd).wellNamed h.right,
        htree⟩

theorem SameMeaning.headsAlike {G : Assignment} {s t : Ty} (h : SameMeaning G s t)
    (hs : s.Solid) (ht : t.Solid) : HeadsAlike (SameMeaning G) s t := by
  have hchild := h.child_rel hs ht
  have halike : s.node.label.Alike t.node.label := by
    have hlabel : s.node.label = t.node.label :=
      Option.some.inj (by rw [← tree_nil, ← tree_nil, h.tree_eq])
    rw [hlabel]
    exact Label.Alike.refl _
  revert hchild halike
  refine solid_cases hs ht (fun _ _ => .boolean) (fun _ _ => .number)
    (fun params result params' result' hchild _ => ?_) (fun fields fields' hchild _ => ?_)
    (fun a b ha hb hunlike _ halike => absurd halike (not_alike_of_unlike ha hb hunlike))
  · have hparams : List.Forall₂ (SameMeaning G) (Row.types params) (Row.types params') :=
      forall₂_of_getElem? fun i => hchild (.param i)
    cases hchild .result with
    | some hresult =>
        refine .func ?_ hresult
        rw [Row.types, Row.types, List.forall₂_map_left_iff, List.forall₂_map_right_iff] at hparams
        exact hparams
  · exact .object fun name => hchild (.field name)

theorem Row.Alike.map_eq {α : Type} {R : Ty → Ty → Prop} {row row' : Row} {f : Ty → α}
    (h : Row.Alike R row row') (hf : ∀ a b, R a b → f a = f b) :
    row.map (fun p => (p.1, f p.2)) = row'.map fun p => (p.1, f p.2) := by
  induction h with
  | nil => rfl
  | cons hpq _ ih =>
      rw [List.map_cons, List.map_cons, ih, hpq.1, hf _ _ hpq.2]

theorem Row.Alike.forall_mem {G : Assignment} {row row' : Row}
    (h : Row.Alike (SameMeaning G) row row') :
    (∀ p ∈ row, WellNamed G p.2) ∧ ∀ p ∈ row', WellNamed G p.2 := by
  induction h with
  | nil => exact ⟨List.forall_mem_nil _, List.forall_mem_nil _⟩
  | cons hpq _ ih =>
      exact ⟨List.forall_mem_cons.mpr ⟨hpq.2.left, ih.1⟩,
        List.forall_mem_cons.mpr ⟨hpq.2.right, ih.2⟩⟩

theorem SameMeaning.func {G : Assignment} {params params' : Row} {result result' : Ty}
    (hparams : Row.Alike (SameMeaning G) params params') (hresult : SameMeaning G result result') :
    SameMeaning G (.func params result) (.func params' result') := by
  obtain ⟨hleft, hright⟩ := hparams.forall_mem
  refine ⟨(admissible_wellNamed G).func hleft hresult.left,
    (admissible_wellNamed G).func hright hresult.right, ?_⟩
  have hrow := congrArg (List.map Prod.snd) (hparams.map_eq fun _ _ h => h.tree_eq)
  rw [List.map_map, List.map_map] at hrow
  rw [Solid.tree_eq (t := Ty.func _ _) trivial, Solid.tree_eq (t := Ty.func _ _) trivial, shown,
    shown, Node.map, Node.map, hresult.tree_eq, Row.types, Row.types, List.map_map, List.map_map]
  exact congrArg (fun l => Tree.ofNode (.func l _)) hrow

theorem SameMeaning.object {G : Assignment} {fields fields' : Row}
    (hfields : Row.Alike (SameMeaning G) fields fields') (hnodup : fields.labels.Nodup) :
    SameMeaning G (.object fields) (.object fields') := by
  obtain ⟨hleft, hright⟩ := hfields.forall_mem
  refine ⟨(admissible_wellNamed G).object hnodup hleft,
    (admissible_wellNamed G).object (hfields.labels_eq ▸ hnodup) hright, ?_⟩
  rw [Solid.tree_eq (t := Ty.object _) trivial, Solid.tree_eq (t := Ty.object _) trivial, shown,
    shown, Node.map, Node.map, hfields.map_eq fun _ _ h => h.tree_eq]

theorem exists_same_verdict {x y : Except Defect Bool} (hx : ∃ r, x = .ok r) (hy : ∃ r, y = .ok r)
    (h : x = .ok true ↔ y = .ok true) : ∃ r, x = .ok r ∧ y = .ok r := by
  obtain ⟨r, rfl⟩ := hx
  obtain ⟨s, rfl⟩ := hy
  cases r <;> cases s <;> simp_all

theorem indistinct_sameMeaning (G : Assignment) : Indistinct (SameMeaning G) where
  boolean := ⟨(admissible_wellNamed G).boolean, (admissible_wellNamed G).boolean, rfl⟩
  number := ⟨(admissible_wellNamed G).number, (admissible_wellNamed G).number, rfl⟩
  func := SameMeaning.func
  object := SameMeaning.object
  head := by
    intro a b h
    have ha := h.left.toGuarded
    have hb := h.right.toGuarded
    refine ⟨a.uncovered, b.uncovered, ha.head_eq, hb.head_eq, ?_⟩
    refine SameMeaning.headsAlike ⟨?_, ?_, ?_⟩ ha.solid_uncovered hb.solid_uncovered
    · exact (admissible_wellNamed G).uncovered h.left
    · exact (admissible_wellNamed G).uncovered h.right
    · rw [tree_uncovered, tree_uncovered, h.tree_eq]
  equals := by
    intro a b c d hab hcd
    refine exists_same_verdict (hab.left.toGuarded.exists_equals hcd.left.toGuarded)
      (hab.right.toGuarded.exists_equals hcd.right.toGuarded) ?_
    rw [hab.left.equals_eq_true_iff hcd.left, hab.right.equals_eq_true_iff hcd.right, hab.tree_eq,
      hcd.tree_eq]
  isSubtype := by
    intro a b c d hab hcd
    refine exists_same_verdict (hab.left.toGuarded.exists_isSubtype hcd.left.toGuarded)
      (hab.right.toGuarded.exists_isSubtype hcd.right.toGuarded) ?_
    rw [hab.left.isSubtype_eq_true_iff hcd.left, hab.right.isSubtype_eq_true_iff hcd.right,
      hab.tree_eq, hcd.tree_eq]

end StructuralTypes
