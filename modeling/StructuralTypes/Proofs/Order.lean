import StructuralTypes.Proofs.Agreement

/-!
The laws of order. Subtyping of trees is transitive: a tree in the middle hands on what is asked of
it, and at parameters, where the sides change places, the middle stays in the middle. Among
contractive types that are named coherently with one another the comparisons decide subtyping and
equality of trees, so they have the laws of the relations they decide, whatever binders they unfold
on the way and whatever pairs they assume.
-/

namespace StructuralTypes

open Ty

namespace Tree

variable {R : Tree → Tree → Prop} {s t u : Tree}

theorem RootBelow.leaf_inv {l : Label} (h : RootBelow R s t) (hs : s [] = some l)
    (hleaf : ∀ e, ¬ l.Has e) : t [] = some l := by
  cases h with
  | boolean hs' ht => exact ht.trans (hs'.symm.trans hs)
  | number hs' ht => exact ht.trans (hs'.symm.trans hs)
  | hole hs' ht => exact ht.trans (hs'.symm.trans hs)
  | func hs' ht => exact ht.trans (hs'.symm.trans hs)
  | @object names names' hs' ht width =>
      obtain rfl : .object names = l := Option.some.inj (hs'.symm.trans hs)
      have hempty : names = ∅ := Finset.eq_empty_of_forall_notMem fun name => hleaf (.field name)
      subst hempty
      rw [ht, Finset.subset_empty.mp width]

theorem RootBelow.object_above {names : Finset String} (h : RootBelow R s t)
    (hs : s [] = some (.object names)) :
    ∃ names' ⊆ names, t [] = some (.object names') ∧
      ∀ name ∈ names', R (s.sub (.field name)) (t.sub (.field name)) := by
  cases h with
  | @object _ names' hs' ht width depth =>
      obtain rfl : names = _ := by simpa using hs.symm.trans hs'
      exact ⟨names', width, ht, depth⟩
  | boolean hs' => simp [hs] at hs'
  | number hs' => simp [hs] at hs'
  | hole hs' => simp [hs] at hs'
  | func hs' => simp [hs] at hs'

/-- The rules hold across a root in the middle, with what is below it in the middle. -/
theorem RootBelow.trans (h : RootBelow R s t) (h' : RootBelow R t u) :
    RootBelow (fun v w => ∃ m, R v m ∧ R m w) s u := by
  cases h with
  | boolean hs ht => exact .boolean hs (h'.leaf_inv ht fun _ he => he)
  | number hs ht => exact .number hs (h'.leaf_inv ht fun _ he => he)
  | hole hs ht => exact .hole hs (h'.leaf_inv ht fun _ he => he)
  | func hs ht params result =>
      obtain ⟨hu, params', result'⟩ := h'.func_inv ht
      exact .func hs hu (fun i hi => ⟨_, params' i hi, params i hi⟩) ⟨_, result, result'⟩
  | object hs ht width depth =>
      obtain ⟨names, width', hu, depth'⟩ := h'.object_above ht
      exact .object hs hu (width'.trans width) fun name hname =>
        ⟨_, depth name (width' hname), depth' name hname⟩

theorem Below.trans (h : s.Below t) (h' : t.Below u) : s.Below u := by
  refine ⟨fun v w => ∃ m, v.Below m ∧ m.Below w, ?_, t, h, h'⟩
  rintro v w ⟨m, hvm, hmw⟩
  exact hvm.root.trans hmw.root

end Tree

/-- Among types whose names are coherent with one another, being found a subtype is transitive, and
being found equal is symmetric and transitive. -/
theorem isSubtype_equals_order {a b c : Ty} (ha : a.Closed) (hb : b.Closed) (hc : c.Closed)
    (hca : a.Contractive) (hcb : b.Contractive) (hcc : c.Contractive) (hda : a.DistinctFields)
    (hdb : b.DistinctFields) (hdc : c.DistinctFields)
    (hcoherent : ∃ G, Coherent G a ∧ Coherent G b ∧ Coherent G c) :
    (isSubtype a b = .ok true → isSubtype b c = .ok true → isSubtype a c = .ok true) ∧
      (equals a b = .ok true → equals b a = .ok true) ∧
      (equals a b = .ok true → equals b c = .ok true → equals a c = .ok true) := by
  obtain ⟨G, hGa, hGb, hGc⟩ := hcoherent
  have hna : WellNamed G a := ⟨⟨⟨ha, hda⟩, hca⟩, hGa⟩
  have hnb : WellNamed G b := ⟨⟨⟨hb, hdb⟩, hcb⟩, hGb⟩
  have hnc : WellNamed G c := ⟨⟨⟨hc, hdc⟩, hcc⟩, hGc⟩
  rw [hna.isSubtype_eq_true_iff hnb, hnb.isSubtype_eq_true_iff hnc, hna.isSubtype_eq_true_iff hnc,
    hna.equals_eq_true_iff hnb, hnb.equals_eq_true_iff hna, hnb.equals_eq_true_iff hnc,
    hna.equals_eq_true_iff hnc]
  exact ⟨Tree.Below.trans, Eq.symm, Eq.trans⟩

/-- Streams of numbers that ask for less and less. The one in the middle comes back to itself after
two steps only, and changes sides on the way. -/
theorem isSubtype_equals_order_streams :
    let asks := object [("n", number)]
    let a := mu "X" (object
      [("n", number), ("m", boolean), ("k", func [("f", object [])] (var "X"))])
    let b := mu "Y" (object [("n", number), ("k", func [("f", asks)] (mu "Z" (object
      [("m", boolean), ("n", number), ("k", func [("f", object [])] (var "Y"))])))])
    let c := mu "W" (object [("k", func [("f", asks)] (var "W"))])
    a.Closed ∧ b.Closed ∧ c.Closed ∧ a.Contractive ∧ b.Contractive ∧ c.Contractive ∧
      a.DistinctFields ∧ b.DistinctFields ∧ c.DistinctFields ∧
      (∃ G, Coherent G a ∧ Coherent G b ∧ Coherent G c) ∧
      isSubtype a b = .ok true ∧ isSubtype b c = .ok true ∧ isSubtype a c = .ok true := by
  intro asks a b c
  have ha : a.Closed := by decide
  have hb : b.Closed := by decide
  have hc : c.Closed := by decide
  have hca : a.Contractive := by decide
  have hcb : b.Contractive := by decide
  have hcc : c.Contractive := by decide
  have hda : a.DistinctFields := by decide
  have hdb : b.DistinctFields := by decide
  have hdc : c.DistinctFields := by decide
  have hcoherent : ∃ G, Coherent G a ∧ Coherent G b ∧ Coherent G c := by
    have hbc : (func [("b", b)] c).Closed := by decide
    obtain ⟨G, hGa, hGbc, hGc⟩ := exists_coherent_of_nodup ha hbc (by decide)
    exact ⟨G, hGa, coherentRow_iff.mp hGbc ("b", b) List.mem_cons_self, hGc⟩
  have hab : isSubtype a b = .ok true := rfl
  have hbc : isSubtype b c = .ok true := rfl
  have hac := (isSubtype_equals_order ha hb hc hca hcb hcc hda hdb hdc hcoherent).1 hab hbc
  exact ⟨ha, hb, hc, hca, hcb, hcc, hda, hdb, hdc, hcoherent, hab, hbc, hac⟩

end StructuralTypes
