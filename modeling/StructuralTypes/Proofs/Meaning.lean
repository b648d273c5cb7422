import Mathlib.Logic.Function.Iterate
import StructuralTypes.Proofs.Tree
import StructuralTypes.Proofs.Unfolding

/-!
The infinite tree a type stands for. Unfolding the binders in front of a type either uncovers a head
or goes on for ever, and as many unfoldings as there are binders tell which. The head gives the node
at the root and the types below it; a type without a head is a hole.

A type and its unfolding have the same tree (`tree_unroll`), and two trees agree one level further
if the nodes at their roots do and what stands below them agrees so far (`agreesTo_tree_succ_iff`).
-/

namespace StructuralTypes

/-- A node with what stands right below it. -/
inductive Node (α : Type) where
  | boolean
  | number
  | func (params : List α) (result : α)
  | object (fields : List (String × α))
  | hole

namespace Node

variable {α β : Type}

def label : Node α → Label
  | boolean => .boolean
  | number => .number
  | func params _ => .func params.length
  | object fields => .object (fields.map Prod.fst).toFinset
  | hole => .hole

def child : Node α → Edge → Option α
  | func params _, .param i => params[i]?
  | func _ result, .result => some result
  | object fields, .field name => fields.lookup name
  | _, _ => none

theorem isSome_child_iff {n : Node α} {e : Edge} : (n.child e).isSome ↔ n.label.Has e := by
  cases n with
  | object fields =>
      cases e with
      | field name =>
          simp only [child, label, Label.Has, List.lookup_isSome_iff, List.mem_toFinset,
            List.mem_map, beq_iff_eq]
          constructor
          · rintro ⟨p, hp, hname⟩
            exact ⟨p, hp, hname.symm⟩
          · rintro ⟨p, hp, hname⟩
            exact ⟨p, hp, hname.symm⟩
      | _ => simp [child, label, Label.Has]
  | _ => cases e <;> simp [child, label, Label.Has]

def map (f : α → β) : Node α → Node β
  | boolean => boolean
  | number => number
  | func params result => func (params.map f) (f result)
  | object fields => object (fields.map fun p => (p.1, f p.2))
  | hole => hole

@[simp] theorem label_map (f : α → β) (n : Node α) : (n.map f).label = n.label := by
  cases n with
  | func params result => simp [map, label]
  | object fields => simp [map, label, Function.comp_def]
  | _ => rfl

theorem lookup_map (f : α → β) (fields : List (String × α)) (name : String) :
    (fields.map fun p => (p.1, f p.2)).lookup name = (fields.lookup name).map f := by
  induction fields with
  | nil => rfl
  | cons p fields ih =>
      rw [List.map_cons, List.lookup_cons, List.lookup_cons, ih]
      cases name == p.1 <;> rfl

@[simp] theorem child_map (f : α → β) (n : Node α) (e : Edge) :
    (n.map f).child e = (n.child e).map f := by
  cases n with
  | func params result => cases e <;> simp [map, child]
  | object fields =>
      cases e with
      | field name => exact lookup_map f fields name
      | _ => rfl
  | _ => rfl

end Node

def Tree.ofNode (n : Node Tree) : Tree
  | [] => some n.label
  | e :: path => (n.child e).bind fun t => t path

theorem Tree.sub_ofNode {n : Node Tree} {e : Edge} {t : Tree} (h : n.child e = some t) :
    (ofNode n).sub e = t := by
  funext path
  rw [Tree.sub, ofNode, h, Option.bind_some]

theorem Tree.sub_ofNode_of_eq_none {n : Node Tree} {e : Edge} (h : n.child e = none) :
    (ofNode n).sub e = fun _ => none := by
  funext path
  rw [Tree.sub, ofNode, h, Option.bind_none]

/-- One more level of two trees agrees if the nodes at the roots have one label and the trees below
them agree so far, edge by edge. -/
theorem Tree.agreesTo_ofNode_succ_iff {k : Nat} {n m : Node Tree} :
    AgreesTo (k + 1) (ofNode n) (ofNode m) ↔ n.label = m.label ∧
      ∀ e s t, n.child e = some s → m.child e = some t → AgreesTo k s t := by
  rw [agreesTo_succ_iff, ofNode, ofNode, Option.some.injEq]
  refine and_congr_right fun hlabel => forall_congr' fun e => ?_
  have hsome : (n.child e).isSome ↔ (m.child e).isSome := by
    rw [Node.isSome_child_iff, Node.isSome_child_iff, hlabel]
  cases hn : n.child e with
  | none =>
      have hm : m.child e = none := by
        rw [hn] at hsome
        exact Option.not_isSome_iff_eq_none.mp fun hm => nomatch hsome.mpr hm
      rw [sub_ofNode_of_eq_none hn, sub_ofNode_of_eq_none hm]
      exact ⟨fun _ _ _ hs => (nomatch hs), fun _ _ _ => rfl⟩
  | some s =>
      obtain ⟨t, hm⟩ := Option.isSome_iff_exists.mp (hsome.mp (by rw [hn, Option.isSome_some]))
      rw [sub_ofNode hn, sub_ofNode hm, hm]
      constructor
      · rintro h _ _ ⟨rfl⟩ ⟨rfl⟩
        exact h
      · exact fun h => h s t rfl rfl

namespace Ty

/-! ### The head -/

def peel : Ty → Ty
  | mu x body => unroll x body
  | t => t

/-- What the binders in front uncover; still a binder if they uncover nothing. -/
def uncovered (t : Ty) : Ty := peel^[t.binders] t

theorem uncovered_of_ne_mu {t : Ty} (h : ∀ x body, t ≠ mu x body) : t.uncovered = t := by
  cases t with
  | mu x body => exact absurd rfl (h x body)
  | _ => rfl

theorem uncovered_mu {x : String} {body : Ty} (h : body.tailVar ≠ some x) :
    (mu x body).uncovered = (unroll x body).uncovered := by
  rw [uncovered, uncovered, binders_unroll h, binders, Function.iterate_succ_apply, peel]

theorem Headless.iterate_peel {t : Ty} (h : t.Headless) (n : Nat) : (peel^[n] t).Headless := by
  induction n with
  | zero => exact h
  | succ n ih =>
      rw [Function.iterate_succ_apply']
      obtain ⟨x, body, hmu⟩ := ih.eq_mu
      rw [hmu] at ih ⊢
      exact ih.unroll

theorem uncovered_ne_mu {t : Ty} (h : ¬ t.Headless) (x : String) (body : Ty) :
    t.uncovered ≠ mu x body := by
  generalize hn : t.binders = n
  induction n generalizing t with
  | zero =>
      cases t with
      | mu y body' => cases hn
      | _ => exact fun hmu => nomatch hmu
  | succ n ih =>
      cases t with
      | mu y body' =>
          have htail : body'.tailVar ≠ some y := fun htail => h (headless_mu_of_tailVar htail)
          rw [uncovered_mu htail]
          refine ih (fun hunroll => h ((headless_unroll_iff htail).mp hunroll)) ?_
          rw [binders_unroll htail]
          exact Nat.succ.inj hn
      | _ => cases hn

theorem iterate_peel_of_ne_mu {t : Ty} (h : ∀ x body, t ≠ mu x body) (n : Nat) :
    peel^[n] t = t := by
  have hpeel : peel t = t := by
    cases t with
    | mu x body => exact absurd rfl (h x body)
    | _ => rfl
  exact Function.iterate_fixed hpeel n

theorem headless_of_iterate_peel {t : Ty} {n : Nat} (hn : t.binders ≤ n) {x : String} {body : Ty}
    (hmu : peel^[n] t = mu x body) : t.Headless := by
  by_contra hhead
  obtain ⟨k, rfl⟩ := Nat.exists_eq_add_of_le' hn
  have hsolid := uncovered_ne_mu hhead
  rw [Function.iterate_add_apply] at hmu
  exact hsolid x body ((iterate_peel_of_ne_mu hsolid k).symm.trans hmu)

/-- The types without a head are those that stay binders however often they are unfolded. -/
theorem headless_iff_forall_peel {t : Ty} :
    t.Headless ↔ ∀ n, ∃ x body, peel^[n] t = mu x body := by
  constructor
  · exact fun h n => (h.iterate_peel n).eq_mu
  · intro h
    obtain ⟨x, body, hmu⟩ := h t.binders
    exact headless_of_iterate_peel (Nat.le_refl _) hmu

def shown : Ty → Node Ty
  | boolean => .boolean
  | number => .number
  | func params result => .func (Row.types params) result
  | object fields => .object fields
  | mu _ _ => .hole
  | var _ => .hole

/-- Neither a binder nor a variable stands in front. -/
def Solid : Ty → Prop
  | mu _ _ => False
  | var _ => False
  | _ => True

theorem Solid.ne_mu {t : Ty} (h : t.Solid) (x : String) (body : Ty) : t ≠ mu x body := by
  rintro rfl
  exact h

def node (t : Ty) : Node Ty := t.uncovered.shown

theorem Solid.node_eq {t : Ty} (h : t.Solid) : t.node = t.shown := by
  rw [node, uncovered_of_ne_mu h.ne_mu]

theorem Headless.node_eq {t : Ty} (h : t.Headless) : t.node = .hole := by
  obtain ⟨x, body, hmu⟩ := headless_iff_forall_peel.mp h t.binders
  rw [node, uncovered, hmu, shown]

theorem node_unroll (x : String) (body : Ty) : (unroll x body).node = (mu x body).node := by
  by_cases htail : body.tailVar = some x
  · have h : (mu x body).Headless := headless_mu_of_tailVar htail
    rw [h.node_eq, h.unroll.node_eq]
  · rw [node, node, uncovered_mu htail]

/-! ### The tree -/

/-- The infinite unfolding of a type. -/
def tree : Ty → Tree
  | t, [] => some t.node.label
  | t, e :: path =>
      match t.node.child e with
      | some c => tree c path
      | none => none

theorem tree_nil (t : Ty) : t.tree [] = some t.node.label := rfl

theorem tree_eq_ofNode (t : Ty) : t.tree = .ofNode (t.node.map tree) := by
  funext path
  cases path with
  | nil => rw [tree_nil, Tree.ofNode, Node.label_map]
  | cons e path =>
      rw [tree, Tree.ofNode, Node.child_map]
      cases t.node.child e <;> rfl

theorem Solid.tree_eq {t : Ty} (h : t.Solid) : t.tree = .ofNode (t.shown.map tree) := by
  rw [tree_eq_ofNode, h.node_eq]

theorem sub_tree {t c : Ty} {e : Edge} (h : t.node.child e = some c) : t.tree.sub e = c.tree := by
  rw [tree_eq_ofNode]
  exact Tree.sub_ofNode (by rw [Node.child_map, h, Option.map_some])

theorem tree_congr {s t : Ty} (h : s.node = t.node) : s.tree = t.tree := by
  rw [tree_eq_ofNode, tree_eq_ofNode t, h]

theorem tree_unroll (x : String) (body : Ty) : (unroll x body).tree = (mu x body).tree :=
  tree_congr (node_unroll x body)

theorem tree_peel (t : Ty) : (peel t).tree = t.tree := by
  cases t with
  | mu x body => exact tree_unroll x body
  | _ => rfl

theorem tree_iterate_peel (n : Nat) (t : Ty) : (peel^[n] t).tree = t.tree := by
  induction n with
  | zero => rfl
  | succ n ih => rw [Function.iterate_succ_apply', tree_peel, ih]

theorem agreesTo_tree_succ_iff {n : Nat} {s t : Ty} :
    Tree.AgreesTo (n + 1) s.tree t.tree ↔ s.node.label = t.node.label ∧
      ∀ e c d, s.node.child e = some c → t.node.child e = some d →
        Tree.AgreesTo n c.tree d.tree := by
  rw [tree_eq_ofNode, tree_eq_ofNode t, Tree.agreesTo_ofNode_succ_iff, Node.label_map,
    Node.label_map]
  simp only [Node.child_map, Option.map_eq_some_iff, forall_exists_index, and_imp]
  refine and_congr_right fun _ => forall_congr' fun e => ?_
  constructor
  · exact fun h c d hc hd => h _ _ c hc rfl d hd rfl
  · rintro h _ _ c hc rfl d hd rfl
    exact h c d hc hd

end Ty

end StructuralTypes
