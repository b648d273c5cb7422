import Mathlib.Data.Finset.Dedup
import StructuralTypes.Proofs.Meaning
import StructuralTypes.Proofs.Reachable
import StructuralTypes.Proofs.Shape

/-!
Types that agree node by node, up to what their trees do not show: the names of binders and of
parameters, the order of fields, and closed parts with one tree in place of one another. Such types
have one tree themselves (`Congruent.tree_eq`).

Binders are followed by two stacks, one a side. Unfolding turns a pair of binders into a pair of
bodies with the binders put in for their names, and these agree again; so the two sides can be
unfolded in step until heads are uncovered, or both have none.
-/

namespace StructuralTypes.Ty

/-- The variables belong to binders of one pair of the stack, or are one variable free on both
sides. -/
inductive Partners : Renaming → String → String → Prop
  | here {names : Renaming} (x y : String) : Partners ((x, y) :: names) x y
  | there {names : Renaming} {u v x y : String} (hx : x ≠ u) (hy : y ≠ v)
      (h : Partners names x y) : Partners ((u, v) :: names) x y
  | free (x : String) : Partners [] x x

/-- The types agree, with the binders around them paired off by the stack. -/
inductive Congruent : Renaming → Ty → Ty → Prop
  | closed {names : Renaming} {s t : Ty} (hs : s.Closed) (ht : t.Closed) (h : s.tree = t.tree) :
      Congruent names s t
  | boolean {names : Renaming} : Congruent names boolean boolean
  | number {names : Renaming} : Congruent names number number
  | func {names : Renaming} {params params' : Row} {result result' : Ty}
      (arity : params.length = params'.length)
      (hparams : ∀ (i : Nat) (c d : Ty), (Row.types params)[i]? = some c →
        (Row.types params')[i]? = some d → Congruent names c d)
      (hresult : Congruent names result result') :
      Congruent names (func params result) (func params' result')
  | object {names : Renaming} {fields fields' : Row}
      (labels : (Row.labels fields).Perm (Row.labels fields'))
      (hfields : ∀ (name : String) (c d : Ty), fields.lookup name = some c →
        fields'.lookup name = some d → Congruent names c d) :
      Congruent names (object fields) (object fields')
  | mu {names : Renaming} {x y : String} {body body' : Ty}
      (h : Congruent ((x, y) :: names) body body') : Congruent names (mu x body) (mu y body')
  | var {names : Renaming} {x y : String} (h : Partners names x y) : Congruent names (var x) (var y)

theorem freeIn_of_types {x : String} {row : Row} {i : Nat} {c : Ty}
    (h : (Row.types row)[i]? = some c) (hx : Free x c) : FreeIn x row := by
  obtain ⟨p, hp, rfl⟩ := List.mem_map.mp (List.mem_of_getElem? h)
  exact freeIn_iff.mpr ⟨p, hp, hx⟩

theorem Congruent.of_partners {names names' : Renaming} {s t : Ty} (h : Congruent names s t)
    (hnames : ∀ x y, Free x s → Free y t → Partners names x y → Partners names' x y) :
    Congruent names' s t := by
  induction h generalizing names' with
  | closed hs ht h => exact .closed hs ht h
  | boolean => exact .boolean
  | number => exact .number
  | func arity _ _ hparams hresult =>
      refine .func arity (fun i c d hc hd => hparams i c d hc hd fun x y hx hy => ?_)
        (hresult fun x y hx hy => hnames x y (.inr hx) (.inr hy))
      exact hnames x y (.inl (freeIn_of_types hc hx)) (.inl (freeIn_of_types hd hy))
  | object labels _ hfields =>
      refine .object labels fun name c d hc hd => hfields name c d hc hd fun x y hx hy => ?_
      exact hnames x y (freeIn_iff.mpr ⟨_, Row.mem_of_lookup hc, hx⟩)
        (freeIn_iff.mpr ⟨_, Row.mem_of_lookup hd, hy⟩)
  | mu _ ih =>
      refine .mu (ih fun x y hx hy hxy => ?_)
      cases hxy with
      | here => exact .here _ _
      | there hxu hyv hxy =>
          exact .there hxu hyv (hnames x y ⟨Ne.symm hxu, hx⟩ ⟨Ne.symm hyv, hy⟩ hxy)
  | var h => exact .var (hnames _ _ rfl rfl h)

/-- Values for the variables of two types: a pair of variables has agreeing values, or none on
either side. -/
def Matching (names inner : Renaming) (σ σ' : Values) : Prop :=
  ∀ x y, Partners names x y →
    (σ x = none ∧ σ' y = none ∧ Partners inner x y) ∨
      ∃ u v, σ x = some u ∧ σ' y = some v ∧ u.Closed ∧ v.Closed ∧ Congruent [] u v

theorem Matching.without {names inner : Renaming} {σ σ' : Values} (h : Matching names inner σ σ')
    (x y : String) :
    Matching ((x, y) :: names) ((x, y) :: inner) (Function.update σ x none)
      (Function.update σ' y none) := by
  intro u v huv
  cases huv with
  | here => exact .inl ⟨Function.update_self .., Function.update_self .., .here x y⟩
  | there hu hv huv =>
      rw [Function.update_of_ne hu, Function.update_of_ne hv]
      rcases h u v huv with ⟨hσ, hσ', hinner⟩ | hvalues
      · exact .inl ⟨hσ, hσ', .there hu hv hinner⟩
      · exact .inr hvalues

theorem Congruent.close {names inner : Renaming} {s t : Ty} {σ σ' : Values}
    (h : Congruent names s t) (hσ : Matching names inner σ σ') :
    Congruent inner (Ty.close σ s) (Ty.close σ' t) := by
  induction h generalizing inner σ σ' with
  | closed hs ht h =>
      rw [hs.close_eq, ht.close_eq]
      exact .closed hs ht h
  | boolean => exact .boolean
  | number => exact .number
  | func arity _ _ hparams hresult =>
      refine .func (by simpa using arity) (fun i c d hc hd => ?_) (hresult hσ)
      rw [types_closeRow, List.getElem?_map, Option.map_eq_some_iff] at hc hd
      obtain ⟨c, hc, rfl⟩ := hc
      obtain ⟨d, hd, rfl⟩ := hd
      exact hparams i c d hc hd hσ
  | object labels _ hfields =>
      refine .object (by rwa [labels_closeRow, labels_closeRow]) fun name c d hc hd => ?_
      rw [closeRow_eq_map, Node.lookup_map, Option.map_eq_some_iff] at hc hd
      obtain ⟨c, hc, rfl⟩ := hc
      obtain ⟨d, hd, rfl⟩ := hd
      exact hfields name c d hc hd hσ
  | mu _ ih => exact .mu (ih (hσ.without _ _))
  | @var _ x y hxy =>
      rcases hσ x y hxy with ⟨hx, hy, hinner⟩ | ⟨u, v, hx, hy, hu, hv, huv⟩
      · rw [Ty.close, Ty.close, hx, hy]
        exact .var hinner
      · rw [Ty.close, Ty.close, hx, hy]
        exact huv.of_partners fun z _ hz => absurd hz (hu z)

theorem Congruent.unroll {x y : String} {body body' : Ty} (hs : (Ty.mu x body).Closed)
    (ht : (Ty.mu y body').Closed) (h : Congruent [(x, y)] body body') :
    Congruent [] (Ty.unroll x body) (Ty.unroll y body') := by
  rw [Ty.unroll, Ty.unroll, subst_eq_close, subst_eq_close]
  refine h.close fun u v huv => ?_
  cases huv with
  | here =>
      exact .inr ⟨_, _, Function.update_self .., Function.update_self .., hs, ht, .mu h⟩
  | there hu hv huv =>
      rw [Function.update_of_ne hu, Function.update_of_ne hv]
      exact .inl ⟨rfl, rfl, huv⟩

theorem Closed.peel {t : Ty} (h : t.Closed) : (Ty.peel t).Closed := by
  cases t with
  | mu x body => exact h.unroll
  | _ => exact h

theorem Congruent.peel {s t : Ty} (hs : s.Closed) (ht : t.Closed) (h : Congruent [] s t) :
    Congruent [] (Ty.peel s) (Ty.peel t) := by
  cases h with
  | closed _ _ h => exact .closed hs.peel ht.peel (by rwa [tree_peel, tree_peel])
  | boolean => exact .boolean
  | number => exact .number
  | func arity hparams hresult => exact .func arity hparams hresult
  | object labels hfields => exact .object labels hfields
  | mu h => exact h.unroll hs ht
  | var h => exact .var h

theorem Congruent.iterate_peel {s t : Ty} (hs : s.Closed) (ht : t.Closed)
    (h : Congruent [] s t) (n : Nat) :
    (Ty.peel^[n] s).Closed ∧ (Ty.peel^[n] t).Closed ∧
      Congruent [] (Ty.peel^[n] s) (Ty.peel^[n] t) := by
  induction n with
  | zero => exact ⟨hs, ht, h⟩
  | succ n ih =>
      obtain ⟨hs', ht', h'⟩ := ih
      rw [Function.iterate_succ_apply', Function.iterate_succ_apply']
      exact ⟨hs'.peel, ht'.peel, h'.peel hs' ht'⟩

theorem Congruent.agreesTo {s t : Ty} (hs : s.Closed) (ht : t.Closed) (h : Congruent [] s t)
    (n : Nat) : Tree.AgreesTo n s.tree t.tree := by
  induction n generalizing s t with
  | zero => exact Tree.agreesTo_zero _ _
  | succ n ih =>
      -- As many unfoldings as either side has binders uncover both heads, or neither has one.
      let k := max s.binders t.binders
      obtain ⟨hs', ht', h'⟩ := h.iterate_peel hs ht k
      rw [← tree_iterate_peel k s, ← tree_iterate_peel k t]
      generalize hsk : Ty.peel^[k] s = s' at *
      generalize htk : Ty.peel^[k] t = t' at *
      cases h' with
      | closed _ _ h =>
          rw [h]
          exact fun _ _ => rfl
      | boolean => exact fun _ _ => rfl
      | number => exact fun _ _ => rfl
      | @func _ params params' result result' arity hparams hresult =>
          refine agreesTo_tree_succ_iff.mpr ⟨?_, fun e c d hc hd => ?_⟩
          · exact congrArg Label.func (by rwa [Row.length_types, Row.length_types])
          · cases e with
            | param i =>
                exact ih (fun x hx => hs' x (.inl (freeIn_of_types hc hx)))
                  (fun x hx => ht' x (.inl (freeIn_of_types hd hx))) (hparams i c d hc hd)
            | result =>
                obtain rfl : result = c := Option.some.inj hc
                obtain rfl : result' = d := Option.some.inj hd
                exact ih (fun x hx => hs' x (.inr hx)) (fun x hx => ht' x (.inr hx)) hresult
            | field name => cases hc
      | object labels hfields =>
          refine agreesTo_tree_succ_iff.mpr ⟨?_, fun e c d hc hd => ?_⟩
          · exact congrArg Label.object (List.toFinset_eq_of_perm _ _ labels)
          · cases e with
            | param i => cases hc
            | result => cases hc
            | field name =>
                exact ih (Step.closed (.field (Row.mem_of_lookup hc)) hs')
                  (Step.closed (.field (Row.mem_of_lookup hd)) ht') (hfields name c d hc hd)
      -- Binders after as many unfoldings: neither side has a head, and both show a hole.
      | mu h =>
          have hsh := (headless_of_iterate_peel (Nat.le_max_left _ _) hsk).iterate_peel k
          have hth := (headless_of_iterate_peel (Nat.le_max_right _ _) htk).iterate_peel k
          rw [hsk] at hsh
          rw [htk] at hth
          rw [tree_congr (hsh.node_eq.trans hth.node_eq.symm)]
          exact fun _ _ => rfl
      | var h => exact absurd hs' (not_closed_var _)

theorem Congruent.tree_eq {s t : Ty} (hs : s.Closed) (ht : t.Closed) (h : Congruent [] s t) :
    s.tree = t.tree :=
  Tree.eq_iff_forall_agreesTo.mpr (h.agreesTo hs ht)

end StructuralTypes.Ty
