import Mathlib.Data.Finset.Dedup
import Mathlib.Data.Finset.Insert

/-!
Infinite trees, the meaning of types. A tree is known by the labels at the ends of its paths, so two
trees are equal when they agree at every depth. An object is a finite map from names to subtrees,
which has no order, and a hole stands where a type has nothing to show.

Subtyping of trees is the greatest relation that its own rules confirm. It is also what is left when
the rules have been checked to every finite depth (`below_iff_forall_belowTo`).
-/

namespace StructuralTypes

inductive Edge where
  | param (index : Nat)
  | result
  | field (name : String)
  deriving DecidableEq

inductive Label where
  | boolean
  | number
  | func (arity : Nat)
  | object (names : Finset String)
  | hole
  deriving DecidableEq

/-- Whether a node with this label has a subtree at the end of the edge. -/
def Label.Has : Label → Edge → Prop
  | func arity, .param i => i < arity
  | func _, .result => True
  | object names, .field name => name ∈ names
  | _, _ => False

def Label.Alike : Label → Label → Prop
  | boolean, boolean => True
  | number, number => True
  | func _, func _ => True
  | object _, object _ => True
  | hole, hole => True
  | _, _ => False

theorem Label.Alike.refl (l : Label) : l.Alike l := by
  cases l <;> trivial

/-- The label at the end of each path, if the tree goes so far. -/
def Tree := List Edge → Option Label

namespace Tree

def sub (s : Tree) (e : Edge) : Tree := fun path => s (e :: path)

/-- The trees show the same labels on paths of fewer than `n` edges. -/
def AgreesTo (n : Nat) (s t : Tree) : Prop := ∀ path, path.length < n → s path = t path

theorem agreesTo_zero (s t : Tree) : AgreesTo 0 s t := fun _ h => absurd h (Nat.not_lt_zero _)

theorem AgreesTo.pred {n : Nat} {s t : Tree} (h : AgreesTo (n + 1) s t) : AgreesTo n s t :=
  fun path hpath => h path (Nat.lt_succ_of_lt hpath)

theorem agreesTo_succ_iff {n : Nat} {s t : Tree} :
    AgreesTo (n + 1) s t ↔ s [] = t [] ∧ ∀ e, AgreesTo n (s.sub e) (t.sub e) := by
  constructor
  · intro h
    exact ⟨h [] (Nat.zero_lt_succ n), fun e path hpath => h (e :: path) (Nat.succ_lt_succ hpath)⟩
  · rintro ⟨hroot, hsub⟩ path hpath
    cases path with
    | nil => exact hroot
    | cons e path => exact hsub e path (Nat.lt_of_succ_lt_succ hpath)

theorem eq_iff_forall_agreesTo {s t : Tree} : s = t ↔ ∀ n, AgreesTo n s t := by
  constructor
  · rintro rfl n path -
    rfl
  · intro h
    funext path
    exact h (path.length + 1) path (Nat.lt_succ_self _)

/-! ### Subtyping -/

/-- The rules of subtyping at two roots, for a relation `R` below them: a primitive tree is below
itself only, functions of one arity go against `R` in their parameters and along `R` in their
results, and an object may have more fields than the other. -/
inductive RootBelow (R : Tree → Tree → Prop) (s t : Tree) : Prop
  | boolean (hs : s [] = some .boolean) (ht : t [] = some .boolean)
  | number (hs : s [] = some .number) (ht : t [] = some .number)
  | hole (hs : s [] = some .hole) (ht : t [] = some .hole)
  | func {arity : Nat} (hs : s [] = some (.func arity)) (ht : t [] = some (.func arity))
      (params : ∀ i < arity, R (t.sub (.param i)) (s.sub (.param i)))
      (result : R (s.sub .result) (t.sub .result))
  | object {names names' : Finset String} (hs : s [] = some (.object names))
      (ht : t [] = some (.object names')) (width : names' ⊆ names)
      (depth : ∀ name ∈ names', R (s.sub (.field name)) (t.sub (.field name)))

theorem RootBelow.mono {R Q : Tree → Tree → Prop} (hRQ : ∀ s t, R s t → Q s t) {s t : Tree}
    (h : RootBelow R s t) : RootBelow Q s t := by
  cases h with
  | boolean hs ht => exact .boolean hs ht
  | number hs ht => exact .number hs ht
  | hole hs ht => exact .hole hs ht
  | func hs ht params result =>
      exact .func hs ht (fun i hi => hRQ _ _ (params i hi)) (hRQ _ _ result)
  | object hs ht width depth =>
      exact .object hs ht width fun name hname => hRQ _ _ (depth name hname)

theorem RootBelow.alike {R : Tree → Tree → Prop} {s t : Tree} {l l' : Label}
    (h : RootBelow R s t) (hs : s [] = some l) (ht : t [] = some l') : l.Alike l' := by
  cases h with
  | boolean hs' ht' =>
      obtain rfl := Option.some.inj (hs.symm.trans hs')
      obtain rfl := Option.some.inj (ht.symm.trans ht')
      trivial
  | number hs' ht' =>
      obtain rfl := Option.some.inj (hs.symm.trans hs')
      obtain rfl := Option.some.inj (ht.symm.trans ht')
      trivial
  | hole hs' ht' =>
      obtain rfl := Option.some.inj (hs.symm.trans hs')
      obtain rfl := Option.some.inj (ht.symm.trans ht')
      trivial
  | func hs' ht' =>
      obtain rfl := Option.some.inj (hs.symm.trans hs')
      obtain rfl := Option.some.inj (ht.symm.trans ht')
      trivial
  | object hs' ht' =>
      obtain rfl := Option.some.inj (hs.symm.trans hs')
      obtain rfl := Option.some.inj (ht.symm.trans ht')
      trivial

theorem RootBelow.func_inv {R : Tree → Tree → Prop} {s t : Tree} {arity : Nat}
    (h : RootBelow R s t) (hs : s [] = some (.func arity)) :
    t [] = some (.func arity) ∧ (∀ i < arity, R (t.sub (.param i)) (s.sub (.param i))) ∧
      R (s.sub .result) (t.sub .result) := by
  cases h with
  | func hs' ht params result =>
      obtain rfl : arity = _ := by simpa using hs.symm.trans hs'
      exact ⟨ht, params, result⟩
  | boolean hs' => simp [hs] at hs'
  | number hs' => simp [hs] at hs'
  | hole hs' => simp [hs] at hs'
  | object hs' => simp [hs] at hs'

theorem RootBelow.object_inv {R : Tree → Tree → Prop} {s t : Tree} {names names' : Finset String}
    (h : RootBelow R s t) (hs : s [] = some (.object names))
    (ht : t [] = some (.object names')) :
    names' ⊆ names ∧ ∀ name ∈ names', R (s.sub (.field name)) (t.sub (.field name)) := by
  cases h with
  | object hs' ht' width depth =>
      obtain rfl : names = _ := by simpa using hs.symm.trans hs'
      obtain rfl : names' = _ := by simpa using ht.symm.trans ht'
      exact ⟨width, depth⟩
  | boolean hs' => simp [hs] at hs'
  | number hs' => simp [hs] at hs'
  | hole hs' => simp [hs] at hs'
  | func hs' => simp [hs] at hs'

/-- Subtyping of infinite trees: the greatest relation that the rules confirm. -/
def Below (s t : Tree) : Prop :=
  ∃ R : Tree → Tree → Prop, (∀ s t, R s t → RootBelow R s t) ∧ R s t

def BelowTo : Nat → Tree → Tree → Prop
  | 0, _, _ => True
  | n + 1, s, t => RootBelow (BelowTo n) s t

theorem BelowTo.pred {n : Nat} {s t : Tree} (h : BelowTo (n + 1) s t) : BelowTo n s t := by
  induction n generalizing s t with
  | zero => trivial
  | succ n ih => exact RootBelow.mono (fun _ _ => ih) h

/-- Every pair of nodes meets one rule at most, so checking the rules depth by depth loses nothing
at infinity. -/
theorem below_iff_forall_belowTo {s t : Tree} : s.Below t ↔ ∀ n, BelowTo n s t := by
  constructor
  · rintro ⟨R, hR, h⟩ n
    induction n generalizing s t with
    | zero => trivial
    | succ n ih => exact RootBelow.mono (fun _ _ => ih) (hR s t h)
  · intro h
    refine ⟨fun s t => ∀ n, BelowTo n s t, fun s t h => ?_, h⟩
    have hroot (n : Nat) : RootBelow (BelowTo n) s t := h (n + 1)
    cases hroot 0 with
    | boolean hs ht => exact .boolean hs ht
    | number hs ht => exact .number hs ht
    | hole hs ht => exact .hole hs ht
    | func hs ht =>
        exact .func hs ht (fun i hi n => ((hroot n).func_inv hs).2.1 i hi)
          fun n => ((hroot n).func_inv hs).2.2
    | object hs ht width =>
        exact .object hs ht width fun name hname n =>
          ((hroot n).object_inv hs ht).2 name hname

end Tree

end StructuralTypes
