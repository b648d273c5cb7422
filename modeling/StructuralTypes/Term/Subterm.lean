import StructuralTypes.Term.Basic

/-!
The nodes of a term. A path leads from the root to a node by the numbers of the children it goes
through, and nodes of two terms correspond if one path leads to both.
-/

namespace StructuralTypes.Term

variable {P Q : Type}

def children : Term P → List (Term P)
  | literal .. | ref .. => []
  | cond _ test yes no => [test, yes, no]
  | add _ left right => [left, right]
  | lambda _ _ body => [body]
  | call _ callee args => callee :: args
  | seq _ first rest => [first, rest]
  | const _ _ init rest => [init, rest]
  | record _ fields => fields.map Prod.snd
  | field _ owner _ => [owner]
  | letRec _ _ _ _ body rest => [body, rest]

/-- Induction on terms, with one hypothesis for all terms right below the root. -/
theorem ind_children {motive : Term P → Prop}
    (h : ∀ t, (∀ c ∈ t.children, motive c) → motive t) (t : Term P) : motive t := by
  induction t with
  | literal tag value => exact h _ (List.forall_mem_nil _)
  | cond tag test yes no htest hyes hno => exact h _ (by simp [children, htest, hyes, hno])
  | add tag left right hleft hright => exact h _ (by simp [children, hleft, hright])
  | ref tag name => exact h _ (List.forall_mem_nil _)
  | lambda tag params body hbody => exact h _ (List.forall_mem_singleton.mpr hbody)
  | call tag callee args hcallee hargs => exact h _ (List.forall_mem_cons.mpr ⟨hcallee, hargs⟩)
  | seq tag first rest hfirst hrest => exact h _ (by simp [children, hfirst, hrest])
  | const tag name init rest hinit hrest => exact h _ (by simp [children, hinit, hrest])
  | record tag fields hfields => exact h _ (List.forall_mem_map.mpr hfields)
  | field tag owner name howner => exact h _ (List.forall_mem_singleton.mpr howner)
  | letRec tag name params result body rest hbody hrest =>
      exact h _ (by simp [children, hbody, hrest])

theorem children_map (f : P → Q) (t : Term P) : (t.map f).children = t.children.map (map f) := by
  cases t <;> simp [map, children]

/-- The types that the root declares: those of parameters and the result of a recursive function. -/
def declared : Term P → List Ty
  | lambda _ params _ => Row.types params
  | letRec _ _ params result _ _ => Row.types params ++ [result]
  | _ => []

mutual

def subterms : Term P → List (Term P)
  | literal p value => [literal p value]
  | cond p test yes no => cond p test yes no :: (subterms test ++ (subterms yes ++ subterms no))
  | add p left right => add p left right :: (subterms left ++ subterms right)
  | ref p name => [ref p name]
  | lambda p params body => lambda p params body :: subterms body
  | call p callee args => call p callee args :: (subterms callee ++ subtermsArgs args)
  | seq p first rest => seq p first rest :: (subterms first ++ subterms rest)
  | const p name init rest => const p name init rest :: (subterms init ++ subterms rest)
  | record p fields => record p fields :: subtermsFields fields
  | field p owner name => field p owner name :: subterms owner
  | letRec p name params result body rest =>
      letRec p name params result body rest :: (subterms body ++ subterms rest)

def subtermsArgs : List (Term P) → List (Term P)
  | [] => []
  | t :: args => subterms t ++ subtermsArgs args

def subtermsFields : List (String × Term P) → List (Term P)
  | [] => []
  | (_, t) :: fields => subterms t ++ subtermsFields fields

end

def annotations (t : Term P) : List Ty := t.subterms.flatMap declared

@[simp] theorem subtermsArgs_eq_flatMap (args : List (Term P)) :
    subtermsArgs args = args.flatMap subterms := by
  induction args with
  | nil => rfl
  | cons t args ih => simp [subtermsArgs, ih]

@[simp] theorem subtermsFields_eq_flatMap (fields : List (String × Term P)) :
    subtermsFields fields = (fields.map Prod.snd).flatMap subterms := by
  induction fields with
  | nil => rfl
  | cons f fields ih => simp [subtermsFields, ih]

theorem subterms_eq (t : Term P) : t.subterms = t :: t.children.flatMap subterms := by
  cases t <;> simp [subterms, children]

theorem mem_subterms_iff {s t : Term P} :
    s ∈ t.subterms ↔ s = t ∨ ∃ c ∈ t.children, s ∈ c.subterms := by
  rw [subterms_eq, List.mem_cons, List.mem_flatMap]

theorem self_mem_subterms (t : Term P) : t ∈ t.subterms := mem_subterms_iff.mpr (.inl rfl)

theorem subterms_subset_of_mem_children {c t : Term P} (h : c ∈ t.children) :
    c.subterms ⊆ t.subterms :=
  fun _ hs => mem_subterms_iff.mpr (.inr ⟨c, h, hs⟩)

theorem mem_annotations_iff {t : Term P} {u : Ty} :
    u ∈ t.annotations ↔ u ∈ t.declared ∨ ∃ c ∈ t.children, u ∈ c.annotations := by
  simp only [annotations, List.mem_flatMap]
  constructor
  · rintro ⟨s, hs, hu⟩
    rcases mem_subterms_iff.mp hs with rfl | ⟨c, hc, hs⟩
    · exact .inl hu
    · exact .inr ⟨c, hc, s, hs, hu⟩
  · rintro (hu | ⟨c, hc, s, hs, hu⟩)
    · exact ⟨t, self_mem_subterms t, hu⟩
    · exact ⟨s, subterms_subset_of_mem_children hc hs, hu⟩

/-! ### Paths -/

def subterm? (t : Term P) : List Nat → Option (Term P)
  | [] => some t
  | i :: path => t.children[i]?.bind fun c => c.subterm? path

theorem subterm?_append (t : Term P) (path path' : List Nat) :
    t.subterm? (path ++ path') = (t.subterm? path).bind fun s => s.subterm? path' := by
  induction path generalizing t with
  | nil => rfl
  | cons i path ih =>
      rw [List.cons_append, subterm?, subterm?]
      cases t.children[i]? with
      | none => rfl
      | some c => exact ih c

/-- Changing the tags does not move a node. -/
theorem subterm?_map (f : P → Q) (t : Term P) (path : List Nat) :
    (t.map f).subterm? path = (t.subterm? path).map (map f) := by
  induction path generalizing t with
  | nil => rfl
  | cons i path ih =>
      rw [subterm?, subterm?, children_map, List.getElem?_map]
      cases t.children[i]? with
      | none => rfl
      | some c => exact ih c

theorem mem_subterms_of_subterm? {s t : Term P} {path : List Nat}
    (h : t.subterm? path = some s) : s ∈ t.subterms := by
  induction path generalizing t with
  | nil =>
      obtain rfl : t = s := Option.some.inj h
      exact self_mem_subterms t
  | cons i path ih =>
      obtain ⟨c, hc, hs⟩ := Option.bind_eq_some_iff.mp h
      exact subterms_subset_of_mem_children (List.mem_of_getElem? hc) (ih hs)

/-- One path leads to `s` in `t` and to `s'` in `t'`. -/
def Corresponding (t : Term P) (t' : Term Q) (s : Term P) (s' : Term Q) : Prop :=
  ∃ path, t.subterm? path = some s ∧ t'.subterm? path = some s'

namespace Corresponding

variable {t s c : Term P} {t' s' c' : Term Q}

theorem root (t : Term P) (t' : Term Q) : Corresponding t t' t t' := ⟨[], rfl, rfl⟩

theorem child (h : Corresponding t t' s s') (hc : (c, c') ∈ s.children.zip s'.children) :
    Corresponding t t' c c' := by
  obtain ⟨path, hs, hs'⟩ := h
  obtain ⟨i, hi⟩ := List.mem_iff_getElem?.mp hc
  obtain ⟨hi, hi'⟩ := List.getElem?_zip_eq_some.mp hi
  refine ⟨path ++ [i], ?_, ?_⟩
  · rw [subterm?_append, hs, Option.bind_some, subterm?, hi]
    rfl
  · rw [subterm?_append, hs', Option.bind_some, subterm?, hi']
    rfl

theorem mem_left (h : Corresponding t t' s s') : s ∈ t.subterms :=
  mem_subterms_of_subterm? h.choose_spec.1

theorem mem_right (h : Corresponding t t' s s') : s' ∈ t'.subterms :=
  mem_subterms_of_subterm? h.choose_spec.2

end Corresponding

end StructuralTypes.Term
