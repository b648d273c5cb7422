import Mathlib.Data.List.Forall2
import StructuralTypes.Proofs.Shape
import StructuralTypes.Term.Subterm
import StructuralTypes.Typing.Check

/-!
Two checks side by side. The terms are the same but for the types they declare, and the types of the
one go with those of the other in a way that no rule can tell apart (`Indistinct`). Then the checks
go through the same rules in the same order and end alike (`Runs.check_agree`), unless an argument
parts them: where the two use different call rules, one may turn an argument away that the other
lets pass.

What is said of one check alone is the case of two equal ones.
-/

namespace StructuralTypes

/-! ### Computations that end alike -/

/-- How two computations end: with values that go together, with errors that go together, or one of
them with an error that leaves the other free. -/
inductive Ends {α β ε ε' : Type} (V : α → β → Prop) (F : ε → ε' → Prop) (L : ε → Prop)
    (L' : ε' → Prop) : Except ε α → Except ε' β → Prop
  | ok {a : α} {b : β} (h : V a b) : Ends V F L L' (.ok a) (.ok b)
  | error {e : ε} {e' : ε'} (h : F e e') : Ends V F L L' (.error e) (.error e')
  | left {e : ε} (h : L e) (y : Except ε' β) : Ends V F L L' (.error e) y
  | right {e' : ε'} (h : L' e') (x : Except ε α) : Ends V F L L' x (.error e')

theorem Ends.bind {α β γ δ ε ε' : Type} {V : α → β → Prop} {W : γ → δ → Prop}
    {F : ε → ε' → Prop} {L : ε → Prop} {L' : ε' → Prop} {x : Except ε α} {y : Except ε' β}
    {f : α → Except ε γ} {g : β → Except ε' δ} (h : Ends V F L L' x y)
    (hfg : ∀ a b, V a b → Ends W F L L' (f a) (g b)) : Ends W F L L' (x >>= f) (y >>= g) := by
  cases h with
  | ok h => exact hfg _ _ h
  | error h => exact .error h
  | left h => exact .left h _
  | right h => exact .right h _

/-! ### Rows, scopes and terms that go together -/

/-- The rows have the same names in the same order, and their types go together. -/
def Row.Alike (R : Ty → Ty → Prop) : Row → Row → Prop :=
  List.Forall₂ fun p q => p.1 = q.1 ∧ R p.2 q.2

theorem Row.Alike.labels_eq {R : Ty → Ty → Prop} {row row' : Row} (h : Row.Alike R row row') :
    row.labels = row'.labels := by
  induction h with
  | nil => rfl
  | cons h _ ih => exact congrArg₂ List.cons h.1 ih

theorem Row.Alike.lookup {R : Ty → Ty → Prop} {row row' : Row} (h : Row.Alike R row row')
    (name : String) : Option.Rel R (List.lookup name row) (List.lookup name row') := by
  induction h with
  | nil => exact .none
  | @cons p q row row' hpq _ ih =>
      rw [List.lookup_cons, List.lookup_cons, hpq.1]
      cases name == q.1 with
      | true => exact .some hpq.2
      | false => exact ih

/-- The scopes bind the same names, and their types go together. -/
def Scope.Alike (R : Ty → Ty → Prop) (scope scope' : Scope) : Prop :=
  ∀ name, Option.Rel R (scope.resolve name) (scope'.resolve name)

theorem Scope.Alike.bind {R : Ty → Ty → Prop} {scope scope' : Scope} {t t' : Ty}
    (h : Scope.Alike R scope scope') (name : String) (ht : R t t') :
    Scope.Alike R (scope.bind name t) (scope'.bind name t') := by
  intro other
  rw [resolve_bind, resolve_bind]
  split
  · exact .some ht
  · exact h other

theorem Scope.Alike.extend {R : Ty → Ty → Prop} {scope scope' : Scope} {pairs pairs' : Row}
    (h : Scope.Alike R scope scope') (hpairs : Row.Alike R pairs pairs') :
    Scope.Alike R (scope.extend pairs) (scope'.extend pairs') := by
  intro name
  have hreverse : Row.Alike R pairs.reverse pairs'.reverse := List.forall₂_reverse_iff.mpr hpairs
  have hlookup := hreverse.lookup name
  rw [resolve_extend, resolve_extend]
  generalize pairs.reverse.lookup name = a at *
  generalize pairs'.reverse.lookup name = b at *
  cases hlookup with
  | some hR => exact .some hR
  | none => exact h name

variable {P Q : Type}

/-- The terms are the same but for their tags and for the types they declare, which go together. -/
inductive Term.Alike (R : Ty → Ty → Prop) : Term P → Term Q → Prop
  | literal (p : P) (q : Q) (value : Literal) : Alike R (.literal p value) (.literal q value)
  | cond {p : P} {q : Q} {test yes no : Term P} {test' yes' no' : Term Q}
      (htest : Alike R test test') (hyes : Alike R yes yes') (hno : Alike R no no') :
      Alike R (.cond p test yes no) (.cond q test' yes' no')
  | add {p : P} {q : Q} {left right : Term P} {left' right' : Term Q} (hleft : Alike R left left')
      (hright : Alike R right right') : Alike R (.add p left right) (.add q left' right')
  | ref (p : P) (q : Q) (name : String) : Alike R (.ref p name) (.ref q name)
  | lambda {p : P} {q : Q} {params params' : Row} {body : Term P} {body' : Term Q}
      (hparams : Row.Alike R params params') (hbody : Alike R body body') :
      Alike R (.lambda p params body) (.lambda q params' body')
  | call {p : P} {q : Q} {callee : Term P} {callee' : Term Q} {args : List (Term P)}
      {args' : List (Term Q)} (hcallee : Alike R callee callee')
      (hargs : List.Forall₂ (Alike R) args args') :
      Alike R (.call p callee args) (.call q callee' args')
  | seq {p : P} {q : Q} {first rest : Term P} {first' rest' : Term Q}
      (hfirst : Alike R first first') (hrest : Alike R rest rest') :
      Alike R (.seq p first rest) (.seq q first' rest')
  | const {p : P} {q : Q} {init rest : Term P} {init' rest' : Term Q} (name : String)
      (hinit : Alike R init init') (hrest : Alike R rest rest') :
      Alike R (.const p name init rest) (.const q name init' rest')
  | record {p : P} {q : Q} {fields : List (String × Term P)} {fields' : List (String × Term Q)}
      (hnames : fields.map Prod.fst = fields'.map Prod.fst)
      (hfields : List.Forall₂ (Alike R) (fields.map Prod.snd) (fields'.map Prod.snd)) :
      Alike R (.record p fields) (.record q fields')
  | field {p : P} {q : Q} {owner : Term P} {owner' : Term Q} (howner : Alike R owner owner')
      (name : String) : Alike R (.field p owner name) (.field q owner' name)
  | letRec {p : P} {q : Q} {params params' : Row} {result result' : Ty} {body rest : Term P}
      {body' rest' : Term Q} (name : String) (hparams : Row.Alike R params params')
      (hresult : R result result') (hbody : Alike R body body') (hrest : Alike R rest rest') :
      Alike R (.letRec p name params result body rest) (.letRec q name params' result' body' rest')

theorem Term.alike_self {R : Ty → Ty → Prop} {t : Term P} (h : ∀ u ∈ t.annotations, R u u) :
    Term.Alike R t t := by
  have below {s t : Term P} (hs : s ∈ t.children) (ht : ∀ u ∈ t.annotations, R u u) :
      ∀ u ∈ s.annotations, R u u := fun u hu => ht u (mem_annotations_iff.mpr (.inr ⟨s, hs, hu⟩))
  have params {row : Row} (hrow : ∀ u ∈ row.types, R u u) : Row.Alike R row row :=
    List.forall₂_same.mpr fun p hp => ⟨rfl, hrow p.2 (List.mem_map_of_mem hp)⟩
  have own {t : Term P} (ht : ∀ u ∈ t.annotations, R u u) : ∀ u ∈ t.declared, R u u :=
    fun u hu => ht u (mem_annotations_iff.mpr (.inl hu))
  induction t with
  | literal tag value => exact .literal tag tag value
  | cond tag test yes no htest hyes hno =>
      exact .cond (htest (below (by simp [children]) h)) (hyes (below (by simp [children]) h))
        (hno (below (by simp [children]) h))
  | add tag left right hleft hright =>
      exact .add (hleft (below (by simp [children]) h)) (hright (below (by simp [children]) h))
  | ref tag name => exact .ref tag tag name
  | lambda tag row body hbody =>
      exact .lambda (params (own h)) (hbody (below (by simp [children]) h))
  | call tag callee args hcallee hargs =>
      refine .call (hcallee (below (by simp [children]) h)) (List.forall₂_same.mpr fun a ha => ?_)
      exact hargs a ha (below (by simp [children, ha]) h)
  | seq tag first rest hfirst hrest =>
      exact .seq (hfirst (below (by simp [children]) h)) (hrest (below (by simp [children]) h))
  | const tag name init rest hinit hrest =>
      exact .const name (hinit (below (by simp [children]) h))
        (hrest (below (by simp [children]) h))
  | record tag fields hfields =>
      refine .record rfl (List.forall₂_same.mpr fun s hs => ?_)
      obtain ⟨f, hf, rfl⟩ := List.mem_map.mp hs
      exact hfields f hf (below (t := record tag fields) hs h)
  | field tag owner name howner => exact .field (howner (below (by simp [children]) h)) name
  | letRec tag name row result body rest hbody hrest =>
      have hown := own h
      refine .letRec name (params fun u hu => hown u (List.mem_append_left _ hu))
        (hown result (List.mem_append_right _ (List.mem_singleton_self result))) ?_ ?_
      · exact hbody (below (by simp [children]) h)
      · exact hrest (below (by simp [children]) h)

/-! ### Types that no rule tells apart -/

/-- The heads are of one kind, and what a rule takes from below them goes together. -/
inductive HeadsAlike (R : Ty → Ty → Prop) : Ty → Ty → Prop
  | boolean : HeadsAlike R .boolean .boolean
  | number : HeadsAlike R .number .number
  | func {params params' : Row} {result result' : Ty}
      (hparams : List.Forall₂ (fun p q => R p.2 q.2) params params') (hresult : R result result') :
      HeadsAlike R (.func params result) (.func params' result')
  | object {fields fields' : Row}
      (hfields : ∀ name, Option.Rel R (fields.lookup name) (fields'.lookup name)) :
      HeadsAlike R (.object fields) (.object fields')

/-- A relation of types that the rules of checking respect: types made in the same way from related
ones are related, and looking for a head or comparing gives related answers, never a defect. -/
structure Indistinct (R : Ty → Ty → Prop) : Prop where
  boolean : R .boolean .boolean
  number : R .number .number
  func : ∀ {params params' result result'}, Row.Alike R params params' → R result result' →
    R (.func params result) (.func params' result')
  object : ∀ {fields fields'}, Row.Alike R fields fields' → fields.labels.Nodup →
    R (.object fields) (.object fields')
  head : ∀ {a b}, R a b → ∃ s t, a.head = .ok s ∧ b.head = .ok t ∧ HeadsAlike R s t
  equals : ∀ {a b c d}, R a b → R c d → ∃ r, a.equals c = .ok r ∧ b.equals d = .ok r
  isSubtype : ∀ {a b c d}, R a b → R c d → ∃ r, a.isSubtype c = .ok r ∧ b.isSubtype d = .ok r

theorem Indistinct.literal {R : Ty → Ty → Prop} (h : Indistinct R) (value : Literal) :
    R value.type value.type := by
  cases value with
  | bool b => exact h.boolean
  | int n => exact h.number
  | float x => exact h.number

theorem Indistinct.fits {R : Ty → Ty → Prop} (h : Indistinct R) (rule : CallRule) {a b c d : Ty}
    (hab : R a b) (hcd : R c d) : ∃ r, rule.fits a c = .ok r ∧ rule.fits b d = .ok r := by
  cases rule with
  | subtyping => exact h.isSubtype hab hcd
  | exact => exact h.equals hab hcd

/-! ### Failures that go together -/

/-- The failures are of one kind, at corresponding nodes of the two terms. -/
inductive SameFailure (t : Term P) (t' : Term Q) : Failure P → Failure Q → Prop
  | fault {f : Fault P} {f' : Fault Q} (place : Term.Corresponding t t' f.term f'.term)
      (kind : f.cause.kind = f'.cause.kind) : SameFailure t t' (.fault f) (.fault f')
  /-- Records that repeat a name. -/
  | repeatedField {p : P} {q : Q} {fields : List (String × Term P)}
      {fields' : List (String × Term Q)} {row row' : Row}
      (place : Term.Corresponding t t' (.record p fields) (.record q fields'))
      (labels : row.labels = fields.map Prod.fst) (labels' : row'.labels = fields'.map Prod.fst)
      (repeated : ¬ (fields.map Prod.fst).Nodup) :
      SameFailure t t' (.defect (.repeatedField row)) (.defect (.repeatedField row'))

/-- An argument in `t` is turned away that the other call rule lets pass. -/
inductive Refusal (t : Term P) (rule other : CallRule) (I : Ty → Prop) : Failure P → Prop
  | intro {arg : Term P} {name : String} {needed found : Ty} (place : arg ∈ t.subterms)
      (hneeded : I needed) (hfound : I found) (refused : rule.fits found needed = .ok false)
      (passed : other.fits found needed = .ok true) :
      Refusal t rule other I (.fault ⟨arg, .argumentTypeMismatch name needed found⟩)

/-- A call rule does not part with itself. -/
theorem not_refusal_self {t : Term P} {rule : CallRule} {I : Ty → Prop} {e : Failure P} :
    ¬ Refusal t rule rule I e := by
  rintro ⟨-, -, -, refused, passed⟩
  cases refused.symm.trans passed

/-! ### The checks -/

/-- Two checks: the terms, the call rules, and how the types of the one go with those of the
other. -/
structure Runs (P Q : Type) where
  left : Term P
  right : Term Q
  rule : CallRule
  rule' : CallRule
  R : Ty → Ty → Prop

namespace Runs

variable {α β γ δ : Type} (runs : Runs P Q)

def Agree (V : α → β → Prop) : Except (Failure P) α → Except (Failure Q) β → Prop :=
  Ends V (SameFailure runs.left runs.right)
    (Refusal runs.left runs.rule runs.rule' fun u => ∃ v, runs.R u v)
    (Refusal runs.right runs.rule' runs.rule fun v => ∃ u, runs.R u v)

variable {runs} {scope scope' : Scope}

theorem Agree.bind {V : α → β → Prop} {W : γ → δ → Prop} {x : Except (Failure P) α}
    {y : Except (Failure Q) β} {f : α → Except (Failure P) γ} {g : β → Except (Failure Q) δ}
    (h : runs.Agree V x y) (hfg : ∀ a b, V a b → runs.Agree W (f a) (g b)) :
    runs.Agree W (x >>= f) (y >>= g) :=
  Ends.bind h hfg

/-- Under one call rule no argument parts the checks. -/
theorem Agree.of_same_rule {V : α → β → Prop} {x : Except (Failure P) α}
    {y : Except (Failure Q) β} (h : runs.Agree V x y) (hrule : runs.rule = runs.rule') :
    (∃ a b, x = .ok a ∧ y = .ok b ∧ V a b) ∨
      ∃ e e', x = .error e ∧ y = .error e' ∧ SameFailure runs.left runs.right e e' := by
  cases h with
  | ok h => exact .inl ⟨_, _, rfl, rfl, h⟩
  | error h => exact .inr ⟨_, _, rfl, rfl, h⟩
  | left h =>
      rw [hrule] at h
      exact absurd h not_refusal_self
  | right h =>
      rw [hrule] at h
      exact absurd h not_refusal_self

/-- Blame falls on corresponding terms for causes of one kind. -/
theorem agree_blame {V : α → β → Prop} {s : Term P} {s' : Term Q}
    (place : Term.Corresponding runs.left runs.right s s') {cause cause' : Cause}
    (kind : cause.kind = cause'.kind) :
    runs.Agree V (Term.blame s cause) (Term.blame s' cause') :=
  .error (.fault place kind)

theorem agree_head (hR : Indistinct runs.R) {V : α → β → Prop} {a b : Ty} (hab : runs.R a b)
    {f : Ty → Except (Failure P) α} {g : Ty → Except (Failure Q) β}
    (hfg : ∀ s t, HeadsAlike runs.R s t → runs.Agree V (f s) (g t)) :
    runs.Agree V (Term.liftDefect a.head >>= f) (Term.liftDefect b.head >>= g) := by
  obtain ⟨s, t, hs, ht, hst⟩ := hR.head hab
  rw [hs, ht]
  exact hfg s t hst

theorem agree_equals (hR : Indistinct runs.R) {V : α → β → Prop} {a b c d : Ty}
    (hab : runs.R a b) (hcd : runs.R c d) {f : Bool → Except (Failure P) α}
    {g : Bool → Except (Failure Q) β} (hfg : ∀ r, runs.Agree V (f r) (g r)) :
    runs.Agree V (Term.liftDefect (a.equals c) >>= f) (Term.liftDefect (b.equals d) >>= g) := by
  obtain ⟨r, hr, hr'⟩ := hR.equals hab hcd
  rw [hr, hr']
  exact hfg r

def AgreeOn (runs : Runs P Q) (scope scope' : Scope) (t : Term P) (t' : Term Q) : Prop :=
  runs.Agree runs.R (t.check runs.rule scope) (t'.check runs.rule' scope')

/-! ### Rule by rule -/

section Rules

variable {p : P} {q : Q}

theorem agreeOn_cond (hR : Indistinct runs.R) {test yes no : Term P} {test' yes' no' : Term Q}
    (place : Term.Corresponding runs.left runs.right (.cond p test yes no)
      (.cond q test' yes' no'))
    (htest : runs.AgreeOn scope scope' test test') (hyes : runs.AgreeOn scope scope' yes yes')
    (hno : runs.AgreeOn scope scope' no no') :
    runs.AgreeOn scope scope' (.cond p test yes no) (.cond q test' yes' no') := by
  have hplace := place.child List.mem_cons_self
  rw [AgreeOn, Term.check, Term.check]
  refine htest.bind fun a b hab => agree_head hR hab fun s s' hs => ?_
  cases hs with
  | boolean =>
      refine hyes.bind fun a b hab => hno.bind fun c d hcd => ?_
      refine agree_equals hR hab hcd fun r => ?_
      cases r with
      | true => exact .ok hab
      | false => exact agree_blame place rfl
  | number => exact agree_blame hplace rfl
  | func => exact agree_blame hplace rfl
  | object => exact agree_blame hplace rfl

theorem agreeOn_add (hR : Indistinct runs.R) {left right : Term P} {left' right' : Term Q}
    (place : Term.Corresponding runs.left runs.right (.add p left right) (.add q left' right'))
    (hleft : runs.AgreeOn scope scope' left left')
    (hright : runs.AgreeOn scope scope' right right') :
    runs.AgreeOn scope scope' (.add p left right) (.add q left' right') := by
  have hplace := place.child List.mem_cons_self
  have hplace' := place.child (List.mem_cons_of_mem _ List.mem_cons_self)
  rw [AgreeOn, Term.check, Term.check]
  refine hleft.bind fun a b hab => agree_head hR hab fun s s' hs => ?_
  cases hs with
  | number =>
      refine hright.bind fun a b hab => agree_head hR hab fun s s' hs => ?_
      cases hs with
      | number => exact .ok hR.number
      | boolean => exact agree_blame hplace' rfl
      | func => exact agree_blame hplace' rfl
      | object => exact agree_blame hplace' rfl
  | boolean => exact agree_blame hplace rfl
  | func => exact agree_blame hplace rfl
  | object => exact agree_blame hplace rfl

theorem agreeOn_ref {name : String}
    (place : Term.Corresponding runs.left runs.right (.ref p name) (.ref q name))
    (hscope : Scope.Alike runs.R scope scope') :
    runs.AgreeOn scope scope' (.ref p name) (.ref q name) := by
  have hresolve := hscope name
  rw [AgreeOn, Term.check, Term.check]
  generalize scope.resolve name = a at *
  generalize scope'.resolve name = b at *
  cases hresolve with
  | some hab => exact .ok hab
  | none => exact agree_blame place rfl

theorem checkArgs_agree (hR : Indistinct runs.R) {args : List (Term P)} {args' : List (Term Q)}
    {params params' : Row}
    (hargs : List.Forall₂ (fun a a' => Term.Corresponding runs.left runs.right a a' ∧
      runs.AgreeOn scope scope' a a') args args')
    (hparams : List.Forall₂ (fun p q => runs.R p.2 q.2) params params') :
    runs.Agree (fun _ _ => True) (Term.checkArgs runs.rule scope args params)
      (Term.checkArgs runs.rule' scope' args' params') := by
  induction hargs generalizing params params' with
  | nil => exact .ok trivial
  | @cons arg arg' args args' harg _ ih =>
      cases hparams with
      | nil => exact .ok trivial
      | @cons p q params params' hneeded hparams =>
          obtain ⟨place, hcheck⟩ := harg
          rw [Term.checkArgs, Term.checkArgs]
          refine hcheck.bind fun found found' hfound => ?_
          -- Each call rule gives one answer about both pairs, but the two rules may differ.
          obtain ⟨r, hr, hr'⟩ := hR.fits runs.rule hfound hneeded
          obtain ⟨s, hs, hs'⟩ := hR.fits runs.rule' hfound hneeded
          rw [hr, hs']
          cases r with
          | true =>
              cases s with
              | true => exact ih hparams
              | false =>
                  exact .right (.intro place.mem_right ⟨_, hneeded⟩ ⟨_, hfound⟩ hs' hr') _
          | false =>
              cases s with
              | true => exact .left (.intro place.mem_left ⟨_, hneeded⟩ ⟨_, hfound⟩ hr hs) _
              | false => exact agree_blame place rfl

theorem agreeOn_call (hR : Indistinct runs.R) {callee : Term P} {callee' : Term Q}
    {args : List (Term P)} {args' : List (Term Q)}
    (place : Term.Corresponding runs.left runs.right (.call p callee args)
      (.call q callee' args'))
    (hcallee : runs.AgreeOn scope scope' callee callee')
    (hargs : List.Forall₂ (fun a a' => Term.Corresponding runs.left runs.right a a' ∧
      runs.AgreeOn scope scope' a a') args args') :
    runs.AgreeOn scope scope' (.call p callee args) (.call q callee' args') := by
  have hplace := place.child List.mem_cons_self
  rw [AgreeOn, Term.check, Term.check]
  refine hcallee.bind fun a b hab => agree_head hR hab fun s s' hs => ?_
  cases hs with
  | @func params params' result result' hparams hresult =>
      have harity : params.length = args.length ↔ params'.length = args'.length := by
        rw [hparams.length_eq, hargs.length_eq]
      by_cases hlength : params.length = args.length
      · simp only [if_pos hlength, if_pos (harity.mp hlength)]
        exact (checkArgs_agree hR hargs hparams).bind fun _ _ _ => .ok hresult
      · simp only [if_neg hlength, if_neg fun h => hlength (harity.mpr h)]
        exact agree_blame place rfl
  | boolean => exact agree_blame hplace rfl
  | number => exact agree_blame hplace rfl
  | object => exact agree_blame hplace rfl

/-- The types of fields go together, under the names of the fields. -/
theorem checkFields_agree {fields : List (String × Term P)} {fields' : List (String × Term Q)}
    (hnames : fields.map Prod.fst = fields'.map Prod.fst)
    (hfields : List.Forall₂ (runs.AgreeOn scope scope') (fields.map Prod.snd)
      (fields'.map Prod.snd)) :
    runs.Agree (fun row row' => Row.Alike runs.R row row' ∧ row.labels = fields.map Prod.fst)
      (Term.checkFields runs.rule scope fields) (Term.checkFields runs.rule' scope' fields') := by
  induction fields generalizing fields' with
  | nil =>
      obtain rfl : fields' = [] := List.map_eq_nil_iff.mp hnames.symm
      exact .ok ⟨.nil, rfl⟩
  | cons f fields ih =>
      cases fields' with
      | nil => cases hnames
      | cons f' fields' =>
          obtain ⟨hname, hnames⟩ := List.cons.inj hnames
          obtain ⟨hfield, hfields⟩ := List.forall₂_cons.mp hfields
          rw [Term.checkFields, Term.checkFields]
          refine hfield.bind fun t t' ht => (ih hnames hfields).bind fun row row' hrow => ?_
          exact .ok ⟨.cons ⟨hname, ht⟩ hrow.1, congrArg (f.1 :: ·) hrow.2⟩

theorem agreeOn_record (hR : Indistinct runs.R) {fields : List (String × Term P)}
    {fields' : List (String × Term Q)}
    (place : Term.Corresponding runs.left runs.right (.record p fields) (.record q fields'))
    (hnames : fields.map Prod.fst = fields'.map Prod.fst)
    (hfields : List.Forall₂ (runs.AgreeOn scope scope') (fields.map Prod.snd)
      (fields'.map Prod.snd)) :
    runs.AgreeOn scope scope' (.record p fields) (.record q fields') := by
  rw [AgreeOn, Term.check, Term.check]
  refine (checkFields_agree hnames hfields).bind fun row row' hrow => ?_
  obtain ⟨hrow, hlabels⟩ := hrow
  have hlabels' : row'.labels = fields'.map Prod.fst := by
    rw [← hrow.labels_eq, hlabels, hnames]
  by_cases hnodup : row.labels.Nodup
  · rw [Ty.mkObject_of_nodup hnodup, Ty.mkObject_of_nodup (hrow.labels_eq ▸ hnodup)]
    exact .ok (hR.object hrow hnodup)
  · rw [Ty.mkObject, Ty.mkObject, if_neg hnodup, if_neg (hrow.labels_eq ▸ hnodup)]
    exact .error (.repeatedField place hlabels hlabels' (hlabels ▸ hnodup))

theorem agreeOn_field (hR : Indistinct runs.R) {owner : Term P} {owner' : Term Q} {name : String}
    (place : Term.Corresponding runs.left runs.right (.field p owner name)
      (.field q owner' name))
    (howner : runs.AgreeOn scope scope' owner owner') :
    runs.AgreeOn scope scope' (.field p owner name) (.field q owner' name) := by
  have hplace := place.child List.mem_cons_self
  rw [AgreeOn, Term.check, Term.check]
  refine howner.bind fun a b hab => agree_head hR hab fun s s' hs => ?_
  cases hs with
  | @object fields fields' hfields =>
      have hlookup := hfields name
      simp only
      generalize fields.lookup name = a at *
      generalize fields'.lookup name = b at *
      cases hlookup with
      | some hab => exact .ok hab
      | none => exact agree_blame place rfl
  | boolean => exact agree_blame hplace rfl
  | number => exact agree_blame hplace rfl
  | func => exact agree_blame hplace rfl

end Rules

theorem agreeOn_children {s : Term P} {s' : Term Q}
    (place : Term.Corresponding runs.left runs.right s s') {nodes : List (Term P)}
    {nodes' : List (Term Q)} (hsub : ∀ c ∈ nodes.zip nodes', c ∈ s.children.zip s'.children)
    (hnodes : List.Forall₂ (Term.Alike runs.R) nodes nodes')
    (ih : ∀ c ∈ nodes, ∀ {c' : Term Q}, Term.Corresponding runs.left runs.right c c' →
      Term.Alike runs.R c c' → runs.AgreeOn scope scope' c c') :
    List.Forall₂ (fun c c' => Term.Corresponding runs.left runs.right c c' ∧
      runs.AgreeOn scope scope' c c') nodes nodes' := by
  obtain ⟨hlength, halike⟩ := List.forall₂_iff_zip.mp hnodes
  refine List.forall₂_iff_zip.mpr ⟨hlength, fun {c c'} hmem => ?_⟩
  have hplace := place.child (hsub _ hmem)
  exact ⟨hplace, ih c (List.of_mem_zip hmem).1 hplace (halike hmem)⟩

theorem check_agree (hR : Indistinct runs.R) {t : Term P} {t' : Term Q}
    (place : Term.Corresponding runs.left runs.right t t') (h : Term.Alike runs.R t t')
    (hscope : Scope.Alike runs.R scope scope') : runs.AgreeOn scope scope' t t' := by
  -- By induction on the left term; the right one has the same form, and so the same nodes.
  induction t generalizing t' scope scope' with
  | literal tag value =>
      cases h with
      | literal => exact .ok (hR.literal value)
  | cond tag test yes no htest hyes hno =>
      cases h with
      | cond htest' hyes' hno' =>
          exact agreeOn_cond hR place (htest (place.child (by simp [Term.children])) htest' hscope)
            (hyes (place.child (by simp [Term.children])) hyes' hscope)
            (hno (place.child (by simp [Term.children])) hno' hscope)
  | add tag left right hleft hright =>
      cases h with
      | add hleft' hright' =>
          exact agreeOn_add hR place (hleft (place.child (by simp [Term.children])) hleft' hscope)
            (hright (place.child (by simp [Term.children])) hright' hscope)
  | ref tag name =>
      cases h with
      | ref => exact agreeOn_ref place hscope
  | lambda tag params body hbody =>
      cases h with
      | lambda hparams hbody' =>
          have hbody := hbody (place.child (by simp [Term.children])) hbody'
            (hscope.extend hparams)
          rw [AgreeOn, Term.check, Term.check]
          exact hbody.bind fun a b hab => .ok (hR.func hparams hab)
  | call tag callee args hcallee hargs =>
      cases h with
      | call hcallee' hargs' =>
          refine agreeOn_call hR place
            (hcallee (place.child (by simp [Term.children])) hcallee' hscope) ?_
          exact agreeOn_children place (fun c hc => List.mem_cons_of_mem _ hc) hargs'
            fun a ha _ hplace h => hargs a ha hplace h hscope
  | seq tag first rest hfirst hrest =>
      cases h with
      | seq hfirst' hrest' =>
          have hfirst := hfirst (place.child (by simp [Term.children])) hfirst' hscope
          have hrest := hrest (place.child (by simp [Term.children])) hrest' hscope
          rw [AgreeOn, Term.check, Term.check]
          exact hfirst.bind fun _ _ _ => hrest
  | const tag name init rest hinit hrest =>
      cases h with
      | const _ hinit' hrest' =>
          have hinit := hinit (place.child (by simp [Term.children])) hinit' hscope
          rw [AgreeOn, Term.check, Term.check]
          refine hinit.bind fun a b hab => ?_
          exact hrest (place.child (by simp [Term.children])) hrest' (hscope.bind name hab)
  | record tag fields hfields =>
      cases h with
      | record hnames hfields' =>
          have hchecks := agreeOn_children place (fun c hc => hc) hfields'
            fun s hs _ hplace h => by
              obtain ⟨f, hf, rfl⟩ := List.mem_map.mp hs
              exact hfields f hf hplace h hscope
          exact agreeOn_record hR place hnames (hchecks.imp fun _ _ h => h.2)
  | field tag owner name howner =>
      cases h with
      | field howner' =>
          exact agreeOn_field hR place
            (howner (place.child (by simp [Term.children])) howner' hscope)
  | letRec tag name params result body rest hbody hrest =>
      cases h with
      | letRec _ hparams hresult hbody' hrest' =>
          have hsignature := hR.func hparams hresult
          have hbody := hbody (place.child (by simp [Term.children])) hbody'
            ((hscope.extend hparams).bind name hsignature)
          have hrest := hrest (place.child (by simp [Term.children])) hrest'
            (hscope.bind name hsignature)
          rw [AgreeOn, Term.check, Term.check]
          refine hbody.bind fun a b hab => agree_equals hR hresult hab fun r => ?_
          cases r with
          | true => exact hrest
          | false => exact agree_blame place rfl

end Runs

end StructuralTypes
