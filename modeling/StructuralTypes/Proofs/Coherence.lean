import StructuralTypes.Proofs.Meaning
import StructuralTypes.Proofs.Reachable
import StructuralTypes.Proofs.Shape

/-!
Coherent names. Names are coherent if each of them stands for one tree wherever it is bound: some
assignment of trees to names makes every binder stand for what its body reads as. Types whose
binders all have different names are so named (`exists_coherent_of_nodup`), and unfolding keeps
names coherent.

The match of shapes follows names from the left to the right only, and may take two variables of
different binders for partners. Among coherently named types this does no harm: types of one shape
have one tree (`WellNamed.tree_eq_of_sameShape`).
-/

namespace StructuralTypes.Ty

abbrev Assignment := String → Tree

mutual

/-- The tree of a type when `G` says what each name stands for, the names of variables as well as
those of binders. -/
def read (G : Assignment) : Ty → Tree
  | boolean => .ofNode .boolean
  | number => .ofNode .number
  | func params result => .ofNode (.func ((readRow G params).map Prod.snd) (read G result))
  | object fields => .ofNode (.object (readRow G fields))
  | mu x _ => G x
  | var x => G x

def readRow (G : Assignment) : Row → List (String × Tree)
  | [] => []
  | (name, t) :: row => (name, read G t) :: readRow G row

end

@[simp] theorem readRow_eq_map (G : Assignment) (row : Row) :
    readRow G row = row.map fun p => (p.1, read G p.2) := by
  induction row with
  | nil => rfl
  | cons p row ih => simp [readRow, ih]

theorem Solid.read_eq {G : Assignment} {t : Ty} (h : t.Solid) :
    read G t = .ofNode (t.shown.map (read G)) := by
  cases t with
  | boolean => rfl
  | number => rfl
  | func params result => simp [read, shown, Node.map, Row.types, Function.comp_def]
  | object fields => simp [read, shown, Node.map]
  | mu x body => exact absurd h id
  | var x => exact absurd h id

mutual

/-- Every binder inside stands for what its body reads as. -/
def Coherent (G : Assignment) : Ty → Prop
  | boolean => True
  | number => True
  | func params result => CoherentRow G params ∧ Coherent G result
  | object fields => CoherentRow G fields
  | mu x body => G x = read G body ∧ Coherent G body
  | var _ => True

def CoherentRow (G : Assignment) : Row → Prop
  | [] => True
  | (_, t) :: row => Coherent G t ∧ CoherentRow G row

end

@[simp] theorem coherentRow_iff {G : Assignment} {row : Row} :
    CoherentRow G row ↔ ∀ p ∈ row, Coherent G p.2 := by
  induction row with
  | nil => simp [CoherentRow]
  | cons p row ih => simp [CoherentRow, ih]

/-! ### Unfolding -/

theorem read_subst {G : Assignment} {x : String} {r : Ty} (hr : read G r = G x) (t : Ty) :
    read G (subst x r t) = read G t := by
  have row (row : Row) (ih : ∀ p ∈ row, read G (subst x r p.2) = read G p.2) :
      readRow G (substRow x r row) = readRow G row := by
    simp only [readRow_eq_map, substRow_eq_map, List.map_map]
    refine List.map_congr_left fun p hp => ?_
    simp [ih p hp]
  induction t with
  | boolean => rfl
  | number => rfl
  | func params result hparams hresult => rw [subst, read, row params hparams, hresult, read]
  | object fields hfields => rw [subst, read, row fields hfields, read]
  | mu y body ih =>
      by_cases hy : y = x
      · rw [subst, if_pos hy]
      · rw [subst, if_neg hy, read, read]
  | var y =>
      by_cases hy : y = x
      · rw [subst, if_pos hy, hr, read, hy]
      · rw [subst, if_neg hy]

theorem Coherent.subst {G : Assignment} {x : String} {r t : Ty} (hread : read G r = G x)
    (hr : Coherent G r) (h : Coherent G t) : Coherent G (subst x r t) := by
  have row (row : Row) (ih : ∀ p ∈ row, Coherent G p.2 → Coherent G (Ty.subst x r p.2))
      (hrow : CoherentRow G row) : CoherentRow G (substRow x r row) := by
    rw [coherentRow_iff] at hrow ⊢
    exact forall_mem_substRow.mpr fun p hp => ih p hp (hrow p hp)
  induction t with
  | boolean => exact h
  | number => exact h
  | func params result hparams hresult => exact ⟨row params hparams h.1, hresult h.2⟩
  | object fields hfields => exact row fields hfields h
  | mu y body ih =>
      by_cases hy : y = x
      · rw [Ty.subst, if_pos hy]
        exact h
      · rw [Ty.subst, if_neg hy]
        -- The body reads as before, so the binder still stands for it.
        exact ⟨h.1.trans (read_subst hread body).symm, ih h.2⟩
  | var y =>
      by_cases hy : y = x
      · rwa [Ty.subst, if_pos hy]
      · rwa [Ty.subst, if_neg hy]

theorem Coherent.read_unroll {G : Assignment} {x : String} {body : Ty}
    (h : Coherent G (mu x body)) : read G (unroll x body) = read G (mu x body) :=
  (read_subst rfl body).trans h.1.symm

theorem Step.coherent {G : Assignment} {s t : Ty} (h : Step s t) (hs : Coherent G s) :
    Coherent G t := by
  cases h with
  | unroll x body => exact Coherent.subst (r := mu x body) rfl hs hs.2
  | param result hp => exact coherentRow_iff.mp hs.1 _ hp
  | result params result => exact hs.2
  | field hf => exact coherentRow_iff.mp hs _ hf

/-- A type that may be open: contractive, with distinct fields, its names coherent. -/
structure Tidy (G : Assignment) (t : Ty) : Prop where
  contractive : t.Contractive
  distinct : t.DistinctFields
  coherent : Coherent G t

structure WellNamed (G : Assignment) (t : Ty) : Prop extends Guarded t, Tidy G t

theorem Step.wellNamed {G : Assignment} {s t : Ty} (h : Step s t) (hs : WellNamed G s) :
    WellNamed G t :=
  ⟨h.guarded hs.toGuarded, h.coherent hs.coherent⟩

theorem WellNamed.peel {G : Assignment} {t : Ty} (h : WellNamed G t) :
    WellNamed G (peel t) ∧ read G (Ty.peel t) = read G t := by
  cases t with
  | mu x body => exact ⟨(Step.unroll x body).wellNamed h, h.coherent.read_unroll⟩
  | _ => exact ⟨h, rfl⟩

theorem WellNamed.iterate_peel {G : Assignment} {t : Ty} (h : WellNamed G t) (n : Nat) :
    WellNamed G (Ty.peel^[n] t) ∧ read G (Ty.peel^[n] t) = read G t := by
  induction n with
  | zero => exact ⟨h, rfl⟩
  | succ n ih =>
      rw [Function.iterate_succ_apply']
      exact ⟨ih.1.peel.1, ih.1.peel.2.trans ih.2⟩

theorem Solid.step_of_child {t c : Ty} (h : t.Solid) {e : Edge} (hc : t.shown.child e = some c) :
    Step t c := by
  cases t with
  | func params result =>
      cases e with
      | param i =>
          obtain ⟨p, hp, rfl⟩ := List.mem_map.mp (List.mem_of_getElem? hc)
          exact .param result hp
      | result =>
          obtain rfl : result = c := Option.some.inj hc
          exact .result params result
      | field name => cases hc
  | object fields =>
      cases e with
      | field name => exact Step.field (Row.mem_of_lookup hc)
      | param i => cases hc
      | result => cases hc
  | boolean => cases hc
  | number => cases hc
  | mu x body => exact absurd h id
  | var x => exact absurd h id

/-- A well-named type uncovers a head, which reads as the type does. -/
theorem WellNamed.exists_solid {G : Assignment} {t : Ty} (h : WellNamed G t) :
    ∃ s : Ty, s.Solid ∧ WellNamed G s ∧ s.tree = t.tree ∧ read G s = read G t := by
  obtain ⟨hnamed, hread⟩ := h.iterate_peel t.binders
  refine ⟨t.uncovered, ?_, hnamed, tree_iterate_peel _ t, hread⟩
  have hmu := uncovered_ne_mu h.contractive.not_headless
  have hclosed : t.uncovered.Closed := hnamed.closed
  cases hs : t.uncovered with
  | mu x body => exact absurd hs (hmu x body)
  | var x => exact absurd (hs ▸ hclosed) (not_closed_var x)
  | _ => trivial

theorem WellNamed.tree_eq_read {G : Assignment} {t : Ty} (h : WellNamed G t) :
    t.tree = read G t := by
  rw [Tree.eq_iff_forall_agreesTo]
  intro n
  induction n generalizing t with
  | zero => exact Tree.agreesTo_zero _ _
  | succ n ih =>
      -- Only a head adds a level; the binders before it change neither side.
      obtain ⟨s, hsolid, hs, htree, hread⟩ := h.exists_solid
      rw [← htree, ← hread, hsolid.tree_eq, hsolid.read_eq, Tree.agreesTo_ofNode_succ_iff,
        Node.label_map, Node.label_map]
      refine ⟨rfl, fun e u v hu hv => ?_⟩
      rw [Node.child_map, Option.map_eq_some_iff] at hu hv
      obtain ⟨c, hc, rfl⟩ := hu
      obtain ⟨d, hd, rfl⟩ := hv
      obtain rfl : c = d := Option.some.inj (hc.symm.trans hd)
      exact ih ((hsolid.step_of_child hc).wellNamed hs)

/-! ### Shapes -/

/-- A match of shapes is a match of the nodes at the roots and of what stands below them. -/
theorem Solid.of_sameShape {names : Renaming} {s t : Ty} (hs : s.Solid) (hd : s.DistinctFields)
    (h : sameShape names s t = true) :
    t.Solid ∧ s.shown.label = t.shown.label ∧
      ∀ e c d, s.shown.child e = some c → t.shown.child e = some d →
        sameShape names c d = true := by
  cases s with
  | boolean =>
      cases t with
      | boolean => exact ⟨trivial, rfl, fun e c d hc => by cases hc⟩
      | _ => cases h
  | number =>
      cases t with
      | number => exact ⟨trivial, rfl, fun e c d hc => by cases hc⟩
      | _ => cases h
  | func params result =>
      cases t with
      | func params' result' =>
          rw [sameShape, Bool.and_eq_true] at h
          refine ⟨trivial, ?_, fun e c d hc hd => ?_⟩
          · simp [shown, Node.label, length_eq_of_sameParams h.1]
          · cases e with
            | param i => exact sameShape_of_sameParams h.1 hc hd
            | result =>
                obtain rfl : result = c := Option.some.inj hc
                obtain rfl : result' = d := Option.some.inj hd
                exact h.2
            | field name => cases hc
      | _ => cases h
  | object fields =>
      cases t with
      | object fields' =>
          rw [sameShape, Bool.and_eq_true, beq_iff_eq] at h
          refine ⟨trivial, ?_, fun e c d hc hd => ?_⟩
          · exact congrArg Label.object (toFinset_labels_of_sameFields hd.1 h.1 h.2)
          · cases e with
            | field name => exact sameShape_of_sameFields h.2 hc hd
            | param i => cases hc
            | result => cases hc
      | _ => cases h
  | mu x body => exact absurd hs id
  | var x => exact absurd hs id

/-- Binders in front of a contractive type do not bind the variable behind them, so its partner is
found further out. -/
theorem exists_partner_tailVar {names : Renaming} {s t : Ty} {x : String} (hs : s.Contractive)
    (hx : s.tailVar = some x) (h : sameShape names s t = true) :
    ∃ y, names.lookup x = some y ∧ t.tailVar = some y := by
  induction s generalizing names t with
  | mu u body ih =>
      cases t with
      | mu v body' =>
          obtain ⟨y, hy, htail⟩ := ih hs.2 hx h
          have hxu : x ≠ u := by
            rintro rfl
            exact hs.1 hx
          rw [List.lookup_cons, beq_false_of_ne hxu] at hy
          exact ⟨y, hy, htail⟩
      | _ => cases h
  | var u =>
      cases t with
      | var v =>
          obtain rfl : u = x := Option.some.inj hx
          exact ⟨v, by simpa [sameShape] using h, rfl⟩
      | _ => cases h
  | _ => cases hx

theorem Coherent.read_of_tailVar {G : Assignment} {t : Ty} {x : String} (h : Coherent G t)
    (hx : t.tailVar = some x) : read G t = G x := by
  induction t with
  | mu y body ih => exact h.1.trans (ih h.2 hx)
  | var y => exact congrArg G (Option.some.inj hx)
  | _ => cases hx

theorem Tidy.body {G : Assignment} {x : String} {body : Ty} (h : Tidy G (mu x body)) :
    Tidy G body :=
  ⟨h.contractive.2, h.distinct, h.coherent.2⟩

theorem Tidy.child {G : Assignment} {s c : Ty} (h : Tidy G s) (hs : s.Solid) {e : Edge}
    (hc : s.shown.child e = some c) : Tidy G c := by
  have hstep := hs.step_of_child hc
  refine ⟨?_, hstep.distinctFields h.distinct, hstep.coherent h.coherent⟩
  cases hstep with
  | unroll x body => exact absurd hs id
  | param result hp => exact contractiveRow_iff.mp h.contractive.1 _ hp
  | result params result => exact h.contractive.2
  | field hf => exact contractiveRow_iff.mp h.contractive _ hf

inductive Stacked (G : Assignment) : Renaming → Prop
  | nil : Stacked G []
  | cons {names : Renaming} {x y : String} {body body' : Ty} (hs : Tidy G (mu x body))
      (ht : Coherent G (mu y body')) (h : sameShape ((x, y) :: names) body body' = true)
      (hnames : Stacked G names) : Stacked G ((x, y) :: names)

/-- Types of one shape under a stack read as trees that agree so far. -/
def ReadsAlikeTo (G : Assignment) (n : Nat) : Prop :=
  ∀ {names : Renaming} {s t : Ty}, Stacked G names → Tidy G s → Coherent G t →
    sameShape names s t = true → Tree.AgreesTo n (read G s) (read G t)

section Level

variable {G : Assignment} {n : Nat} {names : Renaming} {s t : Ty}

theorem ReadsAlikeTo.of_solid (hn : ReadsAlikeTo G n) (hnames : Stacked G names)
    (hsolid : s.Solid) (hs : Tidy G s) (ht : Coherent G t) (h : sameShape names s t = true) :
    Tree.AgreesTo (n + 1) (read G s) (read G t) := by
  obtain ⟨htsolid, hlabel, hchild⟩ := hsolid.of_sameShape hs.distinct h
  rw [hsolid.read_eq, htsolid.read_eq, Tree.agreesTo_ofNode_succ_iff, Node.label_map,
    Node.label_map]
  refine ⟨hlabel, fun e u v hu hv => ?_⟩
  rw [Node.child_map, Option.map_eq_some_iff] at hu hv
  obtain ⟨c, hc, rfl⟩ := hu
  obtain ⟨d, hd, rfl⟩ := hv
  exact hn hnames (hs.child hsolid hc) ((htsolid.step_of_child hd).coherent ht)
    (hchild e c d hc hd)

/-- Where the binders in front uncover a head, what the heads show suffices for one level more. -/
theorem ReadsAlikeTo.of_tailVar_eq_none (hn : ReadsAlikeTo G n) (hnames : Stacked G names)
    (hs : Tidy G s) (ht : Coherent G t) (h : sameShape names s t = true)
    (hx : s.tailVar = none) : Tree.AgreesTo (n + 1) (read G s) (read G t) := by
  induction s generalizing names t with
  | mu x body ih =>
      cases t with
      | mu y body' =>
          rw [read, read, hs.coherent.1, ht.1]
          exact ih (.cons hs ht h hnames) hs.body ht.2 h hx
      | _ => cases h
  | var x => cases hx
  | _ => exact hn.of_solid hnames trivial hs ht h

/-- Partners stand for trees that agree one level further. -/
theorem ReadsAlikeTo.of_partner (hn : ReadsAlikeTo G n) (hnames : Stacked G names) {x y : String}
    (hxy : names.lookup x = some y) : Tree.AgreesTo (n + 1) (G x) (G y) := by
  induction hnames generalizing x y with
  | nil => cases hxy
  | @cons names u v body body' hs ht h hnames ih =>
      rw [List.lookup_cons] at hxy
      by_cases hxu : x = u
      · subst hxu
        rw [beq_self_eq_true] at hxy
        obtain rfl : v = y := Option.some.inj hxy
        rw [hs.coherent.1, ht.1]
        -- Unless a head comes out, the bodies are partners further out under other names.
        cases hz : body.tailVar with
        | none => exact hn.of_tailVar_eq_none (.cons hs ht h hnames) hs.body ht.2 h hz
        | some z =>
            obtain ⟨w, hw, htail⟩ := exists_partner_tailVar hs.body.contractive hz h
            have hzx : z ≠ x := by
              rintro rfl
              exact hs.contractive.1 hz
            rw [List.lookup_cons, beq_false_of_ne hzx] at hw
            rw [hs.body.coherent.read_of_tailVar hz, ht.2.read_of_tailVar htail]
            exact ih hw
      · rw [beq_false_of_ne hxu] at hxy
        exact ih hxy

theorem ReadsAlikeTo.succ (hn : ReadsAlikeTo G n) : ReadsAlikeTo G (n + 1) := by
  intro names s t hnames hs ht h
  cases hx : s.tailVar with
  | none => exact hn.of_tailVar_eq_none hnames hs ht h hx
  | some x =>
      obtain ⟨y, hxy, htail⟩ := exists_partner_tailVar hs.contractive hx h
      rw [hs.coherent.read_of_tailVar hx, ht.read_of_tailVar htail]
      exact hn.of_partner hnames hxy

end Level

theorem readsAlikeTo (G : Assignment) (n : Nat) : ReadsAlikeTo G n := by
  induction n with
  | zero => exact fun _ _ _ _ => Tree.agreesTo_zero _ _
  | succ n ih => exact ih.succ

/-- A match of shapes makes no mistake among types that are named coherently with one another. -/
theorem WellNamed.tree_eq_of_sameShape {G : Assignment} {s t : Ty} (hs : WellNamed G s)
    (ht : WellNamed G t) (h : sameShape [] s t = true) : s.tree = t.tree := by
  rw [hs.tree_eq_read, ht.tree_eq_read, Tree.eq_iff_forall_agreesTo]
  exact fun n => readsAlikeTo G n .nil hs.toTidy ht.coherent h

/-! ### Different names -/

mutual

def binderNames : Ty → List String
  | boolean => []
  | number => []
  | func params result => binderNamesRow params ++ binderNames result
  | object fields => binderNamesRow fields
  | mu x body => x :: binderNames body
  | var _ => []

def binderNamesRow : Row → List String
  | [] => []
  | (_, t) :: row => binderNames t ++ binderNamesRow row

end

@[simp] theorem mem_binderNamesRow {x : String} {row : Row} :
    x ∈ binderNamesRow row ↔ ∃ p ∈ row, x ∈ binderNames p.2 := by
  induction row with
  | nil => simp [binderNamesRow]
  | cons p row ih => simp [binderNamesRow, ih]

mutual

/-- The binders of a type, each closed off. -/
def bindings (σ : Values) : Ty → Row
  | boolean => []
  | number => []
  | func params result => bindingsRow σ params ++ bindings σ result
  | object fields => bindingsRow σ fields
  | mu x body => (x, close σ (mu x body)) :: bindings (σ.enter x body) body
  | var _ => []

def bindingsRow (σ : Values) : Row → Row
  | [] => []
  | (_, t) :: row => bindings σ t ++ bindingsRow σ row

end

theorem mem_bindingsRow {σ : Values} {row : Row} {p : String × Ty} :
    p ∈ bindingsRow σ row ↔ ∃ q ∈ row, p ∈ bindings σ q.2 := by
  induction row with
  | nil => simp [bindingsRow]
  | cons q row ih => simp [bindingsRow, ih]

theorem labels_bindings (σ : Values) (t : Ty) : (bindings σ t).labels = binderNames t := by
  have row (σ : Values) (row : Row)
      (ih : ∀ p ∈ row, (bindings σ p.2).labels = binderNames p.2) :
      (bindingsRow σ row).labels = binderNamesRow row := by
    induction row with
    | nil => rfl
    | cons p row ihrow =>
        rw [bindingsRow, Row.labels, List.map_append, binderNamesRow, ← ih p List.mem_cons_self,
          ← ihrow fun q hq => ih q (List.mem_cons_of_mem p hq)]
        rfl
  induction t generalizing σ with
  | boolean => rfl
  | number => rfl
  | func params result hparams hresult =>
      rw [bindings, Row.labels, List.map_append, binderNames,
        ← row σ params fun p hp => hparams p hp σ, ← hresult σ]
      rfl
  | object fields hfields => exact row σ fields fun f hf => hfields f hf σ
  | mu x body ih => exact congrArg (x :: ·) (ih _)
  | var x => rfl

/-- An assignment that has every binder stand for the tree of the binder closed off is coherent. -/
theorem coherent_of_bindings {G : Assignment} {σ : Values} {t : Ty} (hclosing : Closing σ t)
    (hσ : ∀ x u, σ x = some u → G x = u.tree)
    (h : ∀ p ∈ bindings σ t, G p.1 = p.2.tree) :
    Coherent G t ∧ read G t = (close σ t).tree := by
  induction t generalizing σ with
  | boolean => exact ⟨trivial, (Solid.tree_eq (t := boolean) trivial).symm⟩
  | number => exact ⟨trivial, (Solid.tree_eq (t := number) trivial).symm⟩
  | func params result hparams hresult =>
      have hrow (p : String × Ty) (hp : p ∈ params) :=
        hparams p hp (hclosing.params hp) hσ fun q hq =>
          h q (List.mem_append_left _ (mem_bindingsRow.mpr ⟨p, hp, hq⟩))
      have hres := hresult hclosing.result hσ fun q hq => h q (List.mem_append_right _ hq)
      refine ⟨⟨coherentRow_iff.mpr fun p hp => (hrow p hp).1, hres.1⟩, ?_⟩
      rw [close, Solid.tree_eq (t := func _ _) trivial, read, hres.2]
      simp only [shown, Node.map, Row.types, readRow_eq_map, closeRow_eq_map, List.map_map,
        Function.comp_def]
      rw [List.map_congr_left fun p hp => (hrow p hp).2]
  | object fields hfields =>
      have hrow (f : String × Ty) (hf : f ∈ fields) :=
        hfields f hf (hclosing.fields hf) hσ fun q hq => h q (mem_bindingsRow.mpr ⟨f, hf, hq⟩)
      refine ⟨coherentRow_iff.mpr fun f hf => (hrow f hf).1, ?_⟩
      rw [close, Solid.tree_eq (t := object _) trivial, read]
      simp only [shown, Node.map, readRow_eq_map, closeRow_eq_map, List.map_map,
        Function.comp_def]
      rw [List.map_congr_left fun f hf => by rw [(hrow f hf).2]]
  | mu x body ih =>
      obtain ⟨hx, hbody⟩ := List.forall_mem_cons.mp h
      have hx : G x = (close σ (mu x body)).tree := hx
      have henter (y : String) (u : Ty) (hu : σ.enter x body y = some u) : G y = u.tree := by
        by_cases hyx : y = x
        · subst hyx
          rw [Values.enter, Function.update_self] at hu
          rw [hx, Option.some.inj hu]
        · rw [Values.enter, Function.update_of_ne hyx] at hu
          exact hσ y u hu
      -- The body closed off is the unfolding of the binder closed off.
      obtain ⟨hcoherent, hread⟩ := ih hclosing.enter henter hbody
      refine ⟨⟨?_, hcoherent⟩, hx⟩
      rw [hx, hread, ← hclosing.unroll_close, tree_unroll, close]
  | var x =>
      obtain ⟨u, hu⟩ := hclosing.total x rfl
      rw [close, hu]
      exact ⟨trivial, hσ x u hu⟩

theorem exists_coherent_of_nodup {a b : Ty} (ha : a.Closed) (hb : b.Closed)
    (h : (a.binderNames ++ b.binderNames).Nodup) : ∃ G, Coherent G a ∧ Coherent G b := by
  let σ : Values := fun _ => none
  let row : Row := bindings σ a ++ bindings σ b
  have hrow : row.labels.Nodup := by
    rwa [Row.labels, List.map_append, ← Row.labels, ← Row.labels, labels_bindings,
      labels_bindings]
  let G : Assignment := fun x => ((row.lookup x).map tree).getD (.ofNode .hole)
  have hG (p : String × Ty) (hp : p ∈ row) : G p.1 = p.2.tree := by
    simp only [G, Row.lookup_of_mem hrow hp, Option.map_some, Option.getD_some]
  have hσ (x : String) (u : Ty) (hu : σ x = some u) : G x = u.tree := by cases hu
  refine ⟨G, (coherent_of_bindings (closing_none ha) hσ fun p hp => ?_).1,
    (coherent_of_bindings (closing_none hb) hσ fun p hp => ?_).1⟩
  · exact hG p (List.mem_append_left _ hp)
  · exact hG p (List.mem_append_right _ hp)

end StructuralTypes.Ty
