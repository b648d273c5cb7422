import StructuralTypes.Proofs.Reading
import StructuralTypes.Proofs.Refusal
import StructuralTypes.Tree.Write

/-!
Reading accepts just the format of trees: it gives a type or a term exactly if the value represents
it, and otherwise says what is malformed. Every type and term that repeats no field name is
represented by the tree it is written as, so it is read from some tree.
-/

namespace StructuralTypes

namespace Tree

/-! ### Types -/

/-- Whatever is read from the value as a type, as a row or as an entry of one is what it represents
as such. -/
structure ReadsTypes (v : Json) : Prop where
  type : ∀ t, readType v = .ok t ↔ RepresentsType v t
  row : ∀ node key row, readRow node key v = .ok row ↔ RepresentsRow v row
  entry : ∀ p, readEntry v = .ok p ↔ Labelled RepresentsType "type" v p

section Types

variable {node : Json} (ih : ∀ key v, subscript key node = .ok v → ReadsTypes v)
include ih

theorem memberType_iff {key : String} {t : Ty} :
    member node key >>= readType = .ok t ↔ Under RepresentsType node key t :=
  member_bind_eq_ok_iff fun v hv => (ih key v hv).type

theorem memberRow_iff {key : String} {row : Row} :
    member node key >>= readRow node key = .ok row ↔ Under RepresentsRow node key row :=
  member_bind_eq_ok_iff fun v hv => (ih key v hv).row node key

theorem representsType_of_readType {t : Ty} (h : readType node = .ok t) :
    RepresentsType node t := by
  rw [readType_eq, bind_eq_ok_iff] at h
  obtain ⟨build, hbuild, h⟩ := h
  obtain ⟨members, name, rfl, htag, hentry⟩ := dispatch_eq_ok_iff.mp hbuild
  have hmem := mem_of_lookup hentry
  simp only [typeTable, List.mem_cons, Prod.mk.injEq, List.not_mem_nil, or_false] at hmem
  -- One case for each row of the table.
  rcases hmem with ⟨rfl, rfl⟩ | ⟨rfl, rfl⟩ | ⟨rfl, rfl⟩ | ⟨rfl, rfl⟩ | ⟨rfl, rfl⟩ | ⟨rfl, rfl⟩
  · cases h
    exact .boolean htag
  · cases h
    exact .number htag
  · simp only [bind_eq_ok_iff, memberRow_iff ih, memberType_iff ih] at h
    obtain ⟨params, hparams, result, hresult, h⟩ := h
    cases h
    exact .func htag hparams hresult
  · simp only [objectType, bind_eq_ok_iff, memberRow_iff ih] at h
    obtain ⟨fields, hfields, h⟩ := h
    split at h
    · next hdistinct =>
        rw [Ty.mkObject_of_nodup hdistinct] at h
        cases h
        exact .object htag hfields hdistinct
    · cases h
  · simp only [bind_eq_ok_iff, textAt_eq_ok_iff, memberType_iff ih] at h
    obtain ⟨x, hname, body, hbody, h⟩ := h
    cases h
    exact .mu htag hname hbody
  · simp only [bind_eq_ok_iff, textAt_eq_ok_iff] at h
    obtain ⟨x, hname, h⟩ := h
    cases h
    exact .var htag hname

theorem readType_of_representsType {t : Ty} (h : RepresentsType node t) :
    readType node = .ok t := by
  rw [readType_eq]
  cases h with
  | boolean htag => rw [dispatch_bind htag rfl]
  | number htag => rw [dispatch_bind htag rfl]
  | @func _ params result htag hparams hresult =>
      rw [dispatch_bind htag rfl]
      simp only [bind_eq_ok_iff, memberRow_iff ih, memberType_iff ih]
      exact ⟨params, hparams, result, hresult, rfl⟩
  | @object _ fields htag hfields hdistinct =>
      rw [dispatch_bind htag rfl]
      simp only [objectType, bind_eq_ok_iff, memberRow_iff ih]
      refine ⟨fields, hfields, ?_⟩
      rw [if_pos hdistinct, Ty.mkObject_of_nodup hdistinct]
      rfl
  | @mu _ x body htag hname hbody =>
      rw [dispatch_bind htag rfl]
      simp only [bind_eq_ok_iff, textAt_eq_ok_iff, memberType_iff ih]
      exact ⟨x, hname, body, hbody, rfl⟩
  | @var _ x htag hname =>
      rw [dispatch_bind htag rfl]
      simp only [bind_eq_ok_iff, textAt_eq_ok_iff]
      exact ⟨x, hname, rfl⟩

end Types

theorem readsTypes (v : Json) : ReadsTypes v := by
  induction v using subscript_ind with
  | node v ih ihitems =>
      refine ⟨fun t => ⟨representsType_of_readType ih, readType_of_representsType ih⟩,
        fun node key row => ?_, fun p => ?_⟩
      · rw [readRow_eq]
        exact listOf_eq_ok_iff fun items hv w hw => (ihitems items hv w hw).entry
      · rw [readEntry_eq]
        exact labelled_eq_ok_iff fun w hw => (ih "type" w hw).type

/-! ### Terms -/

structure ReadsTerms (v : Json) : Prop where
  term : ∀ t, readTerm v = .ok t ↔ RepresentsTerm v t
  args : ∀ node key args, readArgs node key v = .ok args ↔ Listed RepresentsTerm v args
  fields : ∀ node key fields,
    readFields node key v = .ok fields ↔ Listed (Labelled RepresentsTerm "term") v fields
  init : ∀ f, readInit v = .ok f ↔ Labelled RepresentsTerm "term" v f

section Terms

variable {node : Json} (ih : ∀ key v, subscript key node = .ok v → ReadsTerms v)
include ih

theorem memberTerm_iff {key : String} {t : Term (Option Span)} :
    member node key >>= readTerm = .ok t ↔ Under RepresentsTerm node key t :=
  member_bind_eq_ok_iff fun v hv => (ih key v hv).term

theorem memberArgs_iff {key : String} {args : List (Term (Option Span))} :
    member node key >>= readArgs node key = .ok args ↔
      Under (Listed RepresentsTerm) node key args :=
  member_bind_eq_ok_iff fun v hv => (ih key v hv).args node key

theorem memberFields_iff {key : String} {fields : List (String × Term (Option Span))} :
    member node key >>= readFields node key = .ok fields ↔
      Under (Listed (Labelled RepresentsTerm "term")) node key fields :=
  member_bind_eq_ok_iff fun v hv => (ih key v hv).fields node key

theorem representsTerm_of_readTerm {t : Term (Option Span)} (h : readTerm node = .ok t) :
    RepresentsTerm node t := by
  have types (key : String) (v : Json) (_ : subscript key node = .ok v) : ReadsTypes v :=
    readsTypes v
  rw [readTerm_eq, bind_eq_ok_iff] at h
  obtain ⟨build, hbuild, h⟩ := h
  obtain ⟨members, name, rfl, htag, hentry⟩ := dispatch_eq_ok_iff.mp hbuild
  have hmem := mem_of_lookup hentry
  simp only [termTable, List.mem_cons, Prod.mk.injEq, List.not_mem_nil, or_false] at hmem
  rcases hmem with ⟨rfl, rfl⟩ | ⟨rfl, rfl⟩ | ⟨rfl, rfl⟩ | ⟨rfl, rfl⟩ | ⟨rfl, rfl⟩ | ⟨rfl, rfl⟩ |
    ⟨rfl, rfl⟩ | ⟨rfl, rfl⟩ | ⟨rfl, rfl⟩ | ⟨rfl, rfl⟩ | ⟨rfl, rfl⟩ | ⟨rfl, rfl⟩ | ⟨rfl, rfl⟩
  · simp only [bind_eq_ok_iff, readSpan_eq_ok_iff] at h
    obtain ⟨p, hspan, h⟩ := h
    cases h
    exact .yes htag hspan
  · simp only [bind_eq_ok_iff, readSpan_eq_ok_iff] at h
    obtain ⟨p, hspan, h⟩ := h
    cases h
    exact .no htag hspan
  · simp only [bind_eq_ok_iff, numberAt_eq_ok_iff, readSpan_eq_ok_iff] at h
    obtain ⟨n, hn, p, hspan, h⟩ := h
    cases h
    exact .number htag hn hspan
  · simp only [bind_eq_ok_iff, memberTerm_iff ih, readSpan_eq_ok_iff] at h
    obtain ⟨test, htest, yes, hyes, no, hno, p, hspan, h⟩ := h
    cases h
    exact .cond htag htest hyes hno hspan
  · simp only [bind_eq_ok_iff, memberTerm_iff ih, readSpan_eq_ok_iff] at h
    obtain ⟨left, hleft, right, hright, p, hspan, h⟩ := h
    cases h
    exact .add htag hleft hright hspan
  · simp only [bind_eq_ok_iff, textAt_eq_ok_iff, readSpan_eq_ok_iff] at h
    obtain ⟨name, hname, p, hspan, h⟩ := h
    cases h
    exact .ref htag hname hspan
  · simp only [bind_eq_ok_iff, memberRow_iff types, memberTerm_iff ih, readSpan_eq_ok_iff] at h
    obtain ⟨params, hparams, body, hbody, p, hspan, h⟩ := h
    cases h
    exact .lambda htag hparams hbody hspan
  · simp only [bind_eq_ok_iff, memberTerm_iff ih, memberArgs_iff ih,
      readSpan_eq_ok_iff] at h
    obtain ⟨callee, hcallee, args, hargs, p, hspan, h⟩ := h
    cases h
    exact .call htag hcallee hargs hspan
  · simp only [bind_eq_ok_iff, memberTerm_iff ih, readSpan_eq_ok_iff] at h
    obtain ⟨first, hfirst, rest, hrest, p, hspan, h⟩ := h
    cases h
    exact .seq htag hfirst hrest hspan
  · simp only [bind_eq_ok_iff, textAt_eq_ok_iff, memberTerm_iff ih, readSpan_eq_ok_iff] at h
    obtain ⟨name, hname, init, hinit, rest, hrest, p, hspan, h⟩ := h
    cases h
    exact .const htag hname hinit hrest hspan
  · simp only [record, bind_eq_ok_iff, memberFields_iff ih] at h
    obtain ⟨fields, hfields, h⟩ := h
    split at h
    · next hdistinct =>
        simp only [bind_eq_ok_iff, readSpan_eq_ok_iff] at h
        obtain ⟨p, hspan, h⟩ := h
        cases h
        exact .record htag hfields hdistinct hspan
    · cases h
  · simp only [bind_eq_ok_iff, memberTerm_iff ih, textAt_eq_ok_iff, readSpan_eq_ok_iff] at h
    obtain ⟨owner, howner, name, hname, p, hspan, h⟩ := h
    cases h
    exact .field htag howner hname hspan
  · simp only [bind_eq_ok_iff, textAt_eq_ok_iff, memberRow_iff types, memberType_iff types,
      memberTerm_iff ih, readSpan_eq_ok_iff] at h
    obtain ⟨name, hname, params, hparams, result, hresult, body, hbody, rest, hrest, p, hspan, h⟩
      := h
    cases h
    exact .letRec htag hname hparams hresult hbody hrest hspan

theorem readTerm_of_representsTerm {t : Term (Option Span)} (h : RepresentsTerm node t) :
    readTerm node = .ok t := by
  have types (key : String) (v : Json) (_ : subscript key node = .ok v) : ReadsTypes v :=
    readsTypes v
  rw [readTerm_eq]
  cases h with
  | @yes _ p htag hspan =>
      rw [dispatch_bind htag rfl]
      simp only [bind_eq_ok_iff, readSpan_eq_ok_iff]
      exact ⟨p, hspan, rfl⟩
  | @no _ p htag hspan =>
      rw [dispatch_bind htag rfl]
      simp only [bind_eq_ok_iff, readSpan_eq_ok_iff]
      exact ⟨p, hspan, rfl⟩
  | @number _ n p htag hn hspan =>
      rw [dispatch_bind htag rfl]
      simp only [bind_eq_ok_iff, numberAt_eq_ok_iff, readSpan_eq_ok_iff]
      exact ⟨n, hn, p, hspan, rfl⟩
  | @cond _ test yes no p htag htest hyes hno hspan =>
      rw [dispatch_bind htag rfl]
      simp only [bind_eq_ok_iff, memberTerm_iff ih, readSpan_eq_ok_iff]
      exact ⟨test, htest, yes, hyes, no, hno, p, hspan, rfl⟩
  | @add _ left right p htag hleft hright hspan =>
      rw [dispatch_bind htag rfl]
      simp only [bind_eq_ok_iff, memberTerm_iff ih, readSpan_eq_ok_iff]
      exact ⟨left, hleft, right, hright, p, hspan, rfl⟩
  | @ref _ name p htag hname hspan =>
      rw [dispatch_bind htag rfl]
      simp only [bind_eq_ok_iff, textAt_eq_ok_iff, readSpan_eq_ok_iff]
      exact ⟨name, hname, p, hspan, rfl⟩
  | @lambda _ params body p htag hparams hbody hspan =>
      rw [dispatch_bind htag rfl]
      simp only [bind_eq_ok_iff, memberRow_iff types, memberTerm_iff ih, readSpan_eq_ok_iff]
      exact ⟨params, hparams, body, hbody, p, hspan, rfl⟩
  | @call _ callee args p htag hcallee hargs hspan =>
      rw [dispatch_bind htag rfl]
      simp only [bind_eq_ok_iff, memberTerm_iff ih, memberArgs_iff ih,
        readSpan_eq_ok_iff]
      exact ⟨callee, hcallee, args, hargs, p, hspan, rfl⟩
  | @seq _ first rest p htag hfirst hrest hspan =>
      rw [dispatch_bind htag rfl]
      simp only [bind_eq_ok_iff, memberTerm_iff ih, readSpan_eq_ok_iff]
      exact ⟨first, hfirst, rest, hrest, p, hspan, rfl⟩
  | @const _ name init rest p htag hname hinit hrest hspan =>
      rw [dispatch_bind htag rfl]
      simp only [bind_eq_ok_iff, textAt_eq_ok_iff, memberTerm_iff ih, readSpan_eq_ok_iff]
      exact ⟨name, hname, init, hinit, rest, hrest, p, hspan, rfl⟩
  | @record _ fields p htag hfields hdistinct hspan =>
      rw [dispatch_bind htag rfl]
      simp only [record, bind_eq_ok_iff, memberFields_iff ih]
      refine ⟨fields, hfields, ?_⟩
      rw [if_pos hdistinct, readSpan_eq_ok_iff.mpr hspan]
      rfl
  | @field _ owner name p htag howner hname hspan =>
      rw [dispatch_bind htag rfl]
      simp only [bind_eq_ok_iff, memberTerm_iff ih, textAt_eq_ok_iff, readSpan_eq_ok_iff]
      exact ⟨owner, howner, name, hname, p, hspan, rfl⟩
  | @letRec _ name params result body rest p htag hname hparams hresult hbody hrest hspan =>
      rw [dispatch_bind htag rfl]
      simp only [bind_eq_ok_iff, textAt_eq_ok_iff, memberRow_iff types, memberType_iff types,
        memberTerm_iff ih, readSpan_eq_ok_iff]
      exact ⟨name, hname, params, hparams, result, hresult, body, hbody, rest, hrest, p, hspan, rfl⟩

end Terms

theorem readsTerms (v : Json) : ReadsTerms v := by
  induction v using subscript_ind with
  | node v ih ihitems =>
      refine ⟨fun t => ⟨representsTerm_of_readTerm ih, readTerm_of_representsTerm ih⟩,
        fun node key args => ?_, fun node key fields => ?_, fun f => ?_⟩
      · rw [readArgs_eq]
        exact listOf_eq_ok_iff fun items hv w hw => (ihitems items hv w hw).term
      · rw [readFields_eq]
        exact listOf_eq_ok_iff fun items hv w hw => (ihitems items hv w hw).init
      · rw [readInit_eq]
        exact labelled_eq_ok_iff fun w hw => (ih "term" w hw).term

theorem regular_of_readTerm {v : Json} {t : Term (Option Span)} (h : readTerm v = .ok t) :
    t.Regular :=
  (((readsTerms v).term t).mp h).regular

/-! ### What is written -/

theorem representsRow_entries {row : Row} (h : ∀ p ∈ row, RepresentsType p.2.toTree p.2) :
    RepresentsRow (.arr (Ty.entries row)) row := by
  refine .intro ?_
  induction row with
  | nil => exact .nil
  | cons p row ih =>
      obtain ⟨hp, hrow⟩ := List.forall_mem_cons.mp h
      exact .cons (.intro rfl (.intro rfl hp)) (ih hrow)

theorem representsType_toTree {t : Ty} (h : t.DistinctFields) : RepresentsType t.toTree t := by
  induction t with
  | boolean => exact .boolean rfl
  | number => exact .number rfl
  | func params result hparams hresult =>
      have hrow : RepresentsRow (.arr (Ty.entries params)) params :=
        representsRow_entries fun p hp => hparams p hp (Ty.distinctFieldsRow_iff.mp h.1 p hp)
      exact .func rfl (.intro rfl hrow) (.intro rfl (hresult h.2))
  | object fields hfields =>
      have hrow : RepresentsRow (.arr (Ty.entries fields)) fields :=
        representsRow_entries fun f hf => hfields f hf (Ty.distinctFieldsRow_iff.mp h.2 f hf)
      exact .object rfl (.intro rfl hrow) h.1
  | mu x body ih => exact .mu rfl rfl (.intro rfl (ih h))
  | var x => exact .var rfl rfl

theorem representsSpan_append {front : Members} (h : front.lookup "loc" = none)
    (p : Option Span) : RepresentsSpan (front ++ Span.member p) p := by
  cases p with
  | none => exact .absent (by rw [Span.member, List.append_nil, h])
  | some s =>
      have hloc : Holds (front ++ Span.member (some s)) "loc" s.toTree := by
        rw [Holds, List.lookup_append, h]
        rfl
      exact .span hloc (.intro rfl (.intro rfl rfl)) (.intro rfl (.intro rfl rfl))

theorem forall₂_argTrees {args : List (Term (Option Span))}
    (h : ∀ a ∈ args, RepresentsTerm a.toTree a) :
    List.Forall₂ RepresentsTerm (Term.argTrees args) args := by
  induction args with
  | nil => exact .nil
  | cons a args ih =>
      obtain ⟨ha, hargs⟩ := List.forall_mem_cons.mp h
      exact .cons ha (ih hargs)

theorem forall₂_fieldTrees {fields : List (String × Term (Option Span))}
    (h : ∀ f ∈ fields, RepresentsTerm f.2.toTree f.2) :
    List.Forall₂ (Labelled RepresentsTerm "term") (Term.fieldTrees fields) fields := by
  induction fields with
  | nil => exact .nil
  | cons f fields ih =>
      obtain ⟨hf, hfields⟩ := List.forall_mem_cons.mp h
      exact .cons (.intro rfl (.intro rfl hf)) (ih hfields)

end Tree

theorem Term.Regular.child {P : Type} {t c : Term P} (h : t.Regular) (hc : c ∈ t.children) :
    c.Regular where
  types := fun u hu => h.types u (mem_annotations_iff.mpr (.inr ⟨c, hc, hu⟩))
  names := fun p fields hr => h.names p fields (subterms_subset_of_mem_children hc hr)

theorem Term.Regular.declared {P : Type} {t : Term P} (h : t.Regular) :
    ∀ u ∈ t.declared, u.DistinctFields :=
  fun u hu => h.types u (mem_annotations_iff.mpr (.inl hu))

namespace Tree

theorem representsTerm_toTree {t : Term (Option Span)} (h : t.Regular) :
    RepresentsTerm t.toTree t := by
  have hrow {params : Row} (hparams : ∀ u ∈ params.types, u.DistinctFields) :
      RepresentsRow (.arr (Ty.entries params)) params :=
    representsRow_entries fun p hp => representsType_toTree (hparams p.2 (List.mem_map_of_mem hp))
  -- The children of a regular term are regular, so each of them represents itself.
  induction t with
  | literal p value =>
      cases value with
      | bool b =>
          cases b with
          | true => exact .yes rfl (representsSpan_append rfl p)
          | false => exact .no rfl (representsSpan_append rfl p)
      | int n => exact .number rfl (.intro rfl (.int n)) (representsSpan_append rfl p)
      | float x => exact .number rfl (.intro rfl (.float x)) (representsSpan_append rfl p)
  | cond p test yes no htest hyes hno =>
      exact .cond rfl (.intro rfl (htest (h.child (by simp [Term.children]))))
        (.intro rfl (hyes (h.child (by simp [Term.children]))))
        (.intro rfl (hno (h.child (by simp [Term.children])))) (representsSpan_append rfl p)
  | add p left right hleft hright =>
      exact .add rfl (.intro rfl (hleft (h.child (by simp [Term.children]))))
        (.intro rfl (hright (h.child (by simp [Term.children])))) (representsSpan_append rfl p)
  | ref p name => exact .ref rfl rfl (representsSpan_append rfl p)
  | lambda p params body hbody =>
      exact .lambda rfl (.intro rfl (hrow h.declared))
        (.intro rfl (hbody (h.child (by simp [Term.children])))) (representsSpan_append rfl p)
  | call p callee args hcallee hargs =>
      have hargs' : List.Forall₂ RepresentsTerm (Term.argTrees args) args :=
        forall₂_argTrees fun a ha => hargs a ha (h.child (List.mem_cons_of_mem callee ha))
      exact .call rfl (.intro rfl (hcallee (h.child List.mem_cons_self)))
        (.intro rfl (.intro hargs')) (representsSpan_append rfl p)
  | seq p first rest hfirst hrest =>
      exact .seq rfl (.intro rfl (hfirst (h.child (by simp [Term.children]))))
        (.intro rfl (hrest (h.child (by simp [Term.children])))) (representsSpan_append rfl p)
  | const p name init rest hinit hrest =>
      exact .const rfl rfl (.intro rfl (hinit (h.child (by simp [Term.children]))))
        (.intro rfl (hrest (h.child (by simp [Term.children])))) (representsSpan_append rfl p)
  | record p fields hfields =>
      have hfields' :
          List.Forall₂ (Labelled RepresentsTerm "term") (Term.fieldTrees fields) fields :=
        forall₂_fieldTrees fun f hf => hfields f hf (h.child (List.mem_map_of_mem hf))
      exact .record rfl (.intro rfl (.intro hfields'))
        (h.names p fields (Term.self_mem_subterms _)) (representsSpan_append rfl p)
  | field p owner name howner =>
      exact .field rfl (.intro rfl (howner (h.child (by simp [Term.children])))) rfl
        (representsSpan_append rfl p)
  | letRec p name params result body rest hbody hrest =>
      have hdeclared : (∀ u ∈ Row.types params, u.DistinctFields) ∧ result.DistinctFields := by
        simpa [Term.declared, or_imp, forall_and] using h.declared
      exact .letRec rfl rfl (.intro rfl (hrow hdeclared.1))
        (.intro rfl (representsType_toTree hdeclared.2))
        (.intro rfl (hbody (h.child (by simp [Term.children]))))
        (.intro rfl (hrest (h.child (by simp [Term.children])))) (representsSpan_append rfl p)

/-- Reading accepts exactly the format: a type or a term is read from a value if and only if the
value represents it, and in every other case the reader complains about the tree, without any other
failure. What is written from a type or a term that repeats no field name is read back as it was. -/
theorem read_eq_ok_iff_represents :
    (∀ v t, readType v = .ok t ↔ RepresentsType v t) ∧
      (∀ v t, readTerm v = .ok t ↔ RepresentsTerm v t) ∧
      (∀ v, (∀ t, ¬ RepresentsType v t) → ∃ why, readType v = .error (.malformed why)) ∧
      (∀ v, (∀ t, ¬ RepresentsTerm v t) → ∃ why, readTerm v = .error (.malformed why)) ∧
      (∀ t : Ty, t.DistinctFields → readType t.toTree = .ok t) ∧
      (∀ t : Term (Option Span), t.Regular → readTerm t.toTree = .ok t) := by
  refine ⟨fun v => (readsTypes v).type, fun v => (readsTerms v).term, fun v hv => ?_,
    fun v hv => ?_, fun t ht => ?_, fun t ht => ?_⟩
  · exact (complains v).type.exists_of_ne_ok fun t h => hv t (((readsTypes v).type t).mp h)
  · exact (complains v).term.exists_of_ne_ok fun t h => hv t (((readsTerms v).term t).mp h)
  · exact ((readsTypes _).type t).mpr (representsType_toTree ht)
  · exact ((readsTerms _).term t).mpr (representsTerm_toTree ht)

/-- A record with a function in it, whose place has odd coordinates. -/
theorem read_eq_ok_iff_represents_record :
    let span : Span := ⟨⟨.int 1, .null⟩, ⟨.str "?", .bool true⟩⟩
    let pair : Ty := .object [("n", .number), ("m", .boolean)]
    let t : Term (Option Span) := .record none
      [("f", .lambda (some span) [("x", pair)] (.ref none "x")), ("b", .literal none (.bool true))]
    t.Regular ∧ readTerm t.toTree = .ok t ∧ RepresentsTerm t.toTree t := by
  intro span pair t
  have hregular : t.Regular := by
    constructor
    · decide
    · intro p fields h
      obtain ⟨-, rfl⟩ : p = none ∧ fields = _ := by simpa [t, Term.subterms] using h
      decide
  obtain ⟨-, hterm, -, -, -, hread⟩ := read_eq_ok_iff_represents
  exact ⟨hregular, hread t hregular, (hterm _ t).mp (hread t hregular)⟩

end Tree

end StructuralTypes
