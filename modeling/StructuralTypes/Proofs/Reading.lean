import StructuralTypes.Proofs.Format
import StructuralTypes.Term.Subterm
import StructuralTypes.Ty.WellFormed

/-!
What the format guarantees. No object of a type that a value represents repeats a field name, and no
record of a term does. The parts of a type or a term are represented as well, so both follow by
induction on what is represented.
-/

namespace StructuralTypes

/-! ### Types -/

namespace Tree

theorem Listed.exists_of_mem {α : Type} {R : Json → α → Prop} {v : Json} {l : List α}
    (h : Listed R v l) {a : α} (ha : a ∈ l) : ∃ w, R w a := by
  obtain ⟨hitems⟩ := h
  induction hitems with
  | nil => cases ha
  | @cons w _ _ _ hw _ ih =>
      cases ha with
      | head => exact ⟨w, hw⟩
      | tail _ ha => exact ih ha

theorem exists_of_mem_row {v : Json} {row : Row} (h : RepresentsRow v row) {p : String × Ty}
    (hp : p ∈ row) : ∃ w, RepresentsType w p.2 := by
  obtain ⟨_, -, ⟨-, hw⟩⟩ := h.exists_of_mem hp
  exact ⟨_, hw⟩

theorem RepresentsType.distinctFields {v : Json} {t : Ty} (h : RepresentsType v t) :
    t.DistinctFields := by
  induction t generalizing v with
  | boolean => trivial
  | number => trivial
  | func params result ihparams ihresult =>
      obtain _ | _ | ⟨-, ⟨-, hparams⟩, ⟨-, hresult⟩⟩ := h
      refine ⟨Ty.distinctFieldsRow_iff.mpr fun p hp => ?_, ihresult hresult⟩
      obtain ⟨w, hw⟩ := exists_of_mem_row hparams hp
      exact ihparams p hp hw
  | object fields ihfields =>
      obtain _ | _ | _ | ⟨-, ⟨-, hfields⟩, hdistinct⟩ := h
      refine ⟨hdistinct, Ty.distinctFieldsRow_iff.mpr fun f hf => ?_⟩
      obtain ⟨w, hw⟩ := exists_of_mem_row hfields hf
      exact ihfields f hf hw
  | mu x body ih =>
      obtain _ | _ | _ | _ | ⟨-, -, ⟨-, hbody⟩⟩ := h
      exact ih hbody
  | var x => trivial

theorem distinctFields_of_mem_types {v : Json} {row : Row} (h : RepresentsRow v row) :
    ∀ u ∈ row.types, u.DistinctFields := by
  intro u hu
  obtain ⟨p, hp, rfl⟩ := List.mem_map.mp hu
  obtain ⟨w, hw⟩ := exists_of_mem_row h hp
  exact hw.distinctFields

end Tree

/-! ### Terms -/

/-- No declared type has an object that repeats a field name, and no record repeats one. -/
structure Term.Regular {P : Type} (t : Term P) : Prop where
  types : ∀ u ∈ t.annotations, u.DistinctFields
  names : ∀ p fields, .record p fields ∈ t.subterms → (fields.map Prod.fst).Nodup

/-- A term is regular if its root is and what stands below it. -/
theorem Term.Regular.of_children {P : Type} {t : Term P} (hchildren : ∀ c ∈ t.children, c.Regular)
    (hdeclared : ∀ u ∈ t.declared, u.DistinctFields)
    (hnames : ∀ p fields, t = .record p fields → (fields.map Prod.fst).Nodup) : t.Regular where
  types := by
    intro u hu
    rcases mem_annotations_iff.mp hu with hu | ⟨c, hc, hu⟩
    · exact hdeclared u hu
    · exact (hchildren c hc).types u hu
  names := by
    intro p fields h
    rcases mem_subterms_iff.mp h with h | ⟨c, hc, h⟩
    · exact hnames p fields h.symm
    · exact (hchildren c hc).names p fields h

/-- A root that declares no types and is no record adds nothing. -/
theorem Term.Regular.of_plain {P : Type} {t : Term P} (hchildren : ∀ c ∈ t.children, c.Regular)
    (hdeclared : t.declared = []) (hrecord : ∀ p fields, t ≠ .record p fields) : t.Regular := by
  refine .of_children hchildren (fun u hu => ?_) fun p fields h => absurd h (hrecord p fields)
  rw [hdeclared] at hu
  cases hu

namespace Tree

theorem RepresentsTerm.regular {v : Json} {t : Term (Option Span)} (h : RepresentsTerm v t) :
    t.Regular := by
  -- Only functions declare types, and only a record has names to answer for; the other forms pass
  -- on what holds below them.
  induction t generalizing v with
  | literal p value => exact .of_plain (by simp [Term.children]) rfl (by simp)
  | cond p test yes no ihtest ihyes ihno =>
      cases h with
      | cond _ htest hyes hno _ =>
          obtain ⟨-, htest⟩ := htest
          obtain ⟨-, hyes⟩ := hyes
          obtain ⟨-, hno⟩ := hno
          exact .of_plain (by simp [Term.children, ihtest htest, ihyes hyes, ihno hno]) rfl
            (by simp)
  | add p left right ihleft ihright =>
      cases h with
      | add _ hleft hright _ =>
          obtain ⟨-, hleft⟩ := hleft
          obtain ⟨-, hright⟩ := hright
          exact .of_plain (by simp [Term.children, ihleft hleft, ihright hright]) rfl (by simp)
  | ref p name => exact .of_plain (by simp [Term.children]) rfl (by simp)
  | lambda p params body ihbody =>
      cases h with
      | lambda _ hparams hbody _ =>
          obtain ⟨-, hparams⟩ := hparams
          obtain ⟨-, hbody⟩ := hbody
          exact .of_children (by simp [Term.children, ihbody hbody])
            (distinctFields_of_mem_types hparams) (by simp)
  | call p callee args ihcallee ihargs =>
      cases h with
      | call _ hcallee hargs _ =>
          obtain ⟨-, hcallee⟩ := hcallee
          obtain ⟨-, hargs⟩ := hargs
          refine .of_plain (List.forall_mem_cons.mpr ⟨ihcallee hcallee, fun a ha => ?_⟩) rfl
            (by simp)
          obtain ⟨w, hw⟩ := hargs.exists_of_mem ha
          exact ihargs a ha hw
  | seq p first rest ihfirst ihrest =>
      cases h with
      | seq _ hfirst hrest _ =>
          obtain ⟨-, hfirst⟩ := hfirst
          obtain ⟨-, hrest⟩ := hrest
          exact .of_plain (by simp [Term.children, ihfirst hfirst, ihrest hrest]) rfl (by simp)
  | const p name init rest ihinit ihrest =>
      cases h with
      | const _ _ hinit hrest _ =>
          obtain ⟨-, hinit⟩ := hinit
          obtain ⟨-, hrest⟩ := hrest
          exact .of_plain (by simp [Term.children, ihinit hinit, ihrest hrest]) rfl (by simp)
  | record p fields ihfields =>
      cases h with
      | record _ hfields hdistinct _ =>
          obtain ⟨-, hfields⟩ := hfields
          refine .of_children (fun c hc => ?_) (by simp [Term.declared]) fun p' fields' he => ?_
          · obtain ⟨f, hf, rfl⟩ := List.mem_map.mp hc
            obtain ⟨_, -, ⟨-, hw⟩⟩ := hfields.exists_of_mem hf
            exact ihfields f hf hw
          · cases he
            exact hdistinct
  | field p owner name ihowner =>
      cases h with
      | field _ howner _ _ =>
          obtain ⟨-, howner⟩ := howner
          exact .of_plain (by simp [Term.children, ihowner howner]) rfl (by simp)
  | letRec p name params result body rest ihbody ihrest =>
      cases h with
      | letRec _ _ hparams hresult hbody hrest _ =>
          obtain ⟨-, hparams⟩ := hparams
          obtain ⟨-, hresult⟩ := hresult
          obtain ⟨-, hbody⟩ := hbody
          obtain ⟨-, hrest⟩ := hrest
          refine .of_children (by simp [Term.children, ihbody hbody, ihrest hrest]) ?_ (by simp)
          refine List.forall_mem_append.mpr ⟨distinctFields_of_mem_types hparams, ?_⟩
          simpa using hresult.distinctFields

end Tree

end StructuralTypes
