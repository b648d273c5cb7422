import StructuralTypes.Proofs.Indistinct
import StructuralTypes.Proofs.Reader
import StructuralTypes.Tree.Write

/-!
Checking a term that has been read ends in a type or in a fault, never in a defect. Every type that
comes up on the way is guarded: the declared ones and those in scope are, and so is what the rules
make of guarded types or find in them. So a head always comes out, and a comparison always comes to
a verdict. A record never repeats a name, for it would not have been read.
-/

namespace StructuralTypes

open Ty

variable {P : Type}

theorem Scope.alike_self {R : Ty → Ty → Prop} {scope : Scope}
    (h : ∀ name u, scope.resolve name = some u → R u u) : Scope.Alike R scope scope := by
  intro name
  cases hname : scope.resolve name with
  | none => exact .none
  | some u => exact .some (h name u hname)

theorem Admissible.agreeOn_self {I : Ty → Prop} (hI : Admissible I) {t : Term P} {scope : Scope}
    (ht : ∀ u ∈ t.annotations, I u) (hscope : ∀ name u, scope.resolve name = some u → I u)
    (rule rule' : CallRule) :
    Runs.AgreeOn ⟨t, t, rule, rule', SameType I⟩ scope scope t t :=
  Runs.check_agree (indistinct_sameType hI) (.root t t)
    (Term.alike_self fun u hu => ⟨rfl, ht u hu⟩)
    (Scope.alike_self fun name u hu => ⟨rfl, hscope name u hu⟩)

/-- A check of admissible types ends in an admissible type, in a fault, or at a record that repeats
a name. -/
theorem Admissible.check_cases {I : Ty → Prop} (hI : Admissible I) {t : Term P} {scope : Scope}
    (ht : ∀ u ∈ t.annotations, I u) (hscope : ∀ name u, scope.resolve name = some u → I u)
    (rule : CallRule) :
    (∃ T, t.check rule scope = .ok T ∧ I T) ∨ (∃ f, t.check rule scope = .error (.fault f)) ∨
      ∃ p fields, .record p fields ∈ t.subterms ∧ ¬ (fields.map Prod.fst).Nodup := by
  rcases (hI.agreeOn_self ht hscope rule rule).of_same_rule rfl with
    ⟨T, _, hT, -, -, hIT⟩ | ⟨e, e', he, he', hsame⟩
  · exact .inl ⟨T, hT, hIT⟩
  · cases hsame with
    | @fault f => exact .inr (.inl ⟨f, he⟩)
    | @repeatedField p _ fields _ _ _ place _ _ hrepeated =>
        exact .inr (.inr ⟨p, fields, place.mem_left, hrepeated⟩)

def Cause.kinds : List String :=
  ["ConditionNotBoolean", "BranchTypeMismatch", "OperandNotNumber", "UnknownVariable",
    "NotAFunction", "ArgumentCountMismatch", "ArgumentTypeMismatch", "NotAnObject", "UnknownField",
    "ReturnTypeMismatch"]

theorem Cause.kind_mem_kinds (cause : Cause) : cause.kind ∈ Cause.kinds := by
  cases cause <;> simp [kind, kinds]

/-- Checking a term that has been read never ends in a defect, if the types it declares and those in
scope are closed and contractive. It gives a type of the same kind, or one of the ten faults. -/
theorem check_type_or_fault {tree : Json} {t : Term (Option Span)}
    (hread : Tree.readTerm tree = .ok t) (ht : ∀ u ∈ t.annotations, u.Closed ∧ u.Contractive)
    {scope : Scope}
    (hscope : ∀ name u, scope.resolve name = some u →
      u.Closed ∧ u.Contractive ∧ u.DistinctFields)
    (rule : CallRule) :
    (∃ T, t.check rule scope = .ok T ∧ T.Closed ∧ T.Contractive ∧ T.DistinctFields) ∨
      ∃ f, t.check rule scope = .error (.fault f) ∧ f.cause.kind ∈ Cause.kinds := by
  have hregular := Tree.regular_of_readTerm hread
  have hdeclared (u : Ty) (hu : u ∈ t.annotations) : u.Guarded :=
    guarded_iff.mpr ⟨(ht u hu).1, (ht u hu).2, hregular.types u hu⟩
  have hbound (name : String) (u : Ty) (hu : scope.resolve name = some u) : u.Guarded :=
    guarded_iff.mpr (hscope name u hu)
  rcases admissible_guarded.check_cases hdeclared hbound rule with
    ⟨T, hT, hguarded⟩ | ⟨f, hf⟩ | ⟨p, fields, hrecord, hrepeated⟩
  · exact .inl ⟨T, hT, guarded_iff.mp hguarded⟩
  · exact .inr ⟨f, hf, f.cause.kind_mem_kinds⟩
  · exact absurd (hregular.names p fields hrecord) hrepeated

/-- A stream of numbers from one in scope on, and the second of them. -/
theorem check_type_or_fault_stream :
    let stream := mu "S" (object [("num", number), ("rest", func [] (var "S"))])
    let start := mu "N" (object [("num", number), ("next", var "N")])
    let body : Term (Option Span) := .record none [("num", .ref none "n"),
      ("rest", .lambda none [] (.call none (.ref none "numbers")
        [.add none (.ref none "n") (.literal none (.int 1))]))]
    let rest : Term (Option Span) := .field none (.call none (.field none
      (.call none (.ref none "numbers") [.field none (.ref none "start") "num"]) "rest") []) "num"
    let t : Term (Option Span) := .letRec none "numbers" [("n", number)] stream body rest
    let scope : Scope := [("start", start)]
    Tree.readTerm t.toTree = .ok t ∧ (∀ u ∈ t.annotations, u.Closed ∧ u.Contractive) ∧
      (∀ name u, scope.resolve name = some u →
        u.Closed ∧ u.Contractive ∧ u.DistinctFields) ∧
      ((∃ T, t.check .exact scope = .ok T ∧ T.Closed ∧ T.Contractive ∧ T.DistinctFields) ∨
        ∃ f, t.check .exact scope = .error (.fault f) ∧ f.cause.kind ∈ Cause.kinds) := by
  intro stream start body rest t scope
  have hread : Tree.readTerm t.toTree = .ok t := rfl
  have ht : ∀ u ∈ t.annotations, u.Closed ∧ u.Contractive := by decide
  have hscope (name : String) (u : Ty) (hu : scope.resolve name = some u) :
      u.Closed ∧ u.Contractive ∧ u.DistinctFields := by
    obtain ⟨-, rfl⟩ : name = "start" ∧ u = start := by
      simpa [scope] using Row.mem_of_lookup hu
    decide
  exact ⟨hread, ht, hscope, check_type_or_fault hread ht hscope .exact⟩

end StructuralTypes
