import StructuralTypes.Typing.Check

/-!
A check depends on its scope only through the free names of the term. The parameters of a function
are bound in its body, the name of a constant in what follows it but not in its value, and the name
of a recursive function in its body, where it hides a parameter, and in what follows. Scopes that
agree on the free names cannot be told apart by a check, however they were put together: it gives
the same type, the same fault or the same defect.
-/

namespace StructuralTypes

/-! ### Free names -/

namespace Term

variable {P : Type}

mutual

def freeNames : Term P → List String
  | literal .. => []
  | cond _ test yes no => freeNames test ++ (freeNames yes ++ freeNames no)
  | add _ left right => freeNames left ++ freeNames right
  | ref _ name => [name]
  | lambda _ params body => (freeNames body).filter (· ∉ Row.labels params)
  | call _ callee args => freeNames callee ++ freeNamesArgs args
  | seq _ first rest => freeNames first ++ freeNames rest
  | const _ name init rest => freeNames init ++ (freeNames rest).filter (· ≠ name)
  | record _ fields => freeNamesFields fields
  | field _ owner _ => freeNames owner
  | letRec _ name params _ body rest =>
      ((freeNames body).filter (· ≠ name)).filter (· ∉ Row.labels params) ++
        (freeNames rest).filter (· ≠ name)

def freeNamesArgs : List (Term P) → List String
  | [] => []
  | t :: args => freeNames t ++ freeNamesArgs args

def freeNamesFields : List (String × Term P) → List String
  | [] => []
  | (_, t) :: fields => freeNames t ++ freeNamesFields fields

end

@[simp] theorem mem_freeNamesArgs {x : String} {args : List (Term P)} :
    x ∈ freeNamesArgs args ↔ ∃ t ∈ args, x ∈ t.freeNames := by
  induction args with
  | nil => simp [freeNamesArgs]
  | cons t args ih => simp [freeNamesArgs, ih]

@[simp] theorem mem_freeNamesFields {x : String} {fields : List (String × Term P)} :
    x ∈ freeNamesFields fields ↔ ∃ f ∈ fields, x ∈ f.2.freeNames := by
  induction fields with
  | nil => simp [freeNamesFields]
  | cons f fields ih => simp [freeNamesFields, ih]

end Term

/-! ### Scopes that agree -/

namespace Scope

/-- The scopes give the same types to the names, or none to a name. -/
def SameOn (names : List String) (scope scope' : Scope) : Prop :=
  ∀ x ∈ names, scope.resolve x = scope'.resolve x

variable {names more : List String} {scope scope' : Scope}

theorem sameOn_append :
    SameOn (names ++ more) scope scope' ↔
      SameOn names scope scope' ∧ SameOn more scope scope' :=
  List.forall_mem_append

/-- A name that is bound next need not agree before. -/
theorem SameOn.bind {name : String} (h : SameOn (names.filter (· ≠ name)) scope scope') (t : Ty) :
    SameOn names (scope.bind name t) (scope'.bind name t) := by
  intro x hx
  rw [resolve_bind, resolve_bind]
  by_cases hname : x = name
  · rw [if_pos hname, if_pos hname]
  · rw [if_neg hname, if_neg hname]
    exact h x (List.mem_filter.mpr ⟨hx, decide_eq_true hname⟩)

theorem SameOn.extend {pairs : Row} (h : SameOn (names.filter (· ∉ pairs.labels)) scope scope') :
    SameOn names (scope.extend pairs) (scope'.extend pairs) := by
  intro x hx
  rw [resolve_extend, resolve_extend]
  cases hlookup : pairs.reverse.lookup x with
  | some t => rfl
  | none =>
      have hnot : x ∉ pairs.labels := by
        intro hmem
        obtain ⟨p, hp, rfl⟩ := List.mem_map.mp hmem
        have hne := List.lookup_eq_none_iff.mp hlookup p (List.mem_reverse.mpr hp)
        simp at hne
      exact h x (List.mem_filter.mpr ⟨hx, decide_eq_true hnot⟩)

end Scope

/-! ### Checks that agree -/

namespace Term

variable {P : Type} {rule : CallRule} {scope scope' : Scope}

theorem checkArgs_congr {args : List (Term P)}
    (h : ∀ a ∈ args, a.check rule scope = a.check rule scope') (params : Row) :
    checkArgs rule scope args params = checkArgs rule scope' args params := by
  induction args generalizing params with
  | nil => rfl
  | cons arg args ih =>
      cases params with
      | nil => rfl
      | cons param params =>
          obtain ⟨harg, hargs⟩ := List.forall_mem_cons.mp h
          rw [checkArgs, checkArgs, harg]
          simp only [ih hargs params]

theorem checkFields_congr {fields : List (String × Term P)}
    (h : ∀ f ∈ fields, f.2.check rule scope = f.2.check rule scope') :
    checkFields rule scope fields = checkFields rule scope' fields := by
  induction fields with
  | nil => rfl
  | cons field fields ih =>
      obtain ⟨hfield, hfields⟩ := List.forall_mem_cons.mp h
      rw [checkFields, checkFields, hfield, ih hfields]

/-- A check depends only on what the scope says of the names that are free in the term. -/
theorem check_eq_of_sameOn_freeNames {t : Term P} (rule : CallRule)
    (h : Scope.SameOn t.freeNames scope scope') : t.check rule scope = t.check rule scope' := by
  -- By induction on the term; under a binder the scopes agree on more names than around it.
  induction t generalizing scope scope' with
  | literal tag value => rfl
  | cond tag test yes no htest hyes hno =>
      simp only [freeNames, Scope.sameOn_append] at h
      rw [check, check, htest h.1, hyes h.2.1, hno h.2.2]
  | add tag left right hleft hright =>
      simp only [freeNames, Scope.sameOn_append] at h
      rw [check, check, hleft h.1, hright h.2]
  | ref tag name => rw [check, check, h name List.mem_cons_self]
  | lambda tag params body hbody =>
      rw [freeNames] at h
      rw [check, check, hbody h.extend]
  | call tag callee args hcallee hargs =>
      simp only [freeNames, Scope.sameOn_append] at h
      have hchecks : ∀ a ∈ args, a.check rule scope = a.check rule scope' :=
        fun a ha => hargs a ha fun x hx => h.2 x (mem_freeNamesArgs.mpr ⟨a, ha, hx⟩)
      rw [check, check, hcallee h.1]
      simp only [checkArgs_congr hchecks]
  | seq tag first rest hfirst hrest =>
      simp only [freeNames, Scope.sameOn_append] at h
      rw [check, check, hfirst h.1, hrest h.2]
  | const tag name init rest hinit hrest =>
      simp only [freeNames, Scope.sameOn_append] at h
      rw [check, check, hinit h.1]
      exact bind_congr fun type => hrest (h.2.bind type)
  | record tag fields hfields =>
      rw [freeNames] at h
      have hchecks : ∀ f ∈ fields, f.2.check rule scope = f.2.check rule scope' :=
        fun f hf => hfields f hf fun x hx => h x (mem_freeNamesFields.mpr ⟨f, hf, hx⟩)
      rw [check, check, checkFields_congr hchecks]
  | field tag owner name howner =>
      rw [freeNames] at h
      rw [check, check, howner h]
  | letRec tag name params result body rest hbody hrest =>
      simp only [freeNames, Scope.sameOn_append] at h
      rw [check, check, hbody (h.1.extend.bind (.func params result)),
        hrest (h.2.bind (.func params result))]

/-- Only `y` is free. A constant and then a function take the name `x`, the function has parameters
`y` and `x` of its own, and the scopes differ in `x` and `z` and in how they give `y` its type. -/
theorem check_eq_of_sameOn_freeNames_reused :
    let body : Term Unit := .call () (.ref () "x") [.ref () "y", .literal () (.bool true)]
    let rest : Term Unit :=
      .call () (.lambda () [("z", .number)] (.add () (.ref () "z") (.ref () "y"))) [.ref () "y"]
    let t : Term Unit := .const () "x" (.ref () "y")
      (.letRec () "x" [("y", .number), ("x", .boolean)] .number body rest)
    let scope : Scope :=
      ((Scope.empty.bind "x" .boolean).extend [("y", .boolean), ("y", .number)]).bind "z" .boolean
    let scope' : Scope := Scope.empty.bind "y" .number
    Scope.SameOn t.freeNames scope scope' ∧ t.check .exact scope = t.check .exact scope' ∧
      t.check .exact scope = .ok .number := by
  intro body rest t scope scope'
  have hnames : t.freeNames = ["y", "y", "y"] := rfl
  have h : Scope.SameOn t.freeNames scope scope' := by
    intro x hx
    obtain rfl : x = "y" := by simpa [hnames] using hx
    rfl
  exact ⟨h, check_eq_of_sameOn_freeNames .exact h, rfl⟩

end Term

end StructuralTypes
