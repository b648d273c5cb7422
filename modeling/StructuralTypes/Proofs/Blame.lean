import StructuralTypes.Term.Subterm
import StructuralTypes.Typing.Check

/-!
Blame is deserved. Where a check finds a fault, it has come to a node whose rule is broken in the
scope in force there, and the fault tells how: it names the rule, shows the types that break it, and
blames the node itself or the part of it that does not fit.

One step of a check goes from a node to one below it (`check_fault_cases`): a fault either belongs
to the node or was found below, in a scope that the node's own binders determine. Following the
steps down leads to the node that the fault belongs to.
-/

namespace StructuralTypes

variable {P : Type} {rule : CallRule} {scope : Scope}

theorem bind_eq_error_iff {α β ε : Type} {x : Except ε α} {f : α → Except ε β} {e : ε} :
    x >>= f = .error e ↔ x = .error e ∨ ∃ a, x = .ok a ∧ f a = .error e := by
  cases x with
  | error e' => simp [bind, Except.bind]
  | ok a => simp [bind, Except.bind]

namespace Term

/-! ### The scope in force -/

/-- The scope in which the node with number `i` below a term is checked. A constant is in scope with
the type of its value, so there is no such scope if the value has none. -/
def childScope (rule : CallRule) (scope : Scope) : Term P → Nat → Option Scope
  | lambda _ params _, _ => some (scope.extend params)
  | const _ name init _, 1 => (init.check rule scope).toOption.map (scope.bind name)
  | letRec _ name params result _ _, 0 =>
      some ((scope.extend params).bind name (.func params result))
  | letRec _ name params result _ _, _ => some (scope.bind name (.func params result))
  | _, _ => some scope

/-- The node at the end of a path, with the scope in force there: the one at the root and what the
binders on the way add to it. -/
def visit? (rule : CallRule) (scope : Scope) (t : Term P) : List Nat → Option (Scope × Term P)
  | [] => some (scope, t)
  | i :: path =>
      (t.childScope rule scope i).bind fun inner =>
        t.children[i]?.bind fun c => c.visit? rule inner path

theorem visit?_cons {t c : Term P} {i : Nat} {inner : Scope}
    (hscope : t.childScope rule scope i = some inner) (hc : t.children[i]? = some c)
    (path : List Nat) : t.visit? rule scope (i :: path) = c.visit? rule inner path := by
  rw [visit?, hscope, hc, Option.bind_some, Option.bind_some]

theorem visit?_append (t : Term P) (path path' : List Nat) :
    t.visit? rule scope (path ++ path') =
      (t.visit? rule scope path).bind fun v => v.2.visit? rule v.1 path' := by
  induction path generalizing t scope with
  | nil => rfl
  | cons i path ih =>
      rw [List.cons_append, visit?, visit?]
      cases t.childScope rule scope i with
      | none => rfl
      | some inner =>
          cases t.children[i]? with
          | none => rfl
          | some c => exact ih c

theorem subterm?_of_visit? {t s : Term P} {inner : Scope} {path : List Nat}
    (h : t.visit? rule scope path = some (inner, s)) : t.subterm? path = some s := by
  induction path generalizing t scope with
  | nil =>
      cases h
      rfl
  | cons i path ih =>
      obtain ⟨between, -, h⟩ := Option.bind_eq_some_iff.mp h
      obtain ⟨c, hc, h⟩ := Option.bind_eq_some_iff.mp h
      rw [subterm?, hc, Option.bind_some]
      exact ih h

/-! ### Broken rules -/

/-- The rule of a node is broken in a scope, and this is the fault that says so. -/
inductive Breaks (rule : CallRule) (scope : Scope) : Term P → Fault P → Prop
  /-- A condition whose type is not boolean. -/
  | condition {p : P} {test yes no : Term P} {found head : Ty}
      (hfound : test.check rule scope = .ok found) (hhead : found.head = .ok head)
      (h : head ≠ .boolean) :
      Breaks rule scope (.cond p test yes no) ⟨test, .conditionNotBoolean found⟩
  /-- Branches whose types differ. -/
  | branches {p : P} {test yes no : Term P} {yesType noType : Ty}
      (hyes : yes.check rule scope = .ok yesType) (hno : no.check rule scope = .ok noType)
      (h : yesType.equals noType = .ok false) :
      Breaks rule scope (.cond p test yes no)
        ⟨.cond p test yes no, .branchTypeMismatch yesType noType⟩
  /-- An operand whose type is not number. -/
  | operand {p : P} {left right operand : Term P} {found head : Ty}
      (place : operand = left ∨ operand = right) (hfound : operand.check rule scope = .ok found)
      (hhead : found.head = .ok head) (h : head ≠ .number) :
      Breaks rule scope (.add p left right) ⟨operand, .operandNotNumber found⟩
  /-- A name that is not in scope. -/
  | variable {p : P} {name : String} (h : scope.resolve name = none) :
      Breaks rule scope (.ref p name) ⟨.ref p name, .unknownVariable name⟩
  /-- A callee whose type is not that of a function. -/
  | callee {p : P} {callee : Term P} {args : List (Term P)} {found head : Ty}
      (hfound : callee.check rule scope = .ok found) (hhead : found.head = .ok head)
      (h : ∀ params result, head ≠ .func params result) :
      Breaks rule scope (.call p callee args) ⟨callee, .notAFunction head⟩
  /-- More arguments than parameters, or fewer. -/
  | arity {p : P} {callee : Term P} {args : List (Term P)} {found result : Ty} {params : Row}
      (hfound : callee.check rule scope = .ok found)
      (hhead : found.head = .ok (.func params result)) (h : params.length ≠ args.length) :
      Breaks rule scope (.call p callee args)
        ⟨.call p callee args, .argumentCountMismatch params.length args.length⟩
  /-- An argument whose type does not fit that of its parameter. -/
  | argument {p : P} {callee arg : Term P} {args : List (Term P)} {calleeType result : Ty}
      {params : Row} {i : Nat} {name : String} {needed found : Ty}
      (hcallee : callee.check rule scope = .ok calleeType)
      (hhead : calleeType.head = .ok (.func params result)) (harg : args[i]? = some arg)
      (hparam : params[i]? = some (name, needed)) (hfound : arg.check rule scope = .ok found)
      (h : rule.fits found needed = .ok false) :
      Breaks rule scope (.call p callee args) ⟨arg, .argumentTypeMismatch name needed found⟩
  /-- A field of what is not an object. -/
  | owner {p : P} {owner : Term P} {name : String} {found head : Ty}
      (hfound : owner.check rule scope = .ok found) (hhead : found.head = .ok head)
      (h : ∀ fields, head ≠ .object fields) :
      Breaks rule scope (.field p owner name) ⟨owner, .notAnObject head name⟩
  /-- A field that the object does not have. -/
  | field {p : P} {owner : Term P} {name : String} {found : Ty} {fields : Row}
      (hfound : owner.check rule scope = .ok found) (hhead : found.head = .ok (.object fields))
      (h : fields.lookup name = none) :
      Breaks rule scope (.field p owner name)
        ⟨.field p owner name, .unknownField (.object fields) name⟩
  /-- A body whose type is not the declared result. -/
  | result {p : P} {name : String} {params : Row} {result found : Ty} {body rest : Term P}
      (hfound : body.check rule ((scope.extend params).bind name (.func params result)) =
        .ok found)
      (h : result.equals found = .ok false) :
      Breaks rule scope (.letRec p name params result body rest)
        ⟨.letRec p name params result body rest, .returnTypeMismatch name result found⟩

/-- What is blamed is the node or stands right below it, in the same scope. -/
theorem Breaks.exists_place {node : Term P} {f : Fault P} (h : Breaks rule scope node f) :
    ∃ place, node.visit? rule scope place = some (scope, f.term) := by
  cases h with
  | condition => exact ⟨[0], rfl⟩
  | operand place =>
      rcases place with rfl | rfl
      · exact ⟨[0], rfl⟩
      · exact ⟨[1], rfl⟩
  | callee => exact ⟨[0], rfl⟩
  | @argument _ _ _ _ _ _ _ i _ _ _ _ _ harg => exact ⟨[i + 1], visit?_cons rfl harg []⟩
  | owner => exact ⟨[0], rfl⟩
  | _ => exact ⟨[], rfl⟩

/-! ### One step down -/

/-- Where a fault comes from: the node's own rule is broken, or a node right below was found at
fault in the scope in force there. -/
inductive Traced (rule : CallRule) (scope : Scope) (t : Term P) (f : Fault P) : Prop
  | here (h : Breaks rule scope t f)
  | below (i : Nat) {inner : Scope} {c : Term P} (hscope : t.childScope rule scope i = some inner)
      (hc : t.children[i]? = some c) (h : c.check rule inner = .error (.fault f))

theorem eq_of_blame {α : Type} {t : Term P} {cause : Cause} {f : Fault P}
    (h : (blame t cause : Except (Failure P) α) = .error (.fault f)) : f = ⟨t, cause⟩ := by
  cases h
  rfl

/-- A defect is no fault. -/
theorem of_liftDefect_bind {α β : Type} {x : Except Defect α} {k : α → Except (Failure P) β}
    {f : Fault P} (h : liftDefect x >>= k = .error (.fault f)) :
    ∃ a, x = .ok a ∧ k a = .error (.fault f) := by
  cases x with
  | error d => cases h
  | ok a => exact ⟨a, rfl, h⟩

section Steps

variable {p : P} {f : Fault P}

theorem cond_fault_cases {test yes no : Term P}
    (h : (cond p test yes no).check rule scope = .error (.fault f)) :
    Traced rule scope (cond p test yes no) f := by
  rw [check] at h
  rcases bind_eq_error_iff.mp h with htest | ⟨testType, htest, h⟩
  · exact .below 0 rfl rfl htest
  obtain ⟨head, hhead, h⟩ := of_liftDefect_bind h
  split at h
  · rcases bind_eq_error_iff.mp h with hyes | ⟨yesType, hyes, h⟩
    · exact .below 1 rfl rfl hyes
    rcases bind_eq_error_iff.mp h with hno | ⟨noType, hno, h⟩
    · exact .below 2 rfl rfl hno
    obtain ⟨r, hr, h⟩ := of_liftDefect_bind h
    cases r with
    | true => cases h
    | false =>
        obtain rfl := eq_of_blame h
        exact .here (.branches hyes hno hr)
  · next hne =>
      obtain rfl := eq_of_blame h
      exact .here (.condition htest hhead hne)

theorem add_fault_cases {left right : Term P}
    (h : (add p left right).check rule scope = .error (.fault f)) :
    Traced rule scope (add p left right) f := by
  rw [check] at h
  rcases bind_eq_error_iff.mp h with hleft | ⟨leftType, hleft, h⟩
  · exact .below 0 rfl rfl hleft
  obtain ⟨head, hhead, h⟩ := of_liftDefect_bind h
  split at h
  · rcases bind_eq_error_iff.mp h with hright | ⟨rightType, hright, h⟩
    · exact .below 1 rfl rfl hright
    obtain ⟨head', hhead', h⟩ := of_liftDefect_bind h
    split at h
    · cases h
    · next hne =>
        obtain rfl := eq_of_blame h
        exact .here (.operand (.inr rfl) hright hhead' hne)
  · next hne =>
      obtain rfl := eq_of_blame h
      exact .here (.operand (.inl rfl) hleft hhead hne)

/-- A fault among arguments is found in one of them, or one of them does not fit its parameter. -/
theorem checkArgs_fault_cases {args : List (Term P)} {params : Row}
    (h : checkArgs rule scope args params = .error (.fault f)) :
    ∃ (i : Nat) (arg : Term P), args[i]? = some arg ∧ (arg.check rule scope = .error (.fault f) ∨
      ∃ name needed found, params[i]? = some (name, needed) ∧ arg.check rule scope = .ok found ∧
        rule.fits found needed = .ok false ∧
        f = ⟨arg, .argumentTypeMismatch name needed found⟩) := by
  induction args generalizing params with
  | nil => cases h
  | cons arg args ih =>
      cases params with
      | nil => cases h
      | cons param params =>
          obtain ⟨name, needed⟩ := param
          rw [checkArgs] at h
          rcases bind_eq_error_iff.mp h with harg | ⟨found, hfound, h⟩
          · exact ⟨0, arg, rfl, .inl harg⟩
          obtain ⟨r, hr, h⟩ := of_liftDefect_bind h
          cases r with
          | true =>
              obtain ⟨i, later, hlater, hcases⟩ := ih h
              exact ⟨i + 1, later, hlater, hcases⟩
          | false => exact ⟨0, arg, rfl, .inr ⟨name, needed, found, rfl, hfound, hr, eq_of_blame h⟩⟩

theorem call_fault_cases {callee : Term P} {args : List (Term P)}
    (h : (call p callee args).check rule scope = .error (.fault f)) :
    Traced rule scope (call p callee args) f := by
  rw [check] at h
  rcases bind_eq_error_iff.mp h with hcallee | ⟨calleeType, hcallee, h⟩
  · exact .below 0 rfl rfl hcallee
  obtain ⟨head, hhead, h⟩ := of_liftDefect_bind h
  split at h
  · split at h
    · rcases bind_eq_error_iff.mp h with h | ⟨-, -, h⟩
      · obtain ⟨i, arg, harg, hbelow | ⟨name, needed, found, hparam, hfound, hfits, rfl⟩⟩ :=
          checkArgs_fault_cases h
        · exact .below (i + 1) rfl harg hbelow
        · exact .here (.argument hcallee hhead harg hparam hfound hfits)
      · cases h
    · next hlength =>
        obtain rfl := eq_of_blame h
        exact .here (.arity hcallee hhead hlength)
  · next hne =>
      obtain rfl := eq_of_blame h
      exact .here (.callee hcallee hhead hne)

theorem checkFields_fault {fields : List (String × Term P)}
    (h : checkFields rule scope fields = .error (.fault f)) :
    ∃ (i : Nat) (c : Term P), (fields.map Prod.snd)[i]? = some c ∧
      c.check rule scope = .error (.fault f) := by
  induction fields with
  | nil => cases h
  | cons field fields ih =>
      rw [checkFields] at h
      rcases bind_eq_error_iff.mp h with hfield | ⟨type, -, h⟩
      · exact ⟨0, field.2, rfl, hfield⟩
      rcases bind_eq_error_iff.mp h with hfields | ⟨row, -, h⟩
      · obtain ⟨i, c, hc, hcheck⟩ := ih hfields
        exact ⟨i + 1, c, hc, hcheck⟩
      · cases h

theorem field_fault_cases {owner : Term P} {name : String}
    (h : (field p owner name).check rule scope = .error (.fault f)) :
    Traced rule scope (field p owner name) f := by
  rw [check] at h
  rcases bind_eq_error_iff.mp h with howner | ⟨ownerType, howner, h⟩
  · exact .below 0 rfl rfl howner
  obtain ⟨head, hhead, h⟩ := of_liftDefect_bind h
  split at h
  · split at h
    · cases h
    · next hnone =>
        obtain rfl := eq_of_blame h
        exact .here (.field howner hhead hnone)
  · next hne =>
      obtain rfl := eq_of_blame h
      exact .here (.owner howner hhead hne)

theorem letRec_fault_cases {name : String} {params : Row} {result : Ty} {body rest : Term P}
    (h : (letRec p name params result body rest).check rule scope = .error (.fault f)) :
    Traced rule scope (letRec p name params result body rest) f := by
  rw [check] at h
  rcases bind_eq_error_iff.mp h with hbody | ⟨bodyType, hbody, h⟩
  · exact .below 0 rfl rfl hbody
  obtain ⟨r, hr, h⟩ := of_liftDefect_bind h
  cases r with
  | true => exact .below 1 rfl rfl h
  | false =>
      obtain rfl := eq_of_blame h
      exact .here (.result hbody hr)

/-- A fault belongs to the node, or was found in a node right below it. -/
theorem check_fault_cases {t : Term P} (h : t.check rule scope = .error (.fault f)) :
    Traced rule scope t f := by
  cases t with
  | literal p value => cases h
  | cond p test yes no => exact cond_fault_cases h
  | add p left right => exact add_fault_cases h
  | ref p name =>
      rw [check] at h
      split at h
      · cases h
      · next hname =>
          obtain rfl := eq_of_blame h
          exact .here (.variable hname)
  | lambda p params body =>
      rw [check] at h
      rcases bind_eq_error_iff.mp h with hbody | ⟨result, -, h⟩
      · exact .below 0 rfl rfl hbody
      · cases h
  | call p callee args => exact call_fault_cases h
  | seq p first rest =>
      rw [check] at h
      rcases bind_eq_error_iff.mp h with hfirst | ⟨type, -, hrest⟩
      · exact .below 0 rfl rfl hfirst
      · exact .below 1 rfl rfl hrest
  | const p name init rest =>
      rw [check] at h
      rcases bind_eq_error_iff.mp h with hinit | ⟨type, hinit, hrest⟩
      · exact .below 0 rfl rfl hinit
      · -- The rest is checked with the type that the value has turned out to have.
        have hscope : (const p name init rest).childScope rule scope 1 =
            some (scope.bind name type) := by
          rw [childScope, hinit]
          rfl
        exact .below 1 hscope rfl hrest
  | record p fields =>
      rw [check] at h
      rcases bind_eq_error_iff.mp h with hfields | ⟨row, -, h⟩
      · obtain ⟨i, c, hc, hcheck⟩ := checkFields_fault hfields
        exact .below i rfl hc hcheck
      · rw [Ty.mkObject] at h
        split at h
        · cases h
        · cases h
  | field p owner name => exact field_fault_cases h
  | letRec p name params result body rest => exact letRec_fault_cases h

end Steps

/-! ### All the way down -/

/-- A fault belongs to some node, in the scope in force there. -/
theorem exists_breaks_of_fault {t : Term P} {f : Fault P}
    (h : t.check rule scope = .error (.fault f)) :
    ∃ path inner node, t.visit? rule scope path = some (inner, node) ∧
      Breaks rule inner node f := by
  induction t using ind_children generalizing scope with
  | h t ih =>
      cases check_fault_cases h with
      | here hbreaks => exact ⟨[], scope, t, rfl, hbreaks⟩
      | @below i inner c hscope hc hcheck =>
          obtain ⟨path, inner', node, hvisit, hbreaks⟩ := ih c (List.mem_of_getElem? hc) hcheck
          exact ⟨i :: path, inner', node, (visit?_cons hscope hc path).trans hvisit, hbreaks⟩

theorem Breaks.exists_visit? {t node : Term P} {path : List Nat} {inner : Scope} {f : Fault P}
    (h : Breaks rule inner node f) (hvisit : t.visit? rule scope path = some (inner, node)) :
    ∃ place, t.visit? rule scope (path ++ place) = some (inner, f.term) := by
  obtain ⟨place, hplace⟩ := h.exists_place
  refine ⟨place, ?_⟩
  rw [visit?_append, hvisit, Option.bind_some, hplace]

/-- The term at fault stands in the term that is checked. -/
theorem exists_subterm?_of_fault {t : Term P} {f : Fault P}
    (h : t.check rule scope = .error (.fault f)) : ∃ path, t.subterm? path = some f.term := by
  obtain ⟨path, inner, node, hvisit, hbreaks⟩ := exists_breaks_of_fault h
  obtain ⟨place, hplace⟩ := hbreaks.exists_visit? hvisit
  exact ⟨path ++ place, subterm?_of_visit? hplace⟩

/-- Every fault is deserved: some node of the term, visited in the scope in force there, breaks the
rule that the fault names, and the term it blames is this node or stands right below it. -/
theorem check_fault_breaks_rule {t : Term P} {f : Fault P}
    (h : t.check rule scope = .error (.fault f)) :
    ∃ path place inner node, t.visit? rule scope path = some (inner, node) ∧
      Breaks rule inner node f ∧ t.visit? rule scope (path ++ place) = some (inner, f.term) ∧
      t.subterm? (path ++ place) = some f.term := by
  obtain ⟨path, inner, node, hvisit, hbreaks⟩ := exists_breaks_of_fault h
  obtain ⟨place, hplace⟩ := hbreaks.exists_visit? hvisit
  exact ⟨path, place, inner, node, hvisit, hbreaks, hplace, subterm?_of_visit? hplace⟩

/-- A parameter hides a constant, and the function's own name hides a parameter; so the right
operand is the function itself. -/
theorem check_fault_breaks_rule_hidden :
    let params : Row := [("x", .number), ("f", .number)]
    let t : Term Unit := .const () "x" (.literal () (.bool true))
      (.letRec () "f" params .number (.add () (.ref () "x") (.ref () "f")) (.ref () "x"))
    let f : Fault Unit := ⟨.ref () "f", .operandNotNumber (.func params .number)⟩
    t.check .subtyping .empty = .error (.fault f) ∧
      ∃ path place inner node, t.visit? .subtyping .empty path = some (inner, node) ∧
        Breaks .subtyping inner node f ∧
        t.visit? .subtyping .empty (path ++ place) = some (inner, f.term) ∧
        t.subterm? (path ++ place) = some f.term := by
  intro params t f
  have h : t.check .subtyping .empty = .error (.fault f) := rfl
  exact ⟨h, check_fault_breaks_rule h⟩

end Term

end StructuralTypes
