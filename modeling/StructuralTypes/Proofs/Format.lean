import Mathlib.Data.List.Forall2
import StructuralTypes.Tree.ReadTerm

/-!
The format of trees. A value represents a type or a term if it is an object with one of the known
tags and holds, under the names that go with the tag, what represents the parts; whatever else it
holds does not count. The rules say nothing about the order in which a reader looks, nor about what
it says when it fails. What the readers of names, numbers, positions, members and lists accept is
told in these terms here.
-/

namespace StructuralTypes.Tree

/-! ### The format -/

abbrev Holds (members : Members) (key : String) (v : Json) : Prop := members.lookup key = some v

section

variable {α : Type} (R : Json → α → Prop)

/-- What a node holds under a name represents `a`. -/
inductive Under : Json → String → α → Prop
  | intro {members : Members} {key : String} {v : Json} {a : α} (holds : Holds members key v)
      (value : R v a) : Under (.obj members) key a

/-- The items of a list represent the members of another, in order. -/
inductive Listed : Json → List α → Prop
  | intro {items : List Json} {l : List α} (h : List.Forall₂ R items l) : Listed (.arr items) l

/-- A node holds a name and, under `key`, what the name stands for. -/
inductive Labelled (key : String) : Json → String × α → Prop
  | intro {members : Members} {p : String × α} (name : Holds members "name" (.str p.1))
      (value : Under R (.obj members) key p.2) : Labelled key (.obj members) p

end

inductive RepresentsType : Json → Ty → Prop
  | boolean {members : Members} (htag : Holds members "tag" (.str "Boolean")) :
      RepresentsType (.obj members) .boolean
  | number {members : Members} (htag : Holds members "tag" (.str "Number")) :
      RepresentsType (.obj members) .number
  | func {members : Members} {params : Row} {result : Ty}
      (htag : Holds members "tag" (.str "Func"))
      (hparams : Under (Listed (Labelled RepresentsType "type")) (.obj members) "params" params)
      (hresult : Under RepresentsType (.obj members) "retType" result) :
      RepresentsType (.obj members) (.func params result)
  | object {members : Members} {fields : Row} (htag : Holds members "tag" (.str "Object"))
      (hfields : Under (Listed (Labelled RepresentsType "type")) (.obj members) "props" fields)
      (hdistinct : fields.labels.Nodup) : RepresentsType (.obj members) (.object fields)
  | mu {members : Members} {x : String} {body : Ty} (htag : Holds members "tag" (.str "Rec"))
      (hname : Holds members "name" (.str x))
      (hbody : Under RepresentsType (.obj members) "type" body) :
      RepresentsType (.obj members) (.mu x body)
  | var {members : Members} {x : String} (htag : Holds members "tag" (.str "TypeVar"))
      (hname : Holds members "name" (.str x)) : RepresentsType (.obj members) (.var x)

abbrev RepresentsRow : Json → Row → Prop := Listed (Labelled RepresentsType "type")

/-- A place has a line and a column, which may be anything. -/
inductive RepresentsPosition : Json → Position → Prop
  | intro {members : Members} {p : Position} (hline : Holds members "line" p.line)
      (hcolumn : Holds members "column" p.column) : RepresentsPosition (.obj members) p

inductive RepresentsSpan (members : Members) : Option Span → Prop
  | absent (h : members.lookup "loc" = none) : RepresentsSpan members none
  | null (h : Holds members "loc" .null) : RepresentsSpan members none
  | span {loc : Json} {s : Span} (h : Holds members "loc" loc)
      (hstart : Under RepresentsPosition loc "start" s.start)
      (hstop : Under RepresentsPosition loc "end" s.stop) : RepresentsSpan members (some s)

/-- Truth values are no numbers. -/
inductive RepresentsNumber : Json → Literal → Prop
  | int (n : Int) : RepresentsNumber (.int n) (.int n)
  | float (x : Float) : RepresentsNumber (.float x) (.float x)

inductive RepresentsTerm : Json → Term (Option Span) → Prop
  | yes {members : Members} {p : Option Span} (htag : Holds members "tag" (.str "true"))
      (hspan : RepresentsSpan members p) : RepresentsTerm (.obj members) (.literal p (.bool true))
  | no {members : Members} {p : Option Span} (htag : Holds members "tag" (.str "false"))
      (hspan : RepresentsSpan members p) : RepresentsTerm (.obj members) (.literal p (.bool false))
  | number {members : Members} {n : Literal} {p : Option Span}
      (htag : Holds members "tag" (.str "number"))
      (hn : Under RepresentsNumber (.obj members) "n" n) (hspan : RepresentsSpan members p) :
      RepresentsTerm (.obj members) (.literal p n)
  | cond {members : Members} {test yes no : Term (Option Span)} {p : Option Span}
      (htag : Holds members "tag" (.str "if"))
      (htest : Under RepresentsTerm (.obj members) "cond" test)
      (hyes : Under RepresentsTerm (.obj members) "thn" yes)
      (hno : Under RepresentsTerm (.obj members) "els" no) (hspan : RepresentsSpan members p) :
      RepresentsTerm (.obj members) (.cond p test yes no)
  | add {members : Members} {left right : Term (Option Span)} {p : Option Span}
      (htag : Holds members "tag" (.str "add"))
      (hleft : Under RepresentsTerm (.obj members) "left" left)
      (hright : Under RepresentsTerm (.obj members) "right" right)
      (hspan : RepresentsSpan members p) : RepresentsTerm (.obj members) (.add p left right)
  | ref {members : Members} {name : String} {p : Option Span}
      (htag : Holds members "tag" (.str "var")) (hname : Holds members "name" (.str name))
      (hspan : RepresentsSpan members p) : RepresentsTerm (.obj members) (.ref p name)
  | lambda {members : Members} {params : Row} {body : Term (Option Span)} {p : Option Span}
      (htag : Holds members "tag" (.str "func"))
      (hparams : Under RepresentsRow (.obj members) "params" params)
      (hbody : Under RepresentsTerm (.obj members) "body" body)
      (hspan : RepresentsSpan members p) : RepresentsTerm (.obj members) (.lambda p params body)
  | call {members : Members} {callee : Term (Option Span)} {args : List (Term (Option Span))}
      {p : Option Span} (htag : Holds members "tag" (.str "call"))
      (hcallee : Under RepresentsTerm (.obj members) "func" callee)
      (hargs : Under (Listed RepresentsTerm) (.obj members) "args" args)
      (hspan : RepresentsSpan members p) : RepresentsTerm (.obj members) (.call p callee args)
  | seq {members : Members} {first rest : Term (Option Span)} {p : Option Span}
      (htag : Holds members "tag" (.str "seq"))
      (hfirst : Under RepresentsTerm (.obj members) "body" first)
      (hrest : Under RepresentsTerm (.obj members) "rest" rest) (hspan : RepresentsSpan members p) :
      RepresentsTerm (.obj members) (.seq p first rest)
  | const {members : Members} {name : String} {init rest : Term (Option Span)} {p : Option Span}
      (htag : Holds members "tag" (.str "const")) (hname : Holds members "name" (.str name))
      (hinit : Under RepresentsTerm (.obj members) "init" init)
      (hrest : Under RepresentsTerm (.obj members) "rest" rest) (hspan : RepresentsSpan members p) :
      RepresentsTerm (.obj members) (.const p name init rest)
  | record {members : Members} {fields : List (String × Term (Option Span))} {p : Option Span}
      (htag : Holds members "tag" (.str "objectNew"))
      (hfields : Under (Listed (Labelled RepresentsTerm "term")) (.obj members) "props" fields)
      (hdistinct : (fields.map Prod.fst).Nodup) (hspan : RepresentsSpan members p) :
      RepresentsTerm (.obj members) (.record p fields)
  | field {members : Members} {owner : Term (Option Span)} {name : String} {p : Option Span}
      (htag : Holds members "tag" (.str "objectGet"))
      (howner : Under RepresentsTerm (.obj members) "obj" owner)
      (hname : Holds members "propName" (.str name)) (hspan : RepresentsSpan members p) :
      RepresentsTerm (.obj members) (.field p owner name)
  | letRec {members : Members} {name : String} {params : Row} {result : Ty}
      {body rest : Term (Option Span)} {p : Option Span}
      (htag : Holds members "tag" (.str "recFunc")) (hname : Holds members "funcName" (.str name))
      (hparams : Under RepresentsRow (.obj members) "params" params)
      (hresult : Under RepresentsType (.obj members) "retType" result)
      (hbody : Under RepresentsTerm (.obj members) "body" body)
      (hrest : Under RepresentsTerm (.obj members) "rest" rest) (hspan : RepresentsSpan members p) :
      RepresentsTerm (.obj members) (.letRec p name params result body rest)

/-! ### What readers of parts accept -/

theorem mem_of_lookup {α : Type} {table : List (String × α)} {key : String} {a : α}
    (h : table.lookup key = some a) : (key, a) ∈ table := by
  obtain ⟨before, after, rfl, -⟩ := List.lookup_eq_some_iff.mp h
  simp

theorem subscript_obj_eq_ok_iff {members : Members} {key : String} {v : Json} :
    subscript key (.obj members) = .ok v ↔ Holds members key v := by
  rw [subscript, Holds]
  cases members.lookup key with
  | none => simp
  | some v => simp

/-- Induction on values along what a reader reaches from them. -/
@[elab_as_elim]
theorem subscript_ind {motive : Json → Prop}
    (node : ∀ v, (∀ key w, subscript key v = .ok w → motive w) →
      (∀ items, v = .arr items → ∀ w ∈ items, motive w) → motive v) (v : Json) : motive v := by
  induction v with
  | arr items ih =>
      refine node _ (fun key w h => by cases h) fun items' h => ?_
      cases h
      exact ih
  | obj members ih =>
      refine node _ (fun key w h => ?_) fun items h => by cases h
      exact ih (key, w) (mem_of_lookup (subscript_obj_eq_ok_iff.mp h))
  | _ => exact node _ (fun key w h => by cases h) fun items h => by cases h

section Access

variable {α : Type} {node v : Json} {key : String} {members : Members}

theorem complain_ne_ok (node : Json) (why : Json → Malformed) (a : α) :
    complain node why ≠ .ok a := by
  intro h
  obtain ⟨tag, -, h⟩ := bind_eq_ok_iff.mp h
  cases h

theorem explain_eq_ok_iff {why : Malformed} {x : Except Slip α} {a : α} :
    explain why x = .ok a ↔ x = .ok a := by
  cases x with
  | ok b => simp [explain]
  | error slip => cases slip <;> simp [explain]

theorem rescue_eq_ok_iff {x : Except Slip α} {a : α} : rescue node key x = .ok a ↔ x = .ok a := by
  cases x with
  | ok b => simp [rescue, explain]
  | error slip => cases slip <;> simp [rescue, explain, complain_ne_ok]

theorem member_eq_ok_iff : member node key = .ok v ↔ subscript key node = .ok v :=
  rescue_eq_ok_iff

theorem lookUp_eq_ok_iff {table : List (String × α)} {tag : Json} {a : α} :
    lookUp table tag = .ok a ↔ ∃ name, tag = .str name ∧ table.lookup name = some a := by
  cases tag with
  | str name =>
      rw [lookUp]
      cases h : table.lookup name with
      | none => simp [h]
      | some b => simp [h]
  | _ => simp [lookUp]

/-- Only the tag of a node is looked up, and the table has an entry for it. -/
theorem dispatch_eq_ok_iff {family : Family} {table : List (String × α)} {a : α} :
    dispatch family table node = .ok a ↔
      ∃ members name, node = .obj members ∧ Holds members "tag" (.str name) ∧
        table.lookup name = some a := by
  simp only [dispatch, bind_eq_ok_iff, member_eq_ok_iff, explain_eq_ok_iff, lookUp_eq_ok_iff]
  constructor
  · rintro ⟨_, htag, name, rfl, ha⟩
    cases node with
    | obj members => exact ⟨members, name, rfl, subscript_obj_eq_ok_iff.mp htag, ha⟩
    | _ => cases htag
  · rintro ⟨members, name, rfl, htag, ha⟩
    exact ⟨_, subscript_obj_eq_ok_iff.mpr htag, name, rfl, ha⟩

theorem dispatch_bind {family : Family} {table : List (String × α)} {name : String} {a : α}
    (htag : Holds members "tag" (.str name)) (ha : table.lookup name = some a) {β : Type}
    (f : α → Except Failure β) : dispatch family table (.obj members) >>= f = f a := by
  rw [dispatch_eq_ok_iff.mpr ⟨members, name, rfl, htag, ha⟩]
  rfl

theorem textAt_eq_ok_iff {s : String} :
    textAt (.obj members) key = .ok s ↔ Holds members key (.str s) := by
  simp only [textAt, bind_eq_ok_iff, member_eq_ok_iff, subscript_obj_eq_ok_iff]
  constructor
  · rintro ⟨v, hv, h⟩
    cases v with
    | str s' =>
        cases h
        exact hv
    | _ => exact absurd h (complain_ne_ok _ _ _)
  · intro h
    exact ⟨_, h, rfl⟩

end Access

section Parts

variable {α : Type} {R : Json → α → Prop} {node : Json} {key : String} {members : Members}

theorem under_iff {a : α} : Under R node key a ↔ ∃ v, subscript key node = .ok v ∧ R v a := by
  constructor
  · rintro ⟨holds, value⟩
    exact ⟨_, subscript_obj_eq_ok_iff.mpr holds, value⟩
  · rintro ⟨v, hv, value⟩
    cases node with
    | obj members => exact ⟨subscript_obj_eq_ok_iff.mp hv, value⟩
    | _ => cases hv

/-- A reader accepts under a key what it accepts of the value there. -/
theorem member_bind_eq_ok_iff {read : Json → Except Failure α}
    (h : ∀ v, subscript key node = .ok v → ∀ a, read v = .ok a ↔ R v a) {a : α} :
    member node key >>= read = .ok a ↔ Under R node key a := by
  simp only [bind_eq_ok_iff, member_eq_ok_iff, under_iff]
  exact exists_congr fun v => and_congr_right fun hv => h v hv a

theorem mapM_eq_ok_iff {read : Json → Except Failure α} {items : List Json}
    (h : ∀ v ∈ items, ∀ a, read v = .ok a ↔ R v a) {l : List α} :
    items.mapM read = .ok l ↔ List.Forall₂ R items l := by
  induction items generalizing l with
  | nil =>
      rw [List.forall₂_nil_left_iff]
      exact ⟨fun hl => by cases hl; rfl, fun hl => hl ▸ rfl⟩
  | cons v items ih =>
      obtain ⟨hv, hitems⟩ := List.forall_mem_cons.mp h
      simp only [List.mapM_cons, bind_eq_ok_iff, hv, ih hitems, List.forall₂_cons_left_iff]
      constructor
      · rintro ⟨a, ha, rest, hrest, hl⟩
        cases hl
        exact ⟨a, rest, ha, hrest, rfl⟩
      · rintro ⟨a, rest, ha, hrest, rfl⟩
        exact ⟨a, ha, rest, hrest, rfl⟩

theorem listOf_eq_ok_iff {read : Json → Except Failure α} {v : Json}
    (h : ∀ items, v = .arr items → ∀ w ∈ items, ∀ a, read w = .ok a ↔ R w a) {l : List α} :
    listOf node key read v = .ok l ↔ Listed R v l := by
  cases v with
  | arr items =>
      rw [listOf, mapM_eq_ok_iff (h items rfl)]
      exact ⟨.intro, fun ⟨hitems⟩ => hitems⟩
  | _ => exact ⟨fun h => absurd h (complain_ne_ok _ _ _), fun h => by cases h⟩

theorem labelled_eq_ok_iff {read : Json → Except Failure α}
    (h : ∀ v, subscript key node = .ok v → ∀ a, read v = .ok a ↔ R v a) {p : String × α} :
    labelled key read node = .ok p ↔ Labelled R key node p := by
  have hvalue {a : α} : member node key >>= read = .ok a ↔ Under R node key a :=
    member_bind_eq_ok_iff h
  constructor
  · intro hp
    obtain ⟨name, hname, hp⟩ := bind_eq_ok_iff.mp hp
    obtain ⟨a, ha, hp⟩ := bind_eq_ok_iff.mp hp
    cases hp
    obtain ⟨holds, value⟩ := hvalue.mp ha
    exact ⟨textAt_eq_ok_iff.mp hname, .intro holds value⟩
  · rintro ⟨hname, ha⟩
    refine bind_eq_ok_iff.mpr ⟨p.1, textAt_eq_ok_iff.mpr hname, ?_⟩
    exact bind_eq_ok_iff.mpr ⟨p.2, hvalue.mpr ha, rfl⟩

theorem numberAt_eq_ok_iff {n : Literal} :
    numberAt (.obj members) = .ok n ↔ Under RepresentsNumber (.obj members) "n" n := by
  refine member_bind_eq_ok_iff fun v _ n => ⟨fun h => ?_, fun h => ?_⟩
  · cases v with
    | int k =>
        cases h
        exact .int k
    | float x =>
        cases h
        exact .float x
    | _ => cases h
  · cases h with
    | int k => rfl
    | float x => rfl

theorem positionOf_eq_ok_iff {place : Json} {p : Position} :
    positionOf place = .ok p ↔ RepresentsPosition place p := by
  simp only [positionOf, bind_eq_ok_iff]
  constructor
  · rintro ⟨line, hline, column, hcolumn, h⟩
    cases h
    cases place with
    | obj members =>
        exact ⟨subscript_obj_eq_ok_iff.mp hline, subscript_obj_eq_ok_iff.mp hcolumn⟩
    | _ => cases hline
  · rintro ⟨hline, hcolumn⟩
    exact ⟨_, subscript_obj_eq_ok_iff.mpr hline, _, subscript_obj_eq_ok_iff.mpr hcolumn, rfl⟩

theorem spanOf_eq_ok_iff {loc : Json} {s : Span} :
    spanOf loc = .ok s ↔
      Under RepresentsPosition loc "start" s.start ∧ Under RepresentsPosition loc "end" s.stop := by
  simp only [spanOf, bind_eq_ok_iff, positionOf_eq_ok_iff, under_iff]
  constructor
  · rintro ⟨start, hstart, stop, hstop, first, hfirst, last, hlast, h⟩
    cases h
    exact ⟨⟨start, hstart, hfirst⟩, ⟨stop, hstop, hlast⟩⟩
  · rintro ⟨⟨start, hstart, hfirst⟩, ⟨stop, hstop, hlast⟩⟩
    exact ⟨start, hstart, stop, hstop, s.start, hfirst, s.stop, hlast, rfl⟩

theorem readSpan_of_null (h : get "loc" node = .ok .null) : readSpan node = .ok none := by
  rw [readSpan, h]
  rfl

theorem readSpan_of_ne_null {loc : Json} (h : get "loc" node = .ok loc) (hne : loc ≠ .null) :
    readSpan node = explain (.bogusPosition loc) (spanOf loc) >>= fun s => .ok (some s) := by
  rw [readSpan, h]
  cases loc with
  | null => exact absurd rfl hne
  | _ => rfl

theorem readSpan_eq_ok_iff {p : Option Span} :
    readSpan (.obj members) = .ok p ↔ RepresentsSpan members p := by
  cases hloc : members.lookup "loc" with
  | none =>
      rw [readSpan_of_null (by rw [get, hloc]; rfl)]
      constructor
      · intro h
        cases h
        exact .absent hloc
      · rintro (_ | _ | h)
        · rfl
        · rfl
        · cases hloc.symm.trans h
  | some loc =>
      by_cases hnull : loc = .null
      · subst hnull
        rw [readSpan_of_null (by rw [get, hloc]; rfl)]
        constructor
        · intro h
          cases h
          exact .null hloc
        · rintro (_ | _ | ⟨h, hstart, -⟩)
          · rfl
          · rfl
          · cases hloc.symm.trans h
            cases hstart
      · rw [readSpan_of_ne_null (by rw [get, hloc]; rfl) hnull]
        simp only [bind_eq_ok_iff, explain_eq_ok_iff, spanOf_eq_ok_iff]
        constructor
        · rintro ⟨s, ⟨hstart, hstop⟩, h⟩
          cases h
          exact .span hloc hstart hstop
        · rintro (h | h | ⟨h, hstart, hstop⟩)
          · cases hloc.symm.trans h
          · cases hloc.symm.trans h
            exact absurd rfl hnull
          · cases hloc.symm.trans h
            exact ⟨_, ⟨hstart, hstop⟩, rfl⟩

end Parts

end StructuralTypes.Tree
