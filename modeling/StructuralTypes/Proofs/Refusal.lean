import StructuralTypes.Proofs.Format

/-!
Reading fails only by complaint. The slips of raw access never get through: a subscript goes wrong
in two ways, both of which are caught, and only a node is asked for its tag or its position, that
is, an object. Nor does a defect: the names of an object are compared before it is built.

A reader is a sequence of accesses and other readers, so the property passes from the parts of a
sequence to the whole, from the rows of a table to the readers of types and terms, and by induction
to every value.
-/

namespace StructuralTypes.Tree

/-- If nothing is read then the tree is malformed. -/
def OnlyComplains {α : Type} (x : Except Failure α) : Prop :=
  ∀ e, x = .error e → ∃ why, e = .malformed why

namespace OnlyComplains

variable {α β : Type}

theorem ok (a : α) : OnlyComplains (.ok a) := nofun

theorem malformed (why : Malformed) : OnlyComplains (α := α) (.error (.malformed why)) := by
  intro e h
  cases h
  exact ⟨why, rfl⟩

theorem exists_of_ne_ok {x : Except Failure α} (h : OnlyComplains x) (hx : ∀ a, x ≠ .ok a) :
    ∃ why, x = .error (.malformed why) := by
  cases x with
  | error e =>
      obtain ⟨why, rfl⟩ := h e rfl
      exact ⟨why, rfl⟩
  | ok a => exact absurd rfl (hx a)

theorem bind {x : Except Failure α} {f : α → Except Failure β} (hx : OnlyComplains x)
    (hf : ∀ a, x = .ok a → OnlyComplains (f a)) : OnlyComplains (x >>= f) := by
  cases x with
  | error e =>
      intro e' h
      cases h
      exact hx e rfl
  | ok a => exact hf a rfl

theorem mapM {read : Json → Except Failure α} {items : List Json}
    (h : ∀ v ∈ items, OnlyComplains (read v)) : OnlyComplains (items.mapM read) := by
  induction items with
  | nil => exact ok []
  | cons v items ih =>
      obtain ⟨hv, hitems⟩ := List.forall_mem_cons.mp h
      rw [List.mapM_cons]
      exact hv.bind fun a _ => (ih hitems).bind fun l _ => ok (a :: l)

end OnlyComplains

/-! ### Access -/

def Catchable {α : Type} (x : Except Slip α) : Prop := x ≠ .error .notQueryable

section Access

variable {α β : Type} {node v : Json} {key : String}

theorem catchable_subscript (key : String) (v : Json) : Catchable (subscript key v) := by
  unfold Catchable
  cases v with
  | obj members =>
      rw [subscript]
      cases members.lookup key <;> simp
  | _ => simp [subscript]

theorem catchable_lookUp (table : List (String × α)) (tag : Json) :
    Catchable (lookUp table tag) := by
  unfold Catchable
  cases tag with
  | str name =>
      rw [lookUp]
      cases table.lookup name <;> simp
  | _ => simp [lookUp]

theorem Catchable.bind {x : Except Slip α} {f : α → Except Slip β} (hx : Catchable x)
    (hf : ∀ a, Catchable (f a)) : Catchable (x >>= f) := by
  cases x with
  | error slip =>
      intro h
      cases h
      exact hx rfl
  | ok a => exact hf a

theorem catchable_positionOf (place : Json) : Catchable (positionOf place) :=
  (catchable_subscript "line" place).bind fun _ =>
    (catchable_subscript "column" place).bind fun _ => nofun

theorem catchable_spanOf (loc : Json) : Catchable (spanOf loc) :=
  (catchable_subscript "start" loc).bind fun start =>
    (catchable_subscript "end" loc).bind fun stop =>
      (catchable_positionOf start).bind fun _ => (catchable_positionOf stop).bind fun _ => nofun

theorem onlyComplains_explain (why : Malformed) {x : Except Slip α} (h : Catchable x) :
    OnlyComplains (explain why x) := by
  cases x with
  | ok a => exact .ok a
  | error slip =>
      cases slip with
      | notQueryable => exact absurd rfl h
      | _ => exact .malformed why

theorem onlyComplains_complain (members : Members) (why : Json → Malformed) :
    OnlyComplains (α := α) (complain (.obj members) why) :=
  .malformed _

theorem onlyComplains_member (node : Json) (key : String) : OnlyComplains (member node key) := by
  cases node with
  | obj members =>
      rw [member, subscript]
      cases members.lookup key with
      | none => exact onlyComplains_complain members _
      | some v => exact .ok v
  | _ => exact .malformed _

theorem exists_members_of_member (h : member node key = .ok v) :
    ∃ members, node = .obj members := by
  rw [member_eq_ok_iff] at h
  cases node with
  | obj members => exact ⟨members, rfl⟩
  | _ => cases h

theorem onlyComplains_dispatch (family : Family) (table : List (String × α)) (node : Json) :
    OnlyComplains (dispatch family table node) :=
  (onlyComplains_member node "tag").bind fun tag _ =>
    onlyComplains_explain _ (catchable_lookUp table tag)

theorem onlyComplains_textAt (node : Json) (key : String) : OnlyComplains (textAt node key) := by
  refine (onlyComplains_member node key).bind fun v hv => ?_
  obtain ⟨members, rfl⟩ := exists_members_of_member hv
  cases v with
  | str s => exact .ok s
  | _ => exact onlyComplains_complain members _

theorem onlyComplains_numberAt (node : Json) : OnlyComplains (numberAt node) := by
  refine (onlyComplains_member node "n").bind fun v _ => ?_
  cases v with
  | int n => exact .ok _
  | float x => exact .ok _
  | _ => exact .malformed _

theorem onlyComplains_readSpan (members : Members) : OnlyComplains (readSpan (.obj members)) := by
  by_cases h : (members.lookup "loc").getD .null = .null
  · rw [readSpan_of_null (by rw [get, h])]
    exact .ok none
  · rw [readSpan_of_ne_null rfl h]
    exact (onlyComplains_explain _ (catchable_spanOf _)).bind fun s _ => .ok (some s)

theorem onlyComplains_listOf {read : Json → Except Failure α} (members : Members) (key : String)
    (h : ∀ items, v = .arr items → ∀ w ∈ items, OnlyComplains (read w)) :
    OnlyComplains (listOf (.obj members) key read v) := by
  cases v with
  | arr items => exact .mapM (h items rfl)
  | _ => exact onlyComplains_complain members _

end Access

/-! ### Tables -/

theorem onlyComplains_objectType {n : TypeNode} (hrow : ∀ key, OnlyComplains (n.row key)) :
    OnlyComplains (objectType n) := by
  refine (hrow "props").bind fun fields _ => ?_
  split
  · next hdistinct =>
      rw [Ty.mkObject_of_nodup hdistinct]
      exact .ok _
  · exact .malformed _

theorem onlyComplains_typeTable {n : TypeNode} (htype : ∀ key, OnlyComplains (n.type key))
    (hrow : ∀ key, OnlyComplains (n.row key)) :
    ∀ entry ∈ typeTable, OnlyComplains (entry.2 n) := by
  have htext := onlyComplains_textAt n.node
  simp only [typeTable, List.forall_mem_cons]
  refine ⟨.ok _, .ok _, ?_, onlyComplains_objectType hrow, ?_, ?_, List.forall_mem_nil _⟩
  · exact (hrow "params").bind fun _ _ => (htype "retType").bind fun _ _ => .ok _
  · exact (htext "name").bind fun _ _ => (htype "type").bind fun _ _ => .ok _
  · exact (htext "name").bind fun _ _ => .ok _

theorem onlyComplains_record {n : TermNode} (hfields : ∀ key, OnlyComplains (n.fields key))
    (hspan : OnlyComplains (readSpan n.node)) : OnlyComplains (record n) := by
  refine (hfields "props").bind fun fields _ => ?_
  split
  · exact hspan.bind fun _ _ => .ok _
  · exact .malformed _

theorem onlyComplains_termTable {n : TermNode} (htype : ∀ key, OnlyComplains (n.type key))
    (hrow : ∀ key, OnlyComplains (n.row key)) (hterm : ∀ key, OnlyComplains (n.term key))
    (hargs : ∀ key, OnlyComplains (n.args key)) (hfields : ∀ key, OnlyComplains (n.fields key))
    (hspan : OnlyComplains (readSpan n.node)) :
    ∀ entry ∈ termTable, OnlyComplains (entry.2 n) := by
  have htext := onlyComplains_textAt n.node
  simp only [termTable, List.forall_mem_cons]
  refine ⟨?_, ?_, ?_, ?_, ?_, ?_, ?_, ?_, ?_, ?_, onlyComplains_record hfields hspan, ?_, ?_,
    List.forall_mem_nil _⟩
  · exact hspan.bind fun _ _ => .ok _
  · exact hspan.bind fun _ _ => .ok _
  · exact (onlyComplains_numberAt n.node).bind fun _ _ => hspan.bind fun _ _ => .ok _
  · exact (hterm "cond").bind fun _ _ => (hterm "thn").bind fun _ _ =>
      (hterm "els").bind fun _ _ => hspan.bind fun _ _ => .ok _
  · exact (hterm "left").bind fun _ _ => (hterm "right").bind fun _ _ =>
      hspan.bind fun _ _ => .ok _
  · exact (htext "name").bind fun _ _ => hspan.bind fun _ _ => .ok _
  · exact (hrow "params").bind fun _ _ => (hterm "body").bind fun _ _ =>
      hspan.bind fun _ _ => .ok _
  · exact (hterm "func").bind fun _ _ => (hargs "args").bind fun _ _ =>
      hspan.bind fun _ _ => .ok _
  · exact (hterm "body").bind fun _ _ => (hterm "rest").bind fun _ _ =>
      hspan.bind fun _ _ => .ok _
  · exact (htext "name").bind fun _ _ => (hterm "init").bind fun _ _ =>
      (hterm "rest").bind fun _ _ => hspan.bind fun _ _ => .ok _
  · exact (hterm "obj").bind fun _ _ => (htext "propName").bind fun _ _ =>
      hspan.bind fun _ _ => .ok _
  · exact (htext "funcName").bind fun _ _ => (hrow "params").bind fun _ _ =>
      (htype "retType").bind fun _ _ => (hterm "body").bind fun _ _ =>
        (hterm "rest").bind fun _ _ => hspan.bind fun _ _ => .ok _

/-! ### Readers -/

/-- Whatever a value is read as, reading it fails only by complaint. A list is read for a node that
holds it. -/
structure Complains (v : Json) : Prop where
  type : OnlyComplains (readType v)
  row : ∀ members key, OnlyComplains (readRow (.obj members) key v)
  entry : OnlyComplains (readEntry v)
  term : OnlyComplains (readTerm v)
  args : ∀ members key, OnlyComplains (readArgs (.obj members) key v)
  fields : ∀ members key, OnlyComplains (readFields (.obj members) key v)
  init : OnlyComplains (readInit v)

section Nodes

variable {α : Type} {node : Json} (ih : ∀ key v, subscript key node = .ok v → Complains v)
include ih

theorem onlyComplains_member_bind {read : Json → Except Failure α}
    (h : ∀ v members, node = .obj members → Complains v → OnlyComplains (read v)) (key : String) :
    OnlyComplains (member node key >>= read) := by
  refine (onlyComplains_member node key).bind fun v hv => ?_
  obtain ⟨members, hnode⟩ := exists_members_of_member hv
  exact h v members hnode (ih key v (member_eq_ok_iff.mp hv))

theorem onlyComplains_labelled {read : Json → Except Failure α} (key : String)
    (h : ∀ v, Complains v → OnlyComplains (read v)) : OnlyComplains (labelled key read node) :=
  (onlyComplains_textAt node "name").bind fun _ _ =>
    (onlyComplains_member_bind ih (fun v _ _ => h v) key).bind fun _ _ => .ok _

theorem onlyComplains_memberType (key : String) : OnlyComplains (member node key >>= readType) :=
  onlyComplains_member_bind ih (fun _ _ _ hv => hv.type) key

theorem onlyComplains_memberRow (key : String) :
    OnlyComplains (member node key >>= readRow node key) :=
  onlyComplains_member_bind ih (fun _ members hnode hv => hnode ▸ hv.row members key) key

theorem onlyComplains_memberTerm (key : String) : OnlyComplains (member node key >>= readTerm) :=
  onlyComplains_member_bind ih (fun _ _ _ hv => hv.term) key

theorem onlyComplains_memberArgs (key : String) :
    OnlyComplains (member node key >>= readArgs node key) :=
  onlyComplains_member_bind ih (fun _ members hnode hv => hnode ▸ hv.args members key) key

theorem onlyComplains_memberFields (key : String) :
    OnlyComplains (member node key >>= readFields node key) :=
  onlyComplains_member_bind ih (fun _ members hnode hv => hnode ▸ hv.fields members key) key

theorem onlyComplains_readType : OnlyComplains (readType node) := by
  rw [readType_eq]
  refine (onlyComplains_dispatch _ _ node).bind fun build hbuild => ?_
  obtain ⟨members, name, -, -, hentry⟩ := dispatch_eq_ok_iff.mp hbuild
  exact onlyComplains_typeTable (onlyComplains_memberType ih) (onlyComplains_memberRow ih)
    _ (mem_of_lookup hentry)

theorem onlyComplains_readTerm : OnlyComplains (readTerm node) := by
  rw [readTerm_eq]
  refine (onlyComplains_dispatch _ _ node).bind fun build hbuild => ?_
  obtain ⟨members, name, rfl, -, hentry⟩ := dispatch_eq_ok_iff.mp hbuild
  exact onlyComplains_termTable (onlyComplains_memberType ih) (onlyComplains_memberRow ih)
    (onlyComplains_memberTerm ih) (onlyComplains_memberArgs ih) (onlyComplains_memberFields ih)
    (onlyComplains_readSpan members) _ (mem_of_lookup hentry)

end Nodes

theorem complains (v : Json) : Complains v := by
  induction v using subscript_ind with
  | node v ih ihitems =>
      refine ⟨onlyComplains_readType ih, fun members key => ?_, ?_, onlyComplains_readTerm ih,
        fun members key => ?_, fun members key => ?_, ?_⟩
      · rw [readRow_eq]
        exact onlyComplains_listOf members key fun items hv w hw => (ihitems items hv w hw).entry
      · rw [readEntry_eq]
        exact onlyComplains_labelled ih "type" fun _ => Complains.type
      · rw [readArgs_eq]
        exact onlyComplains_listOf members key fun items hv w hw => (ihitems items hv w hw).term
      · rw [readFields_eq]
        exact onlyComplains_listOf members key fun items hv w hw => (ihitems items hv w hw).init
      · rw [readInit_eq]
        exact onlyComplains_labelled ih "term" fun _ => Complains.term

end StructuralTypes.Tree
