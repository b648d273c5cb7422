import StructuralTypes.Span
import StructuralTypes.Term.Basic
import StructuralTypes.Tree.ReadType

/-!
Reading terms from trees, by a table as for types. The members of a node are read in the order of
the term's parts, its position last.
-/

namespace StructuralTypes.Tree

def positionOf (place : Json) : Except Slip Position := do
  let line ← subscript "line" place
  let column ← subscript "column" place
  return ⟨line, column⟩

def spanOf (loc : Json) : Except Slip Span := do
  let start ← subscript "start" loc
  let stop ← subscript "end" loc
  let first ← positionOf start
  let last ← positionOf stop
  return ⟨first, last⟩

/-- The position of a node: absent or null, or two ends with a line and a column each. -/
def readSpan (node : Json) : Except Failure (Option Span) := do
  match ← (get "loc" node).mapError .slip with
  | .null => return none
  | loc =>
      let span ← explain (.bogusPosition loc) (spanOf loc)
      return some span

def numberAt (node : Json) : Except Failure Literal := do
  match ← member node "n" with
  | .int n => return .int n
  | .float x => return .float x
  | found => .error (.malformed (.notNumber found))

structure TermNode extends TypeNode where
  term : String → Except Failure (Term (Option Span))
  args : String → Except Failure (List (Term (Option Span)))
  fields : String → Except Failure (List (String × Term (Option Span)))

def record (n : TermNode) : Except Failure (Term (Option Span)) := do
  let fields ← n.fields "props"
  if (fields.map Prod.fst).Nodup then
    let span ← readSpan n.node
    return .record span fields
  else .error (.malformed (.repeatedField .term))

def termTable : List (String × (TermNode → Except Failure (Term (Option Span)))) := [
  ("true", fun n => do
    let span ← readSpan n.node
    return .literal span (.bool true)),
  ("false", fun n => do
    let span ← readSpan n.node
    return .literal span (.bool false)),
  ("number", fun n => do
    let value ← numberAt n.node
    let span ← readSpan n.node
    return .literal span value),
  ("if", fun n => do
    let test ← n.term "cond"
    let yes ← n.term "thn"
    let no ← n.term "els"
    let span ← readSpan n.node
    return .cond span test yes no),
  ("add", fun n => do
    let left ← n.term "left"
    let right ← n.term "right"
    let span ← readSpan n.node
    return .add span left right),
  ("var", fun n => do
    let name ← textAt n.node "name"
    let span ← readSpan n.node
    return .ref span name),
  ("func", fun n => do
    let params ← n.row "params"
    let body ← n.term "body"
    let span ← readSpan n.node
    return .lambda span params body),
  ("call", fun n => do
    let callee ← n.term "func"
    let args ← n.args "args"
    let span ← readSpan n.node
    return .call span callee args),
  ("seq", fun n => do
    let first ← n.term "body"
    let rest ← n.term "rest"
    let span ← readSpan n.node
    return .seq span first rest),
  ("const", fun n => do
    let name ← textAt n.node "name"
    let init ← n.term "init"
    let rest ← n.term "rest"
    let span ← readSpan n.node
    return .const span name init rest),
  ("objectNew", record),
  ("objectGet", fun n => do
    let owner ← n.term "obj"
    let name ← textAt n.node "propName"
    let span ← readSpan n.node
    return .field span owner name),
  ("recFunc", fun n => do
    let name ← textAt n.node "funcName"
    let params ← n.row "params"
    let result ← n.type "retType"
    let body ← n.term "body"
    let rest ← n.term "rest"
    let span ← readSpan n.node
    return .letRec span name params result body rest)]

mutual

def readTerm : Json → Except Failure (Term (Option Span))
  | .obj members => do
      let node := Json.obj members
      let build ← dispatch .term termTable node
      build {
        node
        type := fun key => member node key >>= readType
        row := fun key => member node key >>= readRow node key
        term := fun key => reach node key (termAt key members)
        args := fun key => reach node key (argsAt node key members)
        fields := fun key => reach node key (fieldsAt node key members) }
  | found => do
      let _ ← dispatch .term termTable found
      .error (.malformed (.notNode found))
termination_by structural node => node

def termAt (key : String) : Members → Except Slip (Except Failure (Term (Option Span)))
  | [] => .error .missingKey
  | (name, v) :: members => if name = key then .ok (readTerm v) else termAt key members
termination_by structural members => members

def argsAt (node : Json) (key : String) :
    Members → Except Slip (Except Failure (List (Term (Option Span))))
  | [] => .error .missingKey
  | (name, v) :: members =>
      if name = key then .ok (readArgs node key v) else argsAt node key members
termination_by structural members => members

def readArgs (node : Json) (key : String) : Json → Except Failure (List (Term (Option Span)))
  | .arr items => readTerms items
  | _ => complain node (.notList key)
termination_by structural list => list

def readTerms : List Json → Except Failure (List (Term (Option Span)))
  | [] => .ok []
  | item :: items => do
      let t ← readTerm item
      let terms ← readTerms items
      return t :: terms
termination_by structural items => items

def fieldsAt (node : Json) (key : String) :
    Members → Except Slip (Except Failure (List (String × Term (Option Span))))
  | [] => .error .missingKey
  | (name, v) :: members =>
      if name = key then .ok (readFields node key v) else fieldsAt node key members
termination_by structural members => members

def readFields (node : Json) (key : String) :
    Json → Except Failure (List (String × Term (Option Span)))
  | .arr items => readInits items
  | _ => complain node (.notList key)
termination_by structural list => list

def readInits : List Json → Except Failure (List (String × Term (Option Span)))
  | [] => .ok []
  | item :: items => do
      let field ← readInit item
      let fields ← readInits items
      return field :: fields
termination_by structural items => items

def readInit : Json → Except Failure (String × Term (Option Span))
  | .obj members => do
      let node := Json.obj members
      let name ← textAt node "name"
      let t ← reach node "term" (termAt "term" members)
      return (name, t)
  | found => do
      let _ ← textAt found "name"
      .error (.malformed (.notNode found))
termination_by structural node => node

end

theorem reach_termAt (members : Members) (key : String) :
    reach (.obj members) key (termAt key members) = member (.obj members) key >>= readTerm :=
  reach_eq_member (by rw [termAt]) (fun _ _ _ => by rw [termAt]) members

theorem reach_argsAt (members : Members) (key : String) :
    reach (.obj members) key (argsAt (.obj members) key members) =
      member (.obj members) key >>= readArgs (.obj members) key :=
  reach_eq_member (by rw [argsAt]) (fun _ _ _ => by rw [argsAt]) members

theorem reach_fieldsAt (members : Members) (key : String) :
    reach (.obj members) key (fieldsAt (.obj members) key members) =
      member (.obj members) key >>= readFields (.obj members) key :=
  reach_eq_member (by rw [fieldsAt]) (fun _ _ _ => by rw [fieldsAt]) members

theorem readTerm_eq (node : Json) :
    readTerm node = dispatch .term termTable node >>= fun build => build {
      node
      type := fun key => member node key >>= readType
      row := fun key => member node key >>= readRow node key
      term := fun key => member node key >>= readTerm
      args := fun key => member node key >>= readArgs node key
      fields := fun key => member node key >>= readFields node key } := by
  cases node with
  | obj members => simp only [readTerm, reach_termAt, reach_argsAt, reach_fieldsAt]
  | _ => rfl

theorem readInit_eq (node : Json) : readInit node = labelled "term" readTerm node := by
  cases node with
  | obj members => simp only [readInit, reach_termAt, labelled]
  | _ => rfl

theorem readTerms_eq_mapM (items : List Json) : readTerms items = items.mapM readTerm := by
  induction items with
  | nil => rfl
  | cons v items ih => rw [readTerms, ih, List.mapM_cons]

theorem readInits_eq_mapM (items : List Json) : readInits items = items.mapM readInit := by
  induction items with
  | nil => rfl
  | cons v items ih => rw [readInits, ih, List.mapM_cons]

theorem readArgs_eq (node : Json) (key : String) (v : Json) :
    readArgs node key v = listOf node key readTerm v := by
  cases v with
  | arr items => exact readTerms_eq_mapM items
  | _ => rfl

theorem readFields_eq (node : Json) (key : String) (v : Json) :
    readFields node key v = listOf node key readInit v := by
  cases v with
  | arr items => exact readInits_eq_mapM items
  | _ => rfl

end StructuralTypes.Tree
