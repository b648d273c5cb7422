import StructuralTypes.Tree.Access

/-!
Reading types from trees. A table has, for every tag, how a type is built from a node with that tag.
Main statement: reading a node means to look its tag up in the table, and to read its parts from
the values that the node gives for their keys.
-/

namespace StructuralTypes.Tree

/-- A node, with readers of what it holds under a key. -/
structure TypeNode where
  node : Json
  type : String → Except Failure Ty
  row : String → Except Failure Row

def objectType (n : TypeNode) : Except Failure Ty := do
  let fields ← n.row "props"
  if fields.labels.Nodup then (Ty.mkObject fields).mapError .defect
  else .error (.malformed (.repeatedField .type))

def typeTable : List (String × (TypeNode → Except Failure Ty)) := [
  ("Boolean", fun _ => .ok .boolean),
  ("Number", fun _ => .ok .number),
  ("Func", fun n => do
    let params ← n.row "params"
    let result ← n.type "retType"
    return .func params result),
  ("Object", objectType),
  ("Rec", fun n => do
    let name ← textAt n.node "name"
    let body ← n.type "type"
    return .mu name body),
  ("TypeVar", fun n => do
    let name ← textAt n.node "name"
    return .var name)]

mutual

def readType : Json → Except Failure Ty
  | .obj members => do
      let node := Json.obj members
      let build ← dispatch .type typeTable node
      build {
        node
        type := fun key => reach node key (typeAt key members)
        row := fun key => reach node key (rowAt node key members) }
  -- The tag of what is no object is not found, and nothing is built.
  | found => do
      let _ ← dispatch .type typeTable found
      .error (.malformed (.notNode found))

def typeAt (key : String) : Members → Except Slip (Except Failure Ty)
  | [] => .error .missingKey
  | (name, v) :: members => if name = key then .ok (readType v) else typeAt key members

def rowAt (node : Json) (key : String) : Members → Except Slip (Except Failure Row)
  | [] => .error .missingKey
  | (name, v) :: members =>
      if name = key then .ok (readRow node key v) else rowAt node key members

/-- The entries of a list that `node` holds under `key`. -/
def readRow (node : Json) (key : String) : Json → Except Failure Row
  | .arr items => readEntries items
  | _ => complain node (.notList key)

def readEntries : List Json → Except Failure Row
  | [] => .ok []
  | item :: items => do
      let entry ← readEntry item
      let row ← readEntries items
      return entry :: row

def readEntry : Json → Except Failure (String × Ty)
  | .obj members => do
      let node := Json.obj members
      let name ← textAt node "name"
      let type ← reach node "type" (typeAt "type" members)
      return (name, type)
  | found => do
      let _ ← textAt found "name"
      .error (.malformed (.notNode found))

end

theorem reach_typeAt (members : Members) (key : String) :
    reach (.obj members) key (typeAt key members) = member (.obj members) key >>= readType :=
  reach_eq_member (by rw [typeAt]) (fun _ _ _ => by rw [typeAt]) members

theorem reach_rowAt (members : Members) (key : String) :
    reach (.obj members) key (rowAt (.obj members) key members) =
      member (.obj members) key >>= readRow (.obj members) key :=
  reach_eq_member (by rw [rowAt]) (fun _ _ _ => by rw [rowAt]) members

theorem readType_eq (node : Json) :
    readType node = dispatch .type typeTable node >>= fun build => build {
      node
      type := fun key => member node key >>= readType
      row := fun key => member node key >>= readRow node key } := by
  cases node with
  | obj members => simp only [readType, reach_typeAt, reach_rowAt]
  | _ => rfl

theorem readEntry_eq (node : Json) : readEntry node = labelled "type" readType node := by
  cases node with
  | obj members => simp only [readEntry, reach_typeAt, labelled]
  | _ => rfl

theorem readEntries_eq_mapM (items : List Json) : readEntries items = items.mapM readEntry := by
  induction items with
  | nil => rfl
  | cons v items ih => rw [readEntries, ih, List.mapM_cons]

theorem readRow_eq (node : Json) (key : String) (v : Json) :
    readRow node key v = listOf node key readEntry v := by
  cases v with
  | arr items => exact readEntries_eq_mapM items
  | _ => rfl

end StructuralTypes.Tree
