import StructuralTypes.Tree.Malformed
import StructuralTypes.Ty.Defect

/-!
Access to the members of a node. A raw access can go wrong, and a slip says how. The accesses that
the readers are made of turn a slip into a complaint about the tree; asking a value that is no
object for a member is the one slip that they let through, and a defect of a type is let through as
well. That neither ever happens is for the proofs to say.
-/

namespace StructuralTypes

theorem bind_eq_ok_iff {α β ε : Type} {x : Except ε α} {f : α → Except ε β} {b : β} :
    x >>= f = .ok b ↔ ∃ a, x = .ok a ∧ f a = .ok b := by
  cases x with
  | error e => simp [bind, Except.bind]
  | ok a => simp [bind, Except.bind]

namespace Tree

abbrev Members := List (String × Json)

/-! ### Raw access -/

inductive Slip where
  /-- Nothing stands under the key. -/
  | missingKey
  /-- Only an object is subscripted by a name. -/
  | notSubscriptable
  /-- A list or an object is no key of a table. -/
  | unhashable
  /-- Only an object can be asked for what may be absent. -/
  | notQueryable
  deriving DecidableEq, Repr

def subscript (key : String) : Json → Except Slip Json
  | .obj members =>
      match members.lookup key with
      | some v => .ok v
      | none => .error .missingKey
  | _ => .error .notSubscriptable

/-- A member that may be absent, and is null then. -/
def get (key : String) : Json → Except Slip Json
  | .obj members => .ok ((members.lookup key).getD .null)
  | _ => .error .notQueryable

/-- What a table has under a value. Its keys are names, so no other value is found in it. -/
def lookUp {α : Type} (table : List (String × α)) : Json → Except Slip α
  | .str name =>
      match table.lookup name with
      | some a => .ok a
      | none => .error .missingKey
  | .arr _ => .error .unhashable
  | .obj _ => .error .unhashable
  | _ => .error .missingKey

/-! ### Complaints -/

inductive Failure where
  | malformed (why : Malformed)
  | slip (slip : Slip)
  | defect (defect : Defect)

def complain {α : Type} (node : Json) (why : Json → Malformed) : Except Failure α := do
  let tag ← (get "tag" node).mapError .slip
  .error (.malformed (why tag))

/-- Has one complaint for whatever can be caught. -/
def explain {α : Type} (why : Malformed) : Except Slip α → Except Failure α
  | .ok a => .ok a
  | .error .notQueryable => .error (.slip .notQueryable)
  | .error _ => .error (.malformed why)

/-- What a node gives for a key. A node that lacks the key is told from a value that is no node. -/
def rescue {α : Type} (node : Json) (key : String) : Except Slip α → Except Failure α
  | .error .missingKey => complain node (.lacks · key)
  | found => explain (.notNode node) found

def member (node : Json) (key : String) : Except Failure Json :=
  rescue node key (subscript key node)

/-- What is read of a member, if it is there to be read. -/
def reach {α : Type} (node : Json) (key : String) (found : Except Slip (Except Failure α)) :
    Except Failure α := do
  let result ← rescue node key found
  result

def dispatch {α : Type} (family : Family) (table : List (String × α)) (node : Json) :
    Except Failure α := do
  let tag ← member node "tag"
  explain (.unknownTag family tag) (lookUp table tag)

def textAt (node : Json) (key : String) : Except Failure String := do
  match ← member node key with
  | .str s => return s
  | _ => complain node (.notText key)

/-- The items of a list that `node` holds under `key`. -/
def listOf {α : Type} (node : Json) (key : String) (read : Json → Except Failure α) :
    Json → Except Failure (List α)
  | .arr items => items.mapM read
  | _ => complain node (.notList key)

/-- A name, and what the node holds under `key` with it. -/
def labelled {α : Type} (key : String) (read : Json → Except Failure α) (node : Json) :
    Except Failure (String × α) := do
  let name ← textAt node "name"
  let a ← member node key >>= read
  return (name, a)

/-- A walk along the members that reads the first one under the key, as `subscript` finds it. The
readers of members are such walks, each with a reader of its own, so that reading follows the
structure of the tree. -/
theorem reach_eq_member {α : Type} {key : String} {read : Json → Except Failure α}
    {walk : Members → Except Slip (Except Failure α)} (nil : walk [] = .error .missingKey)
    (cons : ∀ name v members,
      walk ((name, v) :: members) = if name = key then .ok (read v) else walk members)
    (members : Members) :
    reach (.obj members) key (walk members) = member (.obj members) key >>= read := by
  have hwalk : walk members = (subscript key (.obj members)).map read := by
    induction members with
    | nil => exact nil
    | cons m members ih =>
        obtain ⟨name, v⟩ := m
        by_cases h : name = key
        · simp [cons, h, subscript, Except.map]
        · have hkey : (key == name) = false := by simp [Ne.symm h]
          simpa [cons, h, subscript, List.lookup_cons, hkey] using ih
  rw [reach, hwalk, member]
  cases subscript key (.obj members) with
  | ok v => rfl
  | error slip => cases slip <;> rfl

end Tree

end StructuralTypes
