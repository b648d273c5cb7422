/-!
JSON values. Whole numbers are kept apart from doubles, and the members of an object keep the order
in which they were written.
-/

namespace StructuralTypes

inductive Json where
  | null
  | bool (b : Bool)
  | int (n : Int)
  | float (x : Float)
  | str (s : String)
  | arr (items : List Json)
  | obj (members : List (String × Json))
  deriving Inhabited

namespace Json

/-- Induction on values, with the hypotheses for items and members given for each of them. -/
@[elab_as_elim, induction_eliminator]
theorem ind {motive : Json → Prop} (null : motive .null) (bool : ∀ b, motive (.bool b))
    (int : ∀ n, motive (.int n)) (float : ∀ x, motive (.float x)) (str : ∀ s, motive (.str s))
    (arr : ∀ items, (∀ v ∈ items, motive v) → motive (.arr items))
    (obj : ∀ members, (∀ m ∈ members, motive m.2) → motive (.obj members)) (v : Json) :
    motive v :=
  @Json.rec motive (fun items => ∀ v ∈ items, motive v)
    (fun members => ∀ m ∈ members, motive m.2) (fun m => motive m.2)
    null bool int float str arr obj
    (fun _ h => nomatch h)
    (fun _ _ head rest v hv => by
      cases hv with
      | head => exact head
      | tail _ h => exact rest v h)
    (fun _ h => nomatch h)
    (fun _ _ head rest m hm => by
      cases hm with
      | head => exact head
      | tail _ h => exact rest m h)
    (fun _ _ h => h) v

/-- Sets a member: a new name goes to the end, a name that is there keeps its place. -/
def put (name : String) (value : Json) : List (String × Json) → List (String × Json)
  | [] => [(name, value)]
  | (n, v) :: rest => if n = name then (n, value) :: rest else (n, v) :: put name value rest

/-- The object with the given members in order; of a repeated name the last value counts. -/
def ofMembers (members : List (String × Json)) : Json :=
  .obj (members.foldl (fun done m => put m.1 m.2 done) [])

end Json

end StructuralTypes
