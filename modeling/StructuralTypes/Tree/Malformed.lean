import StructuralTypes.Json.Display

/-!
What is wrong with a value that should be a syntax tree. A node is an object with a `tag` that names
its kind.
-/

namespace StructuralTypes.Tree

inductive Family where
  | type
  | term
  deriving DecidableEq, Repr

/-- Why a value is not read. The tag that goes with a member is the one of the node that should hold
it, and null if that has none. -/
inductive Malformed where
  | notNode (found : Json)
  | lacks (tag : Json) (key : String)
  | notText (key : String) (tag : Json)
  | notList (key : String) (tag : Json)
  | notNumber (found : Json)
  | unknownTag (family : Family) (tag : Json)
  | repeatedField (family : Family)
  | bogusPosition (found : Json)

def Malformed.message : Malformed → String
  | .notNode found => "Expected a node, got " ++ found.display
  | .lacks tag key => tag.display ++ " node lacks " ++ Text.quoted key
  | .notText key tag => Text.quoted key ++ " of " ++ tag.display ++ " node must be a string"
  | .notList key tag => Text.quoted key ++ " of " ++ tag.display ++ " node must be a list"
  | .notNumber found => "number node holds " ++ found.display
  | .unknownTag .type tag => "Unknown type tag " ++ tag.display
  | .unknownTag .term tag => "Unknown term tag " ++ tag.display
  | .repeatedField .type => "Object type repeats a field name"
  | .repeatedField .term => "Record literal repeats a field name"
  | .bogusPosition found => "Bogus position tag " ++ found.display

end StructuralTypes.Tree
