import StructuralTypes.File.Basic
import StructuralTypes.Json.Parser
import StructuralTypes.Tree.ReadTerm

/-!
Loading a program from a file that holds its tree as JSON text.
-/

namespace StructuralTypes.Tree

inductive LoadError where
  | notText
  | notJson (text : List Char) (mistake : Json.Mistake)
  | unpairedSurrogate
  | unread (failure : Failure)

def load (bytes : ByteArray) : Except LoadError (Term (Option Span)) :=
  match File.text? bytes with
  | none => .error .notText
  | some text =>
      match Json.parse text with
      | .error (.mistake m) => .error (.notJson text m)
      | .error .unpairedSurrogate => .error .unpairedSurrogate
      | .ok tree => (readTerm tree).mapError .unread

end StructuralTypes.Tree
