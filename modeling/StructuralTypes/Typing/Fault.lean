import StructuralTypes.Term.Basic
import StructuralTypes.Ty.Defect

/-!
What can be wrong with a program. A fault names the rule that is broken and the term to blame.
-/

namespace StructuralTypes

/-- A broken rule, with the types and names that the explanation mentions. -/
inductive Cause where
  | conditionNotBoolean (found : Ty)
  | branchTypeMismatch (yes no : Ty)
  | operandNotNumber (found : Ty)
  | unknownVariable (name : String)
  | notAFunction (found : Ty)
  | argumentCountMismatch (expected found : Nat)
  | argumentTypeMismatch (param : String) (needed found : Ty)
  | notAnObject (found : Ty) (field : String)
  | unknownField (found : Ty) (field : String)
  | returnTypeMismatch (name : String) (declared found : Ty)
  deriving Repr

def Cause.kind : Cause → String
  | .conditionNotBoolean .. => "ConditionNotBoolean"
  | .branchTypeMismatch .. => "BranchTypeMismatch"
  | .operandNotNumber .. => "OperandNotNumber"
  | .unknownVariable .. => "UnknownVariable"
  | .notAFunction .. => "NotAFunction"
  | .argumentCountMismatch .. => "ArgumentCountMismatch"
  | .argumentTypeMismatch .. => "ArgumentTypeMismatch"
  | .notAnObject .. => "NotAnObject"
  | .unknownField .. => "UnknownField"
  | .returnTypeMismatch .. => "ReturnTypeMismatch"

def Cause.message : Cause → String
  | .conditionNotBoolean found =>
      "There is no implicit Boolean conversion; got " ++ found.render ++ "."
  | .branchTypeMismatch yes no =>
      "The branches have different types: " ++ yes.render ++ " versus " ++ no.render ++ "."
  | .operandNotNumber found => "Only numbers can be added; this is " ++ found.render ++ "."
  | .unknownVariable name => "I don't see what '" ++ name ++ "' refers to."
  | .notAFunction found => "Dunno how to call " ++ found.render ++ " as a function."
  | .argumentCountMismatch expected found =>
      "This takes " ++ toString expected ++ " argument(s), but got " ++ toString found ++
        " instead."
  | .argumentTypeMismatch param needed found =>
      "Parameter '" ++ param ++ "' needs " ++ needed.render ++ ", but this is " ++
        found.render ++ "."
  | .notAnObject found field =>
      found.render ++ " has no fields; in particular not '" ++ field ++ "'."
  | .unknownField found field =>
      "Type '" ++ found.render ++ "' has fields, but not one called '" ++ field ++ "'."
  | .returnTypeMismatch name declared found =>
      "'" ++ name ++ "' is declared to return " ++ declared.render ++ " but produces " ++
        found.render ++ "."

structure Fault (P : Type) where
  term : Term P
  cause : Cause

/-- Why a term has no type: it is at fault, or the types it was given are defective. -/
inductive Failure (P : Type) where
  | fault (fault : Fault P)
  | defect (defect : Defect)

end StructuralTypes
