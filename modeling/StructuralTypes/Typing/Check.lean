import StructuralTypes.Scope
import StructuralTypes.Ty.Equality
import StructuralTypes.Ty.Head
import StructuralTypes.Ty.Subtyping
import StructuralTypes.Typing.Fault

/-!
The type of a term. Each kind of term has one rule, which works out its type from the types of its
parts; the first rule that is broken ends the check. Where a rule asks what sort of type something
has, it looks at the head of the type. The result type of a recursive function is declared, so a
call inside its body has a type before the body has been checked.
-/

namespace StructuralTypes

inductive CallRule where
  /-- It is any subtype of it. -/
  | subtyping
  /-- It is equal to it. -/
  | exact
  deriving DecidableEq, Repr

def CallRule.fits : CallRule → Ty → Ty → Except Defect Bool
  | .subtyping => Ty.isSubtype
  | .exact => Ty.equals

def Literal.type : Literal → Ty
  | .bool _ => .boolean
  | .int _ => .number
  | .float _ => .number

namespace Term

variable {P : Type}

def liftDefect {α : Type} : Except Defect α → Except (Failure P) α
  | .ok a => .ok a
  | .error d => .error (.defect d)

def blame {α : Type} (t : Term P) (cause : Cause) : Except (Failure P) α :=
  .error (.fault ⟨t, cause⟩)

mutual

def check (rule : CallRule) (scope : Scope) : Term P → Except (Failure P) Ty
  | literal _ value => .ok value.type
  | cond p test yes no => do
      let testType ← check rule scope test
      match ← liftDefect testType.head with
      | .boolean => do
          let yesType ← check rule scope yes
          let noType ← check rule scope no
          if ← liftDefect (yesType.equals noType) then return yesType
          else blame (cond p test yes no) (.branchTypeMismatch yesType noType)
      | _ => blame test (.conditionNotBoolean testType)
  | add _ left right => do
      let leftType ← check rule scope left
      match ← liftDefect leftType.head with
      | .number => do
          let rightType ← check rule scope right
          match ← liftDefect rightType.head with
          | .number => return .number
          | _ => blame right (.operandNotNumber rightType)
      | _ => blame left (.operandNotNumber leftType)
  | ref p name =>
      match scope.resolve name with
      | some t => .ok t
      | none => blame (ref p name) (.unknownVariable name)
  | lambda _ params body => do
      let result ← check rule (scope.extend params) body
      return .func params result
  | call p callee args => do
      let calleeType ← check rule scope callee
      match ← liftDefect calleeType.head with
      | .func params result =>
          if params.length = args.length then do
            checkArgs rule scope args params
            return result
          else blame (call p callee args) (.argumentCountMismatch params.length args.length)
      | t => blame callee (.notAFunction t)
  | seq _ first rest => do
      let _ ← check rule scope first
      check rule scope rest
  | const _ name init rest => do
      let initType ← check rule scope init
      check rule (scope.bind name initType) rest
  | record _ fields => do
      let row ← checkFields rule scope fields
      liftDefect (Ty.mkObject row)
  | field p owner name => do
      let ownerType ← check rule scope owner
      match ← liftDefect ownerType.head with
      | .object fields =>
          match fields.lookup name with
          | some t => return t
          | none => blame (field p owner name) (.unknownField (.object fields) name)
      | t => blame owner (.notAnObject t name)
  | letRec p name params result body rest => do
      let signature := Ty.func params result
      let bodyType ← check rule ((scope.extend params).bind name signature) body
      if ← liftDefect (result.equals bodyType) then
        check rule (scope.bind name signature) rest
      else
        blame (letRec p name params result body rest) (.returnTypeMismatch name result bodyType)

def checkArgs (rule : CallRule) (scope : Scope) : List (Term P) → Row → Except (Failure P) Unit
  | arg :: args, (name, needed) :: params => do
      let found ← check rule scope arg
      if ← liftDefect (rule.fits found needed) then checkArgs rule scope args params
      else blame arg (.argumentTypeMismatch name needed found)
  | _, _ => .ok ()

def checkFields (rule : CallRule) (scope : Scope) :
    List (String × Term P) → Except (Failure P) Row
  | [] => .ok []
  | (name, t) :: fields => do
      let type ← check rule scope t
      let row ← checkFields rule scope fields
      return (name, type) :: row

end

end Term

end StructuralTypes
