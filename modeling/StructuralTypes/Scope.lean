import StructuralTypes.Ty.Basic

/-!
Scopes give types to names. Extending a scope leaves the old one as it was, so scopes beside each
other never see each other's names.
-/

namespace StructuralTypes

/-- The names in scope with their types, the latest first. -/
abbrev Scope := Row

namespace Scope

def empty : Scope := []

/-- Adds names in the order of assignments: of a repeated name the last type counts. -/
def extend (scope : Scope) (pairs : Row) : Scope := pairs.reverse ++ scope

def bind (scope : Scope) (name : String) (type : Ty) : Scope := (name, type) :: scope

def resolve (scope : Scope) (name : String) : Option Ty := scope.lookup name

@[simp] theorem resolve_bind (scope : Scope) (name other : String) (type : Ty) :
    (scope.bind name type).resolve other =
      if other = name then some type else scope.resolve other := by
  by_cases h : other = name
  · simp [bind, resolve, h]
  · simp [bind, resolve, h, List.lookup_cons, show (other == name) = false by simp [h]]

/-- A name means what the pairs say last, or else what it meant before. -/
theorem resolve_extend (scope : Scope) (pairs : Row) (name : String) :
    (scope.extend pairs).resolve name =
      (pairs.reverse.lookup name).or (scope.resolve name) := by
  simp [extend, resolve, List.lookup_append]

end Scope

end StructuralTypes
