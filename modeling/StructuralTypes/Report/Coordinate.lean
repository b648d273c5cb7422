import StructuralTypes.Decimal.Layout
import StructuralTypes.Decimal.Nearest
import StructuralTypes.Span

/-!
Coordinates of positions as numbers. Truth values count as zero and one. Arithmetic keeps whole
numbers whole and otherwise goes over to doubles; what is no number can be neither compared nor
shown.
-/

namespace StructuralTypes

inductive Unshowable where
  | notNumeric
  | infinite
  | undefined
  | tooLarge
  deriving DecidableEq, Repr

inductive Numeral where
  | whole (n : Int)
  | real (x : Float)

namespace Numeral

def ofJson : Json → Except Unshowable Numeral
  | .bool b => .ok (.whole (if b then 1 else 0))
  | .int n => .ok (.whole n)
  | .float x => .ok (.real x)
  | _ => .error .notNumeric

/-- Whole numbers as doubles; those beyond the range of doubles have none. -/
def approximate (n : Int) : Except Unshowable Float :=
  let x := Decimal.ofInt n
  if x.isFinite then .ok x else .error .tooLarge

def sub : Numeral → Numeral → Except Unshowable Numeral
  | .whole m, .whole n => .ok (.whole (m - n))
  | .real x, .real y => .ok (.real (x - y))
  | .whole m, .real y => do return .real ((← approximate m) - y)
  | .real x, .whole n => do return .real (x - (← approximate n))

/-- Whether a number is less than another; nothing is less or more than an undefined one. -/
def lt : Numeral → Numeral → Bool
  | .whole m, .whole n => m < n
  | .real x, .real y => x < y
  | .whole m, .real y =>
      match Decimal.truncate y with
      | some n => m < n || (m == n && Decimal.ofInt m < y)
      | none => 0 < y
  | .real x, .whole n =>
      match Decimal.truncate x with
      | some m => m < n || (m == n && x < Decimal.ofInt n)
      | none => x < 0

def same : Numeral → Numeral → Bool
  | .whole m, .whole n => m == n
  | .real x, .real y => x == y
  | .whole m, .real y => Decimal.truncate y == some m && Decimal.ofInt m == y
  | .real x, .whole n => Decimal.truncate x == some n && x == Decimal.ofInt n

end Numeral

namespace Position

/-- A coordinate as a decimal integer; fractions are cut off. -/
def showCoordinate (coordinate : Json) : Except Unshowable String := do
  match ← Numeral.ofJson coordinate with
  | .whole n => return toString n
  | .real x =>
      match Decimal.truncate x with
      | some n => return toString n
      | none => .error (if x.isNaN then .undefined else .infinite)

def render (p : Position) : Except Unshowable String := do
  return (← showCoordinate p.line) ++ ":" ++ (← showCoordinate p.column)

end Position

namespace Span

def render (s : Span) : Except Unshowable String := do
  return (← s.start.render) ++ "-" ++ (← s.stop.render)

def sameCoordinate (a b : Json) : Bool :=
  match Numeral.ofJson a, Numeral.ofJson b with
  | .ok a, .ok b => a.same b
  | _, _ => false

/-- How far the span reaches on the line it starts on, at least one column. If it goes on to another
line only its first column counts. -/
def widthOnFirstLine (s : Span) : Except Unshowable Numeral :=
  if sameCoordinate s.start.line s.stop.line then do
    let width ← (← Numeral.ofJson s.stop.column).sub (← Numeral.ofJson s.start.column)
    return if width.lt (.whole 1) then .whole 1 else width
  else .ok (.whole 1)

def describe : Option Span → Except Unshowable String
  | none => .ok "(unknown position)"
  | some s => s.render

end Span

end StructuralTypes
