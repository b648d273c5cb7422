import StructuralTypes.Decimal.Shortest

/-!
How a double is written: with its shortest digits, positionally where the exponent is moderate and
in scientific form elsewhere.
-/

namespace StructuralTypes.Decimal

structure Layout where
  /-- The decimal exponents from `leastPositional` to `mostPositional` are written positionally. -/
  leastPositional : Int
  mostPositional : Int
  /-- The exponent of scientific form has at least this many digits. -/
  exponentWidth : Nat
  infinite : String
  undefined : String

/-- Numbers in messages: `0.0001` and `1000000000000000.0` are still positional, `1e-05` and
`1e+16` no longer are. -/
def display : Layout := ⟨-4, 15, 2, "inf", "nan"⟩

def zeros (n : Nat) : List Char := List.replicate n '0'

/-- Digits with the decimal point among or beside them; a whole number keeps a zero after it. -/
def positional (ds : List Char) (point : Int) : List Char :=
  if point ≤ 0 then '0' :: '.' :: zeros (-point).toNat ++ ds
  else if ds.length ≤ point.toNat then ds ++ zeros (point.toNat - ds.length) ++ ['.', '0']
  else ds.take point.toNat ++ '.' :: ds.drop point.toNat

def scientific (width : Nat) (ds : List Char) (exponent : Int) : List Char :=
  let mantissa := match ds with
    | d :: rest => if rest.isEmpty then [d] else d :: '.' :: rest
    | [] => []
  let power := Nat.toDigits 10 exponent.natAbs
  let sign := if exponent < 0 then '-' else '+'
  mantissa ++ 'e' :: sign :: zeros (width - power.length) ++ power

def Layout.finite (l : Layout) (d : Digits) : List Char :=
  let ds := Nat.toDigits 10 d.digits
  let exponent := d.point - 1
  if l.leastPositional ≤ exponent ∧ exponent ≤ l.mostPositional then positional ds d.point
  else scientific l.exponentWidth ds exponent

def Layout.write (l : Layout) (x : Float) : String :=
  let (negative, magnitude) := decode x
  let signed := fun text : String => if negative then "-" ++ text else text
  match magnitude with
  | .zero => signed "0.0"
  | .finite significand exponent =>
      signed (String.ofList (l.finite (shortest significand exponent)))
  | .infinite => signed l.infinite
  | .undefined => l.undefined

def truncate (x : Float) : Option Int :=
  let (negative, magnitude) := decode x
  let signed := fun n : Nat => if negative then -(n : Int) else n
  match magnitude with
  | .zero => some 0
  | .finite significand exponent =>
      some (signed (if 0 ≤ exponent then significand * twoTo exponent.toNat
        else significand / twoTo (-exponent).toNat))
  | .infinite => none
  | .undefined => none

end StructuralTypes.Decimal
