import StructuralTypes.Decimal.Power

/-!
The double nearest to a decimal number. A number is given exactly, as a quotient of natural
numbers; the result is the bit pattern of the double that is closest to it, the even one of two that
are equally close. Numbers beyond the largest double become infinite.
-/

namespace StructuralTypes.Decimal

/-- The integer nearest to `num / den`; a half goes to the even neighbour. -/
def roundQuotient (num den : Nat) : Nat :=
  let q := num / den
  let twice := 2 * (num % den)
  if twice < den then q
  else if den < twice then q + 1
  else q + q % 2

def scaleTwo (num den : Nat) (e : Int) : Nat × Nat :=
  if 0 ≤ e then (num * twoTo e.toNat, den) else (num, den * twoTo (-e).toNat)

def infinityBits : Nat := 0x7ff * twoTo 52

/-- The exponent of the last place of the double nearest to the positive quotient `num / den`: the
significand has 53 bits unless the number is too small for that. -/
def lastPlace (num den : Nat) : Int :=
  let guess : Int := (num.log2 : Int) - den.log2 - 52
  let scaled := scaleTwo num den (-guess)
  let exact := if scaled.1 / scaled.2 < twoTo 52 then guess - 1 else guess
  max exact (-1074)

def nearestBits (num den : Nat) : Nat :=
  if num = 0 then 0
  else
    let place := lastPlace num den
    let scaled := scaleTwo num den (-place)
    let significand := roundQuotient scaled.1 scaled.2
    if significand < twoTo 52 then significand
    else min infinityBits ((place + 1075).toNat * twoTo 52 + (significand - twoTo 52))

/-- The bits of the double nearest to `digits * 10 ^ exponent`. Numbers far outside the range of
doubles are settled by their size, before any power of ten is formed. -/
def decimalBits (digits : Nat) (exponent : Int) : Nat :=
  let count := (Nat.toDigits 10 digits).length
  if digits = 0 then 0
  else if 310 < count + exponent then infinityBits
  else if count + exponent < -330 then 0
  else if 0 ≤ exponent then nearestBits (digits * tenTo exponent.toNat) 1
  else nearestBits digits (tenTo (-exponent).toNat)

def toFloat (negative : Bool) (digits : Nat) (exponent : Int) : Float :=
  let bits := decimalBits digits exponent
  Float.ofBits (UInt64.ofNat (if negative then twoTo 63 + bits else bits))

def ofInt (n : Int) : Float :=
  toFloat (n < 0) n.natAbs 0

end StructuralTypes.Decimal
