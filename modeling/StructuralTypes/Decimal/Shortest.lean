import StructuralTypes.Decimal.Power

/-!
The shortest decimal that reads back as a given double. A positive finite double is a significand
times a power of two, and the reals that round to it form an interval around it. Of the decimals in
that interval the ones with the fewest digits are considered, and of those the nearest is taken.
-/

namespace StructuralTypes.Decimal

/-- The positive decimal `0.d₁d₂d₃… * 10 ^ point`, with the digits `d₁d₂d₃…` given as one number
that does not end in zero. -/
structure Digits where
  digits : Nat
  point : Int
  deriving Repr

def digitCount (n : Nat) : Nat := (Nat.toDigits 10 n).length

/-- An interval of rationals `low / den … high / den` around `mid / den`. -/
structure Interval where
  low : Nat
  mid : Nat
  high : Nat
  den : Nat
  closed : Bool

/-- The reals that round to `significand * 2 ^ exponent`. The ends belong to it when the significand
is even; the lower end is closer where doubles begin to lie closer together. -/
def Interval.around (significand : Nat) (exponent : Int) : Interval :=
  let scale := fun n : Nat => if 2 ≤ exponent then n * twoTo (exponent - 2).toNat else n
  let below := if significand = twoTo 52 ∧ -1074 < exponent then 1 else 2
  { low := scale (4 * significand - below)
    mid := scale (4 * significand)
    high := scale (4 * significand + 2)
    den := if 2 ≤ exponent then 1 else twoTo (2 - exponent).toNat
    closed := significand % 2 == 0 }

def Interval.contains (i : Interval) (num den : Nat) : Bool :=
  if i.closed then i.low * den ≤ num * i.den && num * i.den ≤ i.high * den
  else i.low * den < num * i.den && num * i.den < i.high * den

/-- The power of ten just above the middle of the interval: `10 ^ (k - 1) ≤ mid / den < 10 ^ k`. -/
def Interval.magnitude (i : Interval) : Int :=
  if i.den ≤ i.mid then digitCount (i.mid / i.den)
  else 1 - digitCount ((i.den - 1) / i.mid)

/-- The decimal with `count` digits in the interval that is nearest to its middle, if there is one;
of two equally near the even one. -/
def Interval.decimal? (i : Interval) (count : Nat) : Option Nat :=
  let shift := (count : Int) - i.magnitude
  let up := tenTo shift.toNat
  let down := tenTo (-shift).toNat
  let floor := i.mid * up / (i.den * down)
  let remainder := i.mid * up % (i.den * down)
  let inside := fun d : Nat => i.contains (d * down) up
  match inside floor, inside (floor + 1) with
  | true, true =>
      if 2 * remainder < i.den * down then some floor
      else if i.den * down < 2 * remainder then some (floor + 1)
      else some (floor + floor % 2)
  | true, false => some floor
  | false, true => some (floor + 1)
  | false, false => none

def stripZeros : (fuel n : Nat) → Nat
  | 0, n => n
  | fuel + 1, n => if n % 10 = 0 then stripZeros fuel (n / 10) else n

def Interval.search (i : Interval) : (fuel count : Nat) → Digits
  | 0, count => ⟨i.mid / i.den, count⟩
  | fuel + 1, count =>
      match i.decimal? count with
      | some d =>
          -- a carry into a new digit moves the decimal point
          let carry : Int := digitCount d - count
          ⟨stripZeros count d, i.magnitude + carry⟩
      | none => i.search fuel (count + 1)

/-- The shortest digits of `significand * 2 ^ exponent`. Seventeen digits always suffice. -/
def shortest (significand : Nat) (exponent : Int) : Digits :=
  (Interval.around significand exponent).search 17 1

inductive Magnitude where
  | zero
  | finite (significand : Nat) (exponent : Int)
  | infinite
  | undefined

def Magnitude.ofBits (bits : Nat) : Magnitude :=
  let field : Nat := bits / twoTo 52 % twoTo 11
  let fraction := bits % twoTo 52
  if field = 0x7ff then if fraction = 0 then .infinite else .undefined
  else if field = 0 then if fraction = 0 then .zero else .finite fraction (-1074)
  else .finite (twoTo 52 + fraction) ((field : Int) - 1075)

def decode (x : Float) : Bool × Magnitude :=
  let bits := x.toBits.toNat
  (twoTo 63 ≤ bits, .ofBits bits)

end StructuralTypes.Decimal
