/-
  Doubles from decimal literals.

  A literal is evaluated in double arithmetic, one rounded step after the other: its significand
  becomes a double, which is then multiplied or divided by a power of ten that is itself a double.
  Where the significand and the power are exact, the result is the double nearest to the literal;
  elsewhere the roundings add up, and it may be a neighbour of that one.

  Powers of ten are doubles up to `10 ^ 308` only.  A larger one to multiply by is an overflow, and
  a larger one to divide by is taken in two divisions, which no significand of 64 bits outlasts.
-/
import Folio.Double.Rounding

namespace Folio

namespace Double

/-! ## Arithmetic on finite doubles -/

/-- The product, rounded to the nearest double.  Units count in `2 ^ -1074`, so the product of two
    numbers of units counts in `2 ^ -2148`. -/
def mul (x y : Double) : Double :=
  nearest (x.negative != y.negative) (x.units * y.units) (1 <<< 2148)

/-- The quotient by a number other than zero, rounded to the nearest double. -/
def div (x y : Double) : Double :=
  nearest (x.negative != y.negative) x.units y.units

/-! ## Powers of ten -/

/-- The exponent of the largest power of ten that is a finite double. -/
def largestPower : Nat := 308

/-- The double nearest to a power of ten. -/
def powerOfTen (exponent : Nat) : Double := nearest false (Nat.pow 10 exponent) 1

/-- Multiplies by a power of ten; only zero survives more than the largest. -/
def scaleUp (x : Double) (exponent : Nat) : Double :=
  if x.isZero then x
  else if exponent ≤ largestPower then x.mul (powerOfTen exponent)
  else infinity x.negative

/-- Divides a double below `2 ^ 64` by a power of ten.  The second of two divisions by the largest
    power yields a zero, so no further one is looked at. -/
def scaleDown (x : Double) (exponent : Nat) : Double :=
  if exponent ≤ largestPower then x.div (powerOfTen exponent)
  else
    (x.div (powerOfTen largestPower)).div
      (powerOfTen (min (exponent - largestPower) largestPower))

/-- The double of the literal `significand * 10 ^ exponent`, for a significand of 64 bits. -/
def scaled (negative : Bool) (significand : Nat) (exponent : Int) : Double :=
  let x := nearest negative significand 1
  if 0 ≤ exponent then x.scaleUp exponent.toNat else x.scaleDown exponent.natAbs

end Double

/-! ## Literals, checked -/

example : Double.scaled false 1 (-1) = Double.ofBits 0x3fb999999999999a := by decide +kernel
example : Double.scaled true 0 400 = Double.zero true := by decide +kernel
example : Double.scaled false 5 (-324) = Double.ofBits 1 := by decide +kernel
example : Double.scaled false 0xffffffffffffffff (-617) = Double.zero false := by decide +kernel
example : Double.scaled false 17976931348623157 292 = Double.ofBits 0x7fefffffffffffff := by
  decide +kernel
example : Double.scaled true 2 308 = Double.infinity true := by decide +kernel

/-! No double is `10 ^ 23`, and dividing by the one in its place misses the nearest double. -/

example : Double.scaled false 1 (-23) = Double.ofBits 0x3b282db34012b252 := by decide +kernel
example : Double.nearest false 1 (Nat.pow 10 23) = Double.ofBits 0x3b282db34012b251 := by
  decide +kernel

end Folio
