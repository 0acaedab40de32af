/-
  Rounding exact numbers to the nearest double.

  `Double.nearest` rounds a quotient of natural numbers, ties to the even significand, in one
  division: the significand that comes out, added to its shift times `binade`, is already the
  magnitude, for subnormal and normal numbers alike, and a significand that rounds up to
  `2 ^ 53` carries into the exponent by itself.  Every rounding of this library is one of these.
-/
import Folio.Double.Basic

namespace Folio

/-- The quotient rounded to the nearest natural number, a half going to the even neighbour. -/
def roundHalfEven (num den : Nat) : Nat :=
  let q := num / den
  let twice := 2 * (num % den)
  if twice < den then q else if den < twice then q + 1 else q + q % 2

namespace Double

/-- The magnitude nearest to `num / den`; everything from the overflow threshold on is infinite. -/
def nearestMagnitude (num den : Nat) : Nat :=
  let scaled := num <<< 1074
  let shift := Nat.log2 (scaled / den) - 52
  min (shift * binade + roundHalfEven scaled (den <<< shift)) infiniteMagnitude

/-- The double nearest to `num / den` with the given sign. -/
def nearest (negative : Bool) (num den : Nat) : Double where
  negative := negative
  magnitude := nearestMagnitude num den
  magnitude_lt := Nat.lt_of_le_of_lt (Nat.min_le_right _ _) (by decide)

/-- The double nearest to an integer. -/
def ofInt (n : Int) : Double := nearest (n < 0) n.natAbs 1

end Double

/-! ## Quotients, checked -/

example : Double.nearest false 1 1 = Double.ofBits 0x3ff0000000000000 := by decide +kernel
example : Double.nearest false 1 10 = Double.ofBits 0x3fb999999999999a := by decide +kernel
example : Double.nearest false 5 (Nat.pow 10 324) = Double.ofBits 1 := by decide +kernel
example : Double.nearest true (2 * Nat.pow 10 308) 1 = Double.infinity true := by decide +kernel
example : Double.ofInt 9007199254740993 = Double.ofInt 9007199254740992 := by decide +kernel

end Folio
