/-
  The shortest decimal that reads back as a given double.

  The decimals that round to a finite double form an interval around it, ends included exactly
  when its magnitude is even.  In units of `10 ^ -1075` the double and both ends of its interval
  are natural numbers, so the search is exact: on the grids `10 ^ k`, from coarse to fine, it
  tests the two neighbours of the number and stops at the first grid that has one inside.
  On the grid `10 ^ 0` the number itself is a point, so the search always ends with a hit.
-/
import Folio.Double.Rounding

namespace Folio

/-- The number `significand * 10 ^ exponent`. -/
structure Decimal where
  significand : Nat
  exponent : Int
  deriving DecidableEq, Repr

namespace Decimal

/-- The digits of the significand, most significant first. -/
def digits (d : Decimal) : List Char := Nat.toDigits 10 d.significand

/-- The exponent of ten of the first digit. -/
def leading (d : Decimal) : Int := d.digits.length - 1 + d.exponent

end Decimal

/-- Which of two equally near decimals is taken. -/
inductive Tie where
  /-- The one whose last digit is even. -/
  | even
  /-- The larger one. -/
  | up
  deriving DecidableEq, Repr

/-- The numbers that round to one double, in units of `10 ^ -1075`. -/
structure RoundingInterval where
  low : Nat
  value : Nat
  high : Nat
  /-- Whether the ends themselves round to the double. -/
  closed : Bool

namespace RoundingInterval

/-- Membership, the ends counting when the interval is closed. -/
def contains (i : RoundingInterval) (x : Nat) : Bool :=
  if i.closed then i.low ≤ x && x ≤ i.high else i.low < x && x < i.high

/-- The multiple of `unit` in the interval that is nearest to the value, divided by `unit`.
    Only the two neighbours of the value need a look. -/
def onGrid? (i : RoundingInterval) (tie : Tie) (unit : Nat) : Option Nat :=
  let q := i.value / unit
  let below := q * unit
  let above := below + unit
  match i.contains below, i.contains above with
  | false, false => none
  | true, false => some q
  | false, true => some (q + 1)
  | true, true =>
    let down := i.value - below
    let up := above - i.value
    if down < up then some q
    else if up < down then some (q + 1)
    else match tie with
      | .up => some (q + 1)
      | .even => some (q + q % 2)

/-- The point of the coarsest grid among `10 ^ k, …, 10 ^ 0` that lies in the interval. -/
def shortest (i : RoundingInterval) (tie : Tie) : Nat → Decimal
  | 0 => ⟨i.value, -1075⟩
  | k + 1 =>
    match i.onGrid? tie (Nat.pow 10 (k + 1)) with
    | some s => ⟨s, (k + 1 : Nat) - 1075⟩
    | none => i.shortest tie k

end RoundingInterval

namespace Double

/-- The interval of a positive finite magnitude: it ends half way to the magnitude's neighbours. -/
def interval (magnitude : Nat) : RoundingInterval where
  low := (unitsOf (magnitude - 1) + unitsOf magnitude) * Nat.pow 5 1075
  value := 2 * unitsOf magnitude * Nat.pow 5 1075
  high := (unitsOf magnitude + unitsOf (magnitude + 1)) * Nat.pow 5 1075
  closed := magnitude % 2 == 0

/-- The number of decimal digits of a natural number. -/
def digitCount (n : Nat) : Nat := (Nat.toDigits 10 n).length

/-- The shortest decimal of the absolute value of a finite non-zero double: fewest digits
    first, then nearest, then by the rule for ties. -/
def shortest (tie : Tie) (x : Double) : Decimal :=
  let i := interval x.magnitude
  i.shortest tie (digitCount i.value)

end Double

/-! ## Digits, checked -/

example : (Double.ofBits 1).shortest .even = ⟨5, -324⟩ := by decide +kernel
example : (Double.ofBits 0x3fb999999999999a).shortest .even = ⟨1, -1⟩ := by decide +kernel
example : (Double.ofBits 0x3e60000000000000).shortest .even = ⟨29802322387695312, -24⟩ := by
  decide +kernel
example : (Double.ofBits 0x3e60000000000000).shortest .up = ⟨29802322387695313, -24⟩ := by
  decide +kernel
example : (Double.ofBits 0x4340000000000000).shortest .even = ⟨9007199254740992, 0⟩ := by
  decide +kernel

end Folio
