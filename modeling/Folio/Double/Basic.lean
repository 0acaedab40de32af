/-
  Binary64 floating-point numbers as exact data.

  A `Double` is a sign and a 63-bit magnitude: the exponent field over the fraction field,
  read as one natural number.  Magnitudes are ordered as the absolute values they stand for,
  and every finite double is a whole number of units of `2 ^ -1074` (`Double.units`), so
  comparing, rounding and printing are all arithmetic on `Nat`.
-/

namespace Folio

/-- A binary64 number: its sign bit and its remaining 63 bits. -/
structure Double where
  negative : Bool
  magnitude : Nat
  magnitude_lt : magnitude < 0x8000000000000000 := by decide
  deriving DecidableEq, Repr

namespace Double

/-! ## Words -/

/-- The weight of the sign bit. -/
def signUnit : Nat := 0x8000000000000000

/-- One step of the exponent field, which is also the implicit leading bit of a fraction. -/
def binade : Nat := 0x10000000000000

/-- The magnitude of an infinity; every larger magnitude is not a number. -/
def infiniteMagnitude : Nat := 2047 * binade

/-- The number whose 64 bits are the word `w` (higher bits are ignored). -/
def ofBits (w : Nat) : Double where
  negative := w / signUnit % 2 == 1
  magnitude := w % signUnit
  magnitude_lt := Nat.mod_lt _ (by decide)

/-- The 64 bits of a number as a natural number. -/
def toBits (x : Double) : Nat :=
  (if x.negative then signUnit else 0) + x.magnitude

/-- The zero of a sign. -/
def zero (negative : Bool) : Double := ⟨negative, 0, by decide⟩

/-- The infinity of a sign. -/
def infinity (negative : Bool) : Double := ⟨negative, infiniteMagnitude, by decide⟩

/-! ## Kinds of numbers -/

def isNaN (x : Double) : Bool := infiniteMagnitude < x.magnitude

def isInfinite (x : Double) : Bool := x.magnitude == infiniteMagnitude

def isFinite (x : Double) : Bool := x.magnitude < infiniteMagnitude

def isZero (x : Double) : Bool := x.magnitude == 0

theorem isFinite_of_isZero {x : Double} (h : x.isZero = true) : x.isFinite = true := by
  have hmagnitude : x.magnitude = 0 := by simpa [isZero] using h
  rw [isFinite, hmagnitude]
  rfl

theorem not_isNaN_of_isFinite {x : Double} (h : x.isFinite = true) : x.isNaN = false := by
  simp only [isFinite, isNaN, decide_eq_true_eq, decide_eq_false_iff_not] at h ⊢
  omega

/-- Numerical equality: a NaN differs from everything, and the two zeros are equal. -/
def eqv (x y : Double) : Bool :=
  !x.isNaN && (x.isZero && y.isZero || x == y)

/-! ## Exact values -/

/-- How far the significand of a magnitude is shifted to the left in units of `2 ^ -1074`. -/
def shiftOf (magnitude : Nat) : Nat := magnitude / binade - 1

/-- The absolute value that a finite magnitude stands for, in units of `2 ^ -1074`.  Subnormal
    numbers and the first binade are their own magnitude; each later binade doubles. -/
def unitsOf (magnitude : Nat) : Nat :=
  (magnitude - shiftOf magnitude * binade) <<< shiftOf magnitude

/-- The absolute value of a finite number in units of `2 ^ -1074`. -/
def units (x : Double) : Nat := unitsOf x.magnitude

end Double

/-! ## Words, checked -/

example : (Double.ofBits 0x3ff0000000000000).units = 1 <<< 1074 := by decide +kernel
example : (Double.ofBits 0x8000000000000001).negative = true := by decide +kernel
example : (Double.ofBits 0x8000000000000001).units = 1 := by decide +kernel
example : (Double.ofBits 0x7ff8000000000000).isNaN = true := by decide +kernel
example : (Double.zero false).eqv (Double.zero true) = true := by decide +kernel

end Folio
