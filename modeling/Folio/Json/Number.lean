/-
  JSON numbers.

  A number is an integer that fits 64 bits, signed or unsigned, or a finite double.  The integer
  `1` and the double `1.0` are different numbers: each is written back the way it was read.
-/
import Folio.Double.Numeral

namespace Folio

/-- A JSON number. -/
inductive Number where
  /-- An integer in the joint range of signed and unsigned 64-bit words. -/
  | int (value : Int) (inRange : -0x8000000000000000 ≤ value ∧ value < 0x10000000000000000)
  /-- A finite double. -/
  | float (value : Double) (finite : value.isFinite = true)
  deriving DecidableEq

namespace Number

/-- The integer as a number, if it is in range. -/
def ofInt? (n : Int) : Option Number :=
  if h : -0x8000000000000000 ≤ n ∧ n < 0x10000000000000000 then some (.int n h) else none

/-- The double as a number, if it is finite. -/
def ofDouble? (x : Double) : Option Number :=
  if h : x.isFinite = true then some (.float x h) else none

/-- A signed 64-bit integer as a number. -/
def ofInt64 (n : Int64) : Number :=
  .int n.toInt ⟨n.le_toInt, Int.lt_trans n.toInt_lt (by decide)⟩

/-- A small natural number as a number. -/
def ofNat (n : Nat) (h : n < 0x10000000000000000 := by decide) : Number :=
  .int n ⟨by omega, by omega⟩

/-- The double nearest to the number. -/
def toDouble : Number → Double
  | .int n _ => .ofInt n
  | .float x _ => x

/-- Whether the number is a zero of any form. -/
def isZero : Number → Bool
  | .int n _ => n == 0
  | .float x _ => x.isZero

/-- Equality: integers and doubles are never equal, and the two double zeros are. -/
def eqv : Number → Number → Bool
  | .int a _, .int b _ => a == b
  | .float x _, .float y _ => x.eqv y
  | _, _ => false

/-- The text of a number in JSON. -/
def text : Number → String
  | .int n _ => toString n
  | .float x _ => String.ofList (NumeralStyle.json.double x)

end Number

end Folio
