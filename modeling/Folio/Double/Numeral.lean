/-
  Doubles as text.

  A `NumeralStyle` lays out the shortest decimal of a finite double: positionally while the
  exponent of its first digit stays within bounds, and otherwise as `d.ddde+N` or `d.ddde-N`.
  Two styles are in use: `NumeralStyle.json` for numbers in JSON text and `NumeralStyle.plain`
  for numbers that become part of a run of text.
-/
import Folio.Double.Shortest

namespace Folio

/-- How a decimal is laid out. -/
structure NumeralStyle where
  /-- The least exponent of the first digit that is still written positionally. -/
  lowest : Int
  /-- The greatest exponent of the first digit that is still written positionally. -/
  highest : Int
  /-- What follows the digits of a positional numeral that has no fraction. -/
  wholeEnd : List Char
  /-- What is written for a zero. -/
  zero : List Char
  /-- Whether a zero keeps its sign. -/
  signedZero : Bool
  tie : Tie

namespace NumeralStyle

/-- JSON text: `1.0`, `0.00001`, `1e-6`, `1e+16`, `-0.0`. -/
def json : NumeralStyle := ⟨-5, 15, ['.', '0'], ['0', '.', '0'], true, .even⟩

/-- Running text: `1`, `0.000001`, `1e-7`, `1e+21`, `0`. -/
def plain : NumeralStyle := ⟨-6, 20, [], ['0'], false, .up⟩

/-- A positional numeral: zeros fill the gap between the digits and the point on either side. -/
def positional (style : NumeralStyle) (digits : List Char) (leading : Int) : List Char :=
  if leading < 0 then
    '0' :: '.' :: (List.replicate (-leading - 1).toNat '0' ++ digits)
  else
    let whole := (leading + 1).toNat
    if digits.length ≤ whole then
      digits ++ List.replicate (whole - digits.length) '0' ++ style.wholeEnd
    else
      digits.take whole ++ '.' :: digits.drop whole

/-- A numeral in exponent form: one digit before the point, no point without a fraction. -/
def scientific (digits : List Char) (leading : Int) : List Char :=
  let sign := if leading < 0 then '-' else '+'
  let fraction := match digits.drop 1 with
    | [] => []
    | rest => '.' :: rest
  digits.take 1 ++ fraction ++ 'e' :: sign :: Nat.toDigits 10 leading.natAbs

/-- A positive decimal in this style. -/
def decimal (style : NumeralStyle) (d : Decimal) : List Char :=
  if style.lowest ≤ d.leading && d.leading ≤ style.highest then
    style.positional d.digits d.leading
  else
    scientific d.digits d.leading

/-- A finite double in this style. -/
def double (style : NumeralStyle) (x : Double) : List Char :=
  if x.isZero then
    if style.signedZero && x.negative then '-' :: style.zero else style.zero
  else
    let digits := style.decimal (x.shortest style.tie)
    if x.negative then '-' :: digits else digits

end NumeralStyle

namespace Double

/-- The text of a double in a run of text; here the numbers that are not finite have a form too. -/
def text (x : Double) : String :=
  if x.isNaN then "NaN"
  else if x.isInfinite then if x.negative then "-Infinity" else "Infinity"
  else String.ofList (NumeralStyle.plain.double x)

end Double

/-! ## Layouts, checked -/

example : (Double.ofInt 1000000000000000000000).text = "1e+21" := by decide +kernel
example : (Double.ofInt 150000000000000000000).text = "150000000000000000000" := by decide +kernel
example : (Double.nearest true 125 100000000).text = "-0.00000125" := by decide +kernel
example : (Double.nearest false 125 1000000000).text = "1.25e-7" := by decide +kernel
example : NumeralStyle.json.double (Double.ofInt 100) = "100.0".toList := by decide +kernel
example : NumeralStyle.json.double (Double.ofInt 10000000000000000) = "1e+16".toList := by
  decide +kernel
example : NumeralStyle.json.double (Double.nearest false 1 100000) = "0.00001".toList := by
  decide +kernel

end Folio
