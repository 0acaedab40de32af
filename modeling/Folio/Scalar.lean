/-
  Scalars: the leaves of an element tree.

  A scalar is text, a signed 64-bit integer, a double or a truth value.  It has a text form, which
  is what remains of it when it is merged with its neighbours, and a JSON form, which keeps numbers
  numeric.  Some scalars are blank and never produce output.
-/
import Folio.Json.Basic

namespace Folio

/-- A terminal value in an element tree. -/
inductive Scalar where
  | string (value : String)
  | int (value : Int64)
  | float (value : Double)
  | bool (value : Bool)
  deriving DecidableEq

namespace Scalar

/-- Whether the scalar never produces output: empty text, a NaN and truth values never do, and a
    zero does not when zeros are dropped. -/
def isBlank (dropZero : Bool) : Scalar → Bool
  | string s => s.isEmpty
  | int n => dropZero && n.toInt == 0
  | float x => x.isNaN || dropZero && x.isZero
  | bool _ => true

/-- The scalar as running text. -/
def text : Scalar → String
  | string s => s
  | int n => toString n.toInt
  | float x => x.text
  | bool true => "true"
  | bool false => "false"

/-- The scalar as a JSON value.  A double that is not finite has no number form and becomes its
    text. -/
def toJson : Scalar → Json
  | string s => .string s
  | int n => .number (.ofInt64 n)
  | float x =>
    match Number.ofDouble? x with
    | some n => .number n
    | none => .string x.text
  | bool b => .bool b

/-- The scalar of a JSON number: an integer if it fits, else the nearest double. -/
def ofNumber : Number → Scalar
  | .int n _ => if n < 0x8000000000000000 then int (Int64.ofInt n) else float (Double.ofInt n)
  | .float x _ => float x

/-- The scalar of a JSON value; null, arrays and objects have none. -/
def ofJson? : Json → Option Scalar
  | .string s => some (string s)
  | .bool b => some (bool b)
  | .number n => some (ofNumber n)
  | .null | .array _ | .object _ => none

/-- Whether the scalar is read back from its JSON form, which a double is if it is finite. -/
def isFinite : Scalar → Bool
  | float x => x.isFinite
  | string _ | int _ | bool _ => true

/-- A signed 64-bit integer is read back from its number. -/
theorem ofNumber_ofInt64 (n : Int64) : ofNumber (.ofInt64 n) = .int n := by
  have hlt : n.toInt < 0x8000000000000000 := n.toInt_lt
  rw [Number.ofInt64, ofNumber, if_pos hlt, Int64.ofInt_toInt]

/-- A scalar is read back from its JSON form: integers as integers, and doubles as doubles. -/
theorem ofJson?_toJson {scalar : Scalar} (h : scalar.isFinite = true) :
    ofJson? scalar.toJson = some scalar := by
  cases scalar with
  | string s => rfl
  | int n => rw [toJson, ofJson?, ofNumber_ofInt64]
  | float x =>
    have hfinite : x.isFinite = true := h
    rw [toJson, Number.ofDouble?, dif_pos hfinite]
    rfl
  | bool b => rfl

/-- Equality: doubles compare as numbers, so a NaN differs from itself. -/
def eqv : Scalar → Scalar → Bool
  | string a, string b => a == b
  | int a, int b => a == b
  | float x, float y => x.eqv y
  | bool a, bool b => a == b
  | _, _ => false

end Scalar

example : (Scalar.float (.ofInt 2)).text = "2" := by decide +kernel
example : (Scalar.float (.infinity true)).text = "-Infinity" := by decide +kernel
example : (Scalar.bool true).isBlank false = true := by decide

end Folio
