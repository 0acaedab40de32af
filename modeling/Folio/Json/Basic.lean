/-
  JSON values.

  An object is a list of fields.  A value whose objects all have strictly increasing keys is in
  normal form (`Json.Normal`): that is how values are read, and how attributes hold them.  Objects
  that list their fields in an order of their own, such as a serialized document, are not, and
  `Json.normalize` brings them there (`normal_normalize`).
-/
import Folio.Dict
import Folio.Json.Number

namespace Folio

/-- A JSON value. -/
inductive Json where
  | null
  | bool (value : Bool)
  | number (value : Number)
  | string (value : String)
  | array (items : List Json)
  | object (fields : List (String × Json))

instance : Inhabited Json := ⟨.null⟩

namespace Json

/-! ## Look-up -/

/-- The field of an object. -/
def get? (key : String) : Json → Option Json
  | .object fields => lookup key fields
  | _ => none

/-- The text of a string. -/
def asString? : Json → Option String
  | .string s => some s
  | _ => none

/-! ## Equality -/

mutual

/-- Equality up to the equality of numbers. -/
def eqv : Json → Json → Bool
  | .null, .null => true
  | .bool a, .bool b => a == b
  | .number a, .number b => a.eqv b
  | .string a, .string b => a == b
  | .array a, .array b => eqvItems a b
  | .object a, .object b => eqvFields a b
  | _, _ => false

def eqvItems : List Json → List Json → Bool
  | [], [] => true
  | a :: as, b :: bs => eqv a b && eqvItems as bs
  | _, _ => false

def eqvFields : List (String × Json) → List (String × Json) → Bool
  | [], [] => true
  | (k, a) :: as, (l, b) :: bs => k == l && eqv a b && eqvFields as bs
  | _, _ => false

end

/-! ## Normal form -/

mutual

/-- Every object in the value has strictly increasing keys. -/
def Normal : Json → Prop
  | .array items => NormalItems items
  | .object fields => KeysIncrease fields ∧ NormalFields fields
  | _ => True

def NormalItems : List Json → Prop
  | [] => True
  | item :: rest => Normal item ∧ NormalItems rest

def NormalFields : List (String × Json) → Prop
  | [] => True
  | (_, value) :: rest => Normal value ∧ NormalFields rest

end

mutual

/-- The same value with the fields of every object sorted; of several fields with one key the
    last one counts. -/
def normalize : Json → Json
  | .array items => .array (normalizeItems items)
  | .object fields => .object (sortFields (normalizeFields fields))
  | .null => .null
  | .bool b => .bool b
  | .number n => .number n
  | .string s => .string s

def normalizeItems : List Json → List Json
  | [] => []
  | item :: rest => normalize item :: normalizeItems rest

def normalizeFields : List (String × Json) → List (String × Json)
  | [] => []
  | (key, value) :: rest => (key, normalize value) :: normalizeFields rest

end

theorem normalFields_insertSorted {key : String} {value : Json} {fields : List (String × Json)}
    (hv : Normal value) (h : NormalFields fields) :
    NormalFields (insertSorted key value fields) := by
  induction fields with
  | nil => exact ⟨hv, trivial⟩
  | cons head rest ih =>
    unfold insertSorted
    split
    · exact ⟨hv, h⟩
    · split
      · exact ⟨hv, h.2⟩
      · exact ⟨h.1, ih h.2⟩

theorem normalFields_sortFields {fields : List (String × Json)} (h : NormalFields fields) :
    NormalFields (sortFields fields) := by
  suffices ∀ sorted : List (String × Json), NormalFields sorted →
      NormalFields (fields.foldl (fun sorted (k, v) => insertSorted k v sorted) sorted) from
    this [] trivial
  induction fields with
  | nil => exact fun _ h => h
  | cons head rest ih => exact fun _ hs => ih h.2 _ (normalFields_insertSorted h.1 hs)

mutual

/-- Normalizing reaches the normal form. -/
theorem normal_normalize : ∀ value : Json, Normal (normalize value)
  | .array items => by rw [normalize]; exact normalItems_normalizeItems items
  | .object fields => by
    rw [normalize]
    exact ⟨keysIncrease_sortFields _, normalFields_sortFields (normalFields_normalizeFields fields)⟩
  | .null | .bool _ | .number _ | .string _ => trivial

theorem normalItems_normalizeItems : ∀ items : List Json, NormalItems (normalizeItems items)
  | [] => trivial
  | item :: rest => ⟨normal_normalize item, normalItems_normalizeItems rest⟩

theorem normalFields_normalizeFields :
    ∀ fields : List (String × Json), NormalFields (normalizeFields fields)
  | [] => trivial
  | (_, value) :: rest => ⟨normal_normalize value, normalFields_normalizeFields rest⟩

end

end Json

/-- Named JSON values, as elements and compiled fragments carry them. -/
abbrev Attributes := Dict Json

namespace Attributes

/-- The attributes that a JSON object stands for. -/
def ofFields (fields : List (String × Json)) : Attributes := Dict.ofList fields

/-- The JSON object of some attributes. -/
def toJson (attributes : Attributes) : Json := .object attributes.entries

/-- Equality up to the equality of numbers. -/
def eqv (a b : Attributes) : Bool := Json.eqvFields a.entries b.entries

end Attributes

end Folio
