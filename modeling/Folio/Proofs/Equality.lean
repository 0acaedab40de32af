/-
  When trees are equal.

  Trees compare as the numbers in them do: the two zeros are equal, and a NaN differs from itself.
  So trees can be equal that are not the same, and a tree can differ from itself.

  1. **Canonical forms** — taking the sign from every zero (`canonical`) gives equal values the same
     form.  For what holds no NaN, this is all there is to equality (`Json.eqv_iff`).
  2. **Trees** — two trees are equal if and only if they have the same canonical form and no leaf is
     a NaN (`Element.eqv_iff`).
  3. **A partial equivalence** — hence equality is symmetric and transitive, and reflexive on the
     trees without a NaN (`Element.eqv_symm`, `Element.eqv_trans`, `Element.eqv_self_iff`).
-/
import Folio.Proofs.Parts

namespace Folio

/-! ## Numbers -/

namespace Double

/-- The double, or the positive zero for either zero. -/
def canonical (x : Double) : Double := if x.isZero then zero false else x

theorem canonical_of_isZero {x : Double} (h : x.isZero = true) : x.canonical = zero false :=
  if_pos h

theorem canonical_of_not_isZero {x : Double} (h : x.isZero = false) : x.canonical = x :=
  if_neg (by rw [h]; exact Bool.false_ne_true)

@[simp] theorem isZero_canonical (x : Double) : x.canonical.isZero = x.isZero := by
  cases h : x.isZero with
  | true =>
    rw [canonical_of_isZero h]
    rfl
  | false => rw [canonical_of_not_isZero h, h]

@[simp] theorem isFinite_canonical (x : Double) : x.canonical.isFinite = x.isFinite := by
  cases h : x.isZero with
  | true =>
    have hcanonical : x.canonical.isZero = true := by rw [isZero_canonical, h]
    rw [isFinite_of_isZero h, isFinite_of_isZero hcanonical]
  | false => rw [canonical_of_not_isZero h]

@[simp] theorem isNaN_canonical (x : Double) : x.canonical.isNaN = x.isNaN := by
  cases h : x.isZero with
  | true =>
    have hfinite : x.canonical.isFinite = true := by
      rw [isFinite_canonical, isFinite_of_isZero h]
    rw [not_isNaN_of_isFinite hfinite, not_isNaN_of_isFinite (isFinite_of_isZero h)]
  | false => rw [canonical_of_not_isZero h]

theorem canonical_eq_iff {x y : Double} :
    x.canonical = y.canonical ↔ x.isZero = true ∧ y.isZero = true ∨ x = y := by
  constructor
  · intro h
    have hzero : x.isZero = y.isZero := by rw [← isZero_canonical x, h, isZero_canonical]
    cases hx : x.isZero with
    | true => exact .inl ⟨rfl, hzero ▸ hx⟩
    | false =>
      rw [canonical_of_not_isZero hx, canonical_of_not_isZero (hzero ▸ hx)] at h
      exact .inr h
  · rintro (⟨hx, hy⟩ | rfl)
    · rw [canonical_of_isZero hx, canonical_of_isZero hy]
    · rfl

/-- Doubles are equal if they are the same but for the signs of zeros, and are no NaN. -/
theorem eqv_iff {x y : Double} :
    x.eqv y = true ↔ x.canonical = y.canonical ∧ x.isNaN = false := by
  rw [canonical_eq_iff]
  simp [eqv, and_comm]

end Double

namespace Number

def canonical : Number → Number
  | .int n inRange => .int n inRange
  | .float x finite => .float x.canonical (by rw [Double.isFinite_canonical, finite])

@[simp] theorem isZero_canonical (n : Number) : n.canonical.isZero = n.isZero := by
  cases n with
  | int n inRange => rfl
  | float x finite => exact Double.isZero_canonical x

theorem eqv_iff {a b : Number} : a.eqv b = true ↔ a.canonical = b.canonical := by
  cases a with
  | int n inRange => cases b <;> simp [eqv, canonical]
  | float x finite =>
    cases b with
    | int => simp [eqv, canonical]
    | float y finite' =>
      simp [eqv, canonical, Double.eqv_iff, Double.not_isNaN_of_isFinite finite]

end Number

/-! ## JSON values -/

namespace Json

mutual

/-- The value with the sign taken from every zero. -/
def canonical : Json → Json
  | .null => .null
  | .bool b => .bool b
  | .number n => .number n.canonical
  | .string s => .string s
  | .array items => .array (canonicalItems items)
  | .object fields => .object (canonicalFields fields)

def canonicalItems : List Json → List Json
  | [] => []
  | item :: rest => canonical item :: canonicalItems rest

def canonicalFields : List (String × Json) → List (String × Json)
  | [] => []
  | (key, value) :: rest => (key, canonical value) :: canonicalFields rest

end

theorem canonicalFields_eq_map (fields : List (String × Json)) :
    canonicalFields fields = fields.map fun field => (field.1, field.2.canonical) := by
  induction fields with
  | nil => rfl
  | cons field rest ih => rw [canonicalFields, ih, List.map_cons]

mutual

/-- **JSON values** are equal if they have the same canonical form, -/
theorem eqv_iff : ∀ {a b : Json}, a.eqv b = true ↔ a.canonical = b.canonical
  | .null, b | .bool _, b | .string _, b => by cases b <;> simp [eqv, canonical]
  | .number m, b => by cases b <;> simp [eqv, canonical, Number.eqv_iff]
  | .array items, b => by cases b <;> simp [eqv, canonical, eqvItems_iff]
  | .object fields, b => by cases b <;> simp [eqv, canonical, eqvFields_iff]

/-- and so are the items of arrays -/
theorem eqvItems_iff : ∀ {as bs : List Json},
    eqvItems as bs = true ↔ canonicalItems as = canonicalItems bs
  | [], bs => by cases bs <;> simp [eqvItems, canonicalItems]
  | a :: as, bs => by
    cases bs with
    | nil => simp [eqvItems, canonicalItems]
    | cons b bs => simp [eqvItems, canonicalItems, eqv_iff, eqvItems_iff]

/-- and the fields of objects. -/
theorem eqvFields_iff : ∀ {as bs : List (String × Json)},
    eqvFields as bs = true ↔ canonicalFields as = canonicalFields bs
  | [], bs => by cases bs <;> simp [eqvFields, canonicalFields]
  | (key, a) :: as, bs => by
    cases bs with
    | nil => simp [eqvFields, canonicalFields]
    | cons b bs =>
      simp [eqvFields, canonicalFields, eqv_iff, eqvFields_iff]

end

end Json

/-- The attributes with the sign taken from every zero. -/
def Attributes.canonical (attributes : Attributes) : Attributes where
  entries := Json.canonicalFields attributes.entries
  sorted := by
    have hkeys : (Json.canonicalFields attributes.entries).map Prod.fst =
        attributes.entries.map Prod.fst := by
      rw [Json.canonicalFields_eq_map, List.map_map]
      rfl
    rw [KeysIncrease, hkeys]
    exact attributes.sorted

theorem Attributes.eqv_iff {a b : Attributes} : a.eqv b = true ↔ a.canonical = b.canonical :=
  Json.eqvFields_iff.trans ⟨fun h => Dict.ext h, fun h => congrArg Dict.entries h⟩

/-! ## Scalars -/

namespace Scalar

def canonical : Scalar → Scalar
  | .float x => .float x.canonical
  | .string s => .string s
  | .int n => .int n
  | .bool b => .bool b

def isNaN : Scalar → Bool
  | .float x => x.isNaN
  | .string _ | .int _ | .bool _ => false

@[simp] theorem isNaN_canonical (scalar : Scalar) : scalar.canonical.isNaN = scalar.isNaN := by
  cases scalar with
  | float x => exact Double.isNaN_canonical x
  | _ => rfl

theorem eqv_iff {a b : Scalar} :
    a.eqv b = true ↔ a.canonical = b.canonical ∧ a.isNaN = false := by
  cases a with
  | float x => cases b <;> simp [eqv, canonical, isNaN, Double.eqv_iff]
  | _ => cases b <;> simp [eqv, canonical, isNaN]

end Scalar

/-! ## Trees -/

namespace Element

variable {κ : Type}

mutual

/-- The tree with the sign taken from every zero, in leaves and in attributes. -/
def canonical : Element κ → Element κ
  | .empty => .empty
  | .leaf scalar => .leaf scalar.canonical
  | .tag name attributes children => .tag name attributes.canonical (canonicalAll children)
  | .composite component attributes children =>
    .composite component attributes.canonical (canonicalAll children)
  | .fragment items => .fragment (canonicalAll items)

def canonicalAll : List (Element κ) → List (Element κ)
  | [] => []
  | element :: rest => canonical element :: canonicalAll rest

end

/-- The part itself is not a NaN. -/
def NotNaN : Element κ → Prop
  | .leaf scalar => scalar.isNaN = false
  | _ => True

mutual

/-- Canonical forms have the same NaNs, -/
theorem throughout_canonical : ∀ {element : Element κ},
    element.canonical.Throughout NotNaN ↔ element.Throughout NotNaN
  | .empty => Iff.rfl
  | .leaf scalar => by simp [canonical, throughout_leaf_iff, NotNaN]
  | .tag name attributes children => by
    rw [canonical, throughout_tag_iff, throughout_tag_iff]
    exact and_congr Iff.rfl throughout_canonicalAll
  | .composite component attributes children => by
    rw [canonical, throughout_composite_iff, throughout_composite_iff]
    exact and_congr Iff.rfl throughout_canonicalAll
  | .fragment items => by
    rw [canonical, throughout_fragment_iff, throughout_fragment_iff]
    exact and_congr Iff.rfl throughout_canonicalAll

/-- and so do lists of them. -/
theorem throughout_canonicalAll : ∀ {elements : List (Element κ)},
    (∀ element ∈ canonicalAll elements, element.Throughout NotNaN) ↔
      ∀ element ∈ elements, element.Throughout NotNaN
  | [] => Iff.rfl
  | first :: rest => by
    rw [canonicalAll, List.forall_mem_cons, List.forall_mem_cons]
    exact and_congr throughout_canonical throughout_canonicalAll

end

variable [DecidableEq κ]

mutual

/-- **Trees are equal** if they have the same canonical form and there is no NaN in them, -/
theorem eqv_iff : ∀ {a b : Element κ},
    a.eqv b = true ↔ a.canonical = b.canonical ∧ a.Throughout NotNaN
  | .empty, b => by cases b <;> simp [eqv, canonical, throughout_empty_iff, NotNaN]
  | .leaf scalar, b => by
    cases b <;> simp [eqv, canonical, throughout_leaf_iff, NotNaN, Scalar.eqv_iff]
  | .tag name attributes children, b => by
    cases b <;> simp [eqv, canonical, throughout_tag_iff, NotNaN, Attributes.eqv_iff,
      eqvAll_iff, and_assoc]
  | .composite component attributes children, b => by
    cases b <;> simp [eqv, canonical, throughout_composite_iff, NotNaN, Attributes.eqv_iff,
      eqvAll_iff, and_assoc]
  | .fragment items, b => by
    cases b <;> simp [eqv, canonical, throughout_fragment_iff, NotNaN, eqvAll_iff]

/-- and so are lists of trees. -/
theorem eqvAll_iff : ∀ {as bs : List (Element κ)}, eqvAll as bs = true ↔
    canonicalAll as = canonicalAll bs ∧ ∀ element ∈ as, element.Throughout NotNaN
  | [], bs => by cases bs <;> simp [eqvAll, canonicalAll]
  | a :: as, bs => by
    cases bs with
    | nil => simp [eqvAll, canonicalAll]
    | cons b bs =>
      rw [eqvAll, Bool.and_eq_true, eqv_iff, eqvAll_iff, canonicalAll, canonicalAll,
        List.cons.injEq, List.forall_mem_cons, and_and_and_comm]

end

/-! ## A partial equivalence -/

theorem eqv_symm {a b : Element κ} (h : a.eqv b = true) : b.eqv a = true := by
  obtain ⟨hsame, hnumbers⟩ := eqv_iff.1 h
  refine eqv_iff.2 ⟨hsame.symm, ?_⟩
  rwa [← throughout_canonical, ← hsame, throughout_canonical]

theorem eqv_trans {a b c : Element κ} (hab : a.eqv b = true) (hbc : b.eqv c = true) :
    a.eqv c = true := by
  obtain ⟨hab, hnumbers⟩ := eqv_iff.1 hab
  exact eqv_iff.2 ⟨hab.trans (eqv_iff.1 hbc).1, hnumbers⟩

/-- A tree is equal to itself if and only if it has no NaN leaf, at any depth. -/
theorem eqv_self_iff {element : Element κ} :
    element.eqv element = true ↔ ∀ x, element.Within (.leaf (.float x)) → x.isNaN = false := by
  rw [eqv_iff, and_iff_right rfl]
  constructor
  · exact fun h x hwithin => h _ hwithin
  · intro h part hpart
    match part, hpart with
    | .leaf (.float x), hpart => exact h x hpart
    | .leaf (.string _), _ | .leaf (.int _), _ | .leaf (.bool _), _ => rfl
    | .empty, _ | .tag _ _ _, _ | .composite _ _ _, _ | .fragment _, _ => trivial

end Element

end Folio
