/-
  Element trees.

  A tree is built from scalar leaves, structural tags, groups of siblings without a wrapper
  (fragments), and composites: components that are still to be rendered, with the attributes and
  children they were given.  What a component is stays open: `κ` is the type of the references to
  components, and `Element Empty` is the type of the trees without any.

  Splicing (`flatten`) puts the items of fragments in place of the fragments: it goes through
  appending (`flatten_append`), leaves no fragment (`isFragment_of_mem_flatten`), and is done once
  and for all (`flatten_flatten`).
-/
import Folio.Scalar
import Folio.Text.Quoted
import Folio.TagName

namespace Folio

/-- A node in an element tree whose components are named by `κ`. -/
inductive Element (κ : Type) where
  /-- Renders nothing. -/
  | empty
  /-- Text, a number or a truth value. -/
  | leaf (scalar : Scalar)
  /-- A structural tag. -/
  | tag (name : TagName) (attributes : Attributes) (children : List (Element κ))
  /-- A component that is still to be rendered. -/
  | composite (component : κ) (attributes : Attributes) (children : List (Element κ))
  /-- Siblings without a wrapper, which stand in place of the fragment. -/
  | fragment (items : List (Element κ))

instance : Inhabited (Element κ) := ⟨.empty⟩

namespace Element

/-- A text leaf. -/
def text (content : String) : Element κ := .leaf (.string content)

/-- The element if there is one, else nothing. -/
def ofOption (element : Option (Element κ)) : Element κ := element.getD .empty

/-- A short description for messages. -/
def describe (nameOf : κ → String) : Element κ → String
  | .empty => "nothing"
  | .leaf scalar => s!"text {Text.quoted scalar.text}"
  | .tag name _ _ => s!"<{name.toText}>"
  | .composite component _ _ => s!"component {nameOf component}"
  | .fragment items => s!"fragment of {items.length} elements"

/-! ## Fragments -/

mutual

/-- The elements that stand in place of one element when fragments are spliced. -/
def spliced : Element κ → List (Element κ)
  | .fragment items => flatten items
  | .empty => [.empty]
  | .leaf scalar => [.leaf scalar]
  | .tag name attributes children => [.tag name attributes children]
  | .composite component attributes children => [.composite component attributes children]

/-- Splices fragments, however deeply nested, into a flat list. -/
def flatten : List (Element κ) → List (Element κ)
  | [] => []
  | element :: rest => spliced element ++ flatten rest

end

/-- Whether the element is a fragment. -/
def isFragment : Element κ → Bool
  | .fragment _ => true
  | _ => false

@[simp] theorem flatten_append (xs ys : List (Element κ)) :
    flatten (xs ++ ys) = flatten xs ++ flatten ys := by
  induction xs with
  | nil => simp [flatten]
  | cons x xs ih => simp [flatten, ih]

theorem spliced_eq_singleton {x : Element κ} (h : x.isFragment = false) : spliced x = [x] := by
  cases x <;> first | rfl | simp [isFragment] at h

/-- A list without fragments is left alone. -/
theorem flatten_eq_self {xs : List (Element κ)} (h : ∀ x ∈ xs, x.isFragment = false) :
    flatten xs = xs := by
  induction xs with
  | nil => rfl
  | cons x xs ih =>
    rw [flatten, spliced_eq_singleton (h x (by simp)), ih fun y hy => h y (by simp [hy])]
    rfl

mutual

theorem isFragment_of_mem_spliced {x : Element κ} :
    ∀ {element : Element κ}, x ∈ spliced element → x.isFragment = false
  | .fragment items, h => isFragment_of_mem_flatten (by simpa [spliced] using h)
  | .empty, h | .leaf _, h | .tag _ _ _, h | .composite _ _ _, h => by
    simp only [spliced, List.mem_singleton] at h
    subst h
    rfl

/-- No fragment is left after splicing. -/
theorem isFragment_of_mem_flatten {x : Element κ} :
    ∀ {items : List (Element κ)}, x ∈ flatten items → x.isFragment = false
  | [], h => by simp [flatten] at h
  | _ :: _, h => by
    rw [flatten] at h
    rcases List.mem_append.1 h with h | h
    · exact isFragment_of_mem_spliced h
    · exact isFragment_of_mem_flatten h

end

/-- Splicing twice is splicing once. -/
@[simp] theorem flatten_flatten (items : List (Element κ)) :
    flatten (flatten items) = flatten items :=
  flatten_eq_self fun _ => isFragment_of_mem_flatten

/-! ## Equality -/

mutual

/-- Equality of trees: scalars and attributes compare as numbers do, and composites are equal only
    if they share the component. -/
def eqv [BEq κ] : Element κ → Element κ → Bool
  | .empty, .empty => true
  | .leaf a, .leaf b => a.eqv b
  | .tag name as cs, .tag name' as' cs' => name == name' && as.eqv as' && eqvAll cs cs'
  | .composite k as cs, .composite k' as' cs' => k == k' && as.eqv as' && eqvAll cs cs'
  | .fragment items, .fragment items' => eqvAll items items'
  | _, _ => false

def eqvAll [BEq κ] : List (Element κ) → List (Element κ) → Bool
  | [], [] => true
  | a :: as, b :: bs => eqv a b && eqvAll as bs
  | _, _ => false

end

instance [BEq κ] : BEq (Element κ) := ⟨eqv⟩

/-! ## Size -/

mutual

/-- How many levels the tree has. -/
def height : Element κ → Nat
  | .empty | .leaf _ => 1
  | .tag _ _ children => heightAll children + 1
  | .composite _ _ children => heightAll children + 1
  | .fragment items => heightAll items + 1

def heightAll : List (Element κ) → Nat
  | [] => 0
  | element :: rest => max (height element) (heightAll rest)

end

end Element

end Folio
