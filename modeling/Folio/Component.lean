/-
  Components: functions from attributes, children and context to an element.

  A component sees its `Props` and the `Context` at its position, and yields an element together
  with the entries it provides to everything below that element.  A `Library` says what each
  component of a tree is called and what it renders; rendering may have effects in a monad `m`, and
  for a library of pure components `m` is `Id`.
-/
import Folio.Context
import Folio.Element.Basic

namespace Folio

/-- What a component is rendered with. -/
structure Props (κ : Type) where
  attributes : Attributes
  children : List (Element κ)

namespace Props

def attr? (props : Props κ) (key : String) : Option Json := props.attributes.get? key

/-- The text of an attribute, if it is text. -/
def attrString? (props : Props κ) (key : String) : Option String :=
  props.attr? key >>= Json.asString?

/-- The first child, or nothing if there is none. -/
def firstChild (props : Props κ) : Element κ := props.children.head?.getD .empty

/-- All children as one fragment. -/
def childrenFragment (props : Props κ) : Element κ := .fragment props.children

end Props

/-- What a component renders. -/
structure Rendering (κ : Type) where
  element : Element κ
  /-- The entries it provides to the descendants of that element, in order. -/
  provided : List (String × Json) := []

/-- The components of a tree. -/
structure Library (κ : Type) (m : Type → Type) where
  name : κ → String
  render : κ → Props κ → Context → m (Rendering κ)
  /-- How much deeper than the tree itself its rendering may get before it is given up. -/
  reach : Nat

/-- The library of trees without components. -/
def Library.none : Library Empty m where
  name component := nomatch component
  render component := nomatch component
  reach := 0

end Folio
