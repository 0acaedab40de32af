/-
  Building elements step by step.

  A `Node` is the head of a tag or a composite with the attributes and children it has so far.
  Attributes set later win, and children are spliced as they are added, so a node never holds a
  fragment among its children.  `Element.create` builds the same element in one step.
-/
import Folio.Element.Basic

namespace Folio

/-- A tag or composite under construction: `η` is what its head names. -/
structure Node (η κ : Type) where
  head : η
  attributes : Attributes := ∅
  children : List (Element κ) := []

/-- A structural tag. -/
abbrev Tag (κ : Type) := Node TagName κ

/-- A component with the attributes and children it was given. -/
abbrev Composite (κ : Type) := Node κ κ

/-- What the head of an element names. -/
inductive Head (κ : Type) where
  | tag (name : TagName)
  | component (component : κ)

namespace Node

variable {η κ : Type}

/-- Sets one attribute. -/
def attr (node : Node η κ) (key : String) (value : Json) : Node η κ :=
  { node with attributes := node.attributes.insert key value }

/-- Sets several attributes. -/
def attrs (node : Node η κ) (attributes : Attributes) : Node η κ :=
  { node with attributes := node.attributes.merge attributes }

/-- Adds several children. -/
def addChildren (node : Node η κ) (children : List (Element κ)) : Node η κ :=
  { node with children := node.children ++ Element.flatten children }

/-- Adds one child. -/
def child (node : Node η κ) (child : Element κ) : Node η κ := node.addChildren [child]

end Node

/-- The tag as an element. -/
def Tag.toElement (tag : Tag κ) : Element κ := .tag tag.head tag.attributes tag.children

/-- The composite as an element. -/
def Composite.toElement (composite : Composite κ) : Element κ :=
  .composite composite.head composite.attributes composite.children

/-- Builds an element from its head, its attributes and its children, which are spliced. -/
def Element.create (head : Head κ) (attributes : Attributes) (children : List (Element κ)) :
    Element κ :=
  match head with
  | .tag name => .tag name attributes (flatten children)
  | .component component => .composite component attributes (flatten children)

/-! ## Tags of the vocabulary -/

namespace Tag

def document : Tag κ := { head := .document }
def header : Tag κ := { head := .header }
def content : Tag κ := { head := .content }
def footer : Tag κ := { head := .footer }
def stack : Tag κ := { head := .stack }
def group : Tag κ := { head := .group }
def column : Tag κ := { head := .column }
def columns : Tag κ := { head := .columns }
def table : Tag κ := { head := .table }
def row : Tag κ := { head := .row }
def cell : Tag κ := { head := .cell }
def ul : Tag κ := { head := .ul }
def ol : Tag κ := { head := .ol }

/-- A `text` tag with its content. -/
def text (content : Element κ) : Tag κ := Node.child { head := .text } content

/-- An `image` tag with its source. -/
def image (source : String) : Tag κ := Node.attr { head := .image } "src" (.string source)

end Tag

end Folio
