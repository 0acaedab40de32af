/-
  Resolving composites.

  A composite is replaced by what its component renders until something else remains.  Each
  component of such a chain is rendered against one and the same context, to which it may add; the
  context that the whole chain leaves is the one its outcome is compiled in.
-/
import Folio.Component
import Folio.Compile.Error
import Folio.Element.Node
import Folio.Journal

namespace Folio

/-- An element whose composite layers are all expanded. -/
inductive Resolved (κ : Type) where
  | empty
  | leaf (scalar : Scalar)
  | tag (node : Tag κ)
  | fragment (items : List (Element κ))

namespace Resolved

/-- The same as an element. -/
def toElement : Resolved κ → Element κ
  | empty => .empty
  | leaf scalar => .leaf scalar
  | tag node => node.toElement
  | fragment items => .fragment items

/-- A short description for messages. -/
def describe : Resolved κ → String
  | empty => "nothing"
  | leaf scalar => s!"text {Text.quoted scalar.text}"
  | tag node => s!"<{node.head.toText}>"
  | fragment items => s!"fragment of {items.length} elements"

end Resolved

variable {κ : Type} {m : Type → Type} [Monad m] [Journal m]

/-- Renders one component against a context: what it yields, and the context it leaves. -/
def Library.expand (library : Library κ m) (composite : Composite κ) (context : Context) :
    m (Element κ × Context) := do
  note (.expanding (library.name composite.head) context.size)
  let rendering ← library.render composite.head ⟨composite.attributes, composite.children⟩ context
  return (rendering.element, context.insertAll rendering.provided)

/-- Follows a chain of components of which `depth` are rendered already, for `limit` more links. -/
def follow (library : Library κ m) (limit depth : Nat) (element : Element κ) (context : Context) :
    ExceptT CompileError m (Resolved κ × Context) :=
  match element with
  | .empty => do
    if depth ≠ 0 then note (.renderedNothing depth)
    return (.empty, context)
  | .leaf scalar => return (.leaf scalar, context)
  | .tag name attributes children => return (.tag ⟨name, attributes, children⟩, context)
  | .fragment items => return (.fragment items, context)
  | .composite component attributes children =>
    match limit with
    | 0 => throw .tooDeep
    | limit + 1 => do
      let (next, context) ← library.expand ⟨component, attributes, children⟩ context
      follow library limit (depth + 1) next context

/-- Expands an element until it is no longer a composite. -/
def resolve (library : Library κ m) (limit : Nat) (element : Element κ) (context : Context) :
    ExceptT CompileError m (Resolved κ × Context) :=
  follow library limit 0 element context

end Folio
