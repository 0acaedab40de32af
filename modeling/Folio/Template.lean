/-
  Templates: element trees written as JSON.

  Strings, numbers and truth values are leaves, null renders nothing, an array is a fragment, and an
  object is a tag with its `tag` name and, optionally, `attributes` and `children`.  Templates hold
  no components.  An object that is not a tag is an error, which tells where it stands.
-/
import Folio.Element.Node
import Folio.Json.Printer

namespace Folio

/-! ## Places in a template -/

/-- One step from a value to a value inside it. -/
inductive PointerStep where
  /-- To an item of an array. -/
  | item (index : Nat)
  /-- To the `children` of an object. -/
  | children
  deriving DecidableEq, Repr

/-- The way from the whole template to a value inside it. -/
abbrev Pointer := List PointerStep

namespace Pointer

def stepText : PointerStep → String
  | .item index => s!"/{index}"
  | .children => "/children"

/-- The pointer in words; the whole template is `/`. -/
def toText (pointer : Pointer) : String :=
  if pointer.isEmpty then "/" else String.join (pointer.map stepText)

end Pointer

/-- Why a JSON value is not a template. -/
inductive TemplateError where
  /-- A member of an object is of a type it may not have. -/
  | wrongType (key : String) (pointer : Pointer) (found : Json)
  /-- An object has a member that means nothing. -/
  | unexpectedKey (key : String) (pointer : Pointer)
  /-- An object has no tag name. -/
  | missingTag (pointer : Pointer)

/-- The error in words. -/
def TemplateError.message : TemplateError → String
  | wrongType key pointer found =>
    s!"'{key}' at '{pointer.toText}' has the wrong type: {found.compact}"
  | unexpectedKey key pointer => s!"Unexpected key '{key}' at '{pointer.toText}'"
  | missingTag pointer => s!"Object at '{pointer.toText}' has no 'tag'"

/-! ## Reading -/

namespace Template

variable {κ : Type}

/-- What the members of an object say about its tag. -/
structure Draft (κ : Type) where
  name : Option String := none
  attributes : Attributes := ∅
  children : List (Element κ) := []

/-- The tag that a draft describes. -/
def Draft.toElement (draft : Draft κ) (pointer : Pointer) : Except TemplateError (Element κ) :=
  match draft.name with
  | some name => .ok (.create (.tag (.ofText name)) draft.attributes draft.children)
  | none => .error (.missingTag pointer)

mutual

/-- The element of the value that stands at a pointer. -/
def ofJsonAt (pointer : Pointer) : Json → Except TemplateError (Element κ)
  | .null => .ok .empty
  | .array items => do return .fragment (← ofItems pointer 0 items)
  | .object fields => do (← ofFields pointer fields {}).toElement pointer
  | .bool b => .ok (.leaf (.bool b))
  | .number n => .ok (.leaf (.ofNumber n))
  | .string s => .ok (.leaf (.string s))

/-- The elements of the items of an array, from an index on. -/
def ofItems (pointer : Pointer) (index : Nat) :
    List Json → Except TemplateError (List (Element κ))
  | [] => .ok []
  | item :: rest => do
    let element ← ofJsonAt (pointer ++ [.item index]) item
    return element :: (← ofItems pointer (index + 1) rest)

/-- Adds the members of an object to a draft, in order. -/
def ofFields (pointer : Pointer) :
    List (String × Json) → Draft κ → Except TemplateError (Draft κ)
  | [], draft => .ok draft
  | (key, value) :: rest, draft =>
    if key = "tag" then
      match value with
      | .string name => ofFields pointer rest { draft with name := some name }
      | other => .error (.wrongType key pointer other)
    else if key = "attributes" then
      match value with
      | .object fields => ofFields pointer rest { draft with attributes := .ofFields fields }
      | .null => ofFields pointer rest draft
      | other => .error (.wrongType key pointer other)
    else if key = "children" then do
      let children ← childrenOf (pointer ++ [.children]) value
      ofFields pointer rest { draft with children := draft.children ++ children }
    else .error (.unexpectedKey key pointer)

/-- The children of an object: the items of an array, or a single value. -/
def childrenOf (pointer : Pointer) : Json → Except TemplateError (List (Element κ))
  | .array items => ofItems pointer 0 items
  | .object fields => do return [← (← ofFields pointer fields {}).toElement pointer]
  | .null => .ok [.empty]
  | .bool b => .ok [.leaf (.bool b)]
  | .number n => .ok [.leaf (.ofNumber n)]
  | .string s => .ok [.leaf (.string s)]

end

/-- The element tree of a template. -/
def ofJson (template : Json) : Except TemplateError (Element κ) := ofJsonAt [] template

end Template

end Folio
