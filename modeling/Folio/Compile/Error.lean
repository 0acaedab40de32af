/-
  Why a tree is not a document.
-/
import Folio.TagName

namespace Folio

/-- Why a tree does not compile.  Any error ends the compilation. -/
inductive CompileError where
  /-- The root is not a document. -/
  | rootElement (found : String)
  /-- A document stands inside a document. -/
  | duplicateRoot
  /-- A section stands elsewhere than directly in the document. -/
  | topLevelPlacement (tag : TagName)
  /-- Something other than a section stands directly in the document. -/
  | unexpectedTopLevelChild (found : String)
  /-- A tag is outside the vocabulary, and that is not tolerated. -/
  | unknownTag (name : String)
  /-- Rendering components went deeper than their library allows. -/
  | tooDeep
  deriving DecidableEq, Repr

/-- The error in words. -/
def CompileError.message : CompileError → String
  | rootElement found => s!"The root element must be <document>, found {found}"
  | duplicateRoot => "<document> must be the root element and can only appear once"
  | topLevelPlacement tag =>
    s!"<{tag.toText}> can only appear as one of the immediate descendents of <document>"
  | unexpectedTopLevelChild found =>
    s!"Only <header>, <content> and <footer> can be immediate descendents of <document>, " ++
      s!"found {found}"
  | unknownTag name => s!"Unknown tag <{name}>"
  | tooDeep => "The components nest too deeply"

end Folio
