/-
  Document definitions.

  A definition is the result of compiling a document, and what a renderer is given: the sections,
  the page settings, the metadata and the default style, each of which may be absent.  Serialized,
  it is an object whose fields stand in the order of the structure, absent ones left out.
-/
import Folio.Content
import Folio.TagName

namespace Folio

/-- Metadata of a document. -/
structure DocumentInfo where
  title : Option Json := none
  author : Option Json := none
  subject : Option Json := none
  keywords : Option Json := none

namespace DocumentInfo

def isEmpty (info : DocumentInfo) : Bool :=
  info.title.isNone && info.author.isNone && info.subject.isNone && info.keywords.isNone

def toJson (info : DocumentInfo) : Json :=
  .object (optionalField "title" info.title ++ optionalField "author" info.author
    ++ optionalField "subject" info.subject ++ optionalField "keywords" info.keywords)

/-- Equality up to the equality of numbers. -/
def eqv (a b : DocumentInfo) : Bool :=
  eqvOption Json.eqv a.title b.title && eqvOption Json.eqv a.author b.author &&
    eqvOption Json.eqv a.subject b.subject && eqvOption Json.eqv a.keywords b.keywords

end DocumentInfo

/-- A compiled document. -/
structure Definition where
  content : Option Content := none
  header : Option Content := none
  footer : Option Content := none
  pageSize : Option Json := none
  pageMargins : Option Json := none
  info : Option DocumentInfo := none
  defaultStyle : Option Json := none

/-- The font family that a style names. -/
def fontOfStyle (style : Option Json) : Option String :=
  style >>= Json.get? "font" >>= Json.asString?

namespace Definition

def toJson (definition : Definition) : Json :=
  .object (optionalField "content" (definition.content.map Content.toJson)
    ++ optionalField "header" (definition.header.map Content.toJson)
    ++ optionalField "footer" (definition.footer.map Content.toJson)
    ++ optionalField "pageSize" definition.pageSize
    ++ optionalField "pageMargins" definition.pageMargins
    ++ optionalField "info" (definition.info.map DocumentInfo.toJson)
    ++ optionalField "defaultStyle" definition.defaultStyle)

/-- The definition as a JSON value in normal form, keys sorted at every level. -/
def toValue (definition : Definition) : Json := definition.toJson.normalize

/-- The section in a slot. -/
def section? (definition : Definition) : Slot → Option Content
  | .header => definition.header
  | .content => definition.content
  | .footer => definition.footer

/-- Puts a section into a slot. -/
def setSection (definition : Definition) (slot : Slot) (content : Content) : Definition :=
  match slot with
  | .header => { definition with header := some content }
  | .content => { definition with content := some content }
  | .footer => { definition with footer := some content }

/-- Equality up to the equality of numbers. -/
def eqv (a b : Definition) : Bool :=
  eqvOption Content.eqv a.content b.content && eqvOption Content.eqv a.header b.header &&
    eqvOption Content.eqv a.footer b.footer && eqvOption Json.eqv a.pageSize b.pageSize &&
    eqvOption Json.eqv a.pageMargins b.pageMargins && eqvOption DocumentInfo.eqv a.info b.info &&
    eqvOption Json.eqv a.defaultStyle b.defaultStyle

end Definition

end Folio
