/-
  Compiling element trees into document definitions.

  One walk down the tree resolves each element in a context of its own, checks where tags stand,
  leaves out what is blank and turns each tag into its layout primitive.  Whatever a component
  provides is seen by the descendants of what it renders and by nothing else, because each child
  starts from its parent's context.

  The walk is limited in depth: by the height of the tree, and by the reach of its library.  A tree
  without components never meets the limit.
-/
import Folio.Compile.ChildList
import Folio.Compile.Placement
import Folio.Compile.Resolved

namespace Folio

variable {κ : Type} {m : Type → Type} [Monad m] [Journal m]

/-! ## Tags -/

/-- The layout primitive of a tag with compiled children.  Documents and unknown tags have none. -/
def primitive? (name : TagName) (attributes : Attributes) (children : List Content) :
    Option Content :=
  match name with
  | .header | .content | .footer | .stack | .group | .column | .cell =>
    some (.fragment (.list .stack children) attributes)
  | .text => some (.fragment (.ofRuns children) attributes)
  | .columns => some (.fragment (.list .columns children) attributes)
  | .image => some (.fragment (.image (attributes.get? "src")) (attributes.erase "src"))
  | .table =>
    some (.fragment (.table children (attributes.get? "headerRows") (attributes.get? "widths"))
      ((attributes.erase "headerRows").erase "widths"))
  | .ul => some (.fragment (.list .ul children) attributes)
  | .ol => some (.fragment (.list .ol children) attributes)
  | .row => some (.row children)
  | .document | .unknown _ => none

/-- The pieces that all of a list's items yield, in order. -/
def collect (pieces : α → ExceptT CompileError m (List Piece)) :
    List α → ExceptT CompileError m (List Piece)
  | [] => return []
  | item :: rest => return (← pieces item) ++ (← collect pieces rest)

/-- Compiles a tag, given what its children yield.  A tag that is dropped has no content, and its
    children are not looked at. -/
def compileTagWith (pieces : Element κ → ExceptT CompileError m (List Piece)) (options : Options)
    (top : Bool) (tag : Tag κ) : ExceptT CompileError m (Option Content) :=
  match placement options top tag.head with
  | .reject error => throw error
  | .drop name => do
    note (.droppedTag name)
    return none
  | .keep => do
    let children ← collect pieces tag.children
    return primitive? tag.head tag.attributes (coalesce children)

/-- The pieces that a child of a tag yields. -/
def childPieces (library : Library κ m) (options : Options) :
    Nat → Context → Element κ → ExceptT CompileError m (List Piece)
  | 0, _, _ => throw .tooDeep
  | limit + 1, context, child => do
    let (resolved, inner) ← resolve library (limit + 1) child context
    match resolved with
    | .empty => return []
    | .leaf scalar => return if scalar.isBlank options.dropZero then [] else [.text scalar]
    | .fragment items => collect (childPieces library options limit inner) items
    | .tag tag =>
      match ← compileTagWith (childPieces library options limit inner) options false tag with
      | some content => return [.content content]
      | none => return []

/-- Compiles the children of a tag into a child list. -/
def compileChildren (library : Library κ m) (options : Options) (limit : Nat) (context : Context)
    (children : List (Element κ)) : ExceptT CompileError m (List Content) :=
  coalesce <$> collect (childPieces library options limit context) children

/-- Compiles a tag that stands directly in the document (`top`) or further down. -/
def compileTagWithin (library : Library κ m) (options : Options) (limit : Nat) (context : Context)
    (top : Bool) (tag : Tag κ) : ExceptT CompileError m (Option Content) :=
  compileTagWith (childPieces library options limit context) options top tag

/-- Compiles a tag that stands directly in the document (`top`) or further down. -/
def compileTag (library : Library κ m) (options : Options) (context : Context) (top : Bool)
    (tag : Tag κ) : ExceptT CompileError m (Option Content) :=
  compileTagWithin library options (Element.heightAll tag.children + library.reach) context top tag

/-! ## Documents -/

/-- Runs through a list, handing a definition on from item to item. -/
def thread (step : α → Definition → ExceptT CompileError m Definition) :
    List α → Definition → ExceptT CompileError m Definition
  | [], definition => return definition
  | item :: rest, definition => do thread step rest (← step item definition)

/-- Puts a compiled section into its slot; a later section replaces an earlier one. -/
def placeSection (slot : Slot) (content : Content) (definition : Definition) :
    ExceptT CompileError m Definition := do
  if (definition.section? slot).isSome then note (.duplicateSection slot)
  return definition.setSection slot content

/-- Adds the sections that a child of the document yields. -/
def addSections (library : Library κ m) (options : Options) :
    Nat → Context → Element κ → Definition → ExceptT CompileError m Definition
  | 0, _, _, _ => throw .tooDeep
  | limit + 1, context, child, definition => do
    let (resolved, inner) ← resolve library (limit + 1) child context
    match resolved with
    | .empty => return definition
    | .leaf scalar =>
      if scalar.isBlank options.dropZero then return definition
      else throw (.unexpectedTopLevelChild resolved.describe)
    | .fragment items => thread (addSections library options limit inner) items definition
    | .tag tag =>
      match ← compileTagWithin library options limit inner true tag with
      | some content => placeSection (tag.head.slot?.getD .content) content definition
      | none => return definition

/-- Whether an attribute of a document counts: null, `false`, `""` and zeros do not. -/
def isSet : Json → Bool
  | .null => false
  | .bool b => b
  | .string s => !s.isEmpty
  | .number n => !n.isZero
  | .array _ | .object _ => true

/-- Adds the page settings, the metadata and the default style to the sections of a document. -/
def addSettings (options : Options) (attributes : Attributes) (sections : Definition) :
    Definition :=
  let setting (key : String) := (attributes.get? key).filter isSet
  let info : DocumentInfo :=
    ⟨setting "title", setting "author", setting "subject", setting "keywords"⟩
  { sections with
    pageSize := setting "size"
    pageMargins := setting "margin"
    info := if info.isEmpty then none else some info
    defaultStyle := options.defaultStyle }

/-- Compiles a tree within a depth. -/
def compileWithin (library : Library κ m) (options : Options) (limit : Nat) (context : Context)
    (root : Element κ) : ExceptT CompileError m Definition := do
  let (resolved, inner) ← resolve library limit root context
  match resolved with
  | .tag ⟨.document, attributes, children⟩ =>
    let sections ← thread (addSections library options limit inner) children {}
    let definition := addSettings options attributes sections
    note (.compiled definition.header.isSome definition.content.isSome definition.footer.isSome)
    return definition
  | other => throw (.rootElement other.describe)

/-- Compiles a tree: its components start from the given context. -/
def compile (library : Library κ m) (options : Options) (context : Context) (root : Element κ) :
    ExceptT CompileError m Definition :=
  compileWithin library options (root.height + library.reach) context root

end Folio
