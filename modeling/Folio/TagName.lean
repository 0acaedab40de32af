/-
  The vocabulary of structural tags.

  Fifteen names mean something to the compiler.  Any other name is kept as it is, so that the
  compiler can decide what becomes of it.  Three of the tags are the sections of a document: they
  name the `Slot` of the document that they fill.
-/

namespace Folio

/-- The places of a document that sections fill. -/
inductive Slot where
  | header
  | content
  | footer
  deriving DecidableEq, Repr

/-- The name of a tag. -/
inductive TagName where
  | document
  | header
  | content
  | footer
  | stack
  | group
  | column
  | text
  | columns
  | image
  | table
  | row
  | cell
  | ul
  | ol
  | unknown (name : String)
  deriving DecidableEq, Repr

namespace TagName

/-- The names that mean something to the compiler. -/
def vocabulary : List TagName :=
  [document, header, content, footer, stack, group, column, text, columns, image, table, row, cell,
    ul, ol]

/-- The name as it is written. -/
def toText : TagName → String
  | document => "document"
  | header => "header"
  | content => "content"
  | footer => "footer"
  | stack => "stack"
  | group => "group"
  | column => "column"
  | text => "text"
  | columns => "columns"
  | image => "image"
  | table => "table"
  | row => "row"
  | cell => "cell"
  | ul => "ul"
  | ol => "ol"
  | unknown name => name

/-- The tag name that is written like this. -/
def ofText (name : String) : TagName :=
  (vocabulary.find? fun tag => tag.toText == name).getD (unknown name)

/-- Whether the name was taken as unknown; a name read by `ofText` is unknown exactly when it is
    none of the vocabulary's. -/
def isKnown : TagName → Bool
  | unknown _ => false
  | _ => true

theorem eq_unknown_of_not_isKnown {tag : TagName} (h : tag.isKnown = false) :
    ∃ name, tag = unknown name := by
  cases tag with
  | unknown name => exact ⟨name, rfl⟩
  | _ => cases h

/-- The place of the document that a section fills. -/
def slot? : TagName → Option Slot
  | header => some .header
  | content => some .content
  | footer => some .footer
  | _ => none

/-- The sections are the only tags that stand directly in a document. -/
def isSection (tag : TagName) : Bool := tag.slot?.isSome

/-- Written names read back as what they name. -/
@[simp] theorem toText_ofText (name : String) : (ofText name).toText = name := by
  unfold ofText
  cases h : vocabulary.find? fun tag => tag.toText == name with
  | none => rfl
  | some tag => simpa using List.find?_some h

/-- A known name is read back as itself. -/
theorem ofText_toText {tag : TagName} (h : tag.isKnown = true) : ofText tag.toText = tag := by
  cases tag <;> first | rfl | simp [isKnown] at h

end TagName

/-- The written name of a slot, which is the name of its section. -/
def Slot.toText : Slot → String
  | header => "header"
  | content => "content"
  | footer => "footer"

example : TagName.ofText "Text" = .unknown "Text" := by decide +kernel

end Folio
