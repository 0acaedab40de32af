/-
  Compiled content.

  Content is what a compiled child list holds: text, which stays numeric if it is a lone number,
  table rows, and layout fragments.  A fragment has a body, which is kept under the key of its kind,
  and the attributes that are passed through to the layout renderer.
-/
import Folio.Scalar

namespace Folio

/-- A compiled run of text. -/
inductive TextValue where
  | string (value : String)
  | number (value : Number)
  deriving DecidableEq

/-- The kinds of fragment whose body is a plain list of content. -/
inductive ListKind where
  | stack
  | columns
  | ul
  | ol
  deriving DecidableEq, Repr

/-- What a fragment holds, its entries being of type `α`. -/
inductive Body (α : Type) where
  /-- Entries one after the other. -/
  | list (kind : ListKind) (items : List α)
  /-- A text with a single entry. -/
  | single (only : α)
  /-- A text with any other number of entries. -/
  | runs (items : List α)
  | image (source : Option Json)
  | table (rows : List α) (headerRows widths : Option Json)

/-- One entry of a compiled child list. -/
inductive Content where
  | text (value : TextValue)
  /-- The cells of a table row. -/
  | row (cells : List Content)
  /-- A layout primitive. -/
  | fragment (body : Body Content) (attributes : Attributes)

instance : Inhabited Content := ⟨.row []⟩

namespace TextValue

/-- The scalar as a run of text: finite numbers stay numbers. -/
def ofScalar : Scalar → TextValue
  | .string s => string s
  | .int n => number (.ofInt64 n)
  | .float x =>
    match Number.ofDouble? x with
    | some n => number n
    | none => string x.text
  | .bool b => string (Scalar.bool b).text

def toJson : TextValue → Json
  | string s => .string s
  | number n => .number n

/-- Equality up to the equality of numbers. -/
def eqv : TextValue → TextValue → Bool
  | string s, string t => s == t
  | number a, number b => a.eqv b
  | _, _ => false

end TextValue

/-- The key under which a list is kept. -/
def ListKind.key : ListKind → String
  | stack => "stack"
  | columns => "columns"
  | ul => "ul"
  | ol => "ol"

namespace Body

/-- The key under which the body is kept, which is the kind of the fragment. -/
def key : Body α → String
  | list kind _ => kind.key
  | single _ => "text"
  | runs _ => "text"
  | image _ => "image"
  | table .. => "table"

/-- The body of a text with these entries. -/
def ofRuns : List α → Body α
  | [only] => single only
  | items => runs items

end Body

/-- Equality of values that may be absent, given an equality of values. -/
def eqvOption (eqv : α → α → Bool) : Option α → Option α → Bool
  | none, none => true
  | some a, some b => eqv a b
  | _, _ => false

/-- A field for a value that may be absent. -/
def optionalField (key : String) : Option Json → List (String × Json)
  | none => []
  | some value => [(key, value)]

namespace Content

/-! ## Serialized form -/

mutual

/-- The content as JSON.  A fragment is an object that starts with its own key; an attribute of
    that name is left out. -/
def toJson : Content → Json
  | .text value => value.toJson
  | .row cells => .array (itemsToJson cells)
  | .fragment body attributes =>
    .object (bodyFields body ++ attributes.entries.filter fun field => field.1 != body.key)

def itemsToJson : List Content → List Json
  | [] => []
  | item :: rest => toJson item :: itemsToJson rest

/-- The body under its key; an image without a source has none. -/
def bodyFields : Body Content → List (String × Json)
  | .list kind items => [(kind.key, .array (itemsToJson items))]
  | .single only => [("text", toJson only)]
  | .runs items => [("text", .array (itemsToJson items))]
  | .image source => optionalField "image" source
  | .table rows headerRows widths =>
    [("table", .object (("body", .array (itemsToJson rows)) ::
      (optionalField "headerRows" headerRows ++ optionalField "widths" widths)))]

end

/-! ## Equality -/

mutual

/-- Equality of content: texts and attributes compare as numbers do, and a text with one entry
    differs from a list of that entry. -/
def eqv : Content → Content → Bool
  | .text a, .text b => a.eqv b
  | .row cells, .row cells' => eqvAll cells cells'
  | .fragment body as, .fragment body' as' => eqvBody body body' && as.eqv as'
  | _, _ => false

def eqvAll : List Content → List Content → Bool
  | [], [] => true
  | a :: as, b :: bs => eqv a b && eqvAll as bs
  | _, _ => false

def eqvBody : Body Content → Body Content → Bool
  | .list kind items, .list kind' items' => kind == kind' && eqvAll items items'
  | .single only, .single only' => eqv only only'
  | .runs items, .runs items' => eqvAll items items'
  | .image source, .image source' => eqvOption Json.eqv source source'
  | .table rows headerRows widths, .table rows' headerRows' widths' =>
    eqvAll rows rows' && eqvOption Json.eqv headerRows headerRows' &&
      eqvOption Json.eqv widths widths'
  | _, _ => false

end

end Content

end Folio
