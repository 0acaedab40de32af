/-
  JSON text.

  A value is written as a sequence of short pieces, in two layouts: compact, without any space, and
  indented, with two spaces a level and one item a line.  `Json.pieces` lists the pieces in the
  order in which a writer receives them; `Json.compact` and `Json.indented` join them.
-/
import Folio.Json.Basic

namespace Folio

/-- How JSON text is laid out. -/
inductive Layout where
  | compact
  | indented
  deriving DecidableEq, Repr

namespace Json

/-! ## Strings -/

/-- The hexadecimal digit of a number below sixteen. -/
def hexDigit (n : Nat) : Char := Nat.digitChar n

/-- A character inside a JSON string: quotes, backslashes and control characters are escaped. -/
def escapeChar (c : Char) : List Char :=
  if c = '"' then ['\\', '"']
  else if c = '\\' then ['\\', '\\']
  else if c = '\x08' then ['\\', 'b']
  else if c = '\x0c' then ['\\', 'f']
  else if c = '\n' then ['\\', 'n']
  else if c = '\r' then ['\\', 'r']
  else if c = '\t' then ['\\', 't']
  else if c.toNat < 0x20 then
    ['\\', 'u', '0', '0', hexDigit (c.toNat / 16), hexDigit (c.toNat % 16)]
  else [c]

/-- Adds characters at the end of a text. -/
def pushAll (text : String) (chars : List Char) : String := chars.foldl String.push text

/-- A JSON string literal. -/
def quote (s : String) : String :=
  (s.toList.foldl (fun literal c => pushAll literal (escapeChar c)) "\"").push '"'

/-! ## Layout -/

/-- The line break before an item that stands `depth` levels deep, in front of what follows. -/
def lineBreak (layout : Layout) (depth : Nat) (rest : List String) : List String :=
  match layout with
  | .compact => rest
  | .indented => ("\n" ++ "".pushn ' ' (2 * depth)) :: rest

/-- What stands between a key and its value. -/
def keySeparator : Layout → String
  | .compact => ":"
  | .indented => ": "

mutual

/-- The pieces of a value that stands `depth` levels deep, in front of what follows. -/
def piecesOnto (layout : Layout) (depth : Nat) : Json → List String → List String
  | .null, rest => "null" :: rest
  | .bool true, rest => "true" :: rest
  | .bool false, rest => "false" :: rest
  | .number n, rest => n.text :: rest
  | .string s, rest => quote s :: rest
  | .array [], rest => "[]" :: rest
  | .array (item :: items), rest =>
    "[" :: lineBreak layout (depth + 1) (piecesOnto layout (depth + 1) item
      (itemsOnto layout (depth + 1) items (lineBreak layout depth ("]" :: rest))))
  | .object [], rest => "\x7b\x7d" :: rest
  | .object ((key, value) :: fields), rest =>
    "\x7b" :: lineBreak layout (depth + 1) (quote key :: keySeparator layout ::
      piecesOnto layout (depth + 1) value
        (fieldsOnto layout (depth + 1) fields (lineBreak layout depth ("\x7d" :: rest))))

/-- The pieces of the items after the first. -/
def itemsOnto (layout : Layout) (depth : Nat) : List Json → List String → List String
  | [], rest => rest
  | item :: items, rest =>
    "," :: lineBreak layout depth (piecesOnto layout depth item (itemsOnto layout depth items rest))

/-- The pieces of the fields after the first. -/
def fieldsOnto (layout : Layout) (depth : Nat) : List (String × Json) → List String → List String
  | [], rest => rest
  | (key, value) :: fields, rest =>
    "," :: lineBreak layout depth (quote key :: keySeparator layout ::
      piecesOnto layout depth value (fieldsOnto layout depth fields rest))

end

/-- The pieces of a value, in the order in which they are written. -/
def pieces (layout : Layout) (value : Json) : List String := value.piecesOnto layout 0 []

/-- The text of a value in a layout. -/
def text (layout : Layout) (value : Json) : String := String.join (value.pieces layout)

/-- The text of a value without any space. -/
def compact (value : Json) : String := value.text .compact

/-- The text of a value with two spaces of indentation a level. -/
def indented (value : Json) : String := value.text .indented

end Json

example : (Json.array [.null, .bool true, .string "a\"\n"]).compact = "[null,true,\"a\\\"\\n\"]" := by
  decide +kernel

end Folio
