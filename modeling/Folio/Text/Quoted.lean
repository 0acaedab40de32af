/-
  Text in quotes, for messages that show a piece of text to a person.

  The quote, the backslash and the usual blanks have short escapes.  A character that leaves no
  mark of its own is written as its code point, so that what is shown never hides anything.
-/
import Folio.Text.Invisible

namespace Folio.Text

/-- The escape of a code point: lower-case hexadecimal digits without padding, in braces. -/
def escapeCodePoint (c : Char) : List Char :=
  '\\' :: 'u' :: '{' :: (Nat.toDigits 16 c.toNat ++ ['}'])

/-- A character inside quotes. -/
def showChar (c : Char) : List Char :=
  if c = '"' then ['\\', '"']
  else if c = '\\' then ['\\', '\\']
  else if c = '\n' then ['\\', 'n']
  else if c = '\r' then ['\\', 'r']
  else if c = '\t' then ['\\', 't']
  else if c.toNat = 0 then ['\\', '0']
  else if isInvisible c then escapeCodePoint c
  else [c]

/-- The text in double quotes. -/
def quoted (s : String) : String :=
  String.ofList ('"' :: (s.toList.flatMap showChar ++ ['"']))

example : quoted "it's \"1\"\t" = "\"it's \\\"1\\\"\\t\"" := by decide +kernel
example : quoted "e\u0301" = "\"e\\u\x7b301\x7d\"" := by decide +kernel

end Folio.Text
