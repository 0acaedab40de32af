/-
  Reading JSON text.

  The reader goes through the text once, one character at a time, with the containers that are
  still open on a stack.  Whatever cannot be continued is a syntax error at that character; a text
  that ends while more was needed ended too early.  Containers nest up to a limit, and of several
  fields with one key the last one counts.

  A number literal keeps as many leading digits as fit 64 bits.  It is an integer if it is written
  as one and keeps all of them, and otherwise the double that `Double.scaled` makes of them.
-/
import Folio.Double.Scaling
import Folio.Json.Basic

namespace Folio

/-- Why a text is not JSON. -/
inductive JsonError where
  /-- The text ended before the value did. -/
  | endedEarly
  /-- Something stands where it may not. -/
  | malformed
  deriving DecidableEq, Repr

namespace Json.Parser

/-! ## Numbers -/

/-- How far a number literal has come. -/
inductive NumberPhase where
  | sign
  | zero
  | whole
  | point
  | fraction
  | exponentMark
  | exponentSign
  | exponent
  deriving DecidableEq, Repr

/-- A number literal part way through. -/
structure NumberScan where
  phase : NumberPhase
  negative : Bool
  /-- The digits that are kept, before and after the point, as one number of 64 bits. -/
  significand : Nat := 0
  /-- The exponent of ten of the last digit that is kept. -/
  scale : Int := 0
  /-- Whether the next digit is left out without a look. -/
  full : Bool := false
  exponentNegative : Bool := false
  exponent : Nat := 0

namespace NumberScan

/-- The value of a decimal digit. -/
def digit? (c : Char) : Option Nat :=
  if '0' ≤ c && c ≤ '9' then some (c.toNat - 48) else none

/-- The literal that starts with `c`. -/
def start? (c : Char) : Option NumberScan :=
  if c = '-' then some { phase := .sign, negative := true }
  else match digit? c with
    | some 0 => some { phase := .zero, negative := false }
    | some d => some { phase := .whole, negative := false, significand := d }
    | none => none

/-- Significands stay below this bound. -/
def bound : Nat := 0x10000000000000000

/-- A digit before the point.  From the first one that does not fit, digits are left out, and each
    of them raises the others by a power of ten. -/
def wholeDigit (n : NumberScan) (d : Nat) : NumberScan :=
  let longer := n.significand * 10 + d
  if n.full || bound ≤ longer then { n with full := true, scale := n.scale + 1 }
  else { n with significand := longer }

/-- A digit after the point.  From the first one that does not fit, digits are left out. -/
def fractionDigit (n : NumberScan) (d : Nat) : NumberScan :=
  let longer := n.significand * 10 + d
  if n.full || bound ≤ longer then { n with full := true }
  else { n with significand := longer, scale := n.scale - 1 }

/-- Whether the literal may end where it is. -/
def complete (n : NumberScan) : Bool :=
  match n.phase with
  | .zero | .whole | .fraction | .exponent => true
  | .sign | .point | .exponentMark | .exponentSign => false

/-- The literal continued by `c`, if `c` belongs to it.  A digit after a leading zero does not.
    After the point the digits are looked at afresh, even if some before it were left out. -/
def step? (n : NumberScan) (c : Char) : Option NumberScan :=
  match n.phase, digit? c with
  | .sign, some 0 => some { n with phase := .zero }
  | .sign, some d => some { n with phase := .whole, significand := d }
  | .whole, some d => some (n.wholeDigit d)
  | .point, some d | .fraction, some d => some { n.fractionDigit d with phase := .fraction }
  | .exponentMark, some d | .exponentSign, some d | .exponent, some d =>
    some { n with phase := .exponent, exponent := n.exponent * 10 + d }
  | .zero, none | .whole, none =>
    if c = '.' then some { n with phase := .point, full := false }
    else if c = 'e' || c = 'E' then some { n with phase := .exponentMark }
    else none
  | .fraction, none => if c = 'e' || c = 'E' then some { n with phase := .exponentMark } else none
  | .exponentMark, none =>
    if c = '+' then some { n with phase := .exponentSign }
    else if c = '-' then some { n with phase := .exponentSign, exponentNegative := true }
    else none
  | _, _ => none

/-- The number that a complete literal stands for.  A double must be finite; minus zero is one. -/
def value? (n : NumberScan) : Option Number :=
  let exponent : Int := if n.exponentNegative then -n.exponent else n.exponent
  let double := Double.scaled n.negative n.significand (n.scale + exponent)
  match n.phase, n.full with
  | .zero, false | .whole, false =>
    if !n.negative then Number.ofInt? n.significand
    else if n.significand = 0 || 0x8000000000000000 < n.significand then Number.ofDouble? double
    else Number.ofInt? (-n.significand)
  | _, _ => Number.ofDouble? double

end NumberScan

/-! ## Strings -/

/-- Where in an escape sequence a string literal is. -/
inductive Escape where
  /-- In no escape. -/
  | none
  /-- After a backslash. -/
  | backslash
  /-- Among the digits of a code unit; a leading surrogate may stand before it. -/
  | unit (digits : List Char) (leading : Option Nat)
  /-- After a leading surrogate, where a backslash must follow. -/
  | surrogate (leading : Nat)
  /-- After that backslash. -/
  | surrogateBackslash (leading : Nat)

/-- A string literal part way through. -/
structure StringScan where
  text : String
  escape : Escape

namespace StringScan

/-- The value of a hexadecimal digit. -/
def hexDigit? (c : Char) : Option Nat :=
  if '0' ≤ c && c ≤ '9' then some (c.toNat - 48)
  else if 'a' ≤ c && c ≤ 'f' then some (c.toNat - 87)
  else if 'A' ≤ c && c ≤ 'F' then some (c.toNat - 55)
  else none

/-- The code unit of the digits read so far, which are held last one first. -/
def unit? : List Char → Option Nat
  | [] => some 0
  | c :: rest =>
    match unit? rest, hexDigit? c with
    | some n, some d => some (n * 16 + d)
    | _, _ => none

/-- The character that a single letter after a backslash stands for. -/
def escaped? (c : Char) : Option Char :=
  match c with
  | '"' => some '"'
  | '\\' => some '\\'
  | '/' => some '/'
  | 'b' => some '\x08'
  | 'f' => some '\x0c'
  | 'n' => some '\n'
  | 'r' => some '\r'
  | 't' => some '\t'
  | _ => none

/-- Takes in a whole code unit.  Surrogates count only in pairs, leading before trailing. -/
def closeUnit (s : StringScan) (unit : Nat) : Option Nat → Except JsonError StringScan
  | none =>
    if 0xDC00 ≤ unit && unit ≤ 0xDFFF then .error .malformed
    else if 0xD800 ≤ unit && unit ≤ 0xDBFF then .ok { s with escape := .surrogate unit }
    else .ok ⟨s.text.push (Char.ofNat unit), .none⟩
  | some leading =>
    if 0xDC00 ≤ unit && unit ≤ 0xDFFF then
      .ok ⟨s.text.push (Char.ofNat (0x10000 + (leading - 0xD800) * 0x400 + (unit - 0xDC00))), .none⟩
    else .error .malformed

/-- One more character, not the closing quote of the literal.  The digits of a code unit are
    looked at once there are four bytes of them. -/
def step (s : StringScan) (c : Char) : Except JsonError StringScan :=
  match s.escape with
  | .none =>
    if c = '\\' then .ok { s with escape := .backslash }
    else if c.toNat < 0x20 then .error .malformed
    else .ok { s with text := s.text.push c }
  | .backslash =>
    if c = 'u' then .ok { s with escape := .unit [] none }
    else match escaped? c with
      | some c => .ok ⟨s.text.push c, .none⟩
      | none => .error .malformed
  | .unit digits leading =>
    let digits := c :: digits
    if (String.ofList digits).utf8ByteSize < 4 then .ok { s with escape := .unit digits leading }
    else match unit? digits with
      | some unit => s.closeUnit unit leading
      | none => .error .malformed
  | .surrogate leading =>
    if c = '\\' then .ok { s with escape := .surrogateBackslash leading } else .error .malformed
  | .surrogateBackslash leading =>
    if c = 'u' then .ok { s with escape := .unit [] (some leading) } else .error .malformed

end StringScan

/-! ## The reader -/

/-- A container that is still open. -/
inductive Frame where
  /-- An array with the items before the current one, last one first. -/
  | array (items : List Json)
  /-- An object with the fields before the current one. -/
  | object (fields : List (String × Json))
  /-- An object whose field `key` has its value next. -/
  | member (fields : List (String × Json)) (key : String)

/-- What may come next. -/
inductive Expecting where
  /-- A value. -/
  | value
  /-- A value or the end of an array that has none yet. -/
  | firstItem
  /-- A key. -/
  | key
  /-- A key or the end of an object that has none yet. -/
  | firstKey
  /-- The colon after a key. -/
  | colon
  /-- A comma or the end of the container; blanks only if there is none. -/
  | separator
  /-- The rest of a word such as `null`. -/
  | word (rest : List Char) (value : Json)
  | number (scan : NumberScan)
  /-- The rest of a string value. -/
  | string (scan : StringScan)
  /-- The rest of a key. -/
  | keyString (scan : StringScan)

/-- The reader between two characters. -/
structure State where
  /-- The open containers, innermost first. -/
  stack : List Frame
  /-- The whole value, once it is complete. -/
  result : Option Json
  expecting : Expecting

/-- Nothing read yet. -/
def State.initial : State := ⟨[], none, .value⟩

/-- A value is complete: it goes into the innermost container. -/
def State.complete (s : State) (value : Json) : State :=
  match s.stack with
  | [] => ⟨[], some value, .separator⟩
  | .array items :: rest => ⟨.array (value :: items) :: rest, none, .separator⟩
  | .member fields key :: rest => ⟨.object (insertSorted key value fields) :: rest, none, .separator⟩
  | .object fields :: rest => ⟨.object fields :: rest, none, .separator⟩

/-- Opens a container, within the nesting limit. -/
def State.open (s : State) (limit : Nat) (frame : Frame) (expecting : Expecting) :
    Except JsonError State :=
  if s.stack.length < limit then .ok ⟨frame :: s.stack, none, expecting⟩ else .error .malformed

/-- Closes the innermost container if it is an array. -/
def State.closeArray (s : State) : Except JsonError State :=
  match s.stack with
  | .array items :: rest => .ok ({ s with stack := rest }.complete (.array items.reverse))
  | _ => .error .malformed

/-- Closes the innermost container if it is an object. -/
def State.closeObject (s : State) : Except JsonError State :=
  match s.stack with
  | .object fields :: rest => .ok ({ s with stack := rest }.complete (.object fields))
  | _ => .error .malformed

def isBlank (c : Char) : Bool := c = ' ' || c = '\n' || c = '\t' || c = '\r'

/-- The first character of a value. -/
def State.startValue (s : State) (limit : Nat) (c : Char) : Except JsonError State :=
  if c = '"' then .ok { s with expecting := .string ⟨"", .none⟩ }
  else if c = '[' then s.open limit (.array []) .firstItem
  else if c = '{' then s.open limit (.object []) .firstKey
  else if c = 'n' then .ok { s with expecting := .word ['u', 'l', 'l'] .null }
  else if c = 't' then .ok { s with expecting := .word ['r', 'u', 'e'] (.bool true) }
  else if c = 'f' then .ok { s with expecting := .word ['a', 'l', 's', 'e'] (.bool false) }
  else match NumberScan.start? c with
    | some scan => .ok { s with expecting := .number scan }
    | none => .error .malformed

/-- A character after a complete value. -/
def State.separate (s : State) (c : Char) : Except JsonError State :=
  if isBlank c then .ok s
  else if c = ',' then
    match s.stack with
    | .array _ :: _ => .ok { s with expecting := .value }
    | .object _ :: _ => .ok { s with expecting := .key }
    | _ => .error .malformed
  else if c = ']' then s.closeArray
  else if c = '}' then s.closeObject
  else .error .malformed

/-- One more character. -/
def State.step (limit : Nat) (s : State) (c : Char) : Except JsonError State :=
  match s.expecting with
  | .value => if isBlank c then .ok s else s.startValue limit c
  | .firstItem =>
    if isBlank c then .ok s else if c = ']' then s.closeArray else s.startValue limit c
  | .key =>
    if isBlank c then .ok s
    else if c = '"' then .ok { s with expecting := .keyString ⟨"", .none⟩ }
    else .error .malformed
  | .firstKey =>
    if isBlank c then .ok s
    else if c = '}' then s.closeObject
    else if c = '"' then .ok { s with expecting := .keyString ⟨"", .none⟩ }
    else .error .malformed
  | .colon =>
    if isBlank c then .ok s
    else if c = ':' then .ok { s with expecting := .value }
    else .error .malformed
  | .separator => s.separate c
  | .word [] value => (s.complete value).separate c
  | .word (w :: rest) value =>
    if c = w then
      match rest with
      | [] => .ok (s.complete value)
      | rest => .ok { s with expecting := .word rest value }
    else .error .malformed
  | .number scan =>
    match scan.step? c with
    | some scan => .ok { s with expecting := .number scan }
    | none =>
      if scan.complete && !(scan.phase == .zero && (NumberScan.digit? c).isSome) then
        match scan.value? with
        | some n => (s.complete (.number n)).separate c
        | none => .error .malformed
      else .error .malformed
  | .string scan =>
    match scan.escape, c with
    | .none, '"' => .ok (s.complete (.string scan.text))
    | _, _ => return { s with expecting := .string (← scan.step c) }
  | .keyString scan =>
    match scan.escape, c with
    | .none, '"' =>
      match s.stack with
      | .object fields :: rest => .ok ⟨.member fields scan.text :: rest, none, .colon⟩
      | _ => .error .malformed
    | _, _ => return { s with expecting := .keyString (← scan.step c) }

/-- The value, if the text may end here. -/
def State.finish (s : State) : Except JsonError Json :=
  match s.expecting, s.stack with
  | .number scan, [] =>
    if scan.complete then
      match scan.value? with
      | some n => .ok (.number n)
      | none => .error .malformed
    else .error .endedEarly
  | .number scan, _ =>
    if scan.complete && scan.value?.isNone then .error .malformed else .error .endedEarly
  | _, _ =>
    match s.result with
    | some value => .ok value
    | none => .error .endedEarly

end Json.Parser

namespace Json

/-- How deep the containers of a text may nest. -/
def nestingLimit : Nat := 127

/-- Reads one JSON value with nothing but blanks around it, up to a nesting limit. -/
def parseWithin (limit : Nat) (text : String) : Except JsonError Json := do
  (← text.toList.foldlM (Parser.State.step limit) .initial).finish

/-- Reads one JSON value with nothing but blanks around it. -/
def parse (text : String) : Except JsonError Json := parseWithin nestingLimit text

end Json

end Folio
