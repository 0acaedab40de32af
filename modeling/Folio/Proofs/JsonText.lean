/-
  What JSON texts denote.

  A JSON text denotes a value: fields in the order in which they stand, numbers as they are written,
  containers nested as deep as they like.  `Json.read?` is a reader for that.  (The reader of the
  program is another one: it sorts fields, limits nesting, and may miss the nearest double.)  What
  the writer writes, in either layout, denotes the value that was written.

  1. **Reading** — one reader for each kind of value; the items of an array and the fields of an
     object are read by one and the same (`readSequence`).
  2. **Strings** — a string literal reads as the string (`readString_quote`).
  3. **Numbers** — a numeral reads as the number, integers and doubles alike (`readNumber_text`).
  4. **Values** — by induction on the value, in front of whatever text follows (`readValue_pieces`),
     and so for the whole text (`Json.read?_text`).
-/
import Folio.Json.Parser
import Folio.Json.Printer
import Folio.Proofs.Numerals

namespace Folio

open Json.Parser

namespace Json

/-! ## Reading -/

def skipBlanks (text : List Char) : List Char := text.dropWhile isBlank

/-- Reads a string literal up to its closing quote. -/
def readString (scan : StringScan) : List Char → Option (String × List Char)
  | [] => none
  | c :: rest =>
    match scan.escape, c with
    | .none, '"' => some (scan.text, rest)
    | _, _ =>
      match scan.step c with
      | .ok next => readString next rest
      | .error _ => none

/-- The characters of numerals. -/
def isNumeralChar (c : Char) : Bool :=
  c.isDigit || c = '-' || c = '+' || c = '.' || c = 'e' || c = 'E'

/-- The number of a numeral: an integer if it is written as one and fits 64 bits, else the nearest
    double.  Minus zero is a double.  Zeros in front and bare points are no JSON. -/
def number? (n : Numeral) : Option Number :=
  if n.whole ≠ ['0'] ∧ n.whole.head? = some '0' ∨ n.fraction = some [] then none
  else if n.fraction = none ∧ n.exponent = none ∧ (n.negative = true → digitsValue n.whole ≠ 0) then
    (Number.ofInt? (if n.negative then -digitsValue n.whole else digitsValue n.whole)).or
      (Number.ofDouble? n.toDouble)
  else Number.ofDouble? n.toDouble

/-- Reads a number, which goes as far as its characters do. -/
def readNumber (text : List Char) : Option (Json × List Char) :=
  (Numeral.read? (text.takeWhile isNumeralChar) >>= number?).map fun n =>
    (.number n, text.dropWhile isNumeralChar)

section Sequences

variable {α : Type} (close : Char) (read : List Char → Option (α × List Char))

/-- Reads what follows an item: more items, or the closing bracket. -/
def readMore : Nat → List Char → Option (List α × List Char)
  | 0, _ => none
  | limit + 1, text =>
    match skipBlanks text with
    | ',' :: rest => do
      let (item, rest) ← read rest
      let (items, rest) ← readMore limit rest
      return (item :: items, rest)
    | c :: rest => if c = close then some ([], rest) else none
    | [] => none

/-- Reads what follows an opening bracket: items, or the closing bracket. -/
def readSequence (limit : Nat) (text : List Char) : Option (List α × List Char) :=
  if (skipBlanks text).head? = some close then some ([], (skipBlanks text).tail)
  else do
    let (item, rest) ← read text
    let (items, rest) ← readMore close read limit rest
    return (item :: items, rest)

/-- Reads a key, a colon and what follows it. -/
def readField (text : List Char) : Option ((String × α) × List Char) :=
  match skipBlanks text with
  | '"' :: rest => do
    let (key, rest) ← readString ⟨"", .none⟩ rest
    match skipBlanks rest with
    | ':' :: rest => do
      let (value, rest) ← read rest
      return ((key, value), rest)
    | _ => none
  | _ => none

end Sequences

/-- Reads one value, with at most so many levels and items. -/
def readValue : Nat → List Char → Option (Json × List Char)
  | 0, _ => none
  | limit + 1, text =>
    match skipBlanks text with
    | '"' :: rest => (readString ⟨"", .none⟩ rest).map fun (s, rest) => (.string s, rest)
    | '[' :: rest =>
      (readSequence ']' (readValue limit) limit rest).map fun (items, rest) => (.array items, rest)
    | '{' :: rest =>
      (readSequence '}' (readField (readValue limit)) limit rest).map fun (fields, rest) =>
        (.object fields, rest)
    | 'n' :: 'u' :: 'l' :: 'l' :: rest => some (.null, rest)
    | 't' :: 'r' :: 'u' :: 'e' :: rest => some (.bool true, rest)
    | 'f' :: 'a' :: 'l' :: 's' :: 'e' :: rest => some (.bool false, rest)
    | text => readNumber text

/-- The value that a JSON text denotes.  No text has more levels or items than characters. -/
def read? (text : String) : Option Json :=
  match readValue (text.toList.length + 1) text.toList with
  | some (value, rest) => if skipBlanks rest = [] then some value else none
  | none => none

/-! ## Strings -/

theorem readString_step {scan next : StringScan} {c : Char} {rest : List Char}
    (hquote : scan.escape = .none → c ≠ '"') (hstep : scan.step c = .ok next) :
    readString scan (c :: rest) = readString next rest := by
  rw [readString, hstep]
  exact hquote

/-- The digits of a control character are those of its code unit. -/
theorem unit?_control : ∀ n < 32,
    (String.ofList [hexDigit (n / 16), '0', '0']).utf8ByteSize < 4 ∧
    ¬(String.ofList [hexDigit (n % 16), hexDigit (n / 16), '0', '0']).utf8ByteSize < 4 ∧
    StringScan.unit? [hexDigit (n % 16), hexDigit (n / 16), '0', '0'] = some n := by
  decide +kernel

/-- A control character is read as itself from its code unit. -/
theorem readString_control (text : String) {c : Char} (h : c.toNat < 32) (rest : List Char) :
    readString ⟨text, .none⟩ ('\\' :: 'u' :: '0' :: '0' :: hexDigit (c.toNat / 16) ::
      hexDigit (c.toNat % 16) :: rest) = readString ⟨text.push c, .none⟩ rest := by
  obtain ⟨hshort, hlong, hunit⟩ := unit?_control c.toNat h
  have hopen : StringScan.step ⟨text, .unit ['0', '0'] none⟩ (hexDigit (c.toNat / 16)) =
      .ok ⟨text, .unit [hexDigit (c.toNat / 16), '0', '0'] none⟩ := by
    simp only [StringScan.step, if_pos hshort]
  -- its code unit is no half of a pair
  have htrailing : ¬(0xDC00 ≤ c.toNat && c.toNat ≤ 0xDFFF) = true := by
    simp only [Bool.and_eq_true, decide_eq_true_eq]
    omega
  have hleading : ¬(0xD800 ≤ c.toNat && c.toNat ≤ 0xDBFF) = true := by
    simp only [Bool.and_eq_true, decide_eq_true_eq]
    omega
  have hclose : StringScan.step ⟨text, .unit [hexDigit (c.toNat / 16), '0', '0'] none⟩
      (hexDigit (c.toNat % 16)) = .ok ⟨text.push c, .none⟩ := by
    simp only [StringScan.step, if_neg hlong, hunit, StringScan.closeUnit, if_neg htrailing,
      if_neg hleading, Char.ofNat_toNat]
  rw [readString_step (fun _ => by decide) rfl, readString_step (fun h => by cases h) rfl,
    readString_step (fun h => by cases h) rfl, readString_step (fun h => by cases h) rfl,
    readString_step (fun h => by cases h) hopen, readString_step (fun h => by cases h) hclose]

/-- A character is read as itself from what is written for it. -/
theorem readString_escapeChar (text : String) (c : Char) (rest : List Char) :
    readString ⟨text, .none⟩ (escapeChar c ++ rest) = readString ⟨text.push c, .none⟩ rest := by
  -- a backslash and a letter
  have hletter : ∀ {letter : Char}, letter ≠ 'u' → StringScan.escaped? letter = some c →
      readString ⟨text, .none⟩ ('\\' :: letter :: rest) = readString ⟨text.push c, .none⟩ rest := by
    intro letter hu hescaped
    have hstep : StringScan.step ⟨text, .backslash⟩ letter = .ok ⟨text.push c, .none⟩ := by
      simp only [StringScan.step, if_neg hu, hescaped]
    rw [readString_step (fun _ => by decide) rfl, readString_step (fun h => by cases h) hstep]
  unfold escapeChar
  iterate 7
    split
    · rename_i hc
      exact hletter (by decide) (by rw [hc]; rfl)
  split
  · rename_i hcontrol
    exact readString_control text hcontrol rest
  · rename_i hquote hbackslash _ _ _ _ _ hcontrol
    refine readString_step (fun _ => hquote) ?_
    simp only [StringScan.step, if_neg hbackslash, if_neg hcontrol]

theorem readString_chars (chars : List Char) (rest : List Char) : ∀ text : String,
    readString ⟨text, .none⟩ (chars.flatMap escapeChar ++ '"' :: rest) =
      some (text ++ String.ofList chars, rest) := by
  induction chars with
  | nil =>
    intro text
    rw [List.flatMap_nil, List.nil_append, readString]
    · simp
    · rfl
  | cons c chars ih =>
    intro text
    have htext : text.push c ++ String.ofList chars = text ++ String.ofList (c :: chars) := by
      apply String.toList_inj.1
      simp
    rw [List.flatMap_cons, List.append_assoc, readString_escapeChar, ih, htext]

theorem toList_quote (s : String) :
    (quote s).toList = '"' :: (s.toList.flatMap escapeChar ++ ['"']) := by
  have hpush : ∀ (chars : List Char) (text : String),
      (pushAll text chars).toList = text.toList ++ chars := by
    intro chars
    induction chars with
    | nil => simp [pushAll]
    | cons c chars ih =>
      intro text
      show (pushAll (text.push c) chars).toList = _
      rw [ih]
      simp
  have hfold : ∀ (chars : List Char) (text : String),
      (chars.foldl (fun literal c => pushAll literal (escapeChar c)) text).toList =
        text.toList ++ chars.flatMap escapeChar := by
    intro chars
    induction chars with
    | nil => simp
    | cons c chars ih =>
      intro text
      rw [List.foldl_cons, ih, hpush, List.flatMap_cons, List.append_assoc]
  rw [quote, String.toList_push, hfold]
  rfl

/-- **A string literal** reads as the string. -/
theorem readString_quote (s : String) (rest : List Char) : ∃ literal,
    (quote s).toList ++ rest = '"' :: literal ∧
      readString ⟨"", .none⟩ literal = some (s, rest) := by
  refine ⟨s.toList.flatMap escapeChar ++ '"' :: rest, ?_, ?_⟩
  · rw [toList_quote, List.cons_append, List.append_assoc, List.singleton_append]
  · rw [readString_chars]
    simp

/-! ## Numbers -/

/-- A numeral is written in the characters of numerals. -/
theorem isNumeralChar_of_mem_chars {n : Numeral} (h : n.HasDigits) :
    ∀ c ∈ n.chars, isNumeralChar c = true := by
  have hdigit : ∀ {c : Char}, c.isDigit = true → isNumeralChar c = true := by
    intro c hc
    simp [isNumeralChar, hc]
  intro c hc
  unfold Numeral.chars at hc
  rcases List.mem_append.1 hc with hc | hc
  · split at hc
    · rw [List.mem_singleton.1 hc]
      decide
    · cases hc
  rcases List.mem_append.1 hc with hc | hc
  · exact hdigit (h.whole c hc)
  rcases List.mem_append.1 hc with hc | hc
  · cases hfraction : n.fraction with
    | none =>
      rw [hfraction] at hc
      cases hc
    | some digits =>
      rw [hfraction] at hc
      rcases List.mem_cons.1 hc with rfl | hc
      · decide
      · exact hdigit (h.fraction digits hfraction c hc)
  · cases hexponent : n.exponent with
    | none =>
      rw [hexponent] at hc
      cases hc
    | some exponent =>
      rw [hexponent] at hc
      rcases List.mem_cons.1 hc with rfl | hc
      · decide
      rcases List.mem_cons.1 hc with rfl | hc
      · split <;> decide
      · exact hdigit (Nat.isDigit_of_mem_toDigits (by decide) (by decide) hc)

/-- A number is read from any numeral that stands for it, up to where the numeral ends. -/
theorem readNumber_chars {n : Numeral} {number : Number} (h : n.HasDigits)
    (hnumber : number? n = some number) {rest : List Char}
    (hrest : ∀ c ∈ rest.head?, isNumeralChar c = false) :
    readNumber (n.chars ++ rest) = some (.number number, rest) := by
  have hchars := isNumeralChar_of_mem_chars h
  have hends : rest.takeWhile isNumeralChar = [] ∧ rest.dropWhile isNumeralChar = rest := by
    cases rest with
    | nil => exact ⟨rfl, rfl⟩
    | cons c rest =>
      have hc : isNumeralChar c = false := hrest c rfl
      rw [List.takeWhile_cons, List.dropWhile_cons, hc]
      exact ⟨rfl, rfl⟩
  rw [readNumber, List.takeWhile_append_of_pos hchars, List.dropWhile_append_of_pos hchars, hends.1,
    hends.2, List.append_nil, Numeral.read?_chars h]
  show Option.map _ (number? n) = _
  rw [hnumber]
  rfl

/-- The digits of a natural number have no zero in front of other digits. -/
theorem head?_toDigits (k : Nat) :
    ¬(Nat.toDigits 10 k ≠ ['0'] ∧ (Nat.toDigits 10 k).head? = some '0') := by
  rintro ⟨hne, hhead⟩
  rcases Nat.eq_zero_or_pos k with rfl | hpos
  · exact hne rfl
  · exact head?_toDigits_ne hpos hhead

/-- Digits without a point or an exponent stand for an integer that fits, unless it is minus
    zero. -/
theorem number?_digits {negative : Bool} {k : Nat} {number : Number}
    (hsign : negative = true → k ≠ 0)
    (hfits : Number.ofInt? (if negative then -k else k) = some number) :
    number? ⟨negative, Nat.toDigits 10 k, none, none⟩ = some number := by
  have hvalue : digitsValue (Nat.toDigits 10 k) = k := Nat.ofDigitChars_ten_toDigits
  have hguard : ¬((Nat.toDigits 10 k ≠ ['0'] ∧ (Nat.toDigits 10 k).head? = some '0') ∨
      (none : Option (List Char)) = some []) := by
    rintro (hzero | hpoint)
    · exact head?_toDigits k hzero
    · cases hpoint
  rw [number?, if_neg hguard, if_pos ⟨rfl, rfl, by rwa [hvalue]⟩]
  dsimp only
  rw [hvalue, hfits, Option.some_or]

/-- What is written for an integer is a numeral that stands for it. -/
theorem exists_numeral_int (value : Int)
    (inRange : -0x8000000000000000 ≤ value ∧ value < 0x10000000000000000) :
    ∃ n : Numeral, (Number.int value inRange).text.toList = n.chars ∧ n.HasDigits ∧
      number? n = some (.int value inRange) := by
  have hdigits : ∀ k : Nat, ∀ c ∈ Nat.toDigits 10 k, c.isDigit = true := by
    intro k c hc
    exact Nat.isDigit_of_mem_toDigits (by decide) (by decide) hc
  have hfits : Number.ofInt? value = some (.int value inRange) := dif_pos inRange
  cases value with
  | ofNat k =>
    refine ⟨⟨false, Nat.toDigits 10 k, none, none⟩, ?_, ?_, ?_⟩
    · show (Nat.repr k).toList = _
      simp [Numeral.chars, Numeral.pointed, Numeral.exponentChars]
    · exact ⟨Nat.toDigits_ne_nil, hdigits k, fun _ h => by cases h⟩
    · exact number?_digits (fun h => by cases h) hfits
  | negSucc k =>
    refine ⟨⟨true, Nat.toDigits 10 (k + 1), none, none⟩, ?_, ?_, ?_⟩
    · show ("-" ++ Nat.repr (k + 1)).toList = _
      simp [Numeral.chars, Numeral.pointed, Numeral.exponentChars]
    · exact ⟨Nat.toDigits_ne_nil, hdigits (k + 1), fun _ h => by cases h⟩
    · exact number?_digits (fun _ => Nat.succ_ne_zero k) hfits

/-- What is written for a double is a numeral that stands for it. -/
theorem exists_numeral_float (x : Double) (finite : x.isFinite = true) :
    ∃ n : Numeral, (Number.float x finite).text.toList = n.chars ∧ n.HasDigits ∧
      number? n = some (.float x finite) := by
  have hfits : Number.ofDouble? x = some (.float x finite) := dif_pos finite
  have htext : (Number.float x finite).text.toList = NumeralStyle.json.double x :=
    String.toList_ofList
  cases hzero : x.isZero with
  | true =>
    have hmagnitude : x.magnitude = 0 := by simpa [Double.isZero] using hzero
    have hx : Double.zero x.negative = x := by
      cases x
      simp only at hmagnitude
      subst hmagnitude
      rfl
    refine ⟨⟨x.negative, ['0'], some ['0'], none⟩, ?_, ?_, ?_⟩
    · rw [htext, NumeralStyle.double, if_pos hzero]
      cases x.negative <;> rfl
    · have hzeros : ∀ c ∈ ['0'], c.isDigit = true := fun c hc => by
        rw [List.mem_singleton.1 hc]
        rfl
      refine ⟨List.cons_ne_nil _ _, hzeros, fun digits h => ?_⟩
      cases h
      exact hzeros
    · rw [number?, if_neg (by simp), if_neg (by simp),
        (Numeral.toDouble_zero x.negative (.inr rfl)).2, hx, hfits]
  | false =>
    obtain ⟨n, hlays, hchars, hhas, -, hdouble⟩ :=
      Double.exists_numeral NumeralStyle.regular_json finite hzero
    obtain ⟨hne, -, hfirst, -⟩ := Double.digits_shortest finite hzero .even
    refine ⟨n, htext.trans hchars, hhas, ?_⟩
    have hguard : ¬(n.whole ≠ ['0'] ∧ n.whole.head? = some '0' ∨ n.fraction = some []) := by
      rintro (⟨hother, hhead⟩ | hnil)
      · exact (hlays.whole_head hne hfirst).elim hother fun hnot => hnot hhead
      · exact hlays.fraction_ne_nil (by decide) hne hnil
    -- the layouts of JSON have a point or an exponent
    have hfloat : ¬(n.fraction = none ∧ n.exponent = none ∧
        (n.negative = true → digitsValue n.whole ≠ 0)) := by
      rintro ⟨hfraction, hexponent, -⟩
      cases hlays with
      | whole zeros hleading hhighest => cases hfraction
      | mixed before after hcut hbefore hafter hleading hhighest => cases hfraction
      | small zeros hleading hlowest => cases hfraction
      | scientific first rest hcut hbounds => cases hexponent
    rw [number?, if_neg hguard, if_neg hfloat, hdouble, hfits]

theorem exists_numeral (number : Number) :
    ∃ n : Numeral, number.text.toList = n.chars ∧ n.HasDigits ∧ number? n = some number := by
  cases number with
  | int value inRange => exact exists_numeral_int value inRange
  | float x finite => exact exists_numeral_float x finite

/-- **A number** is read from what is written for it. -/
theorem readNumber_text (number : Number) {rest : List Char}
    (hrest : ∀ c ∈ rest.head?, isNumeralChar c = false) :
    readNumber (number.text.toList ++ rest) = some (.number number, rest) := by
  obtain ⟨n, htext, hdigits, hnumber⟩ := exists_numeral number
  rw [htext]
  exact readNumber_chars hdigits hnumber hrest

/-! ## Values -/

/-- The text of some pieces. -/
def flat (pieces : List String) : List Char := pieces.flatMap String.toList

@[simp] theorem flat_cons (piece : String) (rest : List String) :
    flat (piece :: rest) = piece.toList ++ flat rest := rfl

/-- Text that a number may stand in front of. -/
def Ends (text : List Char) : Prop := ∀ c ∈ text.head?, isNumeralChar c = false

/-- Text that starts with a value: not with a blank, and not with a closing bracket. -/
def Starts (text : List Char) : Prop :=
  ∃ c rest, text = c :: rest ∧ isBlank c = false ∧ c ≠ ']' ∧ c ≠ '}'

/-- A line break is nothing but blanks. -/
theorem skipBlanks_lineBreak (layout : Layout) (depth : Nat) (rest : List String) :
    skipBlanks (flat (lineBreak layout depth rest)) = skipBlanks (flat rest) := by
  cases layout with
  | compact => rfl
  | indented =>
    have hpush : ∀ n : Nat, ("".pushn ' ' n).toList = List.replicate n ' ' := by
      intro n
      induction n with
      | zero => rfl
      | succ n ih =>
        show (("".pushn ' ' n).push ' ').toList = _
        rw [String.toList_push, ih, List.replicate_succ']
    have hbreak : flat (lineBreak .indented depth rest) =
        ('\n' :: List.replicate (2 * depth) ' ') ++ flat rest := by
      rw [lineBreak, flat_cons, String.toList_append, hpush]
      rfl
    rw [hbreak, skipBlanks, List.dropWhile_append_of_pos]
    · rfl
    · intro c hc
      rcases List.mem_cons.1 hc with rfl | hc
      · decide
      · rw [List.eq_of_mem_replicate hc]
        decide

theorem length_lineBreak (layout : Layout) (depth : Nat) (rest : List String) :
    (flat rest).length ≤ (flat (lineBreak layout depth rest)).length := by
  cases layout with
  | compact => exact Nat.le_refl _
  | indented =>
    rw [lineBreak, flat_cons, List.length_append]
    omega

mutual

/-- What follows a value is part of the text. -/
theorem length_piecesOnto (layout : Layout) : ∀ (value : Json) (depth : Nat) (rest : List String),
    (flat rest).length ≤ (flat (value.piecesOnto layout depth rest)).length
  | .null, _, _ | .bool true, _, _ | .bool false, _, _ | .number _, _, _ | .string _, _, _
  | .array [], _, _ | .object [], _, _ => by
    rw [piecesOnto, flat_cons, List.length_append]
    omega
  | .array (item :: items), depth, rest => by
    have hclose := length_lineBreak layout depth ("]" :: rest)
    have hitems := length_itemsOnto layout items (depth + 1) (lineBreak layout depth ("]" :: rest))
    have hitem := length_piecesOnto layout item (depth + 1)
      (itemsOnto layout (depth + 1) items (lineBreak layout depth ("]" :: rest)))
    have hopen := length_lineBreak layout (depth + 1) (item.piecesOnto layout (depth + 1)
      (itemsOnto layout (depth + 1) items (lineBreak layout depth ("]" :: rest))))
    rw [flat_cons, List.length_append] at hclose
    rw [piecesOnto, flat_cons, List.length_append]
    omega
  | .object ((key, value) :: fields), depth, rest => by
    have hclose := length_lineBreak layout depth ("\x7d" :: rest)
    have hfields :=
      length_fieldsOnto layout fields (depth + 1) (lineBreak layout depth ("\x7d" :: rest))
    have hvalue := length_piecesOnto layout value (depth + 1)
      (fieldsOnto layout (depth + 1) fields (lineBreak layout depth ("\x7d" :: rest)))
    have hopen := length_lineBreak layout (depth + 1) (quote key :: keySeparator layout ::
      value.piecesOnto layout (depth + 1)
        (fieldsOnto layout (depth + 1) fields (lineBreak layout depth ("\x7d" :: rest))))
    rw [flat_cons, List.length_append] at hclose
    rw [flat_cons, flat_cons, List.length_append, List.length_append] at hopen
    rw [piecesOnto, flat_cons, List.length_append]
    omega

theorem length_itemsOnto (layout : Layout) : ∀ (items : List Json) (depth : Nat)
    (rest : List String), (flat rest).length ≤ (flat (itemsOnto layout depth items rest)).length
  | [], _, _ => Nat.le_refl _
  | item :: items, depth, rest => by
    have hitems := length_itemsOnto layout items depth rest
    have hitem := length_piecesOnto layout item depth (itemsOnto layout depth items rest)
    have hopen := length_lineBreak layout depth
      (item.piecesOnto layout depth (itemsOnto layout depth items rest))
    rw [itemsOnto, flat_cons, List.length_append]
    omega

theorem length_fieldsOnto (layout : Layout) : ∀ (fields : List (String × Json)) (depth : Nat)
    (rest : List String), (flat rest).length ≤ (flat (fieldsOnto layout depth fields rest)).length
  | [], _, _ => Nat.le_refl _
  | (key, value) :: fields, depth, rest => by
    have hfields := length_fieldsOnto layout fields depth rest
    have hvalue := length_piecesOnto layout value depth (fieldsOnto layout depth fields rest)
    have hopen := length_lineBreak layout depth (quote key :: keySeparator layout ::
      value.piecesOnto layout depth (fieldsOnto layout depth fields rest))
    rw [flat_cons, flat_cons, List.length_append, List.length_append] at hopen
    rw [fieldsOnto, flat_cons, List.length_append]
    omega

end

section Sequences

variable {α : Type} {close : Char} {read : List Char → Option (α × List Char)}

theorem readMore_close {count : Nat} {text rest : List Char} (hclose : close ≠ ',')
    (htext : skipBlanks text = close :: rest) :
    readMore close read (count + 1) text = some ([], rest) := by
  rw [readMore, htext]
  split
  · rename_i heq
    cases heq
    exact absurd rfl hclose
  · rename_i heq
    cases heq
    rw [if_pos rfl]
  · rename_i heq
    cases heq

theorem readMore_comma {count : Nat} {text after rest left : List Char} {item : α} {items : List α}
    (htext : skipBlanks text = ',' :: after) (hitem : read after = some (item, rest))
    (hitems : readMore close read count rest = some (items, left)) :
    readMore close read (count + 1) text = some (item :: items, left) := by
  rw [readMore, htext]
  show (read after >>= _) = _
  rw [hitem]
  show (readMore close read count rest >>= _) = _
  rw [hitems]
  rfl

theorem readSequence_close {count : Nat} {text rest : List Char}
    (htext : skipBlanks text = close :: rest) :
    readSequence close read count text = some ([], rest) := by
  have hhead : (skipBlanks text).head? = some close := by
    rw [htext]
    rfl
  rw [readSequence, if_pos hhead, htext]
  rfl

theorem readSequence_items {count : Nat} {text rest left : List Char} {item : α} {items : List α}
    (htext : (skipBlanks text).head? ≠ some close) (hitem : read text = some (item, rest))
    (hitems : readMore close read count rest = some (items, left)) :
    readSequence close read count text = some (item :: items, left) := by
  rw [readSequence, if_neg htext]
  show (read text >>= _) = _
  rw [hitem]
  show (readMore close read count rest >>= _) = _
  rw [hitems]
  rfl

end Sequences

/-- A numeral character starts no other value. -/
theorem starts_of_isNumeralChar {c : Char} (h : isNumeralChar c = true) (rest : List Char) :
    Starts (c :: rest) := by
  refine ⟨c, rest, rfl, ?_, ?_, ?_⟩
  · by_contra hblank
    rw [Bool.not_eq_false] at hblank
    simp only [isBlank, Bool.or_eq_true, decide_eq_true_eq] at hblank
    rcases hblank with ((rfl | rfl) | rfl) | rfl <;> cases h
  · rintro rfl
    cases h
  · rintro rfl
    cases h

theorem exists_text_number (number : Number) :
    ∃ c rest, number.text.toList = c :: rest ∧ isNumeralChar c = true := by
  obtain ⟨n, htext, hdigits, -⟩ := exists_numeral number
  have hne : n.chars ≠ [] := by
    unfold Numeral.chars
    exact List.append_ne_nil_of_right_ne_nil _
      (List.append_ne_nil_of_left_ne_nil hdigits.ne_nil _)
  obtain ⟨c, rest, hchars⟩ := List.exists_cons_of_ne_nil hne
  have hc : c ∈ n.chars := by
    rw [hchars]
    exact List.mem_cons_self
  exact ⟨c, rest, htext.trans hchars, isNumeralChar_of_mem_chars hdigits c hc⟩

theorem starts_quote (s : String) (rest : List Char) : Starts ((quote s).toList ++ rest) := by
  rw [toList_quote]
  exact ⟨'"', _, rfl, by decide, by decide, by decide⟩

theorem starts_piecesOnto (layout : Layout) (depth : Nat) (value : Json) (rest : List String) :
    Starts (flat (value.piecesOnto layout depth rest)) := by
  cases value with
  | null => exact ⟨'n', _, rfl, by decide, by decide, by decide⟩
  | bool b =>
    cases b with
    | true => exact ⟨'t', _, rfl, by decide, by decide, by decide⟩
    | false => exact ⟨'f', _, rfl, by decide, by decide, by decide⟩
  | number n =>
    obtain ⟨c, more, htext, hc⟩ := exists_text_number n
    rw [piecesOnto, flat_cons, htext]
    exact starts_of_isNumeralChar hc _
  | string s => exact starts_quote s (flat rest)
  | array items =>
    cases items with
    | nil => exact ⟨'[', _, rfl, by decide, by decide, by decide⟩
    | cons item items => exact ⟨'[', _, rfl, by decide, by decide, by decide⟩
  | object fields =>
    cases fields with
    | nil => exact ⟨'{', _, rfl, by decide, by decide, by decide⟩
    | cons field fields => exact ⟨'{', _, rfl, by decide, by decide, by decide⟩

theorem skipBlanks_of_starts {text : List Char} (h : Starts text) : skipBlanks text = text := by
  obtain ⟨c, rest, rfl, hblank, -⟩ := h
  rw [skipBlanks, List.dropWhile_cons, hblank]
  rfl

/-- A reader skips blanks in front of what it reads. -/
theorem readValue_congr {limit : Nat} {text text' : List Char}
    (h : skipBlanks text = skipBlanks text') : readValue limit text = readValue limit text' := by
  cases limit with
  | zero => rfl
  | succ limit => rw [readValue, readValue, h]

/-- What starts with a value does not start with a closing bracket. -/
theorem head?_skipBlanks_of_starts {text text' : List Char} (h : Starts text)
    (heq : skipBlanks text' = skipBlanks text) :
    (skipBlanks text').head? ≠ some ']' ∧ (skipBlanks text').head? ≠ some '}' := by
  rw [heq, skipBlanks_of_starts h]
  obtain ⟨c, rest, rfl, -, hbracket, hbrace⟩ := h
  exact ⟨fun hc => hbracket (Option.some.inj hc), fun hc => hbrace (Option.some.inj hc)⟩

/-- A line break and what may stand after the last item end a number. -/
theorem ends_lineBreak (layout : Layout) (depth : Nat) (close : Char)
    (hclose : isNumeralChar close = false) (rest : List String) :
    Ends (flat (lineBreak layout depth (String.singleton close :: rest))) := by
  intro c hc
  cases layout with
  | compact =>
    rw [lineBreak, flat_cons, String.toList_singleton] at hc
    cases hc
    exact hclose
  | indented =>
    rw [lineBreak, flat_cons, String.toList_append] at hc
    cases hc
    decide

theorem ends_itemsOnto (layout : Layout) (depth outer : Nat) (items : List Json)
    (rest : List String) :
    Ends (flat (itemsOnto layout depth items (lineBreak layout outer ("]" :: rest)))) := by
  cases items with
  | nil => exact ends_lineBreak layout outer ']' (by decide) rest
  | cons item items =>
    intro c hc
    cases hc
    decide

theorem ends_fieldsOnto (layout : Layout) (depth outer : Nat) (fields : List (String × Json))
    (rest : List String) :
    Ends (flat (fieldsOnto layout depth fields (lineBreak layout outer ("\x7d" :: rest)))) := by
  cases fields with
  | nil => exact ends_lineBreak layout outer '}' (by decide) rest
  | cons field fields =>
    intro c hc
    cases hc
    decide

/-- A field is read from what is written for it if its value is. -/
theorem readField_pieces (layout : Layout) (depth : Nat) (key : String) {limit : Nat}
    {pieces : List String} {value : Json} {rest : List Char}
    (hvalue : readValue limit (flat pieces) = some (value, rest)) :
    readField (readValue limit)
      (flat (lineBreak layout depth (quote key :: keySeparator layout :: pieces))) =
        some ((key, value), rest) := by
  obtain ⟨literal, hquote, hkey⟩ := readString_quote key (flat (keySeparator layout :: pieces))
  have hstart :
      skipBlanks (flat (lineBreak layout depth (quote key :: keySeparator layout :: pieces))) =
        '"' :: literal := by
    rw [skipBlanks_lineBreak, flat_cons, hquote]
    rfl
  obtain ⟨after, hcolon, hafter⟩ : ∃ after,
      skipBlanks (flat (keySeparator layout :: pieces)) = ':' :: after ∧
        skipBlanks after = skipBlanks (flat pieces) := by
    cases layout with
    | compact => exact ⟨flat pieces, rfl, rfl⟩
    | indented => exact ⟨' ' :: flat pieces, rfl, rfl⟩
  rw [readField, hstart]
  show (readString _ literal >>= _) = _
  rw [hkey]
  show (match skipBlanks (flat (keySeparator layout :: pieces)) with
    | ':' :: rest => _
    | _ => _) = _
  rw [hcolon]
  show (readValue limit after >>= _) = _
  rw [readValue_congr hafter, hvalue]
  rfl

theorem readValue_array {limit : Nat} {text rest : List Char} {items : List Json}
    (h : readSequence ']' (readValue limit) limit text = some (items, rest)) :
    readValue (limit + 1) ('[' :: text) = some (.array items, rest) := by
  show Option.map _ (readSequence ']' (readValue limit) limit text) = _
  rw [h]
  rfl

theorem readValue_object {limit : Nat} {text rest : List Char} {fields : List (String × Json)}
    (h : readSequence '}' (readField (readValue limit)) limit text = some (fields, rest)) :
    readValue (limit + 1) ('{' :: text) = some (.object fields, rest) := by
  show Option.map _ (readSequence '}' (readField (readValue limit)) limit text) = _
  rw [h]
  rfl

theorem readValue_string (s : String) (limit : Nat) (rest : List Char) :
    readValue (limit + 1) ((quote s).toList ++ rest) = some (.string s, rest) := by
  obtain ⟨literal, hquote, hread⟩ := readString_quote s rest
  rw [hquote]
  show Option.map _ (readString _ literal) = _
  rw [hread]
  rfl

theorem readValue_number (number : Number) (limit : Nat) {rest : List Char} (hends : Ends rest) :
    readValue (limit + 1) (number.text.toList ++ rest) = some (.number number, rest) := by
  obtain ⟨c, more, htext, hc⟩ := exists_text_number number
  have hread := readNumber_text number hends
  rw [htext, List.cons_append] at hread ⊢
  rw [readValue, skipBlanks_of_starts (starts_of_isNumeralChar hc _)]
  split
  all_goals first
    | exact hread
    | rename_i heq
      obtain ⟨rfl, -⟩ := List.cons.inj heq
      cases hc

mutual

/-- **A value is read from what is written for it**, in front of whatever follows. -/
theorem readValue_pieces (layout : Layout) : ∀ (value : Json) (depth limit : Nat)
    (rest : List String), Ends (flat rest) →
    (flat (value.piecesOnto layout depth rest)).length < limit →
    readValue limit (flat (value.piecesOnto layout depth rest)) = some (value, flat rest)
  | _, _, 0, _, _, hlimit => absurd hlimit (Nat.not_lt_zero _)
  | .null, _, limit + 1, _, _, _ => rfl
  | .bool true, _, limit + 1, _, _, _ => rfl
  | .bool false, _, limit + 1, _, _, _ => rfl
  | .number n, _, limit + 1, _, hends, _ => readValue_number n limit hends
  | .string s, _, limit + 1, rest, _, _ => readValue_string s limit (flat rest)
  | .array [], _, limit + 1, _, _, _ => readValue_array (readSequence_close rfl)
  | .object [], _, limit + 1, _, _, _ => readValue_object (readSequence_close rfl)
  | .array (item :: items), depth, limit + 1, rest, _, hlimit => by
    have hends := ends_itemsOnto layout (depth + 1) depth items rest
    have hitems := readMore_items layout items (depth + 1) depth limit limit rest
    have hbracket : "[".toList.length = 1 := rfl
    rw [piecesOnto] at hlimit ⊢
    rw [flat_cons, List.length_append] at hlimit
    generalize itemsOnto layout (depth + 1) items (lineBreak layout depth ("]" :: rest)) = more at *
    have hinner := length_lineBreak layout (depth + 1) (item.piecesOnto layout (depth + 1) more)
    have hafter := length_piecesOnto layout item (depth + 1) more
    have hitem := readValue_pieces layout item (depth + 1) limit more hends (by omega)
    have hbreak := skipBlanks_lineBreak layout (depth + 1) (item.piecesOnto layout (depth + 1) more)
    have hstarts := starts_piecesOnto layout (depth + 1) item more
    refine readValue_array (readSequence_items ?_ ?_ (hitems (by omega) (by omega)))
    · exact (head?_skipBlanks_of_starts hstarts hbreak).1
    · exact (readValue_congr hbreak).trans hitem
  | .object ((key, value) :: fields), depth, limit + 1, rest, _, hlimit => by
    have hends := ends_fieldsOnto layout (depth + 1) depth fields rest
    have hfields := readMore_fields layout fields (depth + 1) depth limit limit rest
    have hbrace : "\x7b".toList.length = 1 := rfl
    rw [piecesOnto] at hlimit ⊢
    rw [flat_cons, List.length_append] at hlimit
    generalize fieldsOnto layout (depth + 1) fields (lineBreak layout depth ("\x7d" :: rest)) = more
      at *
    have hinner := length_lineBreak layout (depth + 1)
      (quote key :: keySeparator layout :: value.piecesOnto layout (depth + 1) more)
    rw [flat_cons, flat_cons, List.length_append, List.length_append] at hinner
    have hafter := length_piecesOnto layout value (depth + 1) more
    have hvalue := readValue_pieces layout value (depth + 1) limit more hends (by omega)
    have hkey := starts_quote key
      (flat (keySeparator layout :: value.piecesOnto layout (depth + 1) more))
    have hbreak := skipBlanks_lineBreak layout (depth + 1)
      (quote key :: keySeparator layout :: value.piecesOnto layout (depth + 1) more)
    refine readValue_object (readSequence_items ?_ ?_ (hfields (by omega) (by omega)))
    · exact (head?_skipBlanks_of_starts hkey hbreak).2
    · exact readField_pieces layout (depth + 1) key hvalue

theorem readMore_items (layout : Layout) : ∀ (items : List Json) (depth outer limit count : Nat)
    (rest : List String),
    (flat (itemsOnto layout depth items (lineBreak layout outer ("]" :: rest)))).length < limit →
    (flat (itemsOnto layout depth items (lineBreak layout outer ("]" :: rest)))).length < count →
    readMore ']' (readValue limit) count
      (flat (itemsOnto layout depth items (lineBreak layout outer ("]" :: rest)))) =
        some (items, flat rest)
  | _, _, _, _, 0, _, _, hcount => absurd hcount (Nat.not_lt_zero _)
  | [], depth, outer, limit, count + 1, rest, _, _ => by
    refine readMore_close (by decide) ?_
    rw [itemsOnto, skipBlanks_lineBreak]
    rfl
  | item :: items, depth, outer, limit, count + 1, rest, hlimit, hcount => by
    have hends := ends_itemsOnto layout depth outer items rest
    have hitems := readMore_items layout items depth outer limit count rest
    have hcomma : ",".toList.length = 1 := rfl
    rw [itemsOnto] at hlimit hcount ⊢
    rw [flat_cons, List.length_append] at hlimit hcount
    generalize itemsOnto layout depth items (lineBreak layout outer ("]" :: rest)) = more at *
    have hinner := length_lineBreak layout depth (item.piecesOnto layout depth more)
    have hafter := length_piecesOnto layout item depth more
    have hitem := readValue_pieces layout item depth limit more hends (by omega)
    have hbreak := skipBlanks_lineBreak layout depth (item.piecesOnto layout depth more)
    refine readMore_comma rfl ?_ (hitems (by omega) (by omega))
    exact (readValue_congr hbreak).trans hitem

theorem readMore_fields (layout : Layout) : ∀ (fields : List (String × Json))
    (depth outer limit count : Nat) (rest : List String),
    (flat (fieldsOnto layout depth fields
      (lineBreak layout outer ("\x7d" :: rest)))).length < limit →
    (flat (fieldsOnto layout depth fields
      (lineBreak layout outer ("\x7d" :: rest)))).length < count →
    readMore '}' (readField (readValue limit)) count
      (flat (fieldsOnto layout depth fields (lineBreak layout outer ("\x7d" :: rest)))) =
        some (fields, flat rest)
  | _, _, _, _, 0, _, _, hcount => absurd hcount (Nat.not_lt_zero _)
  | [], depth, outer, limit, count + 1, rest, _, _ => by
    refine readMore_close (by decide) ?_
    rw [fieldsOnto, skipBlanks_lineBreak]
    rfl
  | (key, value) :: fields, depth, outer, limit, count + 1, rest, hlimit, hcount => by
    have hends := ends_fieldsOnto layout depth outer fields rest
    have hfields := readMore_fields layout fields depth outer limit count rest
    have hcomma : ",".toList.length = 1 := rfl
    rw [fieldsOnto] at hlimit hcount ⊢
    rw [flat_cons, List.length_append] at hlimit hcount
    generalize fieldsOnto layout depth fields (lineBreak layout outer ("\x7d" :: rest)) = more at *
    have hinner := length_lineBreak layout depth
      (quote key :: keySeparator layout :: value.piecesOnto layout depth more)
    rw [flat_cons, flat_cons, List.length_append, List.length_append] at hinner
    have hafter := length_piecesOnto layout value depth more
    have hvalue := readValue_pieces layout value depth limit more hends (by omega)
    refine readMore_comma rfl ?_ (hfields (by omega) (by omega))
    exact readField_pieces layout depth key hvalue

end

/-- **A text denotes the value that it is written for**, in either layout, whatever the value. -/
theorem read?_text (layout : Layout) (value : Json) : read? (value.text layout) = some value := by
  have htext : (value.text layout).toList = flat (value.piecesOnto layout 0 []) := by
    rw [text, pieces, String.toList_join]
    rfl
  have hends : Ends (flat []) := fun c hc => by cases hc
  have hvalue := readValue_pieces layout value 0
    ((flat (value.piecesOnto layout 0 [])).length + 1) [] hends (Nat.lt_succ_self _)
  rw [read?, htext, hvalue]
  rfl

end Json

end Folio
