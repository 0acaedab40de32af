/-
  What numerals denote.

  A `Numeral` is a decimal numeral taken apart: a sign, digits before and after the point, and an
  exponent of ten.  It denotes an exact rational number, and the double nearest to that.  The text
  of a double is such a numeral.  It denotes exactly the shortest decimal of the double, in one of
  four layouts, and so it reads back as the double.

  1. **Reading** — a reader that takes numerals apart, and is right about all that are written
     (`Numeral.read?_chars`).
  2. **Digits** — the digits of a number denote it, and do not start with a zero
     (`digitsValue_append`, `head?_toDigits_ne`).
  3. **Layouts** — `NumeralStyle.Lays` lists the four layouts, with counts that are natural numbers:
     there is no other way to lay out a decimal (`decimal_lays`), and each denotes the decimal
     (`NumeralStyle.Lays.magnitude`).
  4. **Doubles** — both together for doubles, in any style (`NumeralStyle.double_lays`,
     `Double.exists_numeral`).
-/
import Mathlib.Algebra.Order.Field.Power
import Mathlib.Data.Rat.Lemmas
import Mathlib.Tactic.FieldSimp
import Mathlib.Tactic.Positivity
import Folio.Double.Numeral
import Folio.Proofs.Shortest

namespace Folio

/-! ## Reading -/

/-- A decimal numeral, taken apart. -/
structure Numeral where
  negative : Bool
  /-- The digits before the point. -/
  whole : List Char
  /-- The digits after the point, if there is a point. -/
  fraction : Option (List Char)
  /-- The exponent of ten, if there is one. -/
  exponent : Option Int
  deriving DecidableEq

namespace Numeral

/-- A point and the digits after it. -/
def pointed : Option (List Char) → List Char
  | none => []
  | some digits => '.' :: digits

/-- An exponent of ten, with its sign. -/
def exponentChars : Option Int → List Char
  | none => []
  | some exponent =>
    'e' :: (if exponent < 0 then '-' else '+') :: Nat.toDigits 10 exponent.natAbs

/-- A numeral as it is written. -/
def chars (n : Numeral) : List Char :=
  (if n.negative then ['-'] else []) ++
    (n.whole ++ (pointed n.fraction ++ exponentChars n.exponent))

/-- The number that some digits denote, if there are any and nothing else. -/
def readDigits? (text : List Char) : Option Nat :=
  if text ≠ [] ∧ text.all Char.isDigit then some (Nat.ofDigitChars 10 text 0) else none

/-- Reads what may stand after the digits: nothing, or an exponent. -/
def readExponent? : List Char → Option (Option Int)
  | [] => some none
  | mark :: text =>
    if mark = 'e' ∨ mark = 'E' then
      match text with
      | '-' :: digits => (readDigits? digits).map fun (n : Nat) => some (-(n : Int))
      | '+' :: digits => (readDigits? digits).map fun (n : Nat) => some (n : Int)
      | digits => (readDigits? digits).map fun (n : Nat) => some (n : Int)
    else none

/-- Reads a point and the digits after it; what is left is returned. -/
def readFraction : List Char → Option (List Char) × List Char
  | '.' :: text => (some (text.takeWhile Char.isDigit), text.dropWhile Char.isDigit)
  | text => (none, text)

/-- Reads a numeral without a sign in front. -/
def readUnsigned? (negative : Bool) (text : List Char) : Option Numeral :=
  let whole := text.takeWhile Char.isDigit
  let (fraction, rest) := readFraction (text.dropWhile Char.isDigit)
  if whole = [] then none
  else (readExponent? rest).map fun exponent => ⟨negative, whole, fraction, exponent⟩

/-- Reads a decimal numeral: digits, and possibly a minus sign, a point and an exponent of ten. -/
def read? : List Char → Option Numeral
  | '-' :: text => readUnsigned? true text
  | text => readUnsigned? false text

/-- The numeral has digits before the point, and nothing but digits on either side of it. -/
structure HasDigits (n : Numeral) : Prop where
  ne_nil : n.whole ≠ []
  whole : ∀ c ∈ n.whole, c.isDigit = true
  fraction : ∀ digits ∈ n.fraction, ∀ c ∈ digits, c.isDigit = true

theorem readDigits?_toDigits (n : Nat) : readDigits? (Nat.toDigits 10 n) = some n := by
  have hdigits : (Nat.toDigits 10 n).all Char.isDigit = true :=
    List.all_eq_true.2 fun c hc => Nat.isDigit_of_mem_toDigits (by decide) (by decide) hc
  rw [readDigits?, if_pos ⟨Nat.toDigits_ne_nil, hdigits⟩, Nat.ofDigitChars_ten_toDigits]

theorem readExponent?_exponentChars (exponent : Option Int) :
    readExponent? (exponentChars exponent) = some exponent := by
  cases exponent with
  | none => rfl
  | some exponent =>
    by_cases hsign : exponent < 0
    · have habs : -(exponent.natAbs : Int) = exponent := by omega
      rw [exponentChars, if_pos hsign, readExponent?, if_pos (.inl rfl)]
      show Option.map (fun n : Nat => some (-(n : Int))) (readDigits? _) = _
      rw [readDigits?_toDigits, Option.map_some, habs]
    · have habs : (exponent.natAbs : Int) = exponent := by omega
      rw [exponentChars, if_neg hsign, readExponent?, if_pos (.inl rfl)]
      show Option.map (fun n : Nat => some (n : Int)) (readDigits? _) = _
      rw [readDigits?_toDigits, Option.map_some, habs]

/-- Digits are taken as far as they go. -/
theorem takeWhile_digits {digits rest : List Char} (hdigits : ∀ c ∈ digits, c.isDigit = true)
    (hrest : ∀ c ∈ rest.head?, c.isDigit = false) :
    (digits ++ rest).takeWhile Char.isDigit = digits ∧
    (digits ++ rest).dropWhile Char.isDigit = rest := by
  rw [List.takeWhile_append_of_pos hdigits, List.dropWhile_append_of_pos hdigits]
  cases rest with
  | nil => exact ⟨List.append_nil _, rfl⟩
  | cons c rest =>
    have hc : c.isDigit = false := hrest c rfl
    rw [List.takeWhile_cons, List.dropWhile_cons, hc]
    exact ⟨List.append_nil _, rfl⟩

theorem readFraction_pointed {fraction : Option (List Char)} {rest : List Char}
    (hdigits : ∀ digits ∈ fraction, ∀ c ∈ digits, c.isDigit = true)
    (hrest : ∀ c ∈ rest.head?, c.isDigit = false ∧ c ≠ '.') :
    readFraction (pointed fraction ++ rest) = (fraction, rest) := by
  cases fraction with
  | none =>
    cases rest with
    | nil => rfl
    | cons c rest =>
      have hc : c ≠ '.' := (hrest c rfl).2
      rw [pointed, List.nil_append, readFraction]
      rintro text ⟨rfl, -⟩
      exact hc rfl
  | some digits =>
    obtain ⟨htake, hdrop⟩ :=
      takeWhile_digits (hdigits digits rfl) fun c hc => (hrest c hc).1
    rw [pointed, List.cons_append, readFraction, htake, hdrop]

/-- **Numerals read back**: what is written is taken apart into what it was put together of. -/
theorem read?_chars {n : Numeral} (h : n.HasDigits) : read? n.chars = some n := by
  obtain ⟨negative, whole, fraction, exponent⟩ := n
  obtain ⟨hne, hwhole, hfraction⟩ := h
  dsimp only at hne hwhole hfraction
  have hafter : ∀ c ∈ (exponentChars exponent).head?, c.isDigit = false ∧ c ≠ '.' := by
    cases exponent with
    | none => exact fun c hc => absurd hc (by simp [exponentChars])
    | some exponent =>
      intro c hc
      obtain rfl : 'e' = c := by simpa [exponentChars] using hc
      decide
  have hpoint : ∀ c ∈ (pointed fraction ++ exponentChars exponent).head?, c.isDigit = false := by
    cases fraction with
    | none => exact fun c hc => (hafter c hc).1
    | some digits =>
      intro c hc
      obtain rfl : '.' = c := by simpa [pointed] using hc
      decide
  have hunsigned : readUnsigned? negative
      (whole ++ (pointed fraction ++ exponentChars exponent)) =
        some ⟨negative, whole, fraction, exponent⟩ := by
    obtain ⟨htake, hdrop⟩ := takeWhile_digits hwhole hpoint
    simp only [readUnsigned?, htake, hdrop, readFraction_pointed hfraction hafter, if_neg hne,
      readExponent?_exponentChars, Option.map_some]
  cases negative with
  | true => exact hunsigned
  | false =>
    obtain ⟨first, rest, rfl⟩ := List.exists_cons_of_ne_nil hne
    have hfirst : first ≠ '-' := by
      rintro rfl
      exact absurd (hwhole _ List.mem_cons_self) (by decide)
    show read? (first :: (rest ++ _)) = _
    rw [read?]
    · exact hunsigned
    · rintro text ⟨rfl, -⟩
      exact hfirst rfl

end Numeral

/-! ## Digits -/

/-- The number that some digits denote. -/
def digitsValue (digits : List Char) : Nat := Nat.ofDigitChars 10 digits 0

theorem digitsValue_append (digits others : List Char) :
    digitsValue (digits ++ others) =
      digitsValue digits * 10 ^ others.length + digitsValue others := by
  unfold digitsValue
  rw [Nat.ofDigitChars_append, Nat.ofDigitChars_eq_ofDigitChars_zero, Nat.mul_comm]

theorem digitsValue_zeros (n : Nat) : digitsValue (List.replicate n '0') = 0 := by
  rw [digitsValue, Nat.ofDigitChars_replicate_zero, Nat.mul_zero]

/-- The digits of a positive number do not start with a zero. -/
theorem head?_toDigits_ne {n : Nat} (hn : 0 < n) : (Nat.toDigits 10 n).head? ≠ some '0' := by
  induction n using Nat.strongRecOn with
  | ind n ih =>
    rw [Nat.toDigits_eq_if (by decide)]
    split
    · rename_i hlt
      rw [List.head?_cons]
      intro hzero
      exact absurd (Nat.digitChar_eq_zero.1 (Option.some.inj hzero)) (by omega)
    · rw [List.head?_append_of_ne_nil _ Nat.toDigits_ne_nil]
      exact ih (n / 10) (by omega) (by omega)

/-- The last digit of a number is its remainder. -/
theorem getLast?_toDigits (n : Nat) :
    (Nat.toDigits 10 n).getLast? = some (Nat.digitChar (n % 10)) := by
  rw [Nat.toDigits_eq_if (by decide)]
  split
  · rename_i hlt
    rw [List.getLast?_singleton, Nat.mod_eq_of_lt hlt]
  · rw [List.getLast?_concat]

namespace Decimal

/-- The number that a decimal is. -/
def value (d : Decimal) : ℚ := d.significand * 10 ^ d.exponent

variable {d : Decimal}

theorem digits_ne_nil (d : Decimal) : d.digits ≠ [] := Nat.toDigits_ne_nil

theorem digitsValue_digits (d : Decimal) : digitsValue d.digits = d.significand :=
  Nat.ofDigitChars_ten_toDigits

theorem isDigit_of_mem_digits {c : Char} (h : c ∈ d.digits) : c.isDigit = true :=
  Nat.isDigit_of_mem_toDigits (by decide) (by decide) h

/-- A decimal is its digits after a point, times a power of ten. -/
theorem value_eq (d : Decimal) :
    d.value = digitsValue d.digits / 10 ^ d.digits.length * 10 ^ (d.leading + 1) := by
  have hleading : d.leading + 1 = d.digits.length + d.exponent := by
    unfold leading
    omega
  rw [value, digitsValue_digits, hleading, zpow_add₀ (by norm_num), zpow_natCast]
  field_simp

/-- A decimal has as many digits as its significand needs. -/
theorem significand_bounds (hpos : 0 < d.significand) :
    10 ^ (d.digits.length - 1) ≤ d.significand ∧ d.significand < 10 ^ d.digits.length := by
  have hlength : 0 < d.digits.length := List.length_pos_of_ne_nil d.digits_ne_nil
  constructor
  · rcases Nat.eq_zero_or_pos (d.digits.length - 1) with hone | hmore
    · rw [hone]
      exact hpos
    · by_contra hlt
      have hfits := (Nat.length_toDigits_le_iff (by decide) hmore).2 (Nat.not_le.1 hlt)
      have hsame : d.digits.length ≤ d.digits.length - 1 := hfits
      omega
  · exact (Nat.length_toDigits_le_iff (by decide) hlength).1 (Nat.le_refl _)

/-- **A decimal is at least its leading power of ten**, and less than the next one. -/
theorem value_bounds (hpos : 0 < d.significand) :
    (10 : ℚ) ^ d.leading ≤ d.value ∧ d.value < 10 ^ (d.leading + 1) := by
  obtain ⟨hlow, hhigh⟩ := significand_bounds hpos
  have hlength : 0 < d.digits.length := List.length_pos_of_ne_nil d.digits_ne_nil
  have hunit : (0 : ℚ) < 10 ^ d.exponent := by positivity
  have hleading : d.leading = ((d.digits.length - 1 : Nat) : Int) + d.exponent := by
    unfold leading
    omega
  have hnext : d.leading + 1 = (d.digits.length : Int) + d.exponent := by
    unfold leading
    omega
  have hlowQ : (10 : ℚ) ^ (d.digits.length - 1) ≤ d.significand := by exact_mod_cast hlow
  have hhighQ : (d.significand : ℚ) < 10 ^ d.digits.length := by exact_mod_cast hhigh
  constructor
  · rw [value, hleading, zpow_add₀ (by norm_num), zpow_natCast]
    exact mul_le_mul_of_nonneg_right hlowQ hunit.le
  · rw [value, hnext, zpow_add₀ (by norm_num), zpow_natCast]
    exact mul_lt_mul_of_pos_right hhighQ hunit

end Decimal

/-! ## Layouts -/

namespace Numeral

/-- The exact number that a numeral without its sign denotes. -/
def magnitude (n : Numeral) : ℚ :=
  (digitsValue n.whole + digitsValue (n.fraction.getD []) / 10 ^ (n.fraction.getD []).length) *
    10 ^ n.exponent.getD 0

/-- **The exact number** that a numeral denotes. -/
def value (n : Numeral) : ℚ := if n.negative then -n.magnitude else n.magnitude

/-- The double nearest to what a numeral denotes; a zero keeps the sign. -/
def toDouble (n : Numeral) : Double :=
  .nearest n.negative n.magnitude.num.natAbs n.magnitude.den

end Numeral

namespace NumeralStyle

/-- The digits after the point of a numeral that has no fraction. -/
def ending (style : NumeralStyle) : Option (List Char) :=
  match style.wholeEnd with
  | [] => none
  | _ :: digits => some digits

/-- A style that adds nothing but a point and zeros to numerals without a fraction. -/
structure Regular (style : NumeralStyle) : Prop where
  ending : style.wholeEnd = Numeral.pointed style.ending
  zeros : ∃ n, style.ending.getD [] = List.replicate n '0'

theorem regular_plain : plain.Regular := ⟨rfl, 0, rfl⟩

theorem regular_json : json.Regular := ⟨rfl, 1, rfl⟩

/-- **The four layouts** of digits of which the first one stands for `10 ^ leading`.  All counts are
    natural numbers, and a numeral is cut only between two of its digits. -/
inductive Lays (style : NumeralStyle) (negative : Bool) (digits : List Char) (leading : Int) :
    Numeral → Prop
  /-- All digits before the point, filled up with zeros. -/
  | whole (zeros : Nat) (hleading : leading + 1 = digits.length + zeros)
      (hhighest : leading ≤ style.highest) :
      Lays style negative digits leading
        ⟨negative, digits ++ List.replicate zeros '0', style.ending, none⟩
  /-- The point among the digits. -/
  | mixed (before after : List Char) (hdigits : digits = before ++ after) (hbefore : before ≠ [])
      (hafter : after ≠ []) (hleading : leading + 1 = before.length)
      (hhighest : leading ≤ style.highest) :
      Lays style negative digits leading ⟨negative, before, some after, none⟩
  /-- All digits after the point, behind zeros. -/
  | small (zeros : Nat) (hleading : leading + 1 = -zeros) (hlowest : style.lowest ≤ leading) :
      Lays style negative digits leading
        ⟨negative, ['0'], some (List.replicate zeros '0' ++ digits), none⟩
  /-- One digit before the point, and an exponent. -/
  | scientific (first : Char) (rest : List Char) (hdigits : digits = first :: rest)
      (hbounds : leading < style.lowest ∨ style.highest < leading) :
      Lays style negative digits leading
        ⟨negative, [first], if rest = [] then none else some rest, some leading⟩

variable {style : NumeralStyle} {negative : Bool} {digits : List Char} {leading : Int} {n : Numeral}

/-- **There is no other layout.** -/
theorem decimal_lays (hstyle : style.Regular) (d : Decimal) :
    ∃ n, style.Lays false d.digits d.leading n ∧ style.decimal d = n.chars := by
  have hne := d.digits_ne_nil
  unfold decimal
  generalize d.digits = digits at *
  generalize d.leading = leading at *
  split
  · rename_i hbounds
    rw [Bool.and_eq_true, decide_eq_true_eq, decide_eq_true_eq] at hbounds
    obtain ⟨hlowest, hhighest⟩ := hbounds
    unfold positional
    split
    · rename_i hneg
      refine ⟨_, .small (-leading - 1).toNat (by omega) hlowest, ?_⟩
      simp [Numeral.chars, Numeral.pointed, Numeral.exponentChars]
    · dsimp only
      split
      · rename_i hnonneg hlength
        refine ⟨_, .whole ((leading + 1).toNat - digits.length) (by omega) hhighest, ?_⟩
        rw [hstyle.ending]
        simp [Numeral.chars, Numeral.exponentChars]
      · rename_i hnonneg hlength
        have hcut := List.take_append_drop (leading + 1).toNat digits
        have hbefore := List.length_take (i := (leading + 1).toNat) (l := digits)
        have hafter := List.length_drop (i := (leading + 1).toNat) (l := digits)
        refine ⟨_, .mixed _ _ hcut.symm ?_ ?_ (by omega) hhighest, ?_⟩
        · exact List.ne_nil_of_length_pos (by omega)
        · exact List.ne_nil_of_length_pos (by omega)
        · simp [Numeral.chars, Numeral.pointed, Numeral.exponentChars]
  · rename_i hbounds
    rw [Bool.and_eq_true, decide_eq_true_eq, decide_eq_true_eq] at hbounds
    obtain ⟨first, rest, rfl⟩ := List.exists_cons_of_ne_nil hne
    refine ⟨_, .scientific first rest rfl (by omega), ?_⟩
    cases rest with
    | nil => simp [scientific, Numeral.chars, Numeral.pointed, Numeral.exponentChars]
    | cons second rest => simp [scientific, Numeral.chars, Numeral.pointed, Numeral.exponentChars]

/-- The sign stands in front of a layout. -/
theorem Lays.signed (h : style.Lays false digits leading n) (negative : Bool) :
    style.Lays negative digits leading { n with negative } ∧
    (if negative then ['-'] else []) ++ n.chars = { n with negative }.chars := by
  cases h with
  | whole zeros hleading hhighest => exact ⟨.whole zeros hleading hhighest, rfl⟩
  | mixed before after hdigits hbefore hafter hleading hhighest =>
    exact ⟨.mixed before after hdigits hbefore hafter hleading hhighest, rfl⟩
  | small zeros hleading hlowest => exact ⟨.small zeros hleading hlowest, rfl⟩
  | scientific first rest hdigits hbounds => exact ⟨.scientific first rest hdigits hbounds, rfl⟩

theorem double_of_not_isZero {x : Double} (hzero : x.isZero = false) :
    style.double x =
      (if x.negative then ['-'] else []) ++ style.decimal (x.shortest style.tie) := by
  have hsign : ∀ text : List Char, (if x.negative then '-' :: text else text) =
      (if x.negative then ['-'] else []) ++ text := by
    intro text
    cases x.negative <;> rfl
  have hne : ¬x.isZero = true := Bool.eq_false_iff.1 hzero
  rw [double, if_neg hne]
  exact hsign _

/-- **A finite double other than zero** is its shortest decimal in one of the layouts. -/
theorem double_lays (hstyle : style.Regular) {x : Double} (hzero : x.isZero = false) :
    ∃ n, style.Lays x.negative (x.shortest style.tie).digits (x.shortest style.tie).leading n ∧
      style.double x = n.chars := by
  obtain ⟨n, hlays, hchars⟩ := decimal_lays hstyle (x.shortest style.tie)
  obtain ⟨hsigned, hsign⟩ := hlays.signed x.negative
  refine ⟨_, hsigned, ?_⟩
  rw [double_of_not_isZero hzero, hchars, hsign]

namespace Lays

/-- What is laid out has digits where there should be digits. -/
theorem hasDigits (h : style.Lays negative digits leading n) (hstyle : style.Regular)
    (hne : digits ≠ []) (hdigits : ∀ c ∈ digits, c.isDigit = true) : n.HasDigits := by
  have hzeros : ∀ {count : Nat} {c : Char}, c ∈ List.replicate count '0' → c.isDigit = true := by
    intro count c hc
    rw [List.eq_of_mem_replicate hc]
    decide
  cases h with
  | whole zeros hleading hhighest =>
    obtain ⟨count, hending⟩ := hstyle.zeros
    refine ⟨List.append_ne_nil_of_left_ne_nil hne _, fun c hc => ?_, fun ending heq c hc => ?_⟩
    · rcases List.mem_append.1 hc with hc | hc
      · exact hdigits c hc
      · exact hzeros hc
    · have hsome : style.ending = some ending := heq
      rw [hsome, Option.getD_some] at hending
      rw [hending] at hc
      exact hzeros hc
  | mixed before after hcut hbefore hafter hleading hhighest =>
    subst hcut
    refine ⟨hbefore, fun c hc => hdigits c (List.mem_append_left _ hc), fun _ heq c hc => ?_⟩
    cases heq
    exact hdigits c (List.mem_append_right _ hc)
  | small zeros hleading hlowest =>
    refine ⟨List.cons_ne_nil _ _, fun c hc => ?_, fun _ heq c hc => ?_⟩
    · rw [List.mem_singleton.1 hc]
      decide
    · cases heq
      rcases List.mem_append.1 hc with hc | hc
      · exact hzeros hc
      · exact hdigits c hc
  | scientific first rest hcut hbounds =>
    subst hcut
    refine ⟨List.cons_ne_nil _ _, fun c hc => ?_, fun _ heq c hc => ?_⟩
    · rw [List.mem_singleton.1 hc]
      exact hdigits first List.mem_cons_self
    · dsimp only at heq
      split at heq
      · cases heq
      · cases heq
        exact hdigits c (List.mem_cons_of_mem _ hc)

/-- A layout of digits that do not start with a zero has no zero in front of other digits. -/
theorem whole_head (h : style.Lays negative digits leading n) (hne : digits ≠ [])
    (hfirst : digits.head? ≠ some '0') : n.whole = ['0'] ∨ n.whole.head? ≠ some '0' := by
  cases h with
  | whole zeros hleading hhighest =>
    right
    rwa [List.head?_append_of_ne_nil _ hne]
  | mixed before after hcut hbefore hafter hleading hhighest =>
    right
    rwa [hcut, List.head?_append_of_ne_nil _ hbefore] at hfirst
  | small zeros hleading hlowest => exact .inl rfl
  | scientific first rest hcut hbounds =>
    right
    rw [hcut] at hfirst
    exact hfirst

/-- A layout has no point without digits after it. -/
theorem fraction_ne_nil (h : style.Lays negative digits leading n)
    (hending : style.ending ≠ some []) (hne : digits ≠ []) : n.fraction ≠ some [] := by
  cases h with
  | whole zeros hleading hhighest => exact hending
  | mixed before after hcut hbefore hafter hleading hhighest =>
    exact fun heq => hafter (Option.some.inj heq)
  | small zeros hleading hlowest =>
    exact fun heq => List.append_ne_nil_of_right_ne_nil _ hne (Option.some.inj heq)
  | scientific first rest hcut hbounds =>
    dsimp only
    split
    · rintro ⟨⟩
    · rename_i hrest
      exact fun heq => hrest (Option.some.inj heq)

/-- **Each layout denotes the digits**, behind a point and times the power of ten after the leading
    one. -/
theorem magnitude (h : style.Lays negative digits leading n) (hstyle : style.Regular) :
    n.magnitude = digitsValue digits / 10 ^ digits.length * 10 ^ (leading + 1) := by
  have hten : (10 : ℚ) ≠ 0 := by norm_num
  unfold Numeral.magnitude
  cases h with
  | whole zeros hleading hhighest =>
    obtain ⟨count, hending⟩ := hstyle.zeros
    have hvalue : digitsValue (digits ++ List.replicate zeros '0') =
        digitsValue digits * 10 ^ zeros := by
      rw [digitsValue_append, digitsValue_zeros, List.length_replicate, Nat.add_zero]
    dsimp only
    rw [hending, digitsValue_zeros, hvalue, hleading, zpow_add₀ hten, zpow_natCast, zpow_natCast]
    push_cast
    rw [Option.getD_none, zpow_zero]
    field_simp
    ring
  | mixed before after hcut hbefore hafter hleading hhighest =>
    dsimp only
    rw [hcut, digitsValue_append, hleading, zpow_natCast, List.length_append, Option.getD_some,
      Option.getD_none, zpow_zero]
    push_cast
    rw [pow_add]
    field_simp
  | small zeros hleading hlowest =>
    have hwhole : digitsValue ['0'] = 0 := by decide
    dsimp only
    rw [hwhole, Option.getD_some, digitsValue_append, digitsValue_zeros, Nat.zero_mul, Nat.zero_add,
      List.length_append, List.length_replicate, hleading, zpow_neg, zpow_natCast, Option.getD_none,
      zpow_zero]
    push_cast
    rw [pow_add]
    field_simp
    ring
  | scientific first rest hcut hbounds =>
    have hrest : (if rest = [] then none else some rest).getD [] = rest := by
      split
      · rename_i hnil
        rw [hnil]
        rfl
      · rfl
    have hvalue : digitsValue (first :: rest) =
        digitsValue [first] * 10 ^ rest.length + digitsValue rest :=
      digitsValue_append [first] rest
    dsimp only
    rw [hrest, hcut, hvalue, List.length_cons, Option.getD_some, zpow_add₀ hten, zpow_one]
    push_cast
    rw [pow_succ]
    field_simp

end Lays

end NumeralStyle

/-! ## Doubles -/

namespace Double

variable {x : Double}

/-- The shortest decimal of a double is positive. -/
theorem significand_pos (hfinite : x.isFinite = true) (hzero : x.isZero = false) (tie : Tie) :
    0 < (x.shortest tie).significand := by
  obtain ⟨hlast, -⟩ := shortest_spec hfinite hzero tie
  exact Nat.pos_of_ne_zero fun heq => hlast (by rw [heq])

/-- **What denotes the shortest decimal of a double reads back as the double.** -/
theorem toDouble_of_magnitude {n : Numeral} (hfinite : x.isFinite = true)
    (hzero : x.isZero = false) {tie : Tie} (hsign : n.negative = x.negative)
    (h : n.magnitude = (x.shortest tie).value) : n.toDouble = x := by
  obtain ⟨-, j, hexponent, hnearest⟩ := shortest_spec hfinite hzero tie
  have hnonneg : 0 ≤ n.magnitude := by
    rw [h, Decimal.value]
    positivity
  have hnum : (n.magnitude.num.natAbs : ℚ) = n.magnitude * n.magnitude.den := by
    rw [Rat.mul_den_eq_num, Nat.cast_natAbs, abs_of_nonneg (Rat.num_nonneg.2 hnonneg)]
  rw [Numeral.toDouble, hsign]
  obtain ⟨k, hk⟩ : ∃ k, k = 1075 := ⟨_, rfl⟩
  refine hnearest n.magnitude.den_pos hk ?_
  have hscaled : n.magnitude * 10 ^ k = (x.shortest tie).significand * 10 ^ j := by
    have hunit : (j : Int) - 1075 = j - (k : Int) := by
      rw [hk]
      rfl
    rw [h, Decimal.value, hexponent, hunit, zpow_sub₀ (by norm_num), zpow_natCast, zpow_natCast]
    field_simp
  have hcast : (n.magnitude.num.natAbs : ℚ) * 10 ^ k =
      (x.shortest tie).significand * 10 ^ j * n.magnitude.den := by
    rw [hnum, ← hscaled]
    ring
  exact_mod_cast hcast

/-- **The numeral of a double**: it is laid out from the digits of the shortest decimal, denotes
    that decimal, and reads back as the double. -/
theorem exists_numeral {style : NumeralStyle} (hstyle : style.Regular) (hfinite : x.isFinite = true)
    (hzero : x.isZero = false) :
    ∃ n, style.Lays x.negative (x.shortest style.tie).digits (x.shortest style.tie).leading n ∧
      style.double x = n.chars ∧ n.HasDigits ∧ n.magnitude = (x.shortest style.tie).value ∧
      n.toDouble = x := by
  obtain ⟨n, hlays, hchars⟩ := NumeralStyle.double_lays hstyle hzero
  have hdigits := hlays.hasDigits hstyle (Decimal.digits_ne_nil _)
    fun c hc => Decimal.isDigit_of_mem_digits hc
  have hmagnitude : n.magnitude = (x.shortest style.tie).value := by
    rw [hlays.magnitude hstyle, Decimal.value_eq]
  have hsign : n.negative = x.negative := by cases hlays <;> rfl
  exact ⟨n, hlays, hchars, hdigits, hmagnitude,
    toDouble_of_magnitude hfinite hzero hsign hmagnitude⟩

/-- The digits of the shortest decimal: there are some, and no zero at either end. -/
theorem digits_shortest (hfinite : x.isFinite = true) (hzero : x.isZero = false) (tie : Tie) :
    (x.shortest tie).digits ≠ [] ∧ (∀ c ∈ (x.shortest tie).digits, c.isDigit = true) ∧
      (x.shortest tie).digits.head? ≠ some '0' ∧ (x.shortest tie).digits.getLast? ≠ some '0' := by
  obtain ⟨hlast, -⟩ := shortest_spec hfinite hzero tie
  refine ⟨Decimal.digits_ne_nil _, fun c hc => Decimal.isDigit_of_mem_digits hc,
    head?_toDigits_ne (significand_pos hfinite hzero tie), ?_⟩
  unfold Decimal.digits
  rw [getLast?_toDigits]
  intro heq
  exact hlast (Nat.digitChar_eq_zero.1 (Option.some.inj heq))

end Double

/-- The numeral `0` or `0.0`, with a sign, denotes the zero of that sign. -/
theorem Numeral.toDouble_zero (negative : Bool) {fraction : Option (List Char)}
    (h : fraction = none ∨ fraction = some ['0']) :
    (Numeral.mk negative ['0'] fraction none).magnitude = 0 ∧
    (Numeral.mk negative ['0'] fraction none).toDouble = .zero negative := by
  have hmagnitude : (Numeral.mk negative ['0'] fraction none).magnitude = 0 := by
    have hone : digitsValue ['0'] = 0 := by decide
    have hnone : digitsValue [] = 0 := rfl
    rcases h with rfl | rfl
    · simp [magnitude, hone, hnone]
    · simp [magnitude, hone]
  refine ⟨hmagnitude, ?_⟩
  rw [toDouble, hmagnitude]
  show Double.nearest negative 0 1 = Double.zero negative
  cases negative <;> decide +kernel

end Folio
