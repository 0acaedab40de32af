/-
  The texts of floats.

  In running text, a double is a numeral in the layout of JavaScript: positional while its magnitude
  is in `[10 ^ -6, 10 ^ 21)`, and in exponent form otherwise.

  1. **No superfluous characters** — no zero in front or behind, and no bare point
     (`NumeralStyle.Lays.tidy`), as the digits neither start nor end with a zero.
  2. **Positional or not** — the bounds on the exponent of the first digit are bounds on the number
     (`Decimal.positional_iff`).
  3. **Texts of floats** — both of these, and that different floats have different texts
     (`Scalar.text_float`).
-/
import Folio.Scalar
import Folio.Proofs.Numerals

namespace Folio

/-! ## No superfluous characters -/

/-- A numeral without superfluous characters: no zero in front of other digits before the point, no
    zero at the end of a fraction, no point without a fraction, and in exponent form exactly one
    digit before the point, which is not zero. -/
structure Numeral.Tidy (n : Numeral) : Prop where
  whole : n.whole = ['0'] ∨ n.whole.head? ≠ some '0'
  fraction : ∀ digits ∈ n.fraction, digits ≠ [] ∧ digits.getLast? ≠ some '0'
  scientific : ∀ exponent ∈ n.exponent, ∃ first, n.whole = [first] ∧ first ≠ '0'

namespace NumeralStyle.Lays

variable {style : NumeralStyle} {negative : Bool} {digits : List Char} {leading : Int} {n : Numeral}

/-- Digits that neither start nor end with a zero are laid out without superfluous characters, in a
    style that adds none. -/
theorem tidy (h : style.Lays negative digits leading n) (hending : style.ending = none)
    (hne : digits ≠ []) (hfirst : digits.head? ≠ some '0') (hlast : digits.getLast? ≠ some '0') :
    n.Tidy := by
  have hwhole := h.whole_head hne hfirst
  cases h with
  | whole zeros hleading hhighest =>
    refine ⟨hwhole, fun ending heq => ?_, fun exponent heq => ?_⟩
    · have hnone : style.ending = some ending := heq
      rw [hending] at hnone
      cases hnone
    · cases heq
  | mixed before after hcut hbefore hafter hleading hhighest =>
    rw [hcut, List.getLast?_append_of_ne_nil _ hafter] at hlast
    refine ⟨hwhole, fun fraction heq => ?_, fun exponent heq => ?_⟩
    · cases heq
      exact ⟨hafter, hlast⟩
    · cases heq
  | small zeros hleading hlowest =>
    refine ⟨hwhole, fun fraction heq => ?_, fun exponent heq => ?_⟩
    · cases heq
      rw [List.getLast?_append_of_ne_nil _ hne]
      exact ⟨List.append_ne_nil_of_right_ne_nil _ hne, hlast⟩
    · cases heq
  | scientific first rest hcut hbounds =>
    have hnotZero : first ≠ '0' := by
      rintro rfl
      rw [hcut] at hfirst
      exact hfirst rfl
    refine ⟨hwhole, fun fraction heq => ?_, fun exponent heq => ⟨first, rfl, hnotZero⟩⟩
    dsimp only at heq
    split at heq
    · cases heq
    · rename_i hrest
      cases heq
      rw [hcut, List.getLast?_cons_of_ne_nil hrest] at hlast
      exact ⟨hrest, hlast⟩

/-- A layout is positional exactly when the exponent of the first digit is within bounds. -/
theorem exponent_eq_none_iff (h : style.Lays negative digits leading n) (hne : digits ≠ [])
    (hlow : style.lowest ≤ 0) (hhigh : 0 ≤ style.highest) :
    n.exponent = none ↔ style.lowest ≤ leading ∧ leading ≤ style.highest := by
  have hlength := List.length_pos_of_ne_nil hne
  cases h with
  | whole zeros hleading hhighest => exact ⟨fun _ => by omega, fun _ => rfl⟩
  | mixed before after hcut hbefore hafter hleading hhighest =>
    have hbefore := List.length_pos_of_ne_nil hbefore
    exact ⟨fun _ => by omega, fun _ => rfl⟩
  | small zeros hleading hlowest => exact ⟨fun _ => by omega, fun _ => rfl⟩
  | scientific first rest hcut hbounds =>
    constructor
    · rintro ⟨⟩
    · intro hinside
      omega

end NumeralStyle.Lays

/-! ## Positional or not -/

/-- The exponent of the first digit is within bounds exactly when the number is. -/
theorem Decimal.positional_iff {d : Decimal} (hpos : 0 < d.significand) (lowest highest : Int) :
    lowest ≤ d.leading ∧ d.leading ≤ highest ↔
      (10 : ℚ) ^ lowest ≤ d.value ∧ d.value < 10 ^ (highest + 1) := by
  obtain ⟨hlow, hhigh⟩ := d.value_bounds hpos
  have hten : (1 : ℚ) < 10 := by norm_num
  constructor
  · rintro ⟨hlowest, hhighest⟩
    have hbelow : (10 : ℚ) ^ lowest ≤ 10 ^ d.leading := zpow_le_zpow_right₀ hten.le hlowest
    have habove : (10 : ℚ) ^ (d.leading + 1) ≤ 10 ^ (highest + 1) :=
      zpow_le_zpow_right₀ hten.le (by omega)
    exact ⟨hbelow.trans hlow, hhigh.trans_le habove⟩
  · rintro ⟨hlowest, hhighest⟩
    have hbelow : lowest < d.leading + 1 :=
      (zpow_lt_zpow_iff_right₀ hten).1 (hlowest.trans_lt hhigh)
    have habove : d.leading < highest + 1 :=
      (zpow_lt_zpow_iff_right₀ hten).1 (hlow.trans_lt hhighest)
    omega

/-! ## Texts of floats -/

namespace Double

variable {x y : Double}

theorem text_of_isFinite (hfinite : x.isFinite = true) :
    x.text = String.ofList (NumeralStyle.plain.double x) := by
  have hlt : x.magnitude < infiniteMagnitude := by simpa [isFinite] using hfinite
  have hnaN : ¬x.isNaN = true := by
    simp only [isNaN, decide_eq_true_eq]
    omega
  have hinfinite : ¬x.isInfinite = true := by
    simp only [isInfinite, beq_iff_eq]
    omega
  rw [text, if_neg hnaN, if_neg hinfinite]

theorem text_of_isZero (hzero : x.isZero = true) : x.text.toList = ['0'] := by
  have hmagnitude : x.magnitude = 0 := by simpa [isZero] using hzero
  have hfinite : x.isFinite = true := by
    simp only [isFinite, hmagnitude]
    decide
  rw [text_of_isFinite hfinite, String.toList_ofList, NumeralStyle.double, if_pos hzero]
  rfl

end Double

/-- The numeral of a finite double other than zero, in running text. -/
theorem Double.text_numeral {x : Double} (hfinite : x.isFinite = true) (hzero : x.isZero = false) :
    ∃ n : Numeral, x.text.toList = n.chars ∧ Numeral.read? n.chars = some n ∧
      n.negative = x.negative ∧ n.magnitude = (x.shortest .up).value ∧
      (n.exponent = none ↔
        (10 : ℚ) ^ (-6 : Int) ≤ n.magnitude ∧ n.magnitude < 10 ^ (21 : Int)) ∧
      n.Tidy ∧
      NumeralStyle.plain.Lays x.negative (x.shortest .up).digits (x.shortest .up).leading n ∧
      n.toDouble = x := by
  obtain ⟨n, hlays, hchars, hdigits, hmagnitude, hdouble⟩ :=
    exists_numeral NumeralStyle.regular_plain hfinite hzero
  obtain ⟨hne, -, hfirst, hlast⟩ := digits_shortest hfinite hzero .up
  have hpositional := (hlays.exponent_eq_none_iff hne (by decide) (by decide)).trans
    (Decimal.positional_iff (significand_pos hfinite hzero .up) (-6) 20)
  refine ⟨n, ?_, Numeral.read?_chars hdigits, ?_, hmagnitude, ?_,
    hlays.tidy rfl hne hfirst hlast, hlays, hdouble⟩
  · rw [text_of_isFinite hfinite, String.toList_ofList, hchars]
  · cases hlays <;> rfl
  · rw [hmagnitude]
    exact hpositional

/-- A double other than zero has another text than a zero. -/
theorem Double.text_ne_of_isZero {x y : Double} (hfinite : x.isFinite = true)
    (hzero : x.isZero = false) (hother : y.isZero = true) : x.text ≠ y.text := by
  obtain ⟨n, hchars, hread, -, hmagnitude, -⟩ := text_numeral hfinite hzero
  intro heq
  rw [heq, text_of_isZero hother] at hchars
  rw [← hchars] at hread
  obtain rfl : ⟨false, ['0'], none, none⟩ = n := Option.some.inj hread
  have hpos := (Decimal.value_bounds (significand_pos hfinite hzero .up)).1
  have hunit : (0 : ℚ) < 10 ^ (x.shortest .up).leading := by positivity
  have hnone := (Numeral.toDouble_zero false (.inl rfl)).1
  linarith

/-- **The text of a float is an exact numeral.**  The shortest decimal of a finite double other than
    zero has digits without a zero at either end.  The text of the double is these digits in one of
    four layouts, with nothing superfluous; it reads as a numeral that denotes exactly the shortest
    decimal, and that is positional if and only if its magnitude is in `[10 ^ -6, 10 ^ 21)`; and the
    double nearest to it is the double itself.  So two finite doubles with one text are the same,
    unless both are zeros. -/
theorem Scalar.text_float :
    (∀ x : Double, x.isFinite = true → x.isZero = false →
      ((x.shortest .up).digits ≠ [] ∧ (∀ c ∈ (x.shortest .up).digits, c.isDigit = true) ∧
        (x.shortest .up).digits.head? ≠ some '0' ∧ (x.shortest .up).digits.getLast? ≠ some '0') ∧
      ∃ n : Numeral,
        (Scalar.float x).text.toList = n.chars ∧ Numeral.read? n.chars = some n ∧
        n.value = (if x.negative then -1 else 1) *
          (digitsValue (x.shortest .up).digits / 10 ^ (x.shortest .up).digits.length) *
            10 ^ ((x.shortest .up).leading + 1) ∧
        (n.exponent = none ↔ (10 : ℚ) ^ (-6 : Int) ≤ |n.value| ∧ |n.value| < 10 ^ (21 : Int)) ∧
        n.Tidy ∧
        NumeralStyle.plain.Lays x.negative (x.shortest .up).digits (x.shortest .up).leading n ∧
        n.toDouble = x) ∧
    ∀ x y : Double, x.isFinite = true → y.isFinite = true →
      (Scalar.float x).text = (Scalar.float y).text →
      x = y ∨ (x.isZero = true ∧ y.isZero = true) := by
  refine ⟨fun x hfinite hzero => ⟨Double.digits_shortest hfinite hzero .up, ?_⟩, ?_⟩
  · obtain ⟨n, hchars, hread, hsign, hmagnitude, hpositional, htidy, hlays, hdouble⟩ :=
      Double.text_numeral hfinite hzero
    have hpos : 0 ≤ n.magnitude := by
      rw [hmagnitude, Decimal.value]
      positivity
    have hvalue : |n.value| = n.magnitude := by
      unfold Numeral.value
      split
      · rw [abs_neg, abs_of_nonneg hpos]
      · exact abs_of_nonneg hpos
    refine ⟨n, hchars, hread, ?_, ?_, htidy, hlays, hdouble⟩
    · rw [Numeral.value, hsign, hmagnitude, Decimal.value_eq]
      split <;> ring
    · rw [hvalue]
      exact hpositional
  · intro x y hx hy heq
    have htext : x.text = y.text := heq
    cases hxzero : x.isZero with
    | true =>
      cases hyzero : y.isZero with
      | true => exact .inr ⟨rfl, rfl⟩
      | false => exact absurd htext.symm (Double.text_ne_of_isZero hy hyzero hxzero)
    | false =>
      cases hyzero : y.isZero with
      | true => exact absurd htext (Double.text_ne_of_isZero hx hxzero hyzero)
      | false =>
        obtain ⟨n, hchars, hread, -, -, -, -, -, hdouble⟩ := Double.text_numeral hx hxzero
        obtain ⟨n', hchars', hread', -, -, -, -, -, hdouble'⟩ := Double.text_numeral hy hyzero
        rw [← hchars, htext, hchars', hread'] at hread
        obtain rfl : n' = n := Option.some.inj hread
        exact .inl (hdouble.symm.trans hdouble')

/-- The float `10 ^ 21` is the least one that is written with an exponent. -/
theorem Scalar.text_float_sextillion :
    (Double.ofInt 1000000000000000000000).isFinite = true ∧
    (Double.ofInt 1000000000000000000000).isZero = false ∧
    (Scalar.float (.ofInt 1000000000000000000000)).text = "1e+21" ∧
    (∃ n : Numeral, "1e+21".toList = n.chars ∧ Numeral.read? n.chars = some n ∧ n.Tidy ∧
      n.toDouble = .ofInt 1000000000000000000000) ∧
    (Double.ofInt 1000000000000000000000 = .ofInt 1000000000000000000000 ∨
      ((Double.ofInt 1000000000000000000000).isZero = true ∧
        (Double.ofInt 1000000000000000000000).isZero = true)) := by
  have hfinite : (Double.ofInt 1000000000000000000000).isFinite = true := by decide +kernel
  have hzero : (Double.ofInt 1000000000000000000000).isZero = false := by decide +kernel
  have htext : (Scalar.float (.ofInt 1000000000000000000000)).text = "1e+21" := by decide +kernel
  obtain ⟨-, n, hchars, hread, -, -, htidy, -, hdouble⟩ := Scalar.text_float.1 _ hfinite hzero
  rw [htext] at hchars
  exact ⟨hfinite, hzero, htext, ⟨n, hchars, hread, htidy, hdouble⟩,
    Scalar.text_float.2 _ _ hfinite hfinite rfl⟩

end Folio
