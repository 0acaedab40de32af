/-
  What rounds to a double.

  A quotient that lies between the midpoints on either side of a finite double rounds to it; a
  midpoint itself does if the double is even.  These are the quotients in the interval in which the
  shortest decimal is searched (`Double.interval`), so whatever the search comes to reads back.

  1. **Magnitudes** — a magnitude is its shift in binades and a significand, and it stands for the
     significand times a power of two (`Double.unitsOf_eq`); the next magnitude stands for one such
     power more, also across the border of a binade (`Double.unitsOf_succ`).
  2. **Rounding** — what the division has to come to (`roundHalfEven_eq`), and at which shift
     (`Double.shift_eq`).  The shift is that of the double, except just below the first of a binade,
     where it is one less and the significand is carried into the next binade.
  3. **Reading back** — `Double.nearest_of_contains`.
-/
import Mathlib.Tactic.Linarith
import Mathlib.Tactic.Ring
import Folio.Double.Shortest

namespace Folio

/-! ## Magnitudes -/

namespace Double

/-- What the shift of a magnitude leaves of it. -/
def significandOf (magnitude : Nat) : Nat := magnitude - shiftOf magnitude * binade

theorem unitsOf_eq (magnitude : Nat) :
    unitsOf magnitude = significandOf magnitude * 2 ^ shiftOf magnitude :=
  Nat.shiftLeft_eq _ _

/-- A magnitude is put together from its shift and its significand; the significand has 53 bits,
    and the first of them is set unless the shift is zero. -/
theorem magnitude_split (magnitude : Nat) :
    magnitude = shiftOf magnitude * binade + significandOf magnitude ∧
    significandOf magnitude < 2 * binade ∧
    (shiftOf magnitude = 0 ∨ binade ≤ significandOf magnitude) := by
  simp only [significandOf, shiftOf, binade]
  omega

/-- There is one way only to put a magnitude together. -/
theorem split_unique {magnitude shift significand : Nat}
    (h : magnitude = shift * binade + significand) (hlt : significand < 2 * binade)
    (hle : shift = 0 ∨ binade ≤ significand) :
    shiftOf magnitude = shift ∧ significandOf magnitude = significand := by
  simp only [significandOf, shiftOf, binade] at *
  omega

/-- **The next magnitude** stands for one more unit of its shift. -/
theorem unitsOf_succ (magnitude : Nat) :
    unitsOf (magnitude + 1) = unitsOf magnitude + 2 ^ shiftOf magnitude := by
  obtain ⟨hsplit, hlt, hle⟩ := magnitude_split magnitude
  rw [unitsOf_eq magnitude, unitsOf_eq (magnitude + 1)]
  generalize shiftOf magnitude = shift at *
  generalize significandOf magnitude = significand at *
  by_cases hcarry : significand + 1 < 2 * binade
  · obtain ⟨hshift, hsignificand⟩ :=
      split_unique (show magnitude + 1 = shift * binade + (significand + 1) by omega) hcarry
        (by omega)
    rw [hshift, hsignificand, Nat.succ_mul]
  · -- the last of its binade: the next one begins a binade
    have hlast : significand + 1 = 2 * binade := by omega
    have hbinade : magnitude + 1 = (shift + 1) * binade + binade := by
      rw [Nat.succ_mul]
      omega
    obtain ⟨hshift, hsignificand⟩ :=
      split_unique hbinade (by unfold binade; omega) (.inr (Nat.le_refl _))
    rw [hshift, hsignificand, ← Nat.succ_mul, Nat.succ_eq_add_one, hlast, Nat.pow_succ]
    ring

end Double

/-! ## Rounding -/

/-- A quotient not more than a half away from a natural number rounds to it, if the number is even
    or the quotient is nearer than a half. -/
theorem roundHalfEven_eq {num den n : Nat} (hden : 0 < den) (hlow : 2 * (n * den) ≤ 2 * num + den)
    (hhigh : 2 * num ≤ 2 * (n * den) + den)
    (htie : n % 2 = 1 → 2 * (n * den) < 2 * num + den ∧ 2 * num < 2 * (n * den) + den) :
    roundHalfEven num den = n := by
  have hdivision : num / den * den + num % den = num := Nat.div_add_mod' num den
  have hremainder : num % den < den := Nat.mod_lt num hden
  simp only [roundHalfEven]
  generalize num % den = remainder at *
  generalize num / den = q at *
  -- the number is the quotient or the next one
  rcases Nat.lt_trichotomy n q with hlt | rfl | hgt
  · have hmul : (n + 1) * den ≤ q * den := Nat.mul_le_mul_right den hlt
    rw [Nat.succ_mul] at hmul
    omega
  · split
    · rfl
    · split <;> omega
  · rcases Nat.eq_or_lt_of_le hgt with hnext | hfar
    · obtain rfl : n = q + 1 := hnext.symm
      have hmul : (q + 1) * den = q * den + den := Nat.succ_mul q den
      rw [hmul] at hlow hhigh htie
      split
      · omega
      · split <;> omega
    · have hmul : (q + 2) * den ≤ n * den := Nat.mul_le_mul_right den hfar
      rw [Nat.add_mul] at hmul
      omega

namespace Double

/-- **The shift** is the one at which 53 bits are left, or none at all. -/
theorem shift_eq {scaled den shift : Nat} (hden : 0 < den)
    (hlow : shift = 0 ∨ binade * (den * 2 ^ shift) ≤ scaled)
    (hhigh : scaled < 2 * binade * (den * 2 ^ shift)) : Nat.log2 (scaled / den) - 52 = shift := by
  have hbinade : binade = 2 ^ 52 := by decide
  have hlt : scaled / den < 2 ^ (shift + 53) := by
    have hpower : 2 * binade * (den * 2 ^ shift) = 2 ^ (shift + 53) * den := by
      rw [hbinade]
      ring
    rw [hpower] at hhigh
    exact (Nat.div_lt_iff_lt_mul hden).2 hhigh
  rcases hlow with rfl | hlow
  · rcases Nat.eq_zero_or_pos (scaled / den) with hzero | hpos
    · rw [hzero]
      rfl
    · have hlog := (Nat.log2_lt (Nat.ne_of_gt hpos)).2 hlt
      omega
  · have hle : 2 ^ (shift + 52) ≤ scaled / den := by
      have hpower : binade * (den * 2 ^ shift) = 2 ^ (shift + 52) * den := by
        rw [hbinade]
        ring
      rw [hpower] at hlow
      exact (Nat.le_div_iff_mul_le hden).2 hlow
    have hne : scaled / den ≠ 0 := Nat.ne_of_gt (Nat.lt_of_lt_of_le (Nat.two_pow_pos _) hle)
    have hlog := (Nat.log2_eq_iff hne).2 ⟨hle, hlt⟩
    omega

/-- A quotient that comes to a significand, at the right shift, rounds to that significand at that
    shift. -/
theorem nearestMagnitude_eq {num den scaled shift n : Nat} (hscaled : num <<< 1074 = scaled)
    (hden : 0 < den) (hlow : shift = 0 ∨ binade * (den * 2 ^ shift) ≤ scaled)
    (hhigh : scaled < 2 * binade * (den * 2 ^ shift))
    (hround : roundHalfEven scaled (den * 2 ^ shift) = n)
    (hfinite : shift * binade + n ≤ infiniteMagnitude) :
    nearestMagnitude num den = shift * binade + n := by
  simp only [nearestMagnitude, hscaled]
  rw [shift_eq hden hlow hhigh, Nat.shiftLeft_eq, hround]
  exact Nat.min_eq_left hfinite

/-- A quotient within half a unit of a significand, with the shift of that significand, rounds to
    it. -/
theorem nearestMagnitude_own {num den scaled shift significand : Nat}
    (hscaled : num <<< 1074 = scaled) (hden : 0 < den)
    (hshift : shift = 0 ∨ binade * (den * 2 ^ shift) ≤ scaled)
    (hlow : 2 * (significand * (den * 2 ^ shift)) ≤ 2 * scaled + den * 2 ^ shift)
    (hhigh : 2 * scaled ≤ 2 * (significand * (den * 2 ^ shift)) + den * 2 ^ shift)
    (htie : significand % 2 = 1 →
      2 * (significand * (den * 2 ^ shift)) < 2 * scaled + den * 2 ^ shift ∧
      2 * scaled < 2 * (significand * (den * 2 ^ shift)) + den * 2 ^ shift)
    (hsignificand : significand < 2 * binade)
    (hfinite : shift * binade + significand < infiniteMagnitude) :
    nearestMagnitude num den = shift * binade + significand := by
  have hunit : 0 < den * 2 ^ shift := Nat.mul_pos hden (Nat.two_pow_pos _)
  have hfits : (significand + 1) * (den * 2 ^ shift) ≤ 2 * binade * (den * 2 ^ shift) :=
    Nat.mul_le_mul_right _ hsignificand
  rw [Nat.succ_mul] at hfits
  have hround := roundHalfEven_eq hunit hlow hhigh htie
  exact nearestMagnitude_eq hscaled hden hshift (by omega) hround hfinite.le

/-- A quotient just below a binade, nearer to its first number than half a unit of the binade
    before, is rounded with one shift less, and the significand is carried. -/
theorem nearestMagnitude_carry {num den scaled below : Nat} (hscaled : num <<< 1074 = scaled)
    (hden : 0 < den)
    (hlow : 2 * (2 * binade * (den * 2 ^ below)) ≤ 2 * scaled + den * 2 ^ below)
    (hhigh : scaled < 2 * binade * (den * 2 ^ below))
    (hfinite : below * binade + 2 * binade < infiniteMagnitude) :
    nearestMagnitude num den = below * binade + 2 * binade := by
  have hunit : 0 < den * 2 ^ below := Nat.mul_pos hden (Nat.two_pow_pos _)
  have hround : roundHalfEven scaled (den * 2 ^ below) = 2 * binade := by
    refine roundHalfEven_eq hunit hlow (by omega) fun hodd => ?_
    omega
  refine nearestMagnitude_eq hscaled hden (.inr ?_) hhigh hround hfinite.le
  generalize den * 2 ^ below = unit at *
  simp only [binade] at *
  omega

/-- The quotient `scaled / den`, in units of `2 ^ -1074`, lies between the midpoints on either side
    of a magnitude; the midpoints count for even magnitudes. -/
structure Between (magnitude scaled den : Nat) : Prop where
  low : (unitsOf (magnitude - 1) + unitsOf magnitude) * den ≤ 2 * scaled
  high : 2 * scaled ≤ (unitsOf magnitude + unitsOf (magnitude + 1)) * den
  tie : magnitude % 2 = 1 →
    (unitsOf (magnitude - 1) + unitsOf magnitude) * den < 2 * scaled ∧
    2 * scaled < (unitsOf magnitude + unitsOf (magnitude + 1)) * den

/-- Between the midpoints, in units of the significand: half a unit above, and half a unit of the
    magnitude before it below. -/
theorem Between.bounds {magnitude scaled den : Nat} (h : Between magnitude scaled den)
    (hpos : 0 < magnitude) :
    2 * (significandOf magnitude * (den * 2 ^ shiftOf magnitude)) ≤
      2 * scaled + den * 2 ^ shiftOf (magnitude - 1) ∧
    2 * scaled ≤ 2 * (significandOf magnitude * (den * 2 ^ shiftOf magnitude)) +
      den * 2 ^ shiftOf magnitude ∧
    (magnitude % 2 = 1 →
      2 * (significandOf magnitude * (den * 2 ^ shiftOf magnitude)) <
        2 * scaled + den * 2 ^ shiftOf (magnitude - 1) ∧
      2 * scaled < 2 * (significandOf magnitude * (den * 2 ^ shiftOf magnitude)) +
        den * 2 ^ shiftOf magnitude) := by
  have hvalue : significandOf magnitude * (den * 2 ^ shiftOf magnitude) =
      unitsOf magnitude * den := by
    rw [unitsOf_eq]
    ring
  have hbelow : (unitsOf (magnitude - 1) + unitsOf magnitude) * den +
      den * 2 ^ shiftOf (magnitude - 1) = 2 * (unitsOf magnitude * den) := by
    have hsucc := unitsOf_succ (magnitude - 1)
    rw [Nat.sub_add_cancel hpos] at hsucc
    rw [hsucc]
    ring
  have habove : (unitsOf magnitude + unitsOf (magnitude + 1)) * den =
      2 * (unitsOf magnitude * den) + den * 2 ^ shiftOf magnitude := by
    rw [unitsOf_succ]
    ring
  obtain ⟨hlow, hhigh, htie⟩ := h
  rw [hvalue]
  omega

/-- The magnitude before has the same shift, or a shift of one less when the magnitude is the first
    of its binade. -/
theorem shiftOf_pred {magnitude : Nat} (hpos : 0 < magnitude) :
    (shiftOf (magnitude - 1) = shiftOf magnitude ∧
      (shiftOf magnitude = 0 ∨ binade < significandOf magnitude)) ∨
    (shiftOf magnitude = shiftOf (magnitude - 1) + 1 ∧ significandOf magnitude = binade) := by
  simp only [significandOf, shiftOf, binade]
  omega

/-- **What lies between the midpoints** rounds to the magnitude. -/
theorem nearestMagnitude_of_between {magnitude num den scaled : Nat}
    (hscaled : num <<< 1074 = scaled) (hpos : 0 < magnitude)
    (hfinite : magnitude < infiniteMagnitude) (hden : 0 < den)
    (h : Between magnitude scaled den) : nearestMagnitude num den = magnitude := by
  obtain ⟨hsplit, hlt, hle⟩ := magnitude_split magnitude
  obtain ⟨hlow, hhigh, htie⟩ := h.bounds hpos
  have hpred := shiftOf_pred hpos
  generalize shiftOf (magnitude - 1) = below at *
  generalize shiftOf magnitude = shift at *
  generalize significandOf magnitude = significand at *
  have hparity : significand % 2 = magnitude % 2 := by
    rw [hsplit]
    simp only [binade]
    omega
  -- unless it is just below the first of a binade, the quotient has the shift of the magnitude
  have hown : (shift = 0 ∨ binade * (den * 2 ^ shift) ≤ scaled) →
      2 * (significand * (den * 2 ^ shift)) ≤ 2 * scaled + den * 2 ^ shift →
      (significand % 2 = 1 →
        2 * (significand * (den * 2 ^ shift)) < 2 * scaled + den * 2 ^ shift) →
      nearestMagnitude num den = magnitude := by
    intro hshift hbelow hbelowTie
    rw [hsplit]
    exact nearestMagnitude_own hscaled hden hshift hbelow hhigh
      (fun hodd => ⟨hbelowTie hodd, (htie (by omega)).2⟩) hlt (by omega)
  rcases hpred with ⟨hsame, hinside⟩ | ⟨rfl, rfl⟩
  · rw [hsame] at hlow htie
    refine hown ?_ hlow fun hodd => (htie (by omega)).1
    rcases hinside with hzero | hinside
    · exact .inl hzero
    · have hmul : (binade + 1) * (den * 2 ^ shift) ≤ significand * (den * 2 ^ shift) :=
        Nat.mul_le_mul_right _ hinside
      rw [Nat.succ_mul] at hmul
      right
      omega
  · have hdouble : binade * (den * 2 ^ (below + 1)) = 2 * binade * (den * 2 ^ below) := by
      rw [Nat.pow_succ]
      ring
    rcases Nat.lt_or_ge scaled (binade * (den * 2 ^ (below + 1))) with hbelow | habove
    · have hcarry : magnitude = below * binade + 2 * binade := by
        rw [hsplit]
        ring
      rw [hdouble] at hlow hbelow
      rw [hcarry]
      exact nearestMagnitude_carry hscaled hden hlow hbelow (by omega)
    · refine hown (.inr habove) (by omega) fun hodd => ?_
      exact absurd hodd (by decide)

/-- A half unit of a power of two, in units of the same power of ten. -/
theorem half_units {num scaled n k : Nat} (hk : k = n + 1) (hscaled : num <<< n = scaled) :
    num * 10 ^ k = 2 * scaled * Nat.pow 5 k := by
  show num * 10 ^ k = 2 * scaled * 5 ^ k
  have hten : 10 ^ k = 2 ^ k * 5 ^ k := by
    rw [← Nat.mul_pow]
  rw [hten, hk, Nat.pow_succ 2 n, ← hscaled, Nat.shiftLeft_eq]
  ring

/-- A total over `den` is compared as the point is that it comes to in another unit. -/
theorem lt_point_iff {a point unit den total : Nat} (hden : 0 < den) (hunit : 0 < unit)
    (hpoint : point * den = total * unit) :
    (a * unit < point ↔ a * den < total) ∧ (point < a * unit ↔ total < a * den) := by
  have hcomm : a * unit * den = a * den * unit := Nat.mul_right_comm ..
  constructor
  · rw [← Nat.mul_lt_mul_right hden, hpoint, hcomm, Nat.mul_lt_mul_right hunit]
  · rw [← Nat.mul_lt_mul_right hden, hpoint, hcomm, Nat.mul_lt_mul_right hunit]

/-- The points of an interval between midpoints, counted in some unit, lie between the midpoints. -/
theorem between_of_contains {magnitude scaled den point unit : Nat} (i : RoundingInterval)
    (hden : 0 < den) (hunit : 0 < unit) (hpoint : point * den = 2 * scaled * unit)
    (hlow : i.low = (unitsOf (magnitude - 1) + unitsOf magnitude) * unit)
    (hhigh : i.high = (unitsOf magnitude + unitsOf (magnitude + 1)) * unit)
    (hclosed : i.closed = (magnitude % 2 == 0)) (h : i.contains point = true) :
    Between magnitude scaled den := by
  unfold RoundingInterval.contains at h
  rw [hlow, hhigh, hclosed] at h
  split at h
  · rename_i heven
    rw [Bool.and_eq_true, decide_eq_true_eq, decide_eq_true_eq] at h
    obtain ⟨hle, hle'⟩ := h
    refine ⟨Nat.not_lt.1 fun hlt => ?_, Nat.not_lt.1 fun hlt => ?_, fun hodd => ?_⟩
    · exact absurd ((lt_point_iff hden hunit hpoint).2.2 hlt) (Nat.not_lt.2 hle)
    · exact absurd ((lt_point_iff hden hunit hpoint).1.2 hlt) (Nat.not_lt.2 hle')
    · rw [beq_iff_eq] at heven
      omega
  · rw [Bool.and_eq_true, decide_eq_true_eq, decide_eq_true_eq] at h
    have hlt := (lt_point_iff hden hunit hpoint).1.1 h.1
    have hlt' := (lt_point_iff hden hunit hpoint).2.1 h.2
    exact ⟨Nat.le_of_lt hlt, Nat.le_of_lt hlt', fun _ => ⟨hlt, hlt'⟩⟩

/-- The points of an interval, with a name for the exponent, so that the power stays as it is. -/
theorem interval_points {magnitude k : Nat} (hk : k = 1075) :
    (interval magnitude).low =
      (unitsOf (magnitude - 1) + unitsOf magnitude) * Nat.pow 5 k ∧
    (interval magnitude).value = 2 * unitsOf magnitude * Nat.pow 5 k ∧
    (interval magnitude).high =
      (unitsOf magnitude + unitsOf (magnitude + 1)) * Nat.pow 5 k := by
  unfold interval
  rw [← hk]
  exact ⟨rfl, rfl, rfl⟩

/-- **What is in the interval of a double reads back as the double**; the points of the interval
    are counted in units of `10 ^ -1075`. -/
theorem nearest_of_contains {x : Double} (hfinite : x.isFinite = true) (hzero : x.isZero = false)
    {num den point k : Nat} (hden : 0 < den) (hk : k = 1075)
    (hpoint : num * 10 ^ k = point * den)
    (h : (interval x.magnitude).contains point = true) : nearest x.negative num den = x := by
  have hpos : 0 < x.magnitude := Nat.pos_of_ne_zero (by simpa [isZero] using hzero)
  have hlt : x.magnitude < infiniteMagnitude := by simpa [isFinite] using hfinite
  have hunits : point * den = 2 * (num <<< 1074) * Nat.pow 5 k :=
    hpoint.symm.trans (half_units hk rfl)
  have hfive : 0 < Nat.pow 5 k := Nat.pow_pos (by decide)
  obtain ⟨hlow, -, hhigh⟩ := @interval_points x.magnitude k hk
  have hbetween : Between x.magnitude (num <<< 1074) den :=
    between_of_contains (interval x.magnitude) hden hfive hunits hlow hhigh rfl h
  have hmagnitude : nearestMagnitude num den = x.magnitude :=
    nearestMagnitude_of_between rfl hpos hlt hden hbetween
  cases x
  simp only [nearest, hmagnitude]

end Double

end Folio
