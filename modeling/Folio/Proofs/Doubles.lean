/-
  How large a rounded number can get.

  The magnitude of a rounded quotient is its shift in binades, plus a significand of less than two
  of them (`Double.nearestMagnitude_one_le`).  So a whole number takes hardly more binades than it
  has bits, and those of 64 bits never come near to infinity (`Double.isFinite_ofInt`).
-/
import Mathlib.Algebra.Group.Nat.Defs
import Folio.Double.Rounding

namespace Folio

theorem roundHalfEven_le (num den : Nat) : roundHalfEven num den ≤ num / den + 1 := by
  simp only [roundHalfEven]
  split
  · omega
  · split <;> omega

namespace Double

/-- A natural number takes hardly more binades than it has bits. -/
theorem nearestMagnitude_one_le {n bits : Nat} (h : n < 2 ^ bits) :
    nearestMagnitude n 1 ≤ (bits + 1022) * binade + 2 * binade := by
  have hscaled : n <<< 1074 < 2 ^ (bits + 1074) := by
    rw [Nat.shiftLeft_eq, Nat.pow_add]
    exact Nat.mul_lt_mul_of_pos_right h (Nat.two_pow_pos 1074)
  simp only [nearestMagnitude, Nat.div_one, Nat.one_shiftLeft]
  generalize n <<< 1074 = scaled at hscaled
  have hshift : scaled.log2 - 52 ≤ bits + 1022 := by
    rcases Nat.eq_zero_or_pos scaled with rfl | hpos
    · exact Nat.zero_le _
    · have hlog := (Nat.log2_lt (Nat.ne_of_gt hpos)).2 hscaled
      omega
  -- the shift leaves 53 bits
  have hquotient : scaled / 2 ^ (scaled.log2 - 52) < 2 * binade := by
    refine Nat.div_lt_of_lt_mul ?_
    calc scaled < 2 ^ (scaled.log2 + 1) := Nat.lt_log2_self
      _ ≤ 2 ^ (scaled.log2 - 52 + 53) := Nat.pow_le_pow_right (by decide) (by omega)
      _ = 2 ^ (scaled.log2 - 52) * (2 * binade) := Nat.pow_add 2 _ 53
  have hround := roundHalfEven_le scaled (2 ^ (scaled.log2 - 52))
  exact Nat.le_trans (Nat.min_le_left _ _) (Nat.add_le_add (Nat.mul_le_mul_right binade hshift)
    (Nat.le_trans hround hquotient))

/-- Integers of 64 bits are far from overflowing. -/
theorem isFinite_ofInt {n : Int} (h : n.natAbs < 2 ^ 64) : (ofInt n).isFinite = true :=
  decide_eq_true (Nat.lt_of_le_of_lt (nearestMagnitude_one_le h) (by decide))

end Double

end Folio
