/-
  What the search for the shortest decimal comes to.

  The search goes through the grids `10 ^ k` from coarse to fine and takes the first one that has a
  point in the interval.  On each grid the two neighbours of the value stand for all its points: the
  interval has no gaps, so a point further away is inside only if a neighbour is.

  1. **One grid** — what is found lies in the interval (`contains_onGrid?`), and if nothing is
     found, no point of the grid does (`not_contains_of_onGrid?`).
  2. **All grids** — the last digit of what is found is not zero, because a point with a zero at its
     end is a point of the grid before, where nothing was found (`shortest_spec`).
  3. **Doubles** — the decimal of a double is positive, has no zero at its end and reads back as the
     double (`Double.shortest_spec`).
-/
import Folio.Proofs.Rounding

namespace Folio

namespace RoundingInterval

variable {i : RoundingInterval} {tie : Tie} {unit : Nat}

/-- An interval around its value, on the positive side of zero. -/
structure Proper (i : RoundingInterval) : Prop where
  low_pos : 0 < i.low
  low_lt : i.low < i.value
  lt_high : i.value < i.high

/-! ## One grid -/

/-- An interval has no gaps. -/
theorem contains_between {a b c : Nat} (ha : i.contains a = true) (hc : i.contains c = true)
    (hab : a ≤ b) (hbc : b ≤ c) : i.contains b = true := by
  unfold contains at *
  split at ha
  · rename_i hclosed
    rw [if_pos hclosed] at hc ⊢
    simp only [Bool.and_eq_true, decide_eq_true_eq] at *
    omega
  · rename_i hopen
    rw [if_neg hopen] at hc ⊢
    simp only [Bool.and_eq_true, decide_eq_true_eq] at *
    omega

theorem Proper.contains_value (h : i.Proper) : i.contains i.value = true := by
  have hlow := h.low_lt
  have hhigh := h.lt_high
  unfold contains
  split <;> simp only [Bool.and_eq_true, decide_eq_true_eq] <;> omega

theorem Proper.not_contains_zero (h : i.Proper) : i.contains 0 = false := by
  have hlow := h.low_pos
  unfold contains
  split <;> simp only [Bool.and_eq_false_iff, decide_eq_false_iff_not] <;> omega

/-- **What is found lies in the interval.** -/
theorem contains_onGrid? {s : Nat} (h : i.onGrid? tie unit = some s) :
    i.contains (s * unit) = true := by
  have hnext : (i.value / unit + 1) * unit = i.value / unit * unit + unit := Nat.succ_mul ..
  unfold onGrid? at h
  dsimp only at h
  split at h
  · cases h
  · cases h
    assumption
  · cases h
    rw [hnext]
    assumption
  · rename_i hbelow habove
    rw [← hnext] at habove
    have hboth : s = i.value / unit ∨ s = i.value / unit + 1 := by
      split at h
      · exact .inl (Option.some.inj h).symm
      · split at h
        · exact .inr (Option.some.inj h).symm
        · cases tie with
          | up => exact .inr (Option.some.inj h).symm
          | even =>
            have hs := Option.some.inj h
            omega
    rcases hboth with rfl | rfl
    · exact hbelow
    · exact habove

/-- **If nothing is found, nothing is there**: any other point of the grid has a neighbour of the
    value between itself and the value. -/
theorem not_contains_of_onGrid? (hproper : i.Proper) (hunit : 0 < unit)
    (h : i.onGrid? tie unit = none) (s : Nat) : i.contains (s * unit) = false := by
  have hnext : (i.value / unit + 1) * unit = i.value / unit * unit + unit := Nat.succ_mul ..
  have hneighbours : i.contains (i.value / unit * unit) = false ∧
      i.contains ((i.value / unit + 1) * unit) = false := by
    unfold onGrid? at h
    dsimp only at h
    rw [hnext]
    split at h
    · rename_i hbelow habove
      exact ⟨hbelow, habove⟩
    · cases h
    · cases h
    · split at h
      · cases h
      · split at h
        · cases h
        · cases tie <;> cases h
  have hdivision : i.value / unit * unit + i.value % unit = i.value := Nat.div_add_mod' ..
  have hremainder : i.value % unit < unit := Nat.mod_lt _ hunit
  by_contra hinside
  rw [Bool.not_eq_false] at hinside
  rcases Nat.lt_or_ge (i.value / unit) s with hlt | hle
  · have habove : (i.value / unit + 1) * unit ≤ s * unit := Nat.mul_le_mul_right unit hlt
    have hcontains := contains_between hproper.contains_value hinside (by omega) habove
    exact absurd (hcontains.symm.trans hneighbours.2) (by decide)
  · have hbelow : s * unit ≤ i.value / unit * unit := Nat.mul_le_mul_right unit hle
    have hcontains := contains_between hinside hproper.contains_value hbelow (by omega)
    exact absurd (hcontains.symm.trans hneighbours.1) (by decide)

/-! ## All grids -/

/-- **The search** ends on one of the grids, with a point of the interval.  Unless this is the first
    grid that was looked at, the next coarser one has no point in the interval. -/
theorem shortest_grid (hproper : i.Proper) (tie : Tie) (k : Nat) :
    ∃ j : Nat, (i.shortest tie k).exponent = j - 1075 ∧
      i.contains ((i.shortest tie k).significand * 10 ^ j) = true ∧
      (j = k ∧ (k = 0 ∨ i.onGrid? tie (Nat.pow 10 k) = some (i.shortest tie k).significand) ∨
        ∀ s, i.contains (s * 10 ^ (j + 1)) = false) := by
  induction k with
  | zero =>
    refine ⟨0, rfl, ?_, .inl ⟨rfl, .inl rfl⟩⟩
    rw [pow_zero, Nat.mul_one]
    exact hproper.contains_value
  | succ k ih =>
    rw [shortest]
    cases hgrid : i.onGrid? tie (Nat.pow 10 (k + 1)) with
    | some s => exact ⟨k + 1, rfl, contains_onGrid? hgrid, .inl ⟨rfl, .inr rfl⟩⟩
    | none =>
      obtain ⟨j, hexponent, hcontains, ⟨rfl, -⟩ | hcoarser⟩ := ih
      · have hnone := not_contains_of_onGrid? hproper (Nat.pow_pos (by decide)) hgrid
        exact ⟨j, hexponent, hcontains, .inr hnone⟩
      · exact ⟨j, hexponent, hcontains, .inr hcoarser⟩

/-- What is found on a grid coarser than the value is its first point. -/
theorem onGrid?_coarse {s : Nat} (hproper : i.Proper) (hcoarse : i.value < unit)
    (h : i.onGrid? tie unit = some s) : s = 1 := by
  have hzero : i.value / unit = 0 := Nat.div_eq_of_lt hcoarse
  unfold onGrid? at h
  dsimp only at h
  rw [hzero, Nat.zero_mul, hproper.not_contains_zero] at h
  split at h
  · cases h
  · cases ‹false = true›
  · exact (Option.some.inj h).symm
  · cases ‹false = true›

/-- **The decimal that is found**: a point of the interval whose last digit is not zero. -/
theorem shortest_spec (hproper : i.Proper) (tie : Tie) {k : Nat} (hk : i.value < 10 ^ k) :
    ∃ j : Nat, (i.shortest tie k).exponent = j - 1075 ∧
      i.contains ((i.shortest tie k).significand * 10 ^ j) = true ∧
      (i.shortest tie k).significand % 10 ≠ 0 := by
  obtain ⟨j, hexponent, hcontains, hwhere⟩ := shortest_grid hproper tie k
  refine ⟨j, hexponent, hcontains, ?_⟩
  rcases hwhere with ⟨rfl, rfl | hgrid⟩ | hcoarser
  · have hpos := hproper.low_lt
    rw [pow_zero] at hk
    omega
  · rw [onGrid?_coarse hproper hk hgrid]
    decide
  · -- a zero at the end would make it a point of the grid before
    intro hzero
    have hten : (i.shortest tie k).significand = (i.shortest tie k).significand / 10 * 10 := by
      omega
    rw [hten, Nat.mul_assoc, ← Nat.pow_succ', hcoarser] at hcontains
    cases hcontains

end RoundingInterval

/-! ## Doubles -/

namespace Double

variable {x : Double}

/-- The interval of a double is an interval around it. -/
theorem proper_interval {magnitude : Nat} (hpos : 0 < magnitude) : (interval magnitude).Proper := by
  obtain ⟨k, hk⟩ : ∃ k, k = 1075 := ⟨_, rfl⟩
  obtain ⟨hlow, hvalue, hhigh⟩ := @interval_points magnitude k hk
  have hfive : 0 < Nat.pow 5 k := Nat.pow_pos (by decide)
  have hunits : unitsOf magnitude = unitsOf (magnitude - 1) + 2 ^ shiftOf (magnitude - 1) := by
    have hsucc := unitsOf_succ (magnitude - 1)
    rwa [Nat.sub_add_cancel hpos] at hsucc
  have hnext := unitsOf_succ magnitude
  have hbelow : 0 < 2 ^ shiftOf (magnitude - 1) := Nat.two_pow_pos _
  have habove : 0 < 2 ^ shiftOf magnitude := Nat.two_pow_pos _
  constructor
  · rw [hlow]
    exact Nat.mul_pos (by omega) hfive
  · rw [hlow, hvalue]
    exact Nat.mul_lt_mul_of_pos_right (by omega) hfive
  · rw [hvalue, hhigh]
    exact Nat.mul_lt_mul_of_pos_right (by omega) hfive

/-- **The shortest decimal of a double**: it does not end in a zero, and it reads back as the
    double. -/
theorem shortest_spec (hfinite : x.isFinite = true) (hzero : x.isZero = false) (tie : Tie) :
    (x.shortest tie).significand % 10 ≠ 0 ∧ ∃ j : Nat,
      (x.shortest tie).exponent = j - 1075 ∧
      ∀ {num den k : Nat}, 0 < den → k = 1075 →
        num * 10 ^ k = (x.shortest tie).significand * 10 ^ j * den →
        nearest x.negative num den = x := by
  have hpos : 0 < x.magnitude := Nat.pos_of_ne_zero (by simpa [isZero] using hzero)
  have hcount : (interval x.magnitude).value < 10 ^ digitCount (interval x.magnitude).value :=
    (Nat.length_toDigits_le_iff (by decide) Nat.length_toDigits_pos).1 (Nat.le_refl _)
  obtain ⟨j, hexponent, hcontains, hlast⟩ :=
    RoundingInterval.shortest_spec (proper_interval hpos) tie hcount
  exact ⟨hlast, j, hexponent, fun hden hk hpoint =>
    nearest_of_contains hfinite hzero hden hk hpoint hcontains⟩

end Double

end Folio
