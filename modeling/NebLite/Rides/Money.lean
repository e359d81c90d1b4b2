import NebLite.Rides.FareEngine
import Mathlib.Algebra.Order.Round

/-! Rounding to cents, and the amounts of a fare counted in cents. -/

namespace NebLite

theorem mathRound_eq_round (x : ℚ) : mathRound x = round x := (round_eq x).symm

theorem mathRound_mono {x y : ℚ} (h : x ≤ y) : mathRound x ≤ mathRound y := by
  unfold mathRound
  exact Int.floor_le_floor (by linarith)

theorem mathRound_intCast_add (n : ℤ) (x : ℚ) : mathRound (n + x) = n + mathRound x := by
  rw [mathRound_eq_round, mathRound_eq_round, round_intCast_add]

theorem mathRound_near (x : ℚ) : |x - mathRound x| ≤ 1 / 2 := by
  rw [mathRound_eq_round]
  exact abs_sub_round x

theorem mathRound_nonneg {x : ℚ} (h : 0 ≤ x) : 0 ≤ mathRound x := by
  have hle := mathRound_mono h
  have hzero : mathRound 0 = 0 := mathRound_intCast 0
  omega

theorem toFixed_mono (digits : ℕ) {x y : ℚ} (h : x ≤ y) : toFixed digits x ≤ toFixed digits y := by
  have hscale : (0 : ℚ) < 10 ^ digits := by positivity
  have hfloor {a b : ℚ} (hab : a ≤ b) :
      (⌊a * 10 ^ digits + 1 / 2⌋ : ℚ) / 10 ^ digits ≤ ⌊b * 10 ^ digits + 1 / 2⌋ / 10 ^ digits := by
    have hscaled : a * 10 ^ digits ≤ b * 10 ^ digits := mul_le_mul_of_nonneg_right hab hscale.le
    have hle : ⌊a * 10 ^ digits + 1 / 2⌋ ≤ ⌊b * 10 ^ digits + 1 / 2⌋ := Int.floor_le_floor (by linarith)
    exact div_le_div_of_nonneg_right (Int.cast_le.mpr hle) hscale.le
  have hnonneg {a : ℚ} (ha : 0 ≤ a) : 0 ≤ (⌊a * 10 ^ digits + 1 / 2⌋ : ℚ) / 10 ^ digits := by
    have hpos : 0 ≤ a * 10 ^ digits := mul_nonneg ha hscale.le
    have hle : (0 : ℤ) ≤ ⌊a * 10 ^ digits + 1 / 2⌋ := Int.floor_nonneg.mpr (by linarith)
    exact div_nonneg (Int.cast_nonneg hle) hscale.le
  unfold toFixed
  by_cases hy : y < 0
  · have hx : x < 0 := lt_of_le_of_lt h hy
    rw [if_pos hx, if_pos hy]
    exact neg_le_neg (hfloor (neg_le_neg h))
  · rw [if_neg hy]
    by_cases hx : x < 0
    · rw [if_pos hx]
      have hleft := hnonneg (neg_nonneg.mpr hx.le)
      have hright := hnonneg (not_lt.mp hy)
      linarith
    · rw [if_neg hx]
      exact hfloor h

theorem toFixed_natCast (digits n : ℕ) : toFixed digits n = n := by
  have hscale : (10 : ℚ) ^ digits ≠ 0 := by positivity
  have hfloor : ⌊(n : ℚ) * 10 ^ digits + 1 / 2⌋ = (n * 10 ^ digits : ℤ) := by
    have hround := mathRound_intCast (n * 10 ^ digits)
    unfold mathRound at hround
    push_cast at hround
    exact hround
  rw [toFixed, if_neg (not_lt.mpr (Nat.cast_nonneg n)), hfloor]
  push_cast
  exact mul_div_cancel_right₀ _ hscale

/-- The cents that an amount is rounded to. -/
def centsOf (x : ℚ) : ℤ := if x ≤ 0 then 0 else mathRound (x * 100)

theorem monetary_eq (x : ℚ) : calculateMonetaryAmount x = centsOf x / 100 := by
  unfold calculateMonetaryAmount centsOf
  split
  · simp
  · rfl

theorem centsOf_of_nonneg {x : ℚ} (h : 0 ≤ x) : centsOf x = mathRound (x * 100) := by
  unfold centsOf
  by_cases hx : x ≤ 0
  · have hzero : x = 0 := le_antisymm hx h
    rw [if_pos hx, hzero, zero_mul]
    exact (mathRound_intCast 0).symm
  · rw [if_neg hx]

theorem centsOf_of_nonpos {x : ℚ} (h : x ≤ 0) : centsOf x = 0 := if_pos h

theorem centsOf_nonneg (x : ℚ) : 0 ≤ centsOf x := by
  rcases le_total x 0 with h | h
  · rw [centsOf_of_nonpos h]
  · rw [centsOf_of_nonneg h]
    exact mathRound_nonneg (by linarith)

theorem centsOf_mono {x y : ℚ} (h : x ≤ y) : centsOf x ≤ centsOf y := by
  rcases le_total x 0 with hx | hx
  · rw [centsOf_of_nonpos hx]
    exact centsOf_nonneg y
  · rw [centsOf_of_nonneg hx, centsOf_of_nonneg (hx.trans h)]
    exact mathRound_mono (by linarith)

theorem centsOf_add {n : ℤ} {x : ℚ} (hn : 0 ≤ n) (hx : 0 ≤ x) : centsOf (n / 100 + x) = n + centsOf x := by
  have hsum : (0 : ℚ) ≤ n / 100 + x := add_nonneg (div_nonneg (Int.cast_nonneg hn) (by norm_num)) hx
  have hscaled : ((n : ℚ) / 100 + x) * 100 = n + x * 100 := by ring
  rw [centsOf_of_nonneg hsum, centsOf_of_nonneg hx, hscaled, mathRound_intCast_add]

theorem centsOf_cents {n : ℤ} (hn : 0 ≤ n) : centsOf (n / 100) = n := by
  have hsum := centsOf_add hn le_rfl
  rw [add_zero, centsOf_of_nonpos le_rfl, add_zero] at hsum
  exact hsum

theorem centsOf_near {x : ℚ} (h : 0 ≤ x) : |x - centsOf x / 100| ≤ 1 / 200 := by
  have hround := mathRound_near (x * 100)
  rw [← centsOf_of_nonneg h, abs_le] at hround
  rw [abs_le]
  constructor <;> linarith [hround.1, hround.2]

/-- The amount has at most two decimals. -/
def IsCents (x : ℚ) : Prop := ∃ n : ℤ, x = n / 100

theorem isCents_monetary (x : ℚ) : IsCents (calculateMonetaryAmount x) := ⟨centsOf x, monetary_eq x⟩

theorem IsCents.add {x y : ℚ} (hx : IsCents x) (hy : IsCents y) : IsCents (x + y) := by
  obtain ⟨n, rfl⟩ := hx
  obtain ⟨m, rfl⟩ := hy
  exact ⟨n + m, by push_cast; ring⟩

theorem monetary_of_cents {x : ℚ} (hx : IsCents x) (h : 0 ≤ x) : calculateMonetaryAmount x = x := by
  obtain ⟨n, rfl⟩ := hx
  have hn : 0 ≤ n := by
    by_contra hneg
    have hlt : (n : ℚ) < 0 := Int.cast_lt_zero.mpr (not_le.mp hneg)
    linarith
  rw [monetary_eq, centsOf_cents hn]

theorem monetary_nonneg (x : ℚ) : 0 ≤ calculateMonetaryAmount x := by
  rw [monetary_eq]
  exact div_nonneg (Int.cast_nonneg (centsOf_nonneg x)) (by norm_num)

theorem monetary_mono {x y : ℚ} (h : x ≤ y) : calculateMonetaryAmount x ≤ calculateMonetaryAmount y := by
  rw [monetary_eq, monetary_eq]
  exact div_le_div_of_nonneg_right (Int.cast_le.mpr (centsOf_mono h)) (by norm_num)

theorem monetary_near {x : ℚ} (h : 0 ≤ x) : |x - calculateMonetaryAmount x| ≤ 1 / 200 := by
  rw [monetary_eq]
  exact centsOf_near h

end NebLite
