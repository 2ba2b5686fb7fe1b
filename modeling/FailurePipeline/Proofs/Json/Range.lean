import FailurePipeline.Json.Reader
import FailurePipeline.Proofs.Binary64.Rounding

/-!
# Which numbers are in range

The reader multiplies a natural of a word with a power of ten in binary64, where both and their product are rounded.
What it takes for out of range is infinite then: not yet at `1.795 · 10 ^ 308` (`Json.outOfRange_eq_false`), but from
`1.799 · 10 ^ 308` on (`Json.outOfRange_eq_true`).
-/

namespace FailurePipeline

namespace Json

open Binary64

variable {m : Nat} {e : Int}

private theorem ofDecimal_one (h : 0 ≤ e) (h' : e ≤ 308) : ofDecimal false 1 e = .ofNat (10 ^ e.toNat) := by
  have hdigits : (Nat.toDigits 10 1).length = 1 := by decide
  unfold ofDecimal
  simp only [hdigits]
  rw [if_neg one_ne_zero, if_neg (by omega), if_neg (by omega), if_pos h, Nat.one_mul]
  rfl

private theorem power_le_largest {k : Nat} (h : k ≤ 308) : ((10 ^ k : Nat) : ℚ) ≤ largest := by
  have hroom : (10 ^ 308 : ℚ) ≤ 9007199254740991 * 2 ^ 971 := by
    exact_mod_cast (by decide +kernel : 10 ^ 308 ≤ 9007199254740991 * 2 ^ 971)
  calc ((10 ^ k : Nat) : ℚ) = 10 ^ k := by push_cast; rfl
    _ ≤ 10 ^ 308 := pow_le_pow_right₀ (by norm_num) h
    _ ≤ 9007199254740991 * 2 ^ 971 := hroom
    _ = largest := by
      rw [largest, zpow_ofNat]
      norm_num

private theorem word_le_largest (hm : m ≤ maxWord) : (m : ℚ) ≤ largest := by
  have hpower : m ≤ 10 ^ 20 := hm.trans (by decide)
  exact le_trans (by exact_mod_cast hpower) (power_le_largest (by decide : 20 ≤ 308))

private theorem mul_ten_zpow (m : Nat) (h : 0 ≤ e) : (m : ℚ) * 10 ^ e = (m : ℚ) * ((10 ^ e.toNat : Nat) : ℚ) := by
  conv_lhs => rw [← Int.toNat_of_nonneg h]
  rw [zpow_natCast]
  push_cast
  rfl

theorem outOfRange_eq_false (hm : m ≤ maxWord) (h : (m : ℚ) * 10 ^ e ≤ 1795 * 10 ^ 305) : outOfRange m e = false := by
  unfold outOfRange
  by_cases hsmall : e < 0 ∨ m = 0
  · rw [if_pos (by simpa using hsmall)]
  obtain ⟨he, hm0⟩ := not_or.1 hsmall
  have hnonneg : 0 ≤ e := not_lt.1 he
  have hone : (1 : ℚ) ≤ m := by exact_mod_cast Nat.one_le_iff_ne_zero.2 hm0
  rw [if_neg (by simpa using hsmall)]
  have hle : e ≤ 308 := by
    by_contra hlarge
    have hpower : (10 : ℚ) ^ (309 : ℤ) ≤ 10 ^ e := zpow_le_zpow_right₀ (by norm_num) (by omega)
    have hroom : (1795 * 10 ^ 305 : ℚ) < 10 ^ (309 : ℤ) := by
      rw [zpow_ofNat]
      exact_mod_cast (by decide +kernel : 1795 * 10 ^ 305 < 10 ^ 309)
    have hprod : (10 : ℚ) ^ e ≤ m * 10 ^ e := le_mul_of_one_le_left (by positivity) hone
    exact absurd (hpower.trans (hprod.trans h)) (not_le_of_gt hroom)
  rw [if_neg (by omega), ofDecimal_one hnonneg hle]
  rw [mul_ten_zpow m hnonneg] at h
  rw [isFinite_mul hm0 (Nat.pow_pos (by decide)).ne' (word_le_largest hm) (power_le_largest (by omega)) h,
    Bool.not_true]

theorem outOfRange_eq_true (hm : m ≤ maxWord) (h : 1799 * 10 ^ 305 ≤ (m : ℚ) * 10 ^ e) : outOfRange m e = true := by
  have hword : (m : ℚ) < 1799 * 10 ^ 305 := by
    exact_mod_cast hm.trans_lt (by decide +kernel : maxWord < 1799 * 10 ^ 305)
  have hm0 : m ≠ 0 := by
    rintro rfl
    rw [Nat.cast_zero, zero_mul] at h
    exact absurd h (not_le_of_gt (by positivity))
  have hnonneg : 0 ≤ e := by
    by_contra hneg
    have hpower : (10 : ℚ) ^ e ≤ 1 := zpow_le_one_of_nonpos₀ (by norm_num) (by omega)
    have hprod : (m : ℚ) * 10 ^ e ≤ m := mul_le_of_le_one_right (by positivity) hpower
    exact absurd (h.trans hprod) (not_le_of_gt hword)
  unfold outOfRange
  rw [if_neg (by simp [hm0, hnonneg])]
  split
  · rfl
  · next hle =>
    rw [ofDecimal_one hnonneg (by omega)]
    rw [mul_ten_zpow m hnonneg] at h
    rw [not_isFinite_mul hm0 (Nat.pow_pos (by decide)).ne' (word_le_largest hm) (power_le_largest (by omega)) h,
      Bool.not_false]

end Json

end FailurePipeline
