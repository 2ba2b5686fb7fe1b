import FailurePipeline.Binary64.Basic
import Mathlib.Algebra.Order.Field.Power
import Mathlib.Data.Rat.Cast.Order
import Mathlib.Tactic.FieldSimp
import Mathlib.Tactic.Linarith
import Mathlib.Tactic.NormNum
import Mathlib.Tactic.Positivity
import Mathlib.Tactic.Ring

/-!
# Rounding to the nearest number

A ratio is rounded to a number that differs from it by half a unit of its last place at most.  So naturals that are not
huge are rounded to finite numbers close to them (`Binary64.exists_near`), and the product of two numbers is finite or
infinite according to where their exact product lies (`Binary64.isFinite_mul`, `Binary64.not_isFinite_mul`).
-/

namespace FailurePipeline

namespace Binary64

variable {negative : Bool} {num den : Nat} {q : Int}

/-! ### Units -/

private theorem two_zpow_of_nonneg (h : 0 ≤ q) : (2 : ℚ) ^ q = ((Nat.pow 2 q.toNat : Nat) : ℚ) := by
  conv_lhs => rw [← Int.toNat_of_nonneg h]
  rw [zpow_natCast]
  norm_cast

private theorem two_zpow_of_neg (h : ¬0 ≤ q) : (2 : ℚ) ^ q = ((Nat.pow 2 (-q).toNat : Nat) : ℚ)⁻¹ := by
  rw [← two_zpow_of_nonneg (by omega), zpow_neg, inv_inv]

/-- A mantissa at its exponent is the ratio that stands for it. -/
theorem ratio_eq (m : Nat) (q : Int) : ((ratio m q).1 : ℚ) / (ratio m q).2 = m * 2 ^ q := by
  unfold ratio
  split
  · next h => rw [two_zpow_of_nonneg h]; push_cast; ring
  · next h => rw [two_zpow_of_neg h]; rfl

theorem ratio_pos (m : Nat) (q : Int) : (ratio m q).2 ≠ 0 := by
  unfold ratio
  split
  · exact Nat.one_ne_zero
  · exact Nat.pos_iff_ne_zero.1 (Nat.pow_pos (by decide))

/-! ### Mantissas -/

/-- A quotient is rounded by a half at most. -/
theorem abs_roundDiv_sub_le (num : Nat) (hd : den ≠ 0) : |(roundDiv num den : ℚ) - num / den| ≤ 1 / 2 := by
  have hpos : (0 : ℚ) < den := by exact_mod_cast Nat.pos_of_ne_zero hd
  have hdiv : (num : ℚ) / den = (num / den : Nat) + ((num % den : Nat) : ℚ) / den := by
    rw [eq_comm, ← sub_eq_zero]
    field_simp
    have := Nat.div_add_mod num den
    have hcast : ((den * (num / den) + num % den : Nat) : ℚ) = num := by rw [this]
    push_cast at hcast
    linarith
  have hless : ((num % den : Nat) : ℚ) / den < 1 := by
    rw [div_lt_one hpos]
    exact_mod_cast Nat.mod_lt _ (Nat.pos_of_ne_zero hd)
  have hnonneg : 0 ≤ ((num % den : Nat) : ℚ) / den := by positivity
  have hdown : 2 * (num % den) ≤ den → ((num % den : Nat) : ℚ) / den ≤ 1 / 2 := by
    intro h
    rw [div_le_iff₀ hpos]
    have : (2 * (num % den : Nat) : ℚ) ≤ den := by exact_mod_cast h
    linarith
  have hup : den ≤ 2 * (num % den) → 1 / 2 ≤ ((num % den : Nat) : ℚ) / den := by
    intro h
    rw [le_div_iff₀ hpos]
    have : (den : ℚ) ≤ 2 * (num % den : Nat) := by exact_mod_cast h
    linarith
  unfold roundDiv
  simp only
  rw [hdiv, abs_le]
  split_ifs with h1 h2 h3
  · have := hdown h1.le
    constructor <;> linarith
  · have := hup h2.le
    push_cast
    constructor <;> linarith
  · have := hdown (by omega)
    constructor <;> linarith
  · have := hup (by omega)
    push_cast
    constructor <;> linarith

theorem roundDiv_le {bound : Nat} (hd : den ≠ 0) (h : num ≤ bound * den) : roundDiv num den ≤ bound := by
  have hle : num / den ≤ bound := Nat.div_le_of_le_mul (by rwa [Nat.mul_comm])
  have hmod := Nat.div_add_mod num den
  unfold roundDiv
  simp only
  by_cases heq : num / den = bound
  · have hzero : num % den = 0 := by
      rw [heq, Nat.mul_comm] at hmod
      omega
    rw [hzero, if_pos (by omega)]
    exact hle
  · split_ifs <;> omega

/-- The mantissa at an exponent is a rounded quotient. -/
private theorem exists_scaled (num : Nat) (hd : den ≠ 0) (q : Int) :
    ∃ n d : Nat, d ≠ 0 ∧ scaled num den q = roundDiv n d ∧ (n : ℚ) / d = num / den / 2 ^ q := by
  unfold scaled
  split
  · next h =>
    have hunit : Nat.pow 2 q.toNat ≠ 0 := (Nat.pow_pos (by decide)).ne'
    refine ⟨num, _, Nat.mul_ne_zero hd hunit, rfl, ?_⟩
    rw [two_zpow_of_nonneg h]
    push_cast
    rw [div_div]
  · next h =>
    refine ⟨_, den, hd, rfl, ?_⟩
    rw [two_zpow_of_neg h, div_inv_eq_mul]
    push_cast
    ring

theorem abs_scaled_sub_le (num : Nat) (hd : den ≠ 0) (q : Int) :
    |(scaled num den q : ℚ) * 2 ^ q - num / den| ≤ 2 ^ q / 2 := by
  obtain ⟨n, d, hd', hscaled, hquot⟩ := exists_scaled num hd q
  have hunit : (0 : ℚ) < 2 ^ q := by positivity
  have hround := abs_roundDiv_sub_le n hd'
  rw [hquot, ← hscaled] at hround
  have hfactor : (scaled num den q : ℚ) * 2 ^ q - num / den = (scaled num den q - num / den / 2 ^ q) * 2 ^ q := by
    field_simp
  rw [hfactor, abs_mul, abs_of_pos hunit]
  have := mul_le_mul_of_nonneg_right hround hunit.le
  linarith

theorem scaled_le {bound : Nat} (hd : den ≠ 0) (h : (num : ℚ) / den ≤ bound * 2 ^ q) : scaled num den q ≤ bound := by
  obtain ⟨n, d, hd', hscaled, hquot⟩ := exists_scaled num hd q
  have hpos : (0 : ℚ) < d := by exact_mod_cast Nat.pos_of_ne_zero hd'
  have hle : (n : ℚ) / d ≤ bound := by
    rw [hquot, div_le_iff₀ (by positivity)]
    exact h
  rw [div_le_iff₀ hpos] at hle
  rw [hscaled]
  exact roundDiv_le hd' (by exact_mod_cast hle)

/-! ### Exponents -/

private theorem log2_bounds {n : Nat} (hn : n ≠ 0) : (2 : ℚ) ^ (n.log2 : ℤ) ≤ n ∧ (n : ℚ) < 2 ^ ((n.log2 : ℤ) + 1) := by
  constructor
  · rw [zpow_natCast]
    exact_mod_cast Nat.log2_self_le hn
  · have hcast : ((n.log2 : ℤ) + 1) = ((n.log2 + 1 : Nat) : ℤ) := by push_cast; rfl
    rw [hcast, zpow_natCast]
    exact_mod_cast Nat.lt_log2_self

/-- The test by which the exponent is chosen. -/
private theorem fits_iff (hd : den ≠ 0) (q : Int) :
    (if 0 ≤ q then decide (num < den * Nat.pow 2 q.toNat * Nat.pow 2 53)
      else decide (num * Nat.pow 2 (-q).toNat < den * Nat.pow 2 53)) = true ↔ (num : ℚ) / den < 2 ^ (q + 53) := by
  have hpos : (0 : ℚ) < den := by exact_mod_cast Nat.pos_of_ne_zero hd
  have hword : (2 : ℚ) ^ (53 : ℤ) = ((Nat.pow 2 53 : Nat) : ℚ) := by norm_num
  rw [zpow_add₀ two_ne_zero, hword, div_lt_iff₀ hpos]
  split
  · next h =>
    rw [two_zpow_of_nonneg h, decide_eq_true_iff, ← Nat.cast_lt (α := ℚ)]
    push_cast
    rw [mul_assoc, mul_comm (den : ℚ)]
  · next h =>
    have hunit : (0 : ℚ) < (Nat.pow 2 (-q).toNat : Nat) := by exact_mod_cast Nat.pow_pos (by decide)
    rw [two_zpow_of_neg h, decide_eq_true_iff, ← Nat.cast_lt (α := ℚ), mul_assoc, inv_mul_eq_div, lt_div_iff₀ hunit]
    push_cast
    rw [mul_comm (den : ℚ)]

/-- At its exponent a ratio has 53 bits at most, and no fewer unless the exponent is the least one. -/
theorem exponentFor_bounds (hn : num ≠ 0) (hd : den ≠ 0) :
    (num : ℚ) / den < 2 ^ (exponentFor num den + 53) ∧
      (minExponent < exponentFor num den → 2 ^ (exponentFor num den + 52) ≤ (num : ℚ) / den) := by
  obtain ⟨hnl, hnu⟩ := log2_bounds hn
  obtain ⟨hdl, hdu⟩ := log2_bounds hd
  have hpos : (0 : ℚ) < den := by exact_mod_cast Nat.pos_of_ne_zero hd
  have hgrow : ∀ {a b : ℤ}, a ≤ b → (2 : ℚ) ^ a ≤ 2 ^ b := fun h => zpow_le_zpow_right₀ one_le_two h
  -- The logarithms tell the exponent but for one bit.
  have hlow : (2 : ℚ) ^ ((num.log2 : ℤ) - den.log2 - 53 + 52) ≤ (num : ℚ) / den := by
    rw [le_div_iff₀ hpos]
    calc (2 : ℚ) ^ ((num.log2 : ℤ) - den.log2 - 53 + 52) * den
        ≤ 2 ^ ((num.log2 : ℤ) - den.log2 - 53 + 52) * 2 ^ ((den.log2 : ℤ) + 1) := by gcongr
      _ = 2 ^ (num.log2 : ℤ) := by
        rw [← zpow_add₀ two_ne_zero]
        congr 1
        ring
      _ ≤ num := hnl
  have hhigh : (num : ℚ) / den < 2 ^ ((num.log2 : ℤ) - den.log2 - 53 + 1 + 53) := by
    rw [div_lt_iff₀ hpos]
    calc (num : ℚ) < 2 ^ ((num.log2 : ℤ) + 1) := hnu
      _ = 2 ^ ((num.log2 : ℤ) - den.log2 - 53 + 1 + 53) * 2 ^ (den.log2 : ℤ) := by
        rw [← zpow_add₀ two_ne_zero]
        congr 1
        ring
      _ ≤ 2 ^ ((num.log2 : ℤ) - den.log2 - 53 + 1 + 53) * den := by gcongr
  have hfits := @fits_iff num den hd ((num.log2 : ℤ) - den.log2 - 53)
  unfold exponentFor
  dsimp only
  generalize (num.log2 : ℤ) - den.log2 - 53 = guess at hlow hhigh hfits ⊢
  by_cases hfit : (num : ℚ) / den < 2 ^ (guess + 53)
  · rw [if_pos (hfits.2 hfit)]
    refine ⟨hfit.trans_le (hgrow (by omega)), fun hmin => ?_⟩
    rwa [max_eq_left (by omega)]
  · rw [if_neg (mt hfits.1 hfit)]
    refine ⟨hhigh.trans_le (hgrow (by omega)), fun hmin => ?_⟩
    rw [max_eq_left (by omega)]
    exact (hgrow (by omega)).trans (le_of_not_gt hfit)

/-! ### Ratios -/

/-- Every ratio that is not zero is a mantissa at its exponent, or at the one after it. -/
private theorem ofRatio_eq_of_ne_zero (negative : Bool) (den : Nat) (hn : num ≠ 0) :
    ofRatio negative num den =
      if scaled num den (exponentFor num den) = 2 ^ 53 then
        if maxExponent < exponentFor num den + 1 then .infinite negative
        else .finite negative (2 ^ 52) (exponentFor num den + 1)
      else if maxExponent < exponentFor num den then .infinite negative
      else .finite negative (scaled num den (exponentFor num den)) (exponentFor num den) := by
  unfold ofRatio
  rw [if_neg hn]
  dsimp only
  split
  · next h => exact (if_pos h).symm
  · next h => exact (if_neg h).symm

/-- The largest finite number. -/
def largest : ℚ := (2 ^ 53 - 1) * 2 ^ (971 : ℤ)

theorem largest_lt : largest < 2 ^ (1024 : ℤ) := by
  calc largest < 2 ^ 53 * 2 ^ (971 : ℤ) := mul_lt_mul_of_pos_right (by norm_num) (by positivity)
    _ = 2 ^ (1024 : ℤ) := by rw [← zpow_natCast, ← zpow_add₀ two_ne_zero]; rfl

theorem isFinite_ofRatio_of_le (hd : den ≠ 0) (h : (num : ℚ) / den ≤ largest) :
    (ofRatio negative num den).isFinite = true := by
  by_cases hn : num = 0
  · rw [ofRatio, if_pos hn]
    rfl
  obtain ⟨-, hlow⟩ := exponentFor_bounds hn hd
  have hexp : exponentFor num den ≤ 971 := by
    by_contra hlarge
    have hunit := hlow (by unfold minExponent; omega)
    have := (zpow_lt_zpow_iff_right₀ one_lt_two).1 (hunit.trans_lt (h.trans_lt largest_lt))
    omega
  rw [ofRatio_eq_of_ne_zero negative den hn]
  unfold maxExponent
  split
  · next hcarry =>
    -- Only below the largest exponent can the mantissa be rounded to one bit more.
    by_cases heq : exponentFor num den = 971
    · have hle : scaled num den (exponentFor num den) ≤ 2 ^ 53 - 1 := by
        apply scaled_le hd
        rw [heq]
        refine h.trans (le_of_eq ?_)
        unfold largest
        norm_num
      omega
    · rw [if_neg (by omega)]
      rfl
  · rw [if_neg (by omega)]
    rfl

theorem not_isFinite_ofRatio_of_le (hd : den ≠ 0) (h : 2 ^ (1024 : ℤ) ≤ (num : ℚ) / den) :
    (ofRatio negative num den).isFinite = false := by
  have hn : num ≠ 0 := by
    rintro rfl
    have hpos : (0 : ℚ) < 2 ^ (1024 : ℤ) := by positivity
    rw [Nat.cast_zero, zero_div] at h
    exact absurd hpos (not_lt_of_ge h)
  obtain ⟨hhigh, -⟩ := exponentFor_bounds hn hd
  have hexp : 971 < exponentFor num den := by
    have := (zpow_lt_zpow_iff_right₀ one_lt_two).1 (h.trans_lt hhigh)
    omega
  rw [ofRatio_eq_of_ne_zero negative den hn]
  unfold maxExponent
  rw [if_pos hexp, if_pos (hexp.trans (lt_add_one _)), ite_self]
  rfl

/-! ### Naturals and their products -/

private theorem one_le_of_ne_zero {n : Nat} (hn : n ≠ 0) : (1 : ℚ) ≤ n := by
  exact_mod_cast Nat.one_le_iff_ne_zero.2 hn

/-- A natural in range is rounded to a finite number close to it. -/
theorem exists_near {n : Nat} (hn : n ≠ 0) (h : (n : ℚ) ≤ largest) :
    ∃ m q, ofNat n = .finite false m q ∧ |(m : ℚ) * 2 ^ q - n| ≤ n / 2 ^ 53 := by
  have hwhole : (n : ℚ) / (1 : Nat) = n := by rw [Nat.cast_one, div_one]
  have hfinite := @isFinite_ofRatio_of_le false _ _ one_ne_zero (hwhole.trans_le h)
  obtain ⟨hhigh, hlow⟩ := exponentFor_bounds hn one_ne_zero
  have hround := abs_scaled_sub_le n one_ne_zero (exponentFor n 1)
  rw [hwhole] at hhigh hlow hround
  have hnormal : minExponent < exponentFor n 1 := by
    have hpos : (2 : ℚ) ^ (0 : ℤ) < 2 ^ (exponentFor n 1 + 53) := (one_le_of_ne_zero hn).trans_lt hhigh
    have := (zpow_lt_zpow_iff_right₀ one_lt_two).1 hpos
    unfold minExponent
    omega
  have hclose : |(scaled n 1 (exponentFor n 1) : ℚ) * 2 ^ exponentFor n 1 - n| ≤ n / 2 ^ 53 := by
    have hunit := hlow hnormal
    rw [zpow_add₀ two_ne_zero] at hunit
    refine hround.trans ?_
    rw [le_div_iff₀ (by positivity)]
    calc (2 : ℚ) ^ exponentFor n 1 / 2 * 2 ^ 53 = 2 ^ exponentFor n 1 * 2 ^ (52 : ℤ) := by norm_num; ring
      _ ≤ n := hunit
  -- A mantissa of 53 ones may be rounded up to the next power, which is the same number with another exponent.
  rw [ofNat]
  rw [ofRatio_eq_of_ne_zero false 1 hn] at hfinite ⊢
  split at hfinite
  · next hcarry =>
    split at hfinite
    · cases hfinite
    · next hexp =>
      refine ⟨2 ^ 52, exponentFor n 1 + 1, by rw [if_pos hcarry, if_neg hexp], ?_⟩
      have hsame : ((2 ^ 52 : Nat) : ℚ) * 2 ^ (exponentFor n 1 + 1) = ((2 ^ 53 : Nat) : ℚ) * 2 ^ exponentFor n 1 := by
        rw [zpow_add₀ two_ne_zero]
        push_cast
        ring
      rw [hsame, ← hcarry]
      exact hclose
  · next hcarry =>
    split at hfinite
    · cases hfinite
    · next hexp => exact ⟨_, _, by rw [if_neg hcarry, if_neg hexp], hclose⟩

/-- A product is worked out exactly and rounded once. -/
theorem exists_mul (s s' : Bool) (m m' : Nat) (q q' : Int) :
    ∃ num den, den ≠ 0 ∧ mul (.finite s m q) (.finite s' m' q') = ofRatio false num den ∧
      (num : ℚ) / den = m * 2 ^ q * (m' * 2 ^ q') := by
  refine ⟨(ratio m q).1 * (ratio m' q').1, _, Nat.mul_ne_zero (ratio_pos m q) (ratio_pos m' q'), rfl, ?_⟩
  rw [← ratio_eq m q, ← ratio_eq m' q']
  push_cast
  rw [div_mul_div_comm]

variable {a b : Nat}

/-- Two naturals are multiplied with an error of their product that is small. -/
private theorem exists_mul_near (ha : a ≠ 0) (hb : b ≠ 0) (hal : (a : ℚ) ≤ largest) (hbl : (b : ℚ) ≤ largest) :
    ∃ num den, den ≠ 0 ∧ mul (ofNat a) (ofNat b) = ofRatio false num den ∧
      (a * b : ℚ) * (1 - 1 / 2 ^ 53) ^ 2 ≤ (num : ℚ) / den ∧ (num : ℚ) / den ≤ a * b * (1 + 1 / 2 ^ 53) ^ 2 := by
  obtain ⟨m, q, hm, hx⟩ := exists_near ha hal
  obtain ⟨m', q', hm', hy⟩ := exists_near hb hbl
  obtain ⟨num, den, hd, hmul, hquot⟩ := exists_mul false false m m' q q'
  rw [abs_le] at hx hy
  have hapos := one_le_of_ne_zero ha
  have hbpos := one_le_of_ne_zero hb
  have hxlow : (a : ℚ) * (1 - 1 / 2 ^ 53) ≤ m * 2 ^ q := by linarith [hx.1]
  have hylow : (b : ℚ) * (1 - 1 / 2 ^ 53) ≤ m' * 2 ^ q' := by linarith [hy.1]
  have hxhigh : m * 2 ^ q ≤ (a : ℚ) * (1 + 1 / 2 ^ 53) := by linarith [hx.2]
  have hyhigh : m' * 2 ^ q' ≤ (b : ℚ) * (1 + 1 / 2 ^ 53) := by linarith [hy.2]
  refine ⟨num, den, hd, by rw [hm, hm', hmul], ?_, ?_⟩ <;> rw [hquot]
  · calc (a * b : ℚ) * (1 - 1 / 2 ^ 53) ^ 2 = (a : ℚ) * (1 - 1 / 2 ^ 53) * ((b : ℚ) * (1 - 1 / 2 ^ 53)) := by ring
      _ ≤ (m : ℚ) * 2 ^ q * (m' * 2 ^ q') :=
        mul_le_mul hxlow hylow (mul_nonneg (by linarith) (by norm_num)) (by positivity)
  · calc (m : ℚ) * 2 ^ q * (m' * 2 ^ q') ≤ (a : ℚ) * (1 + 1 / 2 ^ 53) * ((b : ℚ) * (1 + 1 / 2 ^ 53)) :=
        mul_le_mul hxhigh hyhigh (by positivity) (by positivity)
      _ = a * b * (1 + 1 / 2 ^ 53) ^ 2 := by ring

/-- A product that is not larger than this is finite. -/
theorem isFinite_mul (ha : a ≠ 0) (hb : b ≠ 0) (hal : (a : ℚ) ≤ largest) (hbl : (b : ℚ) ≤ largest)
    (h : (a * b : ℚ) ≤ 1795 * 10 ^ 305) : (mul (ofNat a) (ofNat b)).isFinite = true := by
  obtain ⟨num, den, hd, hmul, -, hle⟩ := exists_mul_near ha hb hal hbl
  rw [hmul]
  refine isFinite_ofRatio_of_le hd (hle.trans ?_)
  have hroom : (1795 * 10 ^ 305 * (2 ^ 53 + 1) ^ 2 : ℚ) ≤ 9007199254740991 * 2 ^ 971 * (2 ^ 53) ^ 2 := by
    exact_mod_cast (by decide +kernel : 1795 * 10 ^ 305 * (2 ^ 53 + 1) ^ 2 ≤ 9007199254740991 * 2 ^ 971 * (2 ^ 53) ^ 2)
  have hfactor : (1 + 1 / 2 ^ 53 : ℚ) ^ 2 = (2 ^ 53 + 1) ^ 2 / (2 ^ 53) ^ 2 := by norm_num
  calc (a * b : ℚ) * (1 + 1 / 2 ^ 53) ^ 2 ≤ 1795 * 10 ^ 305 * (1 + 1 / 2 ^ 53) ^ 2 := by gcongr
    _ = 1795 * 10 ^ 305 * (2 ^ 53 + 1) ^ 2 / (2 ^ 53) ^ 2 := by rw [hfactor, mul_div_assoc]
    _ ≤ 9007199254740991 * 2 ^ 971 := by rwa [div_le_iff₀ (by positivity)]
    _ = largest := by
      unfold largest
      rw [zpow_ofNat]
      norm_num

/-- A product that is not smaller than this is infinite. -/
theorem not_isFinite_mul (ha : a ≠ 0) (hb : b ≠ 0) (hal : (a : ℚ) ≤ largest) (hbl : (b : ℚ) ≤ largest)
    (h : 1799 * 10 ^ 305 ≤ (a * b : ℚ)) : (mul (ofNat a) (ofNat b)).isFinite = false := by
  obtain ⟨num, den, hd, hmul, hle, -⟩ := exists_mul_near ha hb hal hbl
  rw [hmul]
  refine not_isFinite_ofRatio_of_le hd (le_trans ?_ hle)
  have hroom : (2 ^ 1024 * (2 ^ 53) ^ 2 : ℚ) ≤ 1799 * 10 ^ 305 * 9007199254740991 ^ 2 := by
    exact_mod_cast (by decide +kernel : 2 ^ 1024 * (2 ^ 53) ^ 2 ≤ 1799 * 10 ^ 305 * 9007199254740991 ^ 2)
  have hfactor : (1 - 1 / 2 ^ 53 : ℚ) ^ 2 = 9007199254740991 ^ 2 / (2 ^ 53) ^ 2 := by norm_num
  calc (2 : ℚ) ^ (1024 : ℤ) = 2 ^ 1024 := zpow_ofNat 2 1024
    _ ≤ 1799 * 10 ^ 305 * 9007199254740991 ^ 2 / (2 ^ 53) ^ 2 := by rwa [le_div_iff₀ (by positivity)]
    _ = 1799 * 10 ^ 305 * (1 - 1 / 2 ^ 53) ^ 2 := by rw [hfactor, mul_div_assoc]
    _ ≤ a * b * (1 - 1 / 2 ^ 53) ^ 2 := by gcongr

end Binary64

end FailurePipeline
