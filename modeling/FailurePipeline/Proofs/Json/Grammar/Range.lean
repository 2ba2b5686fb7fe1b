import FailurePipeline.Proofs.Json.Grammar
import FailurePipeline.Proofs.Json.Range

/-!
# Which numerals are in range

The reader keeps the digits of a numeral that fit a word, and multiplies them with a power of ten in binary64.  Both
lose something, so that where its range ends is not one number; but a numeral of at most `1.79 · 10 ^ 308` is in range
and one of at least `1.80 · 10 ^ 308` is not (`Numeral.inRange_of_le`, `Numeral.not_inRange_of_le`), unless its exponent
fits no 32-bit integer (`Numeral.inRange_iff_of_limit_le`).
-/

namespace FailurePipeline

namespace Json

/-! ### Digits -/

section Digits

variable {ds es : List Nat}

private theorem foldl_digits (k : Nat) (ds : List Nat) :
    ds.foldl (fun n d => n * 10 + d) k = k * 10 ^ ds.length + Digits.ofDigits 10 ds := by
  unfold Digits.ofDigits
  induction ds generalizing k with
  | nil => simp
  | cons d ds ih =>
    rw [List.foldl_cons, List.foldl_cons, ih (k * 10 + d), ih (0 * 10 + d), List.length_cons, Nat.pow_succ]
    ring

private theorem ofDigits_append (ds es : List Nat) :
    Digits.ofDigits 10 (ds ++ es) = Digits.ofDigits 10 ds * 10 ^ es.length + Digits.ofDigits 10 es := by
  rw [Digits.ofDigits, List.foldl_append, foldl_digits]
  rfl

private theorem ofDigits_lt (h : ∀ d ∈ ds, d < 10) : Digits.ofDigits 10 ds < 10 ^ ds.length := by
  induction ds with
  | nil => exact Nat.one_pos
  | cons d ds ih =>
    obtain ⟨hd, hds⟩ := List.forall_mem_cons.1 h
    have hless := ih hds
    have hsplit := ofDigits_append [d] ds
    have hone : Digits.ofDigits 10 [d] = d := by simp [Digits.ofDigits]
    rw [List.singleton_append, hone] at hsplit
    rw [hsplit, List.length_cons, Nat.pow_succ]
    nlinarith

/-- Digits are absorbed as long as they fit, and if some are left then many have been absorbed. -/
private theorem exists_absorb {k : Nat} (hk : k ≤ maxWord) (h : ∀ d ∈ ds, d < 10) :
    ∃ taken, ds = taken ++ (absorb k ds).2 ∧
      (absorb k ds).1 = k * 10 ^ taken.length + Digits.ofDigits 10 taken ∧ (absorb k ds).1 ≤ maxWord ∧
        ((absorb k ds).2 ≠ [] → 10 ^ 18 ≤ (absorb k ds).1) := by
  induction ds generalizing k with
  | nil => exact ⟨[], rfl, by simp [absorb, Digits.ofDigits], hk, fun hne => absurd rfl hne⟩
  | cons d ds ih =>
    obtain ⟨hd, hds⟩ := List.forall_mem_cons.1 h
    rw [absorb]
    split
    · next hover =>
      refine ⟨[], rfl, by simp [Digits.ofDigits], hk, fun _ => ?_⟩
      unfold maxWord at hover
      simp only
      omega
    · next hfits =>
      obtain ⟨taken, hsplit, hvalue, hword, hmany⟩ := ih (Nat.not_lt.1 hfits) hds
      refine ⟨d :: taken, by rw [List.cons_append, ← hsplit], ?_, hword, hmany⟩
      rw [hvalue, ← foldl_digits, ← foldl_digits]
      rfl

private theorem ofDigits_mul_lt (h : ∀ d ∈ ds, d < 10) (k : Nat) :
    Digits.ofDigits 10 ds * 10 ^ k < 10 ^ (ds.length + k) := by
  rw [Nat.pow_add]
  exact Nat.mul_lt_mul_of_pos_right (ofDigits_lt h) (Nat.pow_pos (by decide))

/-- Two naturals that differ by one part in `10 ^ 18` of the second at most. -/
private def IsClose (k t : Nat) : Prop := 10 ^ 18 * k ≤ (10 ^ 18 + 1) * t ∧ 10 ^ 18 * t ≤ 10 ^ 18 * k + t

/-- Digits that are ignored count for less than one in the last place that is kept. -/
private theorem isClose_of_ignored {m : Nat} (hmany : ds ≠ [] → 10 ^ 18 ≤ m) (h : ∀ d ∈ ds, d < 10) :
    IsClose (m * 10 ^ ds.length) (m * 10 ^ ds.length + Digits.ofDigits 10 ds) := by
  have hless : 10 ^ 18 * Digits.ofDigits 10 ds ≤ m * 10 ^ ds.length := by
    by_cases hnil : ds = []
    · subst hnil
      exact Nat.zero_le _
    · calc 10 ^ 18 * Digits.ofDigits 10 ds ≤ 10 ^ 18 * 10 ^ ds.length := Nat.mul_le_mul_left _ (ofDigits_lt h).le
        _ ≤ m * 10 ^ ds.length := Nat.mul_le_mul_right _ (hmany hnil)
  unfold IsClose
  omega

/-- What comes after many digits does not matter much. -/
private theorem isClose_of_many {n unit a b : Nat} (hmany : 10 ^ 18 ≤ n) (ha : a < unit) (hb : b < unit) :
    IsClose (n * unit + a) (n * unit + b) := by
  have hless := Nat.mul_le_mul_right unit hmany
  unfold IsClose
  omega

/-- What is kept of the digits is close to what they spell. -/
private theorem significant_near (hds : ∀ d ∈ ds, d < 10) (hes : ∀ d ∈ es, d < 10) :
    ∃ place : Nat, (significant ds es).1 ≤ maxWord ∧ (significant ds es).2 = (place : Int) - es.length ∧
      IsClose ((significant ds es).1 * 10 ^ place) (Digits.ofDigits 10 (ds ++ es)) := by
  obtain ⟨w, hw, hn, hnword, hnmany⟩ := exists_absorb (Nat.zero_le _) hds
  obtain ⟨f, hf, hm, hmword, hmmany⟩ := exists_absorb hnword hes
  have hsignificant : significant ds es = ((absorb (absorb 0 ds).1 es).1,
      ((absorb 0 ds).2.length : Int) - ((es.length : Int) - (absorb (absorb 0 ds).1 es).2.length)) := rfl
  rw [hsignificant]
  generalize absorb 0 ds = whole at hw hn hnmany hm hf hmmany hmword ⊢
  obtain ⟨n, dropped⟩ := whole
  simp only at hw hn hnmany hm hf hmmany hmword ⊢
  generalize absorb n es = fraction at hm hf hmmany hmword ⊢
  obtain ⟨m, ignored⟩ := fraction
  simp only at hm hf hmmany hmword ⊢
  refine ⟨dropped.length + ignored.length, hmword, by push_cast; ring, ?_⟩
  -- If the whole part fits, only places of the fraction are ignored; else the digits kept are many enough.
  by_cases hnil : dropped = []
  · have htotal : Digits.ofDigits 10 (ds ++ es) = m * 10 ^ ignored.length + Digits.ofDigits 10 ignored := by
      rw [hw, hf, hnil, List.append_nil, ← List.append_assoc, ofDigits_append, ofDigits_append, hm, hn, Nat.zero_mul,
        Nat.zero_add]
    rw [htotal, hnil, List.length_nil, Nat.zero_add]
    exact isClose_of_ignored hmmany fun d hd => hes d (hf ▸ List.mem_append_right _ hd)
  · have htotal : Digits.ofDigits 10 (ds ++ es) =
        n * 10 ^ (dropped ++ es).length + Digits.ofDigits 10 (dropped ++ es) := by
      rw [hw, List.append_assoc, ofDigits_append, hn, Nat.zero_mul, Nat.zero_add]
    have hunit : (dropped ++ es).length = f.length + (dropped.length + ignored.length) := by
      rw [hf, List.length_append, List.length_append]
      omega
    have hkept : m * 10 ^ (dropped.length + ignored.length) = n * 10 ^ (dropped ++ es).length +
        Digits.ofDigits 10 f * 10 ^ (dropped.length + ignored.length) := by
      rw [hm, hunit, Nat.pow_add]
      ring
    have hfirst := ofDigits_mul_lt (fun d hd => hes d (hf ▸ List.mem_append_left _ hd))
      (dropped.length + ignored.length)
    rw [← hunit] at hfirst
    rw [htotal, hkept]
    refine isClose_of_many (hnmany hnil) hfirst (ofDigits_lt fun d hd => ?_)
    rcases List.mem_append.1 hd with hd | hd
    · exact hds d (hw ▸ List.mem_append_right _ hd)
    · exact hes d hd

end Digits

/-! ### Numerals -/

private theorem Figures.lt_of_mem_values {f : Figures} {d : Nat} (h : d ∈ f.values) : d < 10 := by
  obtain ⟨c, -, rfl⟩ := List.mem_map.1 h
  exact c.isLt

namespace Numeral

variable {n : Numeral}

/-- The exponent that is spelled. -/
def exponentValue (n : Numeral) : Int :=
  match n.exponent with
  | none => 0
  | some e => e.value

/-- The number that is spelled, without its sign. -/
def size (n : Numeral) : ℚ :=
  Digits.ofDigits 10 (n.whole.values ++ n.fractionValues) * 10 ^ (n.exponentValue - n.fractionValues.length)

/-- The exponent is a 32-bit integer. -/
def ExponentFits (n : Numeral) : Prop := ∀ e, n.exponent = some e → e.magnitude < exponentLimit

private theorem lt_of_mem_fractionValues {d : Nat} (h : d ∈ n.fractionValues) : d < 10 := by
  unfold fractionValues at h
  cases hf : n.fraction with
  | none => rw [hf] at h; cases h
  | some f => rw [hf] at h; exact Figures.lt_of_mem_values h

private theorem inRange_iff (h : n.ExponentFits) :
    n.InRange ↔ outOfRange (significant n.whole.values n.fractionValues).1
      ((significant n.whole.values n.fractionValues).2 + n.exponentValue) = false := by
  have hscaled : ∀ e, (n.scaled? e).isSome = true ↔ outOfRange (significant n.whole.values n.fractionValues).1
      ((significant n.whole.values n.fractionValues).2 + e) = false := by
    intro e
    unfold scaled?
    simp only
    split <;> simp_all
  unfold InRange number? exponentValue
  cases he : n.exponent with
  | none => exact hscaled 0
  | some e =>
    simp only
    rw [if_pos (h e he)]
    exact hscaled e.value

/-- The number at which the reader looks is close to the one that is spelled. -/
private theorem exists_near (h : n.ExponentFits) :
    ∃ (m : Nat) (e : Int), m ≤ maxWord ∧ (n.InRange ↔ outOfRange m e = false) ∧
      10 ^ 18 * ((m : ℚ) * 10 ^ e) ≤ (10 ^ 18 + 1) * n.size ∧
      10 ^ 18 * n.size ≤ 10 ^ 18 * ((m : ℚ) * 10 ^ e) + n.size := by
  obtain ⟨place, hword, hscale, hhigh, hlow⟩ :=
    significant_near (fun d => Figures.lt_of_mem_values (f := n.whole.toFigures)) (fun d => n.lt_of_mem_fractionValues)
  refine ⟨_, _, hword, inRange_iff h, ?_⟩
  have hunit : (0 : ℚ) < 10 ^ (n.exponentValue - n.fractionValues.length) := by positivity
  have hkept : ((significant n.whole.values n.fractionValues).1 : ℚ) *
      10 ^ ((significant n.whole.values n.fractionValues).2 + n.exponentValue) =
        ((significant n.whole.values n.fractionValues).1 * 10 ^ place : Nat) *
          10 ^ (n.exponentValue - n.fractionValues.length) := by
    have hexponent : (place : Int) - n.fractionValues.length + n.exponentValue =
        place + (n.exponentValue - n.fractionValues.length) := by ring
    rw [hscale, hexponent, zpow_add₀ (by norm_num), zpow_natCast]
    push_cast
    ring
  rw [hkept, size]
  generalize (significant n.whole.values n.fractionValues).1 * 10 ^ place = k at hhigh hlow ⊢
  have hhigh' : (10 ^ 18 * k : ℚ) ≤ (10 ^ 18 + 1) * Digits.ofDigits 10 (n.whole.values ++ n.fractionValues) := by
    exact_mod_cast hhigh
  have hlow' : (10 ^ 18 * Digits.ofDigits 10 (n.whole.values ++ n.fractionValues) : ℚ) ≤
      10 ^ 18 * k + Digits.ofDigits 10 (n.whole.values ++ n.fractionValues) := by exact_mod_cast hlow
  have hhigh'' := mul_le_mul_of_nonneg_right hhigh' hunit.le
  have hlow'' := mul_le_mul_of_nonneg_right hlow' hunit.le
  constructor <;> linarith

private theorem ten_pow_succ (k : Nat) : (10 : ℚ) ^ (k + 1) = 10 * 10 ^ k := by rw [pow_succ, mul_comm]

/-- A numeral up to `1.79 · 10 ^ 308` is in range. -/
theorem inRange_of_le (h : n.ExponentFits) (hs : n.size ≤ 179 * 10 ^ 306) : n.InRange := by
  obtain ⟨m, e, hword, hiff, hhigh, -⟩ := exists_near h
  refine hiff.2 (outOfRange_eq_false hword ?_)
  rw [ten_pow_succ 305] at hs
  have hpos : (0 : ℚ) < 10 ^ 305 := by positivity
  generalize (10 : ℚ) ^ 305 = unit at hs hpos ⊢
  linarith

/-- A numeral from `1.80 · 10 ^ 308` on is not. -/
theorem not_inRange_of_le (h : n.ExponentFits) (hs : 18 * 10 ^ 307 ≤ n.size) : ¬n.InRange := by
  obtain ⟨m, e, hword, hiff, -, hlow⟩ := exists_near h
  have htrue : outOfRange m e = true := by
    refine outOfRange_eq_true hword ?_
    rw [ten_pow_succ 306, ten_pow_succ 305] at hs
    have hpos : (0 : ℚ) < 10 ^ 305 := by positivity
    generalize (10 : ℚ) ^ 305 = unit at hs hpos ⊢
    linarith
  rw [hiff, htrue]
  exact nofun

/-- With a larger exponent a numeral is in range exactly if the exponent is negative or every digit is zero. -/
theorem inRange_iff_of_limit_le {e : Exponent} (he : n.exponent = some e) (h : exponentLimit ≤ e.magnitude) :
    n.InRange ↔ e.isNegative = true ∨ n.size = 0 := by
  obtain ⟨place, -, -, hhigh, hlow⟩ :=
    significant_near (fun d => Figures.lt_of_mem_values (f := n.whole.toFigures)) (fun d => n.lt_of_mem_fractionValues)
  have hzero : (significant n.whole.values n.fractionValues).1 = 0 ↔ n.size = 0 := by
    have hunit : (10 : ℚ) ^ (n.exponentValue - n.fractionValues.length) ≠ 0 := by positivity
    rw [size, mul_eq_zero_iff_right hunit, Nat.cast_eq_zero]
    constructor
    · intro hm
      rw [hm, Nat.zero_mul] at hlow
      omega
    · intro hdigits
      rw [hdigits, Nat.mul_zero] at hhigh
      have hkept := (Nat.mul_eq_zero.1 (Nat.le_zero.1 hhigh)).resolve_left (by decide)
      exact (Nat.mul_eq_zero.1 hkept).resolve_right (Nat.pow_pos (by decide)).ne'
  unfold InRange number?
  rw [he, ← hzero]
  simp only
  rw [if_neg (Nat.not_lt.2 h)]
  cases e.isNegative <;> simp

end Numeral

/-- This much a document may hold. -/
theorem Document.withinLimits_of_le {t : Document} (hdepth : t.value.depth ≤ 127)
    (hnumerals : ∀ n ∈ t.value.numerals, n.ExponentFits ∧ n.size ≤ 179 * 10 ^ 306)
    (hstrings : ∀ ps ∈ t.value.strings, ps.Paired) : t.WithinLimits :=
  ⟨hdepth, fun n hn => Numeral.inRange_of_le (hnumerals n hn).1 (hnumerals n hn).2, hstrings⟩

/-- This is too much for a document. -/
theorem Document.not_withinLimits_of_le {t : Document} (h : 128 ≤ t.value.depth ∨
    (∃ n ∈ t.value.numerals, n.ExponentFits ∧ 18 * 10 ^ 307 ≤ n.size) ∨ ∃ ps ∈ t.value.strings, ¬ps.Paired) :
    ¬t.WithinLimits := by
  intro ht
  rcases h with hdepth | ⟨n, hn, hfits, hsize⟩ | ⟨ps, hps, hunpaired⟩
  · exact absurd ht.depth (Nat.not_le.2 hdepth)
  · exact Numeral.not_inRange_of_le hfits hsize (ht.numerals n hn)
  · exact hunpaired (ht.strings ps hps)

end Json

end FailurePipeline
