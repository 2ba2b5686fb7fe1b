import FailurePipeline.Text.Digits
import Mathlib.Algebra.GroupWithZero.Nat

/-!
# Decimal numerals tell numbers apart

A decimal numeral consists of digits, also when zeros are put before it, and says which number it is written for
(`Digits.padded_inj`).  A mark that is no digit separates numerals (`eq_of_append_cons`), and one that is as wide as
it is meant to be needs no mark (`Digits.eq_of_append_padded`).
-/

namespace FailurePipeline

namespace Digits

theorem isDigit_of_mem_decimal {n : Nat} {c : Char} (h : c ∈ decimal n) : c.isDigit = true :=
  Nat.isDigit_of_mem_toDigits (by decide) (by decide) h

theorem isDigit_of_mem_padded {width n : Nat} {c : Char} (h : c ∈ padded width n) : c.isDigit = true := by
  rcases List.mem_append.1 h with h | h
  · rw [(List.mem_replicate.1 h).2]
    rfl
  · exact isDigit_of_mem_decimal h

theorem not_mem_padded {mark : Char} (h : mark.isDigit = false) (width n : Nat) : mark ∉ padded width n := by
  intro hmem
  simp [isDigit_of_mem_padded hmem] at h

theorem padded_inj {width m n : Nat} (h : padded width m = padded width n) : m = n := by
  have hvalue : ∀ k, Nat.ofDigitChars 10 (padded width k) 0 = k := by
    intro k
    rw [padded, decimal, Nat.ofDigitChars_append, Nat.ofDigitChars_replicate_zero, Nat.mul_zero,
      Nat.ofDigitChars_ten_toDigits]
  rw [← hvalue m, ← hvalue n, h]

theorem decimal_inj {m n : Nat} (h : decimal m = decimal n) : m = n := by
  have hpadded : ∀ k, padded 0 k = decimal k := by
    intro k
    simp [padded]
  exact padded_inj (by rw [hpadded, hpadded, h])

/-- A number that fits into its width is written in just this width. -/
theorem length_padded {width n : Nat} (hwidth : 0 < width) (h : n < 10 ^ width) : (padded width n).length = width := by
  have hlength : (decimal n).length ≤ width := (Nat.length_toDigits_le_iff (by decide) hwidth).2 h
  rw [padded, List.length_append, List.length_replicate]
  omega

theorem eq_of_append_padded {width m n : Nat} {xs ys : List Char} (hwidth : 0 < width) (hm : m < 10 ^ width)
    (hn : n < 10 ^ width) (h : xs ++ padded width m = ys ++ padded width n) : xs = ys ∧ m = n := by
  obtain ⟨hxs, hds⟩ := List.append_inj' h (by rw [length_padded hwidth hm, length_padded hwidth hn])
  exact ⟨hxs, padded_inj hds⟩

end Digits

/-- The last occurrence of a mark is found from the end. -/
theorem eq_of_append_cons {α : Type} {mark : α} {xs ys ds es : List α} (hd : mark ∉ ds) (he : mark ∉ es)
    (h : xs ++ mark :: ds = ys ++ mark :: es) : xs = ys ∧ ds = es := by
  rcases List.append_eq_append_iff.1 h with ⟨zs, hy, hz⟩ | ⟨zs, hx, hz⟩
  · cases zs with
    | nil => exact ⟨by simpa using hy.symm, by simpa using hz⟩
    | cons z zs =>
      rw [List.cons_append, List.cons.injEq] at hz
      exact absurd (hz.2 ▸ List.mem_append_right zs List.mem_cons_self) hd
  · cases zs with
    | nil => exact ⟨by simpa using hx, by simpa using hz.symm⟩
    | cons z zs =>
      rw [List.cons_append, List.cons.injEq] at hz
      exact absurd (hz.2 ▸ List.mem_append_right zs List.mem_cons_self) he

end FailurePipeline
