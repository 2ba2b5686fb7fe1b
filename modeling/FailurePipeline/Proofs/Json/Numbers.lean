import FailurePipeline.Proofs.Json.Range
import FailurePipeline.Proofs.Text.Numerals
import FailurePipeline.Proofs.Text.Utf8

/-!
# Numbers that are written are read back

A natural of a word is in range, and its numeral is read to its end, whatever follows that is no part of a number
(`Json.readNumber_decimal`).
-/

namespace FailurePipeline

namespace Digits

/-- A number has no leading zero. -/
theorem decimal_eq_cons {n : Nat} (hn : n ≠ 0) : ∃ c cs, decimal n = c :: cs ∧ c ≠ '0' := by
  induction n using Nat.strongRecOn with
  | _ n ih =>
    rw [decimal, Nat.toDigits_eq_if (by decide)]
    split
    · exact ⟨_, [], rfl, fun h => hn (Nat.digitChar_eq_zero.1 h)⟩
    · obtain ⟨c, cs, hcs, hc⟩ := ih (n / 10) (by omega) (by omega)
      rw [decimal] at hcs
      exact ⟨c, _, by rw [hcs, List.cons_append], hc⟩

theorem ofDigits_decimal (n : Nat) : ofDigits 10 ((decimal n).map fun c => c.toNat - 48) = n := by
  have hvalue := @Nat.ofDigitChars_ten_toDigits n
  rw [Nat.ofDigitChars_eq_foldl] at hvalue
  rw [ofDigits, List.foldl_map, decimal]
  simpa [Nat.mul_comm] using hvalue

end Digits

namespace Json

open Utf8

/-- No number goes on here. -/
def NumberEnds (s : Bytes) : Prop :=
  ∀ b r, s = b :: r → isDigit b = false ∧ b ≠ 0x2E ∧ b ≠ 0x65 ∧ b ≠ 0x45

variable {rest : Bytes}

/-! ### The range -/

private theorem le_foldl (ds : List Nat) (k : Nat) : k ≤ ds.foldl (fun n d => n * 10 + d) k := by
  induction ds generalizing k with
  | nil => exact Nat.le_refl k
  | cons d ds ih => exact Nat.le_trans (by omega) (ih (k * 10 + d))

private theorem absorb_of_le {ds : List Nat} {k : Nat} (h : ds.foldl (fun n d => n * 10 + d) k ≤ maxWord) :
    absorb k ds = (ds.foldl (fun n d => n * 10 + d) k, []) := by
  induction ds generalizing k with
  | nil => rfl
  | cons d ds ih =>
    have hle := Nat.le_trans (le_foldl ds (k * 10 + d)) h
    rw [absorb, if_neg (Nat.not_lt.2 hle)]
    exact ih h

private theorem finishNumber_of_le {ds : List Nat} {n : Nat} (hds : Digits.ofDigits 10 ds = n) (hn : n ≤ maxWord)
    (rest : Bytes) : finishNumber false ds [] 0 rest = .ok (.number (.ofNat n), rest) := by
  have habsorb : absorb 0 ds = (n, []) := by
    subst hds
    exact absorb_of_le hn
  have hrange : outOfRange n 0 = false := by
    refine outOfRange_eq_false hn ?_
    rw [zpow_zero, mul_one]
    exact_mod_cast hn.trans (by decide +kernel : maxWord ≤ 1795 * 10 ^ 305)
  have hexact : exact false ds [] 0 = .ofNat n := by
    rw [exact, List.append_nil, hds]
    rfl
  have hsignificant : significant ds [] = (n, 0) := by simp [significant, habsorb, absorb]
  simp only [finishNumber, hsignificant, Int.add_zero, hrange, hexact, Bool.false_eq_true, if_false]

/-! ### The numeral -/

private theorem readFraction?_of_ends (h : NumberEnds rest) (ds : List Nat) :
    readFraction? false ds rest = finishNumber false ds [] 0 rest := by
  unfold readFraction?
  split
  · exact absurd rfl (h _ _ rfl).2.1
  · cases rest with
    | nil => rfl
    | cons b r =>
      obtain ⟨-, -, he, he'⟩ := h b r rfl
      simp only [readScale?, beq_eq_false_iff_ne.2 he, beq_eq_false_iff_ne.2 he', Bool.or_self, Bool.false_eq_true,
        if_false]

private theorem isDigit_octet {c : Char} (h : c.isDigit = true) :
    isDigit (UInt8.ofNat c.toNat) = true ∧ digit (UInt8.ofNat c.toNat) = c.toNat - 48 := by
  have hall : ∀ k < 58, 48 ≤ k → isDigit (UInt8.ofNat k) = true ∧ digit (UInt8.ofNat k) = k - 48 := by
    decide +kernel
  simp only [Char.isDigit, Bool.and_eq_true, decide_eq_true_eq] at h
  exact hall c.toNat (Nat.lt_succ_of_le h.2) h.1

private theorem toNat_lt_of_isDigit {c : Char} (h : c.isDigit = true) : c.toNat < 128 := by
  simp only [Char.isDigit, Bool.and_eq_true, decide_eq_true_eq] at h
  exact Nat.lt_of_le_of_lt (h.2 : c.toNat ≤ 57) (by decide)

/-- The octets of a numeral: its first one, and the digits that it spells. -/
theorem encodeChars_decimal (n : Nat) :
    ∃ b bs, encodeChars (Digits.decimal n) = b :: bs ∧ (∀ o ∈ b :: bs, isDigit o = true) ∧
      Digits.ofDigits 10 ((b :: bs).map digit) = n ∧ (b = 0x30 → n = 0 ∧ bs = []) := by
  have hdigits : ∀ c ∈ Digits.decimal n, c.isDigit = true := fun c hc => Digits.isDigit_of_mem_decimal hc
  have hoctets := encodeChars_of_ascii fun c hc => toNat_lt_of_isDigit (hdigits c hc)
  have hall : ∀ o ∈ encodeChars (Digits.decimal n), isDigit o = true := by
    rw [hoctets]
    rintro o ho
    obtain ⟨c, hc, rfl⟩ := List.mem_map.1 ho
    exact (isDigit_octet (hdigits c hc)).1
  have hvalue : (encodeChars (Digits.decimal n)).map digit = (Digits.decimal n).map fun c => c.toNat - 48 := by
    rw [hoctets, List.map_map]
    exact List.map_congr_left fun c hc => (isDigit_octet (hdigits c hc)).2
  have hnumber : Digits.ofDigits 10 ((encodeChars (Digits.decimal n)).map digit) = n := by
    rw [hvalue, Digits.ofDigits_decimal]
  by_cases hn : n = 0
  · subst hn
    exact ⟨0x30, [], rfl, hall, hnumber, fun _ => ⟨rfl, rfl⟩⟩
  · obtain ⟨c, cs, hcs, hc⟩ := Digits.decimal_eq_cons hn
    have hascii := toNat_lt_of_isDigit (hdigits c (hcs ▸ List.mem_cons_self))
    have heq : encodeChars (Digits.decimal n) = UInt8.ofNat c.toNat :: encodeChars cs := by
      rw [hcs, encodeChars_cons, utf8EncodeChar_of_ascii hascii]
      rfl
    refine ⟨UInt8.ofNat c.toNat, encodeChars cs, heq, heq ▸ hall, heq ▸ hnumber, fun h => absurd ?_ hc⟩
    have hback := congrArg UInt8.toNat h
    rw [UInt8.toNat_ofNat_of_lt' (Nat.lt_trans hascii (by decide))] at hback
    rw [← Char.ofNat_toNat c, hback]
    rfl

theorem readNumber_decimal {n : Nat} (hn : n ≤ maxWord) (h : NumberEnds rest) :
    readNumber false (encodeChars (Digits.decimal n) ++ rest) = .ok (.number (.ofNat n), rest) := by
  obtain ⟨b, bs, heq, hall, hnumber, hzero⟩ := encodeChars_decimal n
  have hb := hall b List.mem_cons_self
  have hends : ∀ b' r, rest = b' :: r → isDigit b' = false := fun b' r hr => (h b' r hr).1
  rw [heq, List.cons_append]
  simp only [readNumber, hb, if_true]
  split
  · next hb0 =>
    obtain ⟨rfl, rfl⟩ := hzero (eq_of_beq hb0)
    have hread : readFraction? false [0] rest = .ok (.number (.ofNat 0), rest) :=
      (readFraction?_of_ends h [0]).trans (finishNumber_of_le (rfl : Digits.ofDigits 10 [0] = 0) hn rest)
    cases rest with
    | nil => exact hread
    | cons b' r =>
      simp only [List.nil_append, hends b' r rfl, Bool.false_eq_true, if_false]
      exact hread
  · have htake : (bs ++ rest).takeWhile isDigit = bs ∧ (bs ++ rest).dropWhile isDigit = rest := by
      have hbs : ∀ o ∈ bs, isDigit o = true := fun o ho => hall o (List.mem_cons_of_mem b ho)
      rw [List.takeWhile_append_of_pos hbs, List.dropWhile_append_of_pos hbs]
      cases rest with
      | nil => simp
      | cons b' r => simp [hends b' r rfl]
    rw [htake.1, htake.2]
    exact (readFraction?_of_ends h _).trans (finishNumber_of_le hnumber hn rest)

end Json

end FailurePipeline
