import FailurePipeline.Text.Base64

/-!
# Base64 gives the octets back

Every encoding is a canonical one, with the padding that its last group needs (`Base64.decode?_encode`).
-/

namespace FailurePipeline

namespace Base64

private theorem value?_symbol {n : Nat} (h : n < 64) : value? (symbol n) = some n := by
  have hall : ∀ n < 64, value? (symbol n) = some n := by decide +kernel
  exact hall n h

private theorem symbol_ne_pad {n : Nat} (h : n < 64) : symbol n ≠ '=' := by
  have hall : ∀ n < 64, symbol n ≠ '=' := by decide +kernel
  exact hall n h

private theorem ofNat_eq {n : Nat} {a : UInt8} (h : n = a.toNat) : UInt8.ofNat n = a := by
  rw [h, UInt8.ofNat_toNat]

/-- The six-bit groups of three octets spell the octets. -/
private theorem octets_of_groups (a b c : UInt8) :
    UInt8.ofNat (a.toNat / 4 * 4 + (a.toNat % 4 * 16 + b.toNat / 16) / 16) = a ∧
      UInt8.ofNat ((a.toNat % 4 * 16 + b.toNat / 16) % 16 * 16 + (b.toNat % 16 * 4 + c.toNat / 64) / 4) = b ∧
      UInt8.ofNat ((b.toNat % 16 * 4 + c.toNat / 64) % 4 * 64 + c.toNat % 64) = c := by
  have ha := a.toNat_lt
  have hb := b.toNat_lt
  have hc := c.toNat_lt
  exact ⟨ofNat_eq (by omega), ofNat_eq (by omega), ofNat_eq (by omega)⟩

private theorem decodeLast?_one (a : UInt8) :
    decodeLast? (symbol (a.toNat / 4)) (symbol (a.toNat % 4 * 16)) '=' '=' = some [a] := by
  have ha := a.toNat_lt
  have hback : UInt8.ofNat (a.toNat / 4 * 4 + a.toNat % 4 * 16 / 16) = a := ofNat_eq (by omega)
  have hunused : a.toNat % 4 * 16 % 16 = 0 := by omega
  simp only [decodeLast?, value?_symbol (show a.toNat / 4 < 64 by omega),
    value?_symbol (show a.toNat % 4 * 16 < 64 by omega), Option.bind_eq_bind, Option.bind_some, hback, hunused,
    and_self, if_true]

private theorem decodeLast?_two (a b : UInt8) :
    decodeLast? (symbol (a.toNat / 4)) (symbol (a.toNat % 4 * 16 + b.toNat / 16)) (symbol (b.toNat % 16 * 4)) '=' =
      some [a, b] := by
  have ha := a.toNat_lt
  have hb := b.toNat_lt
  have hback := octets_of_groups a b 0
  simp only [UInt8.toNat_zero, Nat.zero_div, Nat.add_zero] at hback
  have hr : b.toNat % 16 * 4 < 64 := by omega
  have hunused : b.toNat % 16 * 4 % 4 = 0 := by omega
  simp only [decodeLast?, value?_symbol (show a.toNat / 4 < 64 by omega),
    value?_symbol (show a.toNat % 4 * 16 + b.toNat / 16 < 64 by omega), value?_symbol hr, symbol_ne_pad hr,
    Option.bind_eq_bind, Option.bind_some, hback, hunused, if_true, if_false]

private theorem decodeLast?_three (a b c : UInt8) :
    decodeLast? (symbol (a.toNat / 4)) (symbol (a.toNat % 4 * 16 + b.toNat / 16))
      (symbol (b.toNat % 16 * 4 + c.toNat / 64)) (symbol (c.toNat % 64)) = some [a, b, c] := by
  have ha := a.toNat_lt
  have hb := b.toNat_lt
  have hc := c.toNat_lt
  have hback := octets_of_groups a b c
  have hr : b.toNat % 16 * 4 + c.toNat / 64 < 64 := by omega
  have hs : c.toNat % 64 < 64 := by omega
  simp only [decodeLast?, value?_symbol (show a.toNat / 4 < 64 by omega),
    value?_symbol (show a.toNat % 4 * 16 + b.toNat / 16 < 64 by omega), value?_symbol hr, symbol_ne_pad hr,
    value?_symbol hs, symbol_ne_pad hs, Option.bind_eq_bind, Option.bind_some, hback, if_false]

private theorem decode?_three_append (a b c : UInt8) {rest : List Char} (hne : rest ≠ []) :
    decode? (symbol (a.toNat / 4) :: symbol (a.toNat % 4 * 16 + b.toNat / 16) ::
      symbol (b.toNat % 16 * 4 + c.toNat / 64) :: symbol (c.toNat % 64) :: rest) =
        (decode? rest).map fun tail => a :: b :: c :: tail := by
  have ha := a.toNat_lt
  have hb := b.toNat_lt
  have hc := c.toNat_lt
  have hback := octets_of_groups a b c
  obtain ⟨t, rest, rfl⟩ := List.exists_cons_of_ne_nil hne
  rw [decode?.eq_3 _ _ _ _ _ (by simp)]
  simp only [value?_symbol (show a.toNat / 4 < 64 by omega),
    value?_symbol (show a.toNat % 4 * 16 + b.toNat / 16 < 64 by omega),
    value?_symbol (show b.toNat % 16 * 4 + c.toNat / 64 < 64 by omega),
    value?_symbol (show c.toNat % 64 < 64 by omega), hback, Option.bind_eq_bind, Option.bind_some]
  cases decode? (t :: rest) <;> rfl

private theorem encode_ne_nil {bs : Bytes} (h : bs ≠ []) : encode bs ≠ [] := by
  rcases bs with _ | ⟨a, _ | ⟨b, _ | ⟨c, rest⟩⟩⟩
  · exact absurd rfl h
  all_goals simp [encode]

theorem decode?_encode (bs : Bytes) : decode? (encode bs) = some bs := by
  induction bs using encode.induct with
  | case1 => rfl
  | case2 a => exact decodeLast?_one a
  | case3 a b => exact decodeLast?_two a b
  | case4 a b c rest ih =>
    rw [encode]
    by_cases hrest : rest = []
    · subst hrest
      exact decodeLast?_three a b c
    · rw [decode?_three_append a b c (encode_ne_nil hrest), ih]
      rfl

end Base64

end FailurePipeline
