import FailurePipeline.Text.Utf8

/-!
# Text that has been encoded is read back

The encoding of a character is a well-formed sequence of one to four octets, and `scan` takes it for that character
(`Utf8.scan_utf8EncodeChar_append`).  An octet of ASCII in an encoded text is a character of the text
(`Utf8.mem_of_mem_encodeChars`).  Octets that can be decoded are the encoding of some text
(`Utf8.eq_encodeChars_of_decode?`).
-/

namespace FailurePipeline

namespace Utf8

variable {a b c d : UInt8}

theorem encodeChars_append (cs ds : List Char) : encodeChars (cs ++ ds) = encodeChars cs ++ encodeChars ds :=
  List.flatMap_append

theorem encodeChars_cons (c : Char) (cs : List Char) :
    encodeChars (c :: cs) = String.utf8EncodeChar c ++ encodeChars cs := List.flatMap_cons

theorem utf8EncodeChar_of_ascii {c : Char} (h : c.toNat < 128) :
    String.utf8EncodeChar c = [UInt8.ofNat c.toNat] := by
  have hle : c.val.toNat ≤ 127 := Nat.le_of_lt_succ h
  rw [String.utf8EncodeChar, if_pos hle]
  rfl

theorem encodeChars_of_ascii {cs : List Char} (h : ∀ c ∈ cs, c.toNat < 128) :
    encodeChars cs = cs.map fun c => UInt8.ofNat c.toNat := by
  induction cs with
  | nil => rfl
  | cons c cs ih =>
    rw [encodeChars_cons, utf8EncodeChar_of_ascii (h c List.mem_cons_self),
      ih fun d hd => h d (List.mem_cons_of_mem c hd)]
    rfl

/-! ### Well-formed sequences -/

private theorem isContinuation_iff : isContinuation b = true ↔ 0x80 ≤ b.toNat ∧ b.toNat ≤ 0xBF := by
  simp [isContinuation, UInt8.le_iff_toNat_le]

private theorem isPair_iff :
    isPair a b = true ↔ 0xC2 ≤ a.toNat ∧ a.toNat ≤ 0xDF ∧ 0x80 ≤ b.toNat ∧ b.toNat ≤ 0xBF := by
  simp [isPair, isContinuation_iff, UInt8.le_iff_toNat_le, and_assoc]

private theorem isTriple_iff :
    isTriple a b c = true ↔ (0x80 ≤ c.toNat ∧ c.toNat ≤ 0xBF) ∧
      (a.toNat = 0xE0 ∧ 0xA0 ≤ b.toNat ∧ b.toNat ≤ 0xBF ∨
        a.toNat = 0xED ∧ 0x80 ≤ b.toNat ∧ b.toNat ≤ 0x9F ∨
        (0xE1 ≤ a.toNat ∧ a.toNat ≤ 0xEF ∧ a.toNat ≠ 0xED) ∧ 0x80 ≤ b.toNat ∧ b.toNat ≤ 0xBF) := by
  simp [isTriple, isContinuation_iff, UInt8.le_iff_toNat_le, ← UInt8.toNat_inj, and_assoc, or_assoc]

private theorem isQuadruple_iff :
    isQuadruple a b c d = true ↔ (0x80 ≤ c.toNat ∧ c.toNat ≤ 0xBF) ∧ (0x80 ≤ d.toNat ∧ d.toNat ≤ 0xBF) ∧
      (a.toNat = 0xF0 ∧ 0x90 ≤ b.toNat ∧ b.toNat ≤ 0xBF ∨
        (0xF1 ≤ a.toNat ∧ a.toNat ≤ 0xF3) ∧ 0x80 ≤ b.toNat ∧ b.toNat ≤ 0xBF ∨
        a.toNat = 0xF4 ∧ 0x80 ≤ b.toNat ∧ b.toNat ≤ 0x8F) := by
  simp [isQuadruple, isContinuation_iff, UInt8.le_iff_toNat_le, ← UInt8.toNat_inj, and_assoc, or_assoc]

private theorem scan_ascii (h : a < 0x80) (s : Bytes) :
    scan (a :: s) = (Char.ofNat a.toNat :: (scan s).1, (scan s).2) := by
  rcases s with _ | ⟨b, _ | ⟨c, _ | ⟨d, s⟩⟩⟩ <;> rw [scan] <;> simp [h, scan]

private theorem scan_pair (h : isPair a b = true) (s : Bytes) :
    scan (a :: b :: s) = (pairChar a b :: (scan s).1, (scan s).2) := by
  have ha : ¬a < 0x80 := by
    have hpair := isPair_iff.1 h
    simp only [UInt8.lt_iff_toNat_lt, UInt8.reduceToNat]
    omega
  rcases s with _ | ⟨c, _ | ⟨d, s⟩⟩ <;> rw [scan] <;> simp [ha, h, scan]

private theorem scan_triple (h : isTriple a b c = true) (s : Bytes) :
    scan (a :: b :: c :: s) = (tripleChar a b c :: (scan s).1, (scan s).2) := by
  have htriple := isTriple_iff.1 h
  have ha : ¬a < 0x80 := by
    simp only [UInt8.lt_iff_toNat_lt, UInt8.reduceToNat]
    omega
  have hpair : isPair a b = false := by
    rw [Bool.eq_false_iff]
    intro hp
    have := isPair_iff.1 hp
    omega
  rcases s with _ | ⟨d, s⟩ <;> rw [scan] <;> simp [ha, h, hpair, scan]

private theorem scan_quadruple (h : isQuadruple a b c d = true) (s : Bytes) :
    scan (a :: b :: c :: d :: s) = (quadrupleChar a b c d :: (scan s).1, (scan s).2) := by
  have hquadruple := isQuadruple_iff.1 h
  have ha : ¬a < 0x80 := by
    simp only [UInt8.lt_iff_toNat_lt, UInt8.reduceToNat]
    omega
  have hpair : isPair a b = false := by
    rw [Bool.eq_false_iff]
    intro hp
    have := isPair_iff.1 hp
    omega
  have htriple : isTriple a b c = false := by
    rw [Bool.eq_false_iff]
    intro ht
    have := isTriple_iff.1 ht
    omega
  rw [scan]
  simp [ha, h, hpair, htriple]

/-! ### Encoded characters -/

/-- Which numbers characters have. -/
private theorem toNat_isScalar (c : Char) : c.val.toNat < 0xD800 ∨ (0xDFFF < c.val.toNat ∧ c.val.toNat < 0x110000) :=
  c.valid

private theorem toNat_ofNat {n : Nat} (h : n < 256) : (UInt8.ofNat n).toNat = n :=
  UInt8.toNat_ofNat_of_lt h

/-- The octets of a number that takes two spell it. -/
private theorem pair_of_number {v : Nat} (h : 0x80 ≤ v) (h' : v < 0x800) :
    isPair (.ofNat (v / 64 % 32 + 192)) (.ofNat (v % 64 + 128)) = true ∧
      pairChar (.ofNat (v / 64 % 32 + 192)) (.ofNat (v % 64 + 128)) = Char.ofNat v := by
  have ha : (UInt8.ofNat (v / 64 % 32 + 192)).toNat = v / 64 + 192 := by rw [toNat_ofNat] <;> omega
  have hb : (UInt8.ofNat (v % 64 + 128)).toNat = v % 64 + 128 := toNat_ofNat (by omega)
  constructor
  · rw [isPair_iff, ha, hb]
    omega
  · rw [pairChar, payload, ha, hb]
    congr 1
    omega

/-- A number that takes three octets is none of a surrogate. -/
private theorem triple_of_number {v : Nat} (h : 0x800 ≤ v) (h' : v < 0xD800 ∨ 0xDFFF < v ∧ v < 0x10000) :
    isTriple (.ofNat (v / 4096 % 16 + 224)) (.ofNat (v / 64 % 64 + 128)) (.ofNat (v % 64 + 128)) = true ∧
      tripleChar (.ofNat (v / 4096 % 16 + 224)) (.ofNat (v / 64 % 64 + 128)) (.ofNat (v % 64 + 128)) =
        Char.ofNat v := by
  have ha : (UInt8.ofNat (v / 4096 % 16 + 224)).toNat = v / 4096 + 224 := by rw [toNat_ofNat] <;> omega
  have hb : (UInt8.ofNat (v / 64 % 64 + 128)).toNat = v / 64 % 64 + 128 := toNat_ofNat (by omega)
  have hc : (UInt8.ofNat (v % 64 + 128)).toNat = v % 64 + 128 := toNat_ofNat (by omega)
  constructor
  · rw [isTriple_iff, ha, hb, hc]
    omega
  · rw [tripleChar, payload, payload, ha, hb, hc]
    congr 1
    omega

private theorem quadruple_of_number {v : Nat} (h : 0x10000 ≤ v) (h' : v < 0x110000) :
    isQuadruple (.ofNat (v / 262144 % 8 + 240)) (.ofNat (v / 4096 % 64 + 128)) (.ofNat (v / 64 % 64 + 128))
        (.ofNat (v % 64 + 128)) = true ∧
      quadrupleChar (.ofNat (v / 262144 % 8 + 240)) (.ofNat (v / 4096 % 64 + 128)) (.ofNat (v / 64 % 64 + 128))
        (.ofNat (v % 64 + 128)) = Char.ofNat v := by
  have ha : (UInt8.ofNat (v / 262144 % 8 + 240)).toNat = v / 262144 + 240 := by rw [toNat_ofNat] <;> omega
  have hb : (UInt8.ofNat (v / 4096 % 64 + 128)).toNat = v / 4096 % 64 + 128 := toNat_ofNat (by omega)
  have hc : (UInt8.ofNat (v / 64 % 64 + 128)).toNat = v / 64 % 64 + 128 := toNat_ofNat (by omega)
  have hd : (UInt8.ofNat (v % 64 + 128)).toNat = v % 64 + 128 := toNat_ofNat (by omega)
  constructor
  · rw [isQuadruple_iff, ha, hb, hc, hd]
    omega
  · rw [quadrupleChar, payload, payload, payload, ha, hb, hc, hd]
    congr 1
    omega

theorem scan_utf8EncodeChar_append (c : Char) (s : Bytes) :
    scan (String.utf8EncodeChar c ++ s) = (c :: (scan s).1, (scan s).2) := by
  have hc := toNat_isScalar c
  have hchar : Char.ofNat c.val.toNat = c := Char.ofNat_toNat c
  simp only [String.utf8EncodeChar]
  generalize c.val.toNat = v at hc hchar
  subst hchar
  split
  · have hlt : (UInt8.ofNat v) < 0x80 := by
      rw [UInt8.lt_iff_toNat_lt, toNat_ofNat (by omega)]
      exact Nat.lt_succ_of_le (by assumption)
    rw [List.singleton_append, scan_ascii hlt, toNat_ofNat (by omega)]
  · split
    · obtain ⟨hpair, hback⟩ := @pair_of_number v (by omega) (by omega)
      exact (scan_pair hpair s).trans (by rw [hback])
    · split
      · obtain ⟨htriple, hback⟩ := @triple_of_number v (by omega) (by omega)
        exact (scan_triple htriple s).trans (by rw [hback])
      · obtain ⟨hquadruple, hback⟩ := @quadruple_of_number v (by omega) (by omega)
        exact (scan_quadruple hquadruple s).trans (by rw [hback])

theorem scan_encodeChars (cs : List Char) : scan (encodeChars cs) = (cs, []) := by
  induction cs with
  | nil => simp [encodeChars, scan]
  | cons c cs ih => rw [encodeChars_cons, scan_utf8EncodeChar_append, ih]

/-- Text that has been encoded is read back. -/
theorem decode?_encodeChars (cs : List Char) : decode? (encodeChars cs) = some (String.ofList cs) := by
  rw [decode?, scan_encodeChars]

/-- A character beyond ASCII has no octet of ASCII. -/
theorem le_of_mem_utf8EncodeChar {c : Char} (hc : 128 ≤ c.toNat) {o : UInt8} (h : o ∈ String.utf8EncodeChar c) :
    128 ≤ o.toNat := by
  have hbig : ¬c.val.toNat ≤ 127 := Nat.not_le.2 hc
  have hoctet : ∀ n, 128 ≤ n % 256 → 128 ≤ (UInt8.ofNat n).toNat := fun n hn => by rwa [UInt8.toNat_ofNat']
  simp only [String.utf8EncodeChar, if_neg hbig] at h
  split at h
  · simp only [List.mem_cons, List.not_mem_nil, or_false] at h
    rcases h with rfl | rfl <;> exact hoctet _ (by omega)
  · split at h
    · simp only [List.mem_cons, List.not_mem_nil, or_false] at h
      rcases h with rfl | rfl | rfl <;> exact hoctet _ (by omega)
    · simp only [List.mem_cons, List.not_mem_nil, or_false] at h
      rcases h with rfl | rfl | rfl | rfl <;> exact hoctet _ (by omega)

/-- An octet of ASCII in an encoded text is one of its characters. -/
theorem mem_of_mem_encodeChars {cs : List Char} {o : UInt8} (ho : o.toNat < 128) (h : o ∈ encodeChars cs) :
    Char.ofNat o.toNat ∈ cs := by
  obtain ⟨c, hc, hoc⟩ := List.mem_flatMap.1 h
  by_cases hascii : c.toNat < 128
  · rw [utf8EncodeChar_of_ascii hascii, List.mem_singleton] at hoc
    rwa [hoc, toNat_ofNat (by omega), Char.ofNat_toNat]
  · exact absurd (le_of_mem_utf8EncodeChar (Nat.le_of_not_lt hascii) hoc) (by omega)

/-! ### Octets that are text -/

/-- The octets of the character with a number. -/
private theorem utf8EncodeChar_ofNat {v : Nat} (h : v < 0xD800 ∨ 0xDFFF < v ∧ v < 0x110000) :
    String.utf8EncodeChar (Char.ofNat v) =
      if v < 0x80 then [.ofNat v]
      else if v < 0x800 then [.ofNat (v / 64 % 32 + 192), .ofNat (v % 64 + 128)]
      else if v < 0x10000 then [.ofNat (v / 4096 % 16 + 224), .ofNat (v / 64 % 64 + 128), .ofNat (v % 64 + 128)]
      else
        [.ofNat (v / 262144 % 8 + 240), .ofNat (v / 4096 % 64 + 128), .ofNat (v / 64 % 64 + 128),
          .ofNat (v % 64 + 128)] := by
  have hv : (Char.ofNat v).val.toNat = v := by
    change (Char.ofNat v).toNat = v
    rw [Char.ofNat, dif_pos h]
    rfl
  simp only [String.utf8EncodeChar, hv, ← Nat.lt_succ_iff, Nat.succ_eq_add_one, Nat.reduceAdd]

private theorem utf8EncodeChar_ascii (h : a < 0x80) : String.utf8EncodeChar (Char.ofNat a.toNat) = [a] := by
  have ha : a.toNat < 0x80 := UInt8.lt_iff_toNat_lt.1 h
  rw [utf8EncodeChar_ofNat (by omega), if_pos ha, UInt8.ofNat_toNat]

private theorem utf8EncodeChar_pair (h : isPair a b = true) : String.utf8EncodeChar (pairChar a b) = [a, b] := by
  have hpair := isPair_iff.1 h
  rw [pairChar, payload, utf8EncodeChar_ofNat (by omega), if_neg (by omega), if_pos (by omega)]
  simp only [List.cons.injEq, and_true, ← UInt8.toNat_inj]
  constructor <;> rw [toNat_ofNat (by omega)] <;> omega

private theorem utf8EncodeChar_triple (h : isTriple a b c = true) :
    String.utf8EncodeChar (tripleChar a b c) = [a, b, c] := by
  have htriple := isTriple_iff.1 h
  rw [tripleChar, payload, payload, utf8EncodeChar_ofNat (by omega), if_neg (by omega), if_neg (by omega),
    if_pos (by omega)]
  simp only [List.cons.injEq, and_true, ← UInt8.toNat_inj]
  refine ⟨?_, ?_, ?_⟩ <;> rw [toNat_ofNat (by omega)] <;> omega

private theorem utf8EncodeChar_quadruple (h : isQuadruple a b c d = true) :
    String.utf8EncodeChar (quadrupleChar a b c d) = [a, b, c, d] := by
  have hquadruple := isQuadruple_iff.1 h
  rw [quadrupleChar, payload, payload, payload, utf8EncodeChar_ofNat (by omega), if_neg (by omega),
    if_neg (by omega), if_neg (by omega)]
  simp only [List.cons.injEq, and_true, ← UInt8.toNat_inj]
  refine ⟨?_, ?_, ?_, ?_⟩ <;> rw [toNat_ofNat (by omega)] <;> omega

/-- The characters that are scanned spell the octets before those that are left. -/
theorem encodeChars_scan (s : Bytes) : encodeChars (scan s).1 ++ (scan s).2 = s := by
  have hchar : ∀ {c : Char} {octets r : Bytes} {cs : List Char} {rest : Bytes}, String.utf8EncodeChar c = octets →
      scan r = (cs, rest) → encodeChars (scan r).1 ++ (scan r).2 = r →
        encodeChars (c :: cs) ++ rest = octets ++ r := by
    intro c octets r cs rest hc hscan hr
    rw [hscan] at hr
    rw [encodeChars_cons, hc, List.append_assoc, hr]
  fun_induction scan s with
  | case1 => rfl
  | case2 a r h cs rest hscan ih => exact hchar (utf8EncodeChar_ascii h) hscan ih
  | case3 a h b c d r hpair cs rest hscan ih => exact hchar (utf8EncodeChar_pair hpair) hscan ih
  | case4 a h b c d r hpair htriple cs rest hscan ih => exact hchar (utf8EncodeChar_triple htriple) hscan ih
  | case5 a h b c d r hpair htriple hquadruple cs rest hscan ih =>
    exact hchar (utf8EncodeChar_quadruple hquadruple) hscan ih
  | case7 a h b c hpair cs rest hscan ih => exact hchar (utf8EncodeChar_pair hpair) hscan ih
  | case8 a h b c hpair htriple => exact hchar (utf8EncodeChar_triple htriple) rfl rfl
  | case10 a h b hpair => exact hchar (utf8EncodeChar_pair hpair) rfl rfl
  | case6 | case9 | case11 | case12 => rfl

/-- What is decoded is the text whose encoding the octets are. -/
theorem eq_encodeChars_of_decode? {s : Bytes} {text : String} (h : decode? s = some text) :
    s = encodeChars text.toList := by
  have hscan := encodeChars_scan s
  unfold decode? at h
  split at h
  · next cs heq =>
    rw [heq, List.append_nil] at hscan
    rw [← Option.some.inj h, String.toList_ofList, hscan]
  · cases h

/-- No encoded character is the beginning of another one. -/
theorem utf8EncodeChar_append_inj {c c' : Char} {s s' : Bytes}
    (h : String.utf8EncodeChar c ++ s = String.utf8EncodeChar c' ++ s') : c = c' ∧ s = s' := by
  have hscan := congrArg (fun r => (scan r).1) h
  simp only [scan_utf8EncodeChar_append] at hscan
  obtain rfl := (List.cons.inj hscan).1
  exact ⟨rfl, List.append_cancel_left h⟩

/-- Only the first octet of a character continues nothing. -/
theorem utf8EncodeChar_eq_cons (c : Char) :
    ∃ b bs, String.utf8EncodeChar c = b :: bs ∧ isContinuation b = false ∧ ∀ o ∈ bs, isContinuation o = true := by
  have hc := toNat_isScalar c
  have hnext : ∀ n, isContinuation (.ofNat (n % 64 + 128)) = true := by
    intro n
    rw [isContinuation_iff, toNat_ofNat (by omega)]
    omega
  have hfirst : ∀ n, n < 256 → n < 0x80 ∨ 0xBF < n → isContinuation (.ofNat n) = false := by
    intro n hn hout
    rw [Bool.eq_false_iff, Ne, isContinuation_iff, toNat_ofNat hn]
    omega
  simp only [String.utf8EncodeChar]
  generalize c.val.toNat = v at hc
  split
  · exact ⟨_, _, rfl, hfirst _ (by omega) (by omega), nofun⟩
  · split
    · exact ⟨_, _, rfl, hfirst _ (by omega) (by omega), List.forall_mem_cons.2 ⟨hnext _, nofun⟩⟩
    · split
      · refine ⟨_, _, rfl, hfirst _ (by omega) (by omega), ?_⟩
        exact List.forall_mem_cons.2 ⟨hnext _, List.forall_mem_cons.2 ⟨hnext _, nofun⟩⟩
      · refine ⟨_, _, rfl, hfirst _ (by omega) (by omega), ?_⟩
        exact List.forall_mem_cons.2
          ⟨hnext _, List.forall_mem_cons.2 ⟨hnext _, List.forall_mem_cons.2 ⟨hnext _, nofun⟩⟩⟩

end Utf8

end FailurePipeline
