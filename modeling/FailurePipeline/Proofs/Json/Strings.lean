import FailurePipeline.Json.Reader
import FailurePipeline.Proofs.Text.Utf8

/-!
# Strings that are written are read back

A string in quotes is read back whatever characters it has (`Json.readString_quote`): an escape gives its character,
and every octet of a character that stands for itself stands for itself.
-/

namespace FailurePipeline

namespace Json

open Utf8

variable {s octets rest : Bytes} {c : Char}

/-! ### One step of the reader -/

/-- An octet that stands for itself in a string. -/
def IsPlainOctet (b : UInt8) : Prop := b ≠ 0x22 ∧ b ≠ 0x5C ∧ 0x20 ≤ b.toNat

theorem readOctets_plain {b : UInt8} (hb : IsPlainOctet b) (bound : Nat) (s : Bytes) :
    readOctets (bound + 1) (b :: s) = (do
      let (octets, r) ← readOctets bound s
      .ok (b :: octets, r)) := by
  obtain ⟨hquote, hescape, hlow⟩ := hb
  have hcontrol : ¬b < 0x20 := by
    rw [UInt8.lt_iff_toNat_lt]
    exact Nat.not_lt.2 hlow
  have hpiece : readPiece (b :: s) = .ok ([b], s) := by
    unfold readPiece
    split
    · next heq => exact absurd (List.cons.inj heq).1 hescape
    · next heq =>
      cases heq
      rfl
    · next heq => cases heq
  simp only [readOctets, beq_eq_false_iff_ne.2 hquote, hcontrol, hpiece, bind, Except.bind]
  rfl

theorem readOctets_escape (bound : Nat) (e : Bytes) :
    readOctets (bound + 1) (0x5C :: e) = (do
      let (c, s) ← readEscape e
      let (octets, r) ← readOctets bound s
      .ok (String.utf8EncodeChar c ++ octets, r)) := by
  change (readPiece (0x5C :: e) >>= _) = _
  simp only [readPiece, bind, Except.bind]
  cases readEscape e with
  | error fault => rfl
  | ok p => simp only [encodeChars, List.flatMap_singleton]

/-! ### Pieces of a string -/

/-- From here a string ends as `octets`, with `rest` after its closing quote, whenever the bound is large enough. -/
private def EndsAs (s octets rest : Bytes) : Prop :=
  ∀ bound, s.length < bound → readOctets bound s = .ok (octets, rest)

private theorem endsAs_quote (rest : Bytes) : EndsAs (0x22 :: rest) [] rest := by
  intro bound hb
  obtain ⟨bound, rfl⟩ := Nat.exists_eq_succ_of_ne_zero (Nat.ne_zero_of_lt hb)
  rfl

private theorem EndsAs.plain (h : EndsAs s octets rest) {b : UInt8} (hb : IsPlainOctet b) :
    EndsAs (b :: s) (b :: octets) rest := by
  intro bound hbound
  obtain ⟨bound, rfl⟩ := Nat.exists_eq_succ_of_ne_zero (Nat.ne_zero_of_lt hbound)
  have hrest := h bound (by simpa using hbound)
  rw [readOctets_plain hb, hrest]
  rfl

private theorem EndsAs.plain_append (h : EndsAs s octets rest) {bs : Bytes} (hbs : ∀ b ∈ bs, IsPlainOctet b) :
    EndsAs (bs ++ s) (bs ++ octets) rest := by
  induction bs with
  | nil => exact h
  | cons b bs ih =>
    exact (ih fun b' hb' => hbs b' (List.mem_cons_of_mem b hb')).plain (hbs b List.mem_cons_self)

private theorem EndsAs.escape (h : EndsAs s octets rest) {e : Bytes} (he : readEscape e = .ok (c, s))
    (hlen : s.length ≤ e.length) : EndsAs (0x5C :: e) (String.utf8EncodeChar c ++ octets) rest := by
  intro bound hbound
  obtain ⟨bound, rfl⟩ := Nat.exists_eq_succ_of_ne_zero (Nat.ne_zero_of_lt hbound)
  have hrest := h bound (by simp only [List.length_cons] at hbound; omega)
  simp only [readOctets_escape, he, hrest, bind, Except.bind]

/-! ### Characters -/

private theorem readHex_append {n : Nat} (h : readHex s = .ok (n, [])) (rest : Bytes) :
    readHex (s ++ rest) = .ok (n, rest) := by
  unfold readHex at h
  split at h
  · split at h
    · next a b c d s' _ _ _ _ ha hb hc hd =>
      cases h
      simp [readHex, ha, hb, hc, hd]
    · cases h
  · cases h

/-- A control character is spelled by its number. -/
private theorem readEscape_hexadecimal (hc : c.toNat < 32) (s : Bytes) :
    readEscape (0x75 :: encodeChars (Digits.hexadecimal 4 c.toNat) ++ s) = .ok (c, s) := by
  have hall : ∀ n < 32, (readHex (encodeChars (Digits.hexadecimal 4 n))).toOption = some (n, []) := by decide +kernel
  have hread : readHex (encodeChars (Digits.hexadecimal 4 c.toNat)) = .ok (c.toNat, []) := by
    have hn := hall c.toNat hc
    cases hr : readHex (encodeChars (Digits.hexadecimal 4 c.toNat)) with
    | error e => simp [hr, Except.toOption] at hn
    | ok p => simpa [hr, Except.toOption] using hn
  have htrailing : isTrailing c.toNat = false := by
    simp only [isTrailing, Bool.and_eq_false_iff, decide_eq_false_iff_not]
    omega
  have hleading : isLeading c.toNat = false := by
    simp only [isLeading, Bool.and_eq_false_iff, decide_eq_false_iff_not]
    omega
  rw [List.cons_append]
  simp only [readEscape, readHex_append hread s, bind, Except.bind, htrailing, hleading, Char.ofNat_toNat]
  rfl

theorem isPlainOctet_of_mem (hquote : c ≠ '\x22') (hescape : c ≠ '\\') (hlow : ¬c.toNat < 32) {b : UInt8}
    (hb : b ∈ String.utf8EncodeChar c) : IsPlainOctet b := by
  by_cases hascii : c.toNat < 128
  · rw [utf8EncodeChar_of_ascii hascii, List.mem_singleton] at hb
    have hback : b.toNat = c.toNat := by rw [hb, UInt8.toNat_ofNat_of_lt' (Nat.lt_trans hascii (by decide))]
    have hchar : Char.ofNat b.toNat = c := by rw [hback, Char.ofNat_toNat]
    refine ⟨?_, ?_, by omega⟩
    · rintro rfl
      exact hquote hchar.symm
    · rintro rfl
      exact hescape hchar.symm
  · have hbig := le_of_mem_utf8EncodeChar (Nat.le_of_not_lt hascii) hb
    refine ⟨?_, ?_, by omega⟩
    · rintro rfl
      exact absurd hbig (by decide)
    · rintro rfl
      exact absurd hbig (by decide)

/-- However a character is spelled, it is read as itself. -/
private theorem EndsAs.escapeChar (h : EndsAs s octets rest) (c : Char) :
    EndsAs (encodeChars (escapeChar c) ++ s) (String.utf8EncodeChar c ++ octets) rest := by
  have hpair : ∀ {e : Char} {o : UInt8}, encodeChars ['\\', e] = [0x5C, o] → readEscape (o :: s) = .ok (c, s) →
      EndsAs (encodeChars ['\\', e] ++ s) (String.utf8EncodeChar c ++ octets) rest := by
    intro e o hoctets he
    rw [hoctets]
    exact h.escape he (by simp)
  unfold Json.escapeChar
  iterate 7
    split
    · next hc => exact hpair rfl (by rw [hc]; rfl)
  split
  · next hc =>
    have hescape := h.escape (readEscape_hexadecimal hc s) (by simp; omega)
    rwa [encodeChars_cons, encodeChars_cons]
  · next hquote hescape _ _ _ _ _ hlow =>
    rw [encodeChars, List.flatMap_singleton]
    exact h.plain_append fun b hb => isPlainOctet_of_mem hquote hescape hlow hb

private theorem endsAs_quoted (cs : List Char) (rest : Bytes) :
    EndsAs (encodeChars (cs.flatMap escapeChar) ++ 0x22 :: rest) (encodeChars cs) rest := by
  induction cs with
  | nil => exact endsAs_quote rest
  | cons c cs ih =>
    rw [List.flatMap_cons, encodeChars_append, List.append_assoc, encodeChars_cons]
    exact ih.escapeChar c

/-- A string in quotes, without its opening quote. -/
theorem readString_quoted (text : String) (rest : Bytes) :
    readString (encodeChars (text.toList.flatMap escapeChar) ++ 0x22 :: rest) = .ok (text, rest) := by
  have hread := endsAs_quoted text.toList rest _ (Nat.lt_succ_self _)
  simp only [readString, bind, Except.bind, hread, decode?_encodeChars, String.ofList_toList]

theorem le_of_all {cs : List Char} (h : cs.all (32 ≤ ·.toNat) = true) : ∀ c ∈ cs, 32 ≤ c.toNat := fun c hc =>
  of_decide_eq_true (List.all_eq_true.1 h c hc)

/-- No control character stands for itself. -/
theorem le_of_mem_escapeChar {d : Char} (h : d ∈ escapeChar c) : 32 ≤ d.toNat := by
  have hpair : ∀ {e : Char}, d ∈ ['\\', e] → 32 ≤ e.toNat → 32 ≤ d.toNat := by
    intro e hd he
    simp only [List.mem_cons, List.not_mem_nil, or_false] at hd
    rcases hd with rfl | rfl
    · decide
    · exact he
  have hhex : ∀ n < 32, (Digits.hexadecimal 4 n).all (32 ≤ ·.toNat) = true := by decide +kernel
  unfold escapeChar at h
  iterate 7
    split at h
    · exact hpair h (by decide)
  split at h
  · next hlow =>
    rcases List.mem_cons.1 h with rfl | h
    · decide
    · rcases List.mem_cons.1 h with rfl | h
      · decide
      · exact le_of_all (hhex c.toNat hlow) d h
  · next hlow =>
    rw [List.mem_singleton.1 h]
    exact Nat.le_of_not_lt hlow

theorem encodeChars_quote (text : String) :
    encodeChars (quote text) = 0x22 :: encodeChars (text.toList.flatMap escapeChar) ++ [0x22] := by
  rw [quote, List.cons_append, encodeChars_cons, encodeChars_append]
  rfl

end Json

end FailurePipeline
