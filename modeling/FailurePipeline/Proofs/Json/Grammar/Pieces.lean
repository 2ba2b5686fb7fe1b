import FailurePipeline.Proofs.Json.Grammar
import FailurePipeline.Proofs.Json.Strings

/-!
# Strings are read

The reader takes the strings of the grammar and nothing else, and refuses those in which a surrogate lacks its other
half (`Json.readString_quoted`, `Json.pieces_of_readString`).  It decodes a string only when it has come to its end:
as an escape never stands in the middle of a character, the stretches between escapes are then text one by one.
-/

namespace FailurePipeline

namespace Json

open Utf8

/-! ### Hexadecimal digits -/

private theorem hexDigit?_char (h : HexDigit) :
    ∃ o, String.utf8EncodeChar h.char = [o] ∧ hexDigit? o = some h.value := by
  have hall : ∀ (v : Fin 16) (capital : Bool), (HexDigit.char ⟨v, capital⟩).toNat < 128 ∧
      hexDigit? (.ofNat (HexDigit.char ⟨v, capital⟩).toNat) = some (v : Nat) := by decide +kernel
  obtain ⟨v, capital⟩ := h
  obtain ⟨hascii, hvalue⟩ := hall v capital
  exact ⟨_, utf8EncodeChar_of_ascii hascii, hvalue⟩

private theorem eq_of_hexDigit? {o : UInt8} {n : Nat} (h : hexDigit? o = some n) :
    ∃ d : HexDigit, [o] = String.utf8EncodeChar d.char ∧ n = d.value := by
  have hall : ∀ k : Fin 256, hexDigit? (.ofNat k) = none ∨ ∃ (v : Fin 16) (capital : Bool),
      [UInt8.ofNat k] = String.utf8EncodeChar (HexDigit.char ⟨v, capital⟩) ∧
        hexDigit? (.ofNat k) = some (v : Nat) := by
    decide +kernel
  have hk := hall ⟨o.toNat, o.toNat_lt⟩
  simp only [UInt8.ofNat_toNat, h] at hk
  obtain hk | ⟨v, capital, hchar, hv⟩ := hk
  · cases hk
  · exact ⟨⟨v, capital⟩, hchar, Option.some.inj hv⟩

/-- Four hexadecimal digits are read as what they spell. -/
private theorem readHex_chars (u : CodeUnit) (s : Bytes) : readHex (encodeChars u.chars ++ s) = .ok (u.value, s) := by
  obtain ⟨a, b, c, d⟩ := u
  obtain ⟨oa, ha, va⟩ := hexDigit?_char a
  obtain ⟨ob, hb, vb⟩ := hexDigit?_char b
  obtain ⟨oc, hc, vc⟩ := hexDigit?_char c
  obtain ⟨od, hd, vd⟩ := hexDigit?_char d
  simp [CodeUnit.chars, CodeUnit.value, encodeChars, ha, hb, hc, hd, readHex, va, vb, vc, vd]

private theorem code_of_readHex {s r : Bytes} {n : Nat} (h : readHex s = .ok (n, r)) :
    ∃ u : CodeUnit, s = encodeChars u.chars ++ r ∧ n = u.value := by
  unfold readHex at h
  split at h
  · split at h
    · next na nb nc nd ha hb hc hd =>
      cases h
      obtain ⟨da, ca, rfl⟩ := eq_of_hexDigit? ha
      obtain ⟨db, cb, rfl⟩ := eq_of_hexDigit? hb
      obtain ⟨dc, cc, rfl⟩ := eq_of_hexDigit? hc
      obtain ⟨dd, cd, rfl⟩ := eq_of_hexDigit? hd
      refine ⟨⟨da, db, dc, dd⟩, ?_, rfl⟩
      simp [CodeUnit.chars, encodeChars, ← ca, ← cb, ← cc, ← cd]
    · cases h
  · cases h

/-! ### Characters and escapes -/

private theorem isPlainOctet_of_isPlain {c : Char} (hc : IsPlain c) {b : UInt8} (hb : b ∈ String.utf8EncodeChar c) :
    IsPlainOctet b :=
  isPlainOctet_of_mem hc.2.1 hc.2.2 (Nat.not_lt.2 hc.1) hb

private theorem exists_octet_of_isPlain {c : Char} (hc : IsPlain c) :
    ∃ b bs, String.utf8EncodeChar c = b :: bs ∧ IsPlainOctet b := by
  obtain ⟨b, bs, heq, -⟩ := utf8EncodeChar_eq_cons c
  exact ⟨b, bs, heq, isPlainOctet_of_isPlain hc (heq ▸ List.mem_cons_self)⟩

private theorem readEscape_letter (e : Escape) (s : Bytes) :
    readEscape (encodeChars [e.letter] ++ s) = .ok (e.char, s) := by
  cases e <;> rfl

/-- The second half of a pair stands in the next piece, and is not found in any other. -/
private theorem readTrailing_chars (lead : CodeUnit) (ps : Pieces) (rest : Bytes) :
    (readTrailing lead.value (encodeChars ps.chars ++ 0x22 :: rest)).toOption =
      match ps with
      | .unicode v :: ps =>
        if v.isTrailing then some (lead.pairChar v, encodeChars (Pieces.chars ps) ++ 0x22 :: rest) else none
      | _ => none := by
  cases ps with
  | nil => rfl
  | cons p ps =>
    rw [Pieces.chars, List.flatMap_cons, encodeChars_append, List.append_assoc]
    cases p with
    | plain c hc =>
      obtain ⟨b, bs, heq, hb⟩ := exists_octet_of_isPlain hc
      change (readTrailing lead.value (encodeChars [c] ++ _)).toOption = none
      rw [encodeChars, List.flatMap_singleton, heq, List.cons_append]
      unfold readTrailing
      split
      · rfl
      · next heq => exact absurd (List.cons.inj heq).1 hb.2.1
      · rfl
      · rfl
      · rfl
    | escape e => cases e <;> rfl
    | unicode v =>
      change (readTrailing lead.value (0x5C :: 0x75 :: (encodeChars v.chars ++ _))).toOption = _
      simp only [readTrailing, readHex_chars, bind, Except.bind]
      change (if v.isTrailing then _ else _ : Except Fault (Char × Bytes)).toOption = _
      split <;> rfl

private theorem readEscape_unicode (u : CodeUnit) (s : Bytes) :
    readEscape (0x75 :: (encodeChars u.chars ++ s)) =
      if u.isTrailing then .error (faultAt .loneSurrogate s)
      else if u.isLeading then readTrailing u.value s
      else .ok (Char.ofNat u.value, s) := by
  change (readHex (encodeChars u.chars ++ s) >>= _) = _
  rw [readHex_chars]
  rfl

/-! ### From a piece to the closing quote -/

theorem Pieces.chars_append (ps qs : Pieces) : Pieces.chars (ps ++ qs) = ps.chars ++ qs.chars := List.flatMap_append

theorem toOption_bind {α β : Type} (x : Except Fault α) (f : α → Except Fault β) :
    (x >>= f).toOption = x.toOption.bind fun a => (f a).toOption := by
  cases x <;> rfl

/-- What stands from here to the closing quote is read as this text, if it is one, with `rest` after it. -/
private def ReadsAs (s : Bytes) (text : Option (List Char)) (rest : Bytes) : Prop :=
  ∀ bound, s.length < bound → (readOctets bound s).toOption = text.map fun cs => (encodeChars cs, rest)

variable {s rest : Bytes} {text : Option (List Char)} {c : Char}

private theorem readsAs_quote (rest : Bytes) : ReadsAs (0x22 :: rest) (some []) rest := by
  intro bound hbound
  obtain ⟨bound, rfl⟩ := Nat.exists_eq_succ_of_ne_zero (Nat.ne_zero_of_lt hbound)
  rfl

private theorem readOctets_plain_append {bs : Bytes} (hbs : ∀ b ∈ bs, IsPlainOctet b) (bound : Nat) (s : Bytes) :
    (readOctets (bound + bs.length) (bs ++ s)).toOption =
      (readOctets bound s).toOption.map fun p => (bs ++ p.1, p.2) := by
  induction bs with
  | nil => simp
  | cons b bs ih =>
    rw [List.length_cons, ← Nat.add_assoc, List.cons_append, readOctets_plain (hbs b List.mem_cons_self), toOption_bind,
      ih fun b' hb' => hbs b' (List.mem_cons_of_mem b hb')]
    cases (readOctets bound s).toOption <;> rfl

private theorem ReadsAs.plain (h : ReadsAs s text rest) (hc : IsPlain c) :
    ReadsAs (String.utf8EncodeChar c ++ s) (text.map (c :: ·)) rest := by
  intro bound hbound
  rw [List.length_append] at hbound
  obtain ⟨bound, rfl⟩ : ∃ k, bound = k + (String.utf8EncodeChar c).length :=
    ⟨bound - (String.utf8EncodeChar c).length, by omega⟩
  rw [readOctets_plain_append fun b hb => isPlainOctet_of_isPlain hc hb, h bound (by omega)]
  cases text with
  | none => rfl
  | some cs => simp [encodeChars_cons]

private theorem ReadsAs.escape (h : ReadsAs s text rest) {e : Bytes} (he : (readEscape e).toOption = some (c, s))
    (hlen : s.length ≤ e.length) : ReadsAs (0x5C :: e) (text.map (c :: ·)) rest := by
  intro bound hbound
  obtain ⟨bound, rfl⟩ := Nat.exists_eq_succ_of_ne_zero (Nat.ne_zero_of_lt hbound)
  have hrest := h bound (by simp only [List.length_cons] at hbound; omega)
  rw [readOctets_escape, toOption_bind, he]
  change ((readOctets bound s >>= _).toOption) = _
  rw [toOption_bind, hrest]
  cases text with
  | none => rfl
  | some cs => simp [encodeChars_cons, Except.toOption]

private theorem readsAs_none {e : Bytes} (he : (readEscape e).toOption = none) : ReadsAs (0x5C :: e) none rest := by
  intro bound hbound
  obtain ⟨bound, rfl⟩ := Nat.exists_eq_succ_of_ne_zero (Nat.ne_zero_of_lt hbound)
  rw [readOctets_escape, toOption_bind, he]
  rfl

/-- The text of a piece, with the octets after it. -/
private theorem encodeChars_pieces (p : Piece) (ps : Pieces) (s : Bytes) :
    encodeChars (Pieces.chars (p :: ps)) ++ s = encodeChars p.chars ++ (encodeChars ps.chars ++ s) := by
  rw [Pieces.chars, List.flatMap_cons, encodeChars_append, List.append_assoc]
  rfl

private theorem encodeChars_plain (hc : IsPlain c) : encodeChars (Piece.plain c hc).chars = String.utf8EncodeChar c :=
  List.flatMap_singleton ..

private theorem encodeChars_unicode (u : CodeUnit) (s : Bytes) :
    encodeChars (Piece.unicode u).chars ++ s = 0x5C :: 0x75 :: (encodeChars u.chars ++ s) := rfl

private theorem readsAs_pieces (ps : Pieces) (rest : Bytes) :
    ReadsAs (encodeChars ps.chars ++ 0x22 :: rest) ps.text? rest := by
  -- A leading surrogate takes the unit behind it along; whatever else it meets there ends the reading.
  fun_induction Pieces.text? ps with
  | case1 => exact readsAs_quote rest
  | case2 c hc ps ih =>
    rw [encodeChars_pieces, encodeChars_plain]
    exact ih.plain hc
  | case3 e ps ih =>
    have he : (readEscape (encodeChars [e.letter] ++ (encodeChars (Pieces.chars ps) ++ 0x22 :: rest))).toOption =
        some (e.char, encodeChars (Pieces.chars ps) ++ 0x22 :: rest) := by
      rw [readEscape_letter]
      rfl
    have hbackslash : encodeChars (Piece.escape e).chars = 0x5C :: encodeChars [e.letter] := rfl
    rw [encodeChars_pieces, hbackslash, List.cons_append]
    exact ih.escape he (by simp)
  | case4 u ps hu =>
    rw [encodeChars_pieces, encodeChars_unicode]
    refine readsAs_none ?_
    rw [readEscape_unicode, if_pos hu]
    rfl
  | case5 u htrailing hleading v ps hv ih =>
    rw [encodeChars_pieces, encodeChars_unicode]
    refine ih.escape ?_ ?_
    · rw [readEscape_unicode, if_neg htrailing, if_pos hleading, readTrailing_chars]
      exact if_pos hv
    · rw [encodeChars_pieces]
      simp
      omega
  | case6 u htrailing hleading v ps hv =>
    rw [encodeChars_pieces, encodeChars_unicode]
    refine readsAs_none ?_
    rw [readEscape_unicode, if_neg htrailing, if_pos hleading, readTrailing_chars]
    exact if_neg hv
  | case7 u ps htrailing hleading hps =>
    rw [encodeChars_pieces, encodeChars_unicode]
    refine readsAs_none ?_
    rw [readEscape_unicode, if_neg htrailing, if_pos hleading, readTrailing_chars]
    split
    · next v qs => exact absurd rfl (hps v qs)
    · rfl
  | case8 u ps htrailing hleading ih =>
    rw [encodeChars_pieces, encodeChars_unicode]
    refine ih.escape ?_ (by simp; omega)
    rw [readEscape_unicode, if_neg htrailing, if_neg hleading]
    rfl

/-- A string is read to its closing quote, if its surrogates come in pairs. -/
theorem readString_pieces (ps : Pieces) (rest : Bytes) :
    (readString (encodeChars ps.chars ++ 0x22 :: rest)).toOption =
      ps.text?.map fun cs => (String.ofList cs, rest) := by
  rw [readString, toOption_bind, readsAs_pieces ps rest _ (Nat.lt_succ_self _)]
  cases ps.text? with
  | none => rfl
  | some cs => simp [decode?_encodeChars, Except.toOption]

/-! ### What has been read are pieces -/

variable {r : Bytes}

private theorem unit_of_readTrailing {lead : CodeUnit} (h : readTrailing lead.value s = .ok (c, r)) :
    ∃ v : CodeUnit, s = 0x5C :: 0x75 :: (encodeChars v.chars ++ r) ∧ v.isTrailing = true ∧ c = lead.pairChar v := by
  unfold readTrailing at h
  split at h
  · cases h
  · next s =>
    simp only [bind, Except.bind] at h
    split at h
    · cases h
    next p hread =>
    obtain ⟨v, rfl, hv⟩ := code_of_readHex hread
    split at h
    · next htrailing =>
      obtain ⟨hc, hr⟩ := Prod.mk.inj (Except.ok.inj h)
      rw [hv] at htrailing hc
      exact ⟨v, by rw [hr], htrailing, hc.symm⟩
    · cases h
  · cases h
  · cases h
  · cases h

/-- What follows a backslash is the rest of one piece, or of two for a pair of surrogates. -/
private theorem pieces_of_readEscape (h : readEscape s = .ok (c, r)) :
    ∃ qs : Pieces, 0x5C :: s = encodeChars qs.chars ++ r ∧ ∀ ps, Pieces.text? (qs ++ ps) = ps.text?.map (c :: ·) := by
  cases s with
  | nil => cases h
  | cons b s =>
    by_cases hletter : ∃ e : Escape, encodeChars [e.letter] = [b]
    · obtain ⟨e, he⟩ := hletter
      have hread := readEscape_letter e s
      rw [he, List.singleton_append, h] at hread
      cases hread
      refine ⟨[.escape e], ?_, fun ps => by rw [List.singleton_append, Pieces.text?]⟩
      change 0x5C :: ([b] ++ r) = _
      rw [← he]
      rfl
    · have hno : ∀ (e : Escape) (o : UInt8), encodeChars [e.letter] = [o] → (b == o) = false := by
        intro e o he
        rw [beq_eq_false_iff_ne]
        rintro rfl
        exact hletter ⟨e, he⟩
      simp only [readEscape, hno .quote 0x22 rfl, hno .backslash 0x5C rfl, hno .slash 0x2F rfl, hno .backspace 0x62 rfl,
        hno .formFeed 0x66 rfl, hno .lineFeed 0x6E rfl, hno .carriageReturn 0x72 rfl, hno .tab 0x74 rfl,
        Bool.false_eq_true, if_false] at h
      split at h
      · next hb =>
        obtain rfl := eq_of_beq hb
        simp only [bind, Except.bind] at h
        split at h
        · cases h
        next p hread =>
        obtain ⟨u, rfl, hu⟩ := code_of_readHex hread
        split at h
        · cases h
        next htrailing =>
        split at h
        · next hleading =>
          rw [hu] at htrailing hleading h
          have hno : u.isTrailing ≠ true := htrailing
          have hlead : u.isLeading = true := hleading
          obtain ⟨v, hs, hv, hc⟩ := unit_of_readTrailing h
          refine ⟨[.unicode u, .unicode v], ?_, fun ps => ?_⟩
          · rw [hs, encodeChars_pieces, encodeChars_pieces, encodeChars_unicode, encodeChars_unicode]
            rfl
          · rw [hc, List.cons_append, List.singleton_append, Pieces.text?, if_neg hno, if_pos hlead, if_pos hv]
        · next hleading =>
          obtain ⟨hc, hr⟩ := Prod.mk.inj (Except.ok.inj h)
          rw [hu] at htrailing hleading hc
          have hno : u.isTrailing ≠ true := htrailing
          have hno' : u.isLeading ≠ true := hleading
          refine ⟨[.unicode u], ?_, fun ps => ?_⟩
          · rw [hr, encodeChars_pieces, encodeChars_unicode]
            rfl
          · rw [← hc, List.singleton_append, Pieces.text?.eq_def]
            simp only [if_neg hno, if_neg hno']
      · cases h

private theorem isPlain_of_octet {b : UInt8} {bs : Bytes} (hc : String.utf8EncodeChar c = b :: bs)
    (hb : IsPlainOctet b) : IsPlain c := by
  by_cases hascii : c.toNat < 128
  · rw [utf8EncodeChar_of_ascii hascii] at hc
    obtain rfl := (List.cons.inj hc).1
    obtain ⟨hquote, hescape, hlow⟩ := hb
    rw [UInt8.toNat_ofNat_of_lt' (Nat.lt_trans hascii (by decide))] at hlow
    refine ⟨hlow, ?_, ?_⟩
    · rintro rfl
      exact hquote rfl
    · rintro rfl
      exact hescape rfl
  · refine ⟨by omega, ?_, ?_⟩
    · rintro rfl
      exact hascii (by decide)
    · rintro rfl
      exact hascii (by decide)

/-- A step of the reader: it comes to the closing quote, takes an octet as it is, or replaces an escape. -/
private theorem readOctets_cases {bound : Nat} {octets : Bytes} (h : readOctets (bound + 1) s = .ok (octets, r)) :
    (s = 0x22 :: r ∧ octets = []) ∨
      (∃ b t os, IsPlainOctet b ∧ s = b :: t ∧ readOctets bound t = .ok (os, r) ∧ octets = b :: os) ∨
      (∃ e c t os, s = 0x5C :: e ∧ readEscape e = .ok (c, t) ∧ readOctets bound t = .ok (os, r) ∧
        octets = String.utf8EncodeChar c ++ os) := by
  cases s with
  | nil => cases h
  | cons b t =>
    by_cases hquote : b = 0x22
    · subst hquote
      cases h
      exact .inl ⟨rfl, rfl⟩
    by_cases hescape : b = 0x5C
    · subst hescape
      rw [readOctets_escape] at h
      simp only [bind, Except.bind] at h
      split at h
      · cases h
      next p he =>
      split at h
      · cases h
      next q hrest =>
      cases h
      exact .inr (.inr ⟨t, p.1, p.2, q.1, rfl, he, hrest, rfl⟩)
    by_cases hlow : b < 0x20
    · simp only [readOctets, beq_eq_false_iff_ne.2 hquote, hlow, Bool.false_eq_true, if_false, if_true] at h
      cases h
    · have hb : IsPlainOctet b := ⟨hquote, hescape, Nat.le_of_not_lt fun h => hlow (UInt8.lt_iff_toNat_lt.2 h)⟩
      rw [readOctets_plain hb] at h
      simp only [bind, Except.bind] at h
      split at h
      · cases h
      next q hrest =>
      cases h
      exact .inr (.inl ⟨b, t, q.1, hb, rfl, hrest, rfl⟩)

/-- What has been read up to a closing quote are pieces, after what is left of a character that has begun. -/
private theorem pieces_of_readOctets {bound : Nat} {octets : Bytes} (h : readOctets bound s = .ok (octets, r)) :
    ∀ (tail : Bytes) (cs : List Char), (∀ o ∈ tail, isContinuation o = true) → octets = tail ++ encodeChars cs →
      ∃ ps : Pieces, s = tail ++ (encodeChars ps.chars ++ 0x22 :: r) ∧ ps.text? = some cs := by
  induction bound generalizing s octets with
  | zero => cases h
  | succ bound ih =>
    intro tail cs htail hoctets
    obtain ⟨rfl, rfl⟩ | ⟨b, t, os, hb, rfl, hrest, rfl⟩ | ⟨e, c, t, os, rfl, he, hrest, rfl⟩ := readOctets_cases h
    · obtain ⟨rfl, hnone⟩ := List.append_eq_nil_iff.1 hoctets.symm
      cases cs with
      | nil => exact ⟨[], rfl, rfl⟩
      | cons c cs =>
        obtain ⟨b, bs, hc, -⟩ := utf8EncodeChar_eq_cons c
        rw [encodeChars_cons, hc] at hnone
        cases hnone
    · cases tail with
      | cons o tail =>
        -- The octet continues the character that has begun.
        obtain ⟨rfl, rfl⟩ := List.cons.inj hoctets
        obtain ⟨ps, rfl, htext⟩ := ih hrest tail cs (fun o' ho' => htail o' (List.mem_cons_of_mem _ ho')) rfl
        exact ⟨ps, rfl, htext⟩
      | nil =>
        cases cs with
        | nil => cases hoctets
        | cons c cs =>
          obtain ⟨b', bs, hc, -, hbs⟩ := utf8EncodeChar_eq_cons c
          rw [List.nil_append, encodeChars_cons, hc] at hoctets
          obtain ⟨rfl, rfl⟩ := List.cons.inj hoctets
          obtain ⟨ps, rfl, htext⟩ := ih hrest bs cs hbs rfl
          refine ⟨.plain c (isPlain_of_octet hc hb) :: ps, ?_, ?_⟩
          · rw [encodeChars_pieces, encodeChars_plain, hc]
            rfl
          · rw [Pieces.text?, htext]
            rfl
    · obtain ⟨b', bs, hc, hfirst, -⟩ := utf8EncodeChar_eq_cons c
      cases tail with
      | cons o tail =>
        rw [hc] at hoctets
        obtain ⟨rfl, -⟩ := List.cons.inj hoctets
        exact absurd (htail b' List.mem_cons_self) (by rw [hfirst]; exact Bool.false_ne_true)
      | nil =>
        cases cs with
        | nil =>
          rw [hc] at hoctets
          cases hoctets
        | cons c' cs =>
          rw [List.nil_append, encodeChars_cons] at hoctets
          obtain ⟨rfl, rfl⟩ := utf8EncodeChar_append_inj hoctets
          obtain ⟨ps, rfl, htext⟩ := ih hrest [] cs (List.forall_mem_nil _) rfl
          obtain ⟨qs, hqs, hall⟩ := pieces_of_readEscape he
          refine ⟨qs ++ ps, ?_, ?_⟩
          · rw [hqs, List.nil_append, List.nil_append, ← List.append_assoc, ← encodeChars_append, Pieces.chars_append]
          · rw [hall, htext]
            rfl

/-- What has been read as a string are pieces. -/
theorem pieces_of_readString {text : String} (h : readString s = .ok (text, r)) :
    ∃ ps : Pieces, s = encodeChars ps.chars ++ 0x22 :: r ∧ ps.text? = some text.toList := by
  simp only [readString, bind, Except.bind] at h
  split at h
  · cases h
  next p hread =>
  split at h
  · next text' hdecode =>
    cases h
    exact pieces_of_readOctets hread [] text.toList (List.forall_mem_nil _) (eq_encodeChars_of_decode? hdecode)
  · cases h

end Json

end FailurePipeline
