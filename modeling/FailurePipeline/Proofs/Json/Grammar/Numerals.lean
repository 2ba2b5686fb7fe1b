import FailurePipeline.Proofs.Json.Grammar
import FailurePipeline.Proofs.Json.Numbers

/-!
# Numerals are read

The reader takes the numerals of the grammar and nothing else, up to where they cannot go on, and refuses those that
are out of range (`Json.readNumber_numeral`, `Json.numeral_of_readNumber`).
-/

namespace FailurePipeline

namespace Json

open Utf8

/-! ### Digits -/

/-- The octet of a digit. -/
def figure (d : Fin 10) : UInt8 := .ofNat (48 + d)

theorem isDigit_figure : ∀ d, isDigit (figure d) = true := by decide

theorem digit_figure : ∀ d, digit (figure d) = d := by decide

theorem eq_figure {b : UInt8} (h : isDigit b = true) : ∃ d, b = figure d := by
  simp only [isDigit, Bool.and_eq_true, decide_eq_true_eq, UInt8.le_iff_toNat_le, UInt8.reduceToNat] at h
  refine ⟨⟨b.toNat - 48, by omega⟩, ?_⟩
  rw [← UInt8.toNat_inj, figure, UInt8.toNat_ofNat_of_lt' (by simp only [UInt8.size]; omega)]
  simp only
  omega

/-- Where no more digits come. -/
def NoDigit (s : Bytes) : Prop := ∀ b r, s = b :: r → isDigit b = false

theorem NumberEnds.noDigit {s : Bytes} (h : NumberEnds s) : NoDigit s := fun b r hs => (h b r hs).1

variable {ds : List (Fin 10)} {rest : Bytes}

theorem encodeChars_digits (ds : List (Fin 10)) :
    encodeChars (ds.map fun d : Fin 10 => Nat.digitChar d) = ds.map figure := by
  have hone : ∀ d : Fin 10, String.utf8EncodeChar (Nat.digitChar d) = [figure d] := by decide +kernel
  induction ds with
  | nil => rfl
  | cons d ds ih => rw [List.map_cons, encodeChars_cons, hone, ih, List.map_cons, List.singleton_append]

theorem map_digit_figure (ds : List (Fin 10)) : (ds.map figure).map digit = ds.map Fin.val := by
  rw [List.map_map]
  exact List.map_congr_left fun d _ => digit_figure d

private theorem isDigit_of_mem {b : UInt8} (h : b ∈ ds.map figure) : isDigit b = true := by
  obtain ⟨d, -, rfl⟩ := List.mem_map.1 h
  exact isDigit_figure d

theorem takeWhile_figures (h : NoDigit rest) : (ds.map figure ++ rest).takeWhile isDigit = ds.map figure := by
  rw [List.takeWhile_append_of_pos fun b hb => isDigit_of_mem hb]
  cases rest with
  | nil => simp
  | cons b r => simp [h b r rfl]

theorem dropWhile_figures (h : NoDigit rest) : (ds.map figure ++ rest).dropWhile isDigit = rest := by
  rw [List.dropWhile_append_of_pos fun b hb => isDigit_of_mem hb]
  cases rest with
  | nil => rfl
  | cons b r => simp [h b r rfl]

/-- Octets are digits and something that does not begin with one. -/
theorem exists_figures (s : Bytes) :
    ∃ (ds : List (Fin 10)) (rest : Bytes), s = ds.map figure ++ rest ∧ NoDigit rest := by
  induction s with
  | nil => exact ⟨[], [], rfl, nofun⟩
  | cons b s ih =>
    cases hb : isDigit b with
    | true =>
      obtain ⟨d, rfl⟩ := eq_figure hb
      obtain ⟨ds, rest, rfl, hrest⟩ := ih
      exact ⟨d :: ds, rest, rfl, hrest⟩
    | false =>
      refine ⟨[], b :: s, rfl, ?_⟩
      rintro _ _ ⟨⟩
      exact hb

/-! ### Exponents -/

private theorem foldl_ge (ds : List (Fin 10)) (n : Nat) :
    n ≤ (ds.map Fin.val).foldl (fun n d => n * 10 + d) n := by
  induction ds generalizing n with
  | nil => exact Nat.le_refl n
  | cons d ds ih => exact Nat.le_trans (by omega) (ih (n * 10 + d))

/-- The digits of an exponent that fits are read to their end; one that does not is given up on the way. -/
private theorem readExponent_figures {n : Nat} (hn : n < exponentLimit) (h : NoDigit rest) :
    ∃ left : List (Fin 10), readExponent n (ds.map figure ++ rest) =
      if (ds.map Fin.val).foldl (fun n d => n * 10 + d) n < exponentLimit then
        (some ((ds.map Fin.val).foldl (fun n d => n * 10 + d) n), rest)
      else (none, left.map figure ++ rest) := by
  induction ds generalizing n with
  | nil =>
    refine ⟨[], ?_⟩
    simp only [List.map_nil, List.foldl_nil, List.nil_append, if_pos hn]
    cases rest with
    | nil => rfl
    | cons b r => simp [readExponent, h b r rfl]
  | cons d ds ih =>
    simp only [List.map_cons, List.cons_append, List.foldl_cons, readExponent, isDigit_figure, digit_figure, if_true]
    by_cases hd : n * 10 + d < exponentLimit
    · rw [if_neg (Nat.not_le.2 hd)]
      exact ih hd
    · have hlarge := Nat.le_trans (Nat.le_of_not_lt hd) (foldl_ge ds (n * 10 + d))
      exact ⟨ds, by rw [if_pos (Nat.le_of_not_lt hd), if_neg (Nat.not_lt.2 hlarge)]⟩

private theorem figure_ne {b : UInt8} (hb : isDigit b = false) (d : Fin 10) : figure d ≠ b := by
  rintro rfl
  exact Bool.false_ne_true (hb.symm.trans (isDigit_figure d))

/-- The exponent part after its `e`, up to the first of its digits. -/
private theorem readScale_figure (negative : Bool) (whole fraction : List Nat) (e : Exponent) (s : Bytes) :
    readScale negative whole fraction (encodeChars (e.sign.map Sign.char).toList ++ figure e.figures.first :: s) =
      match readExponent e.figures.first s with
      | (some k, r) => finishNumber negative whole fraction (if e.isNegative then -(k : Int) else k) r
      | (none, r) =>
        if (significant whole fraction).1 ≠ 0 ∧ e.isNegative = false then .error (faultAt .numberOutOfRange r)
        else .ok (.number ⟨negative, 0, 0⟩, r.dropWhile isDigit) := by
  obtain ⟨capital, sign, f⟩ := e
  have hdigit := isDigit_figure f.first
  have hvalue := digit_figure f.first
  cases sign with
  | none =>
    change readScale negative whole fraction (figure f.first :: s) = _
    unfold readScale
    split
    next down r heq =>
    split at heq
    · next hplus => exact absurd (List.cons.inj hplus).1 (figure_ne rfl f.first)
    · next hminus => exact absurd (List.cons.inj hminus).1 (figure_ne rfl f.first)
    · cases heq
      simp only [hdigit, hvalue, Bool.not_true, Bool.false_eq_true, if_false]
      rcases readExponent f.first s with ⟨_ | k, r⟩ <;> simp [Exponent.isNegative]
  | some sign =>
    cases sign with
    | plus =>
      change readScale negative whole fraction (0x2B :: figure f.first :: s) = _
      simp only [readScale, hdigit, hvalue, Bool.not_true, Bool.false_eq_true, if_false]
      rcases readExponent f.first s with ⟨_ | k, r⟩ <;> simp [Exponent.isNegative]
    | minus =>
      change readScale negative whole fraction (0x2D :: figure f.first :: s) = _
      simp only [readScale, hdigit, hvalue, Bool.not_true, Bool.false_eq_true, if_false]
      rcases readExponent f.first s with ⟨_ | k, r⟩ <;> simp [Exponent.isNegative]

/-- How the parts of a number that have been read come to a number. -/
private theorem finishNumber_scaled (n : Numeral) (e : Int) (s : Bytes) :
    (finishNumber n.negative n.whole.values n.fractionValues e s).toOption =
      (n.scaled? e).map fun x => (.number x, s) := by
  unfold finishNumber Numeral.scaled?
  simp only
  split <;> rfl

private theorem eq_of_finishNumber {negative : Bool} {whole fraction : List Nat} {e : Int} {s r : Bytes} {v : Value}
    (h : finishNumber negative whole fraction e s = .ok (v, r)) : r = s := by
  unfold finishNumber at h
  simp only at h
  split at h
  · cases h
  · cases h
    rfl

theorem encodeChars_figures (f : Figures) : encodeChars f.chars = figure f.first :: f.rest.map figure :=
  encodeChars_digits f.digits

private theorem magnitude_eq (e : Exponent) :
    e.magnitude = (e.figures.rest.map Fin.val).foldl (fun n d => n * 10 + d) (e.figures.first : Nat) := by
  simp [Exponent.magnitude, Figures.values, Figures.digits, Digits.ofDigits]

private theorem readScale_exponent {n : Numeral} {e : Exponent} (he : n.exponent = some e) (h : NoDigit rest) :
    (readScale n.negative n.whole.values n.fractionValues
      (encodeChars (e.sign.map Sign.char).toList ++ (encodeChars e.figures.chars ++ rest))).toOption =
        n.number?.map fun x => (.number x, rest) := by
  have hsmall : (e.figures.first : Nat) < exponentLimit := Nat.lt_trans e.figures.first.isLt (by decide)
  obtain ⟨left, hread⟩ := @readExponent_figures e.figures.rest rest e.figures.first hsmall h
  rw [← magnitude_eq] at hread
  rw [encodeChars_figures, List.cons_append, readScale_figure, hread, Numeral.number?, he]
  by_cases hfits : e.magnitude < exponentLimit
  · simp only [if_pos hfits]
    exact finishNumber_scaled n e.value rest
  · simp only [if_neg hfits, dropWhile_figures h]
    split <;> rfl

/-! ### Numerals -/

/-- Where a numeral goes on no longer. -/
structure Numeral.EndsAt (n : Numeral) (rest : Bytes) : Prop where
  noDigit : NoDigit rest
  noPoint : n.fraction = none → n.exponent = none → ∀ r, rest ≠ 0x2E :: r
  noExponent : n.exponent = none → ∀ b r, rest = b :: r → b ≠ 0x65 ∧ b ≠ 0x45

theorem NumberEnds.endsAt (h : NumberEnds rest) (n : Numeral) : n.EndsAt rest where
  noDigit := h.noDigit
  noPoint _ _ r hr := (h 0x2E r hr).2.1 rfl
  noExponent _ b r hr := (h b r hr).2.2

private theorem readScale?_numeral {n : Numeral} (h : n.EndsAt rest) :
    (readScale? n.negative n.whole.values n.fractionValues (encodeChars n.exponentChars ++ rest)).toOption =
      n.number?.map fun x => (.number x, rest) := by
  unfold Numeral.exponentChars
  cases he : n.exponent with
  | none =>
    have hfinish := finishNumber_scaled n 0 rest
    rw [Numeral.number?, he, ← hfinish]
    cases rest with
    | nil => rfl
    | cons b r =>
      obtain ⟨hlow, hhigh⟩ := h.noExponent he b r rfl
      simp [encodeChars, readScale?, hlow, hhigh]
  | some e =>
    have hletter : ∀ cs, readScale? n.negative n.whole.values n.fractionValues
        (encodeChars ((if e.capital then 'E' else 'e') :: cs) ++ rest) =
          readScale n.negative n.whole.values n.fractionValues (encodeChars cs ++ rest) := by
      intro cs
      cases e.capital <;> rfl
    rw [← readScale_exponent he h.noDigit, ← List.append_assoc, ← encodeChars_append]
    exact congrArg Except.toOption (hletter _)

/-- Neither an exponent part nor what follows a numeral without one begins with a digit or, if there is no fraction,
with a point. -/
private theorem head_exponentChars {n : Numeral} (h : n.EndsAt rest) {b : UInt8} {r : Bytes}
    (heq : encodeChars n.exponentChars ++ rest = b :: r) : isDigit b = false ∧ (n.fraction = none → b ≠ 0x2E) := by
  unfold Numeral.exponentChars at heq
  cases he : n.exponent with
  | none =>
    rw [he] at heq
    have hrest : rest = b :: r := heq
    refine ⟨h.noDigit b r hrest, fun hf hb => h.noPoint hf he r ?_⟩
    rw [hrest, hb]
  | some e =>
    rw [he] at heq
    have hletter : b = 0x45 ∨ b = 0x65 := by
      have hhead := congrArg List.head? heq
      simp only [Exponent.chars] at hhead
      cases hc : e.capital <;> rw [hc] at hhead
      · exact .inr (Option.some.inj hhead).symm
      · exact .inl (Option.some.inj hhead).symm
    rcases hletter with rfl | rfl <;> exact ⟨by decide, fun _ => by decide⟩

private theorem readFraction?_numeral {n : Numeral} (h : n.EndsAt rest) :
    (readFraction? n.negative n.whole.values
      (encodeChars n.fractionChars ++ (encodeChars n.exponentChars ++ rest))).toOption =
        n.number?.map fun x => (.number x, rest) := by
  have hscale := readScale?_numeral h
  have hhead := @head_exponentChars _ _ h
  generalize encodeChars n.exponentChars ++ rest = s at hscale hhead
  rw [← hscale]
  unfold Numeral.fractionChars Numeral.fractionValues
  cases hf : n.fraction with
  | none =>
    change (readFraction? n.negative n.whole.values s).toOption = _
    unfold readFraction?
    split
    · next r => exact absurd rfl ((hhead rfl).2 hf)
    · rfl
  | some f =>
    have hno : NoDigit s := fun b r hs => (hhead hs).1
    have htake := @takeWhile_figures f.digits s hno
    have hdrop := @dropWhile_figures f.digits s hno
    have htext : encodeChars ('.' :: f.chars) ++ s = 0x2E :: (f.digits.map figure ++ s) := by
      rw [encodeChars_cons, Figures.chars, encodeChars_digits]
      rfl
    simp only
    rw [htext]
    simp only [readFraction?, htake, hdrop]
    split
    · next hnil => cases hnil
    · rw [map_digit_figure]
      rfl

/-- A numeral without its sign begins with a digit. -/
theorem encodeChars_unsigned (n : Numeral) (rest : Bytes) :
    encodeChars n.unsigned ++ rest = figure n.whole.first :: (n.whole.rest.map figure ++
      (encodeChars n.fractionChars ++ (encodeChars n.exponentChars ++ rest))) := by
  rw [Numeral.unsigned, encodeChars_append, encodeChars_append, encodeChars_figures]
  simp only [List.cons_append, List.append_assoc]

/-- A numeral is read to its end, if it is in range. -/
theorem readNumber_numeral {n : Numeral} (h : n.EndsAt rest) :
    (readNumber n.negative (encodeChars n.unsigned ++ rest)).toOption = n.number?.map fun x => (.number x, rest) := by
  have hfraction := readFraction?_numeral h
  have hno : NoDigit (encodeChars n.fractionChars ++ (encodeChars n.exponentChars ++ rest)) := by
    unfold Numeral.fractionChars
    cases hf : n.fraction with
    | none => exact fun b r hs => (head_exponentChars h hs).1
    | some f =>
      rintro b r hs
      have hpoint : b = 0x2E := (Option.some.inj (congrArg List.head? hs)).symm
      rw [hpoint]
      rfl
  rw [← hfraction, encodeChars_unsigned]
  generalize encodeChars n.fractionChars ++ (encodeChars n.exponentChars ++ rest) = s at hno
  have htake := @takeWhile_figures n.whole.rest s hno
  have hdrop := @dropWhile_figures n.whole.rest s hno
  simp only [readNumber, isDigit_figure, if_true, htake, hdrop]
  split
  · next hzero =>
    have hfirst : n.whole.first = 0 := by
      have hall : ∀ d : Fin 10, (figure d == 0x30) = true → d = 0 := by decide
      exact hall _ hzero
    have hrest := n.whole.unpadded hfirst
    have hvalues : n.whole.values = [0] := by
      rw [Figures.values, Figures.digits, hfirst, hrest]
      rfl
    rw [hrest, hvalues, List.map_nil, List.nil_append]
    cases s with
    | nil => rfl
    | cons b r => simp [hno b r rfl]
  · rw [map_digit_figure, digit_figure]
    rfl

/-! ### What has been read is a numeral -/

variable {negative : Bool} {whole fraction : List Nat} {s r : Bytes} {v : Value}

private theorem exponent_of_readScale {letter : Bool} (h : readScale negative whole fraction s = .ok (v, r)) :
    ∃ e : Exponent, e.capital = letter ∧
      s = encodeChars (e.sign.map Sign.char).toList ++ (encodeChars e.figures.chars ++ r) ∧ NoDigit r := by
  -- The first digit comes at once or after a sign.
  have hstart : ∃ (sign : Option Sign) (d : Fin 10) (t : Bytes),
      s = encodeChars (sign.map Sign.char).toList ++ figure d :: t := by
    unfold readScale at h
    split at h
    next down t heq =>
    split at h
    · cases h
    next b t =>
    split at h
    · cases h
    next hb =>
    obtain ⟨d, rfl⟩ := eq_figure (by simpa using hb)
    split at heq <;> cases heq
    · exact ⟨some .plus, d, t, rfl⟩
    · exact ⟨some .minus, d, t, rfl⟩
    · exact ⟨none, d, t, rfl⟩
  obtain ⟨sign, d, t, rfl⟩ := hstart
  obtain ⟨ds, rest, rfl, hrest⟩ := exists_figures t
  have hread := readScale_figure negative whole fraction ⟨letter, sign, ⟨d, ds⟩⟩ (ds.map figure ++ rest)
  obtain ⟨left, hexponent⟩ := @readExponent_figures ds rest d (Nat.lt_trans d.isLt (by decide)) hrest
  simp only at hread
  rw [hread, hexponent] at h
  have hr : r = rest := by
    split at h
    · next heq =>
      split at heq <;> cases heq
      exact eq_of_finishNumber h
    · next heq =>
      split at h
      · cases h
      · cases h
        split at heq <;> cases heq
        exact dropWhile_figures hrest
  subst hr
  exact ⟨⟨letter, sign, ⟨d, ds⟩⟩, rfl, by simp [encodeChars_figures], hrest⟩

private theorem exponent_of_readScale? (h : readScale? negative whole fraction s = .ok (v, r)) :
    (s = r ∧ ∀ b t, r = b :: t → b ≠ 0x65 ∧ b ≠ 0x45) ∨
      ∃ e : Exponent, s = encodeChars e.chars ++ r ∧ NoDigit r := by
  unfold readScale? at h
  split at h
  · next b t =>
    split at h
    · next hb =>
      obtain ⟨e, hcapital, rfl, hno⟩ := @exponent_of_readScale _ _ _ _ _ _ (b == 0x45) h
      refine .inr ⟨e, ?_, hno⟩
      have hletter : b = 0x65 ∨ b = 0x45 := by simpa using hb
      rw [Exponent.chars, hcapital, List.cons_append, encodeChars_cons, encodeChars_append, List.append_assoc,
        List.append_assoc]
      rcases hletter with rfl | rfl <;> rfl
    · next hb =>
      obtain rfl := eq_of_finishNumber h
      refine .inl ⟨rfl, ?_⟩
      rintro _ _ ⟨⟩
      simpa using hb
  · obtain rfl := eq_of_finishNumber h
    exact .inl ⟨rfl, nofun⟩

private theorem fraction_of_readFraction? (h : readFraction? negative whole s = .ok (v, r)) :
    (readScale? negative whole [] s = .ok (v, r) ∧ ∀ t, s ≠ 0x2E :: t) ∨
      ∃ (f : Figures) (t : Bytes), s = 0x2E :: (encodeChars f.chars ++ t) ∧ NoDigit t ∧
        readScale? negative whole f.values t = .ok (v, r) := by
  unfold readFraction? at h
  split at h
  · next t =>
    obtain ⟨ds, rest, rfl, hrest⟩ := exists_figures t
    rw [takeWhile_figures hrest, dropWhile_figures hrest] at h
    cases ds with
    | nil =>
      simp only [List.map_nil] at h
      split at h <;> cases h
    | cons d ds =>
      refine .inr ⟨⟨d, ds⟩, rest, ?_, hrest, ?_⟩
      · rw [encodeChars_figures]
        rfl
      · rw [Figures.values, ← map_digit_figure]
        exact h
  · next hpoint => exact .inl ⟨h, fun t ht => hpoint t ht⟩

private theorem whole_of_readNumber (h : readNumber negative s = .ok (v, r)) :
    ∃ (w : Whole) (t : Bytes), s = encodeChars w.chars ++ t ∧ NoDigit t ∧
      readFraction? negative w.values t = .ok (v, r) := by
  unfold readNumber at h
  split at h
  · cases h
  next b t =>
  split at h
  · next hb =>
    obtain rfl := eq_of_beq hb
    refine ⟨⟨⟨0, []⟩, fun _ => rfl⟩, t, rfl, ?_, ?_⟩
    · rintro c t' rfl
      simp only at h
      split at h
      · cases h
      · next hc => simpa using hc
    · split at h
      · split at h
        · cases h
        · exact h
      · exact h
  · next hb =>
    split at h
    · next hdigit =>
      obtain ⟨d, rfl⟩ := eq_figure hdigit
      obtain ⟨ds, rest, rfl, hrest⟩ := exists_figures t
      rw [takeWhile_figures hrest, dropWhile_figures hrest] at h
      have hfirst : d ≠ 0 := by
        rintro rfl
        exact hb rfl
      refine ⟨⟨⟨d, ds⟩, fun h0 => absurd h0 hfirst⟩, rest, ?_, hrest, ?_⟩
      · rw [encodeChars_figures]
        rfl
      · rw [map_digit_figure, digit_figure] at h
        exact h
    · cases h

/-- What is read as a number is a numeral, which goes on no longer. -/
theorem numeral_of_readNumber (h : readNumber negative s = .ok (v, r)) :
    ∃ n : Numeral, n.negative = negative ∧ s = encodeChars n.unsigned ++ r ∧ n.EndsAt r := by
  obtain ⟨w, s, rfl, hw, h⟩ := whole_of_readNumber h
  obtain ⟨h, hpoint⟩ | ⟨f, s, rfl, hf, h⟩ := fraction_of_readFraction? h
  · obtain ⟨rfl, hletter⟩ | ⟨e, rfl, he⟩ := exponent_of_readScale? h
    · refine ⟨⟨negative, w, none, none⟩, rfl, ?_, hw, fun _ _ => hpoint, fun _ => hletter⟩
      simp [Numeral.unsigned, Numeral.fractionChars, Numeral.exponentChars]
    · refine ⟨⟨negative, w, none, some e⟩, rfl, ?_, he, nofun, nofun⟩
      simp [Numeral.unsigned, Numeral.fractionChars, Numeral.exponentChars, encodeChars_append]
  · have hpoint : 0x2E :: encodeChars f.chars = encodeChars ('.' :: f.chars) := rfl
    obtain ⟨rfl, hletter⟩ | ⟨e, rfl, he⟩ := exponent_of_readScale? h
    · refine ⟨⟨negative, w, some f, none⟩, rfl, ?_, hf, nofun, fun _ => hletter⟩
      rw [← List.cons_append, hpoint]
      simp [Numeral.unsigned, Numeral.fractionChars, Numeral.exponentChars, encodeChars_append]
    · refine ⟨⟨negative, w, some f, some e⟩, rfl, ?_, he, nofun, nofun⟩
      rw [← List.cons_append, hpoint]
      simp only [Numeral.unsigned, Numeral.fractionChars, Numeral.exponentChars, encodeChars_append, List.append_assoc]

end Json

end FailurePipeline
