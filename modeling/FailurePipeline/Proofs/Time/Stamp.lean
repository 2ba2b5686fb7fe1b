import FailurePipeline.Proofs.Text.Numerals
import FailurePipeline.Proofs.Time.Calendar
import FailurePipeline.Time.Instant

/-!
# What a stamp says

The stamp of an instant has parts of a fixed width behind the year, so that each of them can be read back, and the
year shows its sign where it needs more than four digits.  A leap second that ends a minute is the only one that is
shown as 60; any other is shown as the second that follows it, and has the stamp of that second.  But for this, two
times have the same stamp if and only if they are in the same microsecond (`stamp_eq_iff`), and the same text in
records if and only if they are equal (`rfc3339_eq_iff`).
-/

namespace FailurePipeline

namespace Instant

/-- The beginning of the microsecond. -/
def truncated (t : Instant) : Instant := { t with nanos := t.nanos / 1000 * 1000 }

/-- The time that is shown: a leap second within a minute is shown as the second that follows it. -/
def asShown (t : Instant) : Instant :=
  if t.endsMinute then t else { seconds := t.seconds + 1, nanos := t.nanos - 1000000000 }

/-! ### Years -/

private theorem yearText_cases (year : Int) :
    year < 0 ∧ yearText year = '-' :: Digits.padded 4 year.natAbs ∨
      9999 < year ∧ yearText year = '+' :: Digits.padded 4 year.natAbs ∨
        0 ≤ year ∧ yearText year = Digits.padded 4 year.natAbs := by
  unfold yearText
  split
  · next h => exact .inl ⟨h, rfl⟩
  · next h =>
    split
    · next h' => exact .inr (.inl ⟨h', rfl⟩)
    · exact .inr (.inr ⟨by omega, rfl⟩)

theorem yearText_inj {year year' : Int} (h : yearText year = yearText year') : year = year' := by
  have hmarked : ∀ {mark : Char} {n : Nat} {cs : List Char}, mark.isDigit = false →
      mark :: cs ≠ Digits.padded 4 n := by
    intro mark n cs hmark he
    exact Digits.not_mem_padded hmark 4 n (he ▸ List.mem_cons_self)
  rcases yearText_cases year with ⟨hy, hyear⟩ | ⟨hy, hyear⟩ | ⟨hy, hyear⟩ <;>
    rcases yearText_cases year' with ⟨hy', hyear'⟩ | ⟨hy', hyear'⟩ | ⟨hy', hyear'⟩ <;>
    rw [hyear, hyear'] at h
  · have := Digits.padded_inj (List.cons.inj h).2
    omega
  · simp at h
  · exact absurd h (hmarked rfl)
  · simp at h
  · have := Digits.padded_inj (List.cons.inj h).2
    omega
  · exact absurd h (hmarked rfl)
  · exact absurd h.symm (hmarked rfl)
  · exact absurd h.symm (hmarked rfl)
  · have := Digits.padded_inj h
    omega

/-! ### Times of day -/

variable {t t' : Instant}

theorem isTime_iff :
    t.isTime = true ↔ -8334601228800 ≤ t.seconds ∧ t.seconds ≤ 8210266876799 ∧ t.nanos < 2000000000 := by
  simp only [isTime, Bool.and_eq_true, decide_eq_true_eq, and_assoc]
  rfl

theorem endsMinute_eq_false_iff :
    t.endsMinute = false ↔ 1000000000 ≤ t.nanos ∧ t.seconds % 60 ≠ 59 := by
  rw [endsMinute, isLeap, Int.fmod_eq_emod_of_nonneg _ (by decide)]
  simp

theorem isRepresentable_iff : t.isRepresentable = true ↔ t.isTime = true ∧ t.endsMinute = true := Bool.and_eq_true_iff

theorem secondOfDay_of_isLeap (h : t.isRepresentable = true) (hleap : t.isLeap = true) :
    t.secondOfDay % 60 = 59 := by
  have hends : t.seconds % 60 = 59 := by
    by_contra hne
    have hfalse := endsMinute_eq_false_iff.2 ⟨of_decide_eq_true hleap, hne⟩
    exact Bool.noConfusion (hfalse.symm.trans (isRepresentable_iff.1 h).2)
  rw [secondOfDay, secondsPerDay, Int.fmod_eq_emod_of_nonneg _ (by decide)]
  omega

theorem minute_lt (t : Instant) : t.minute < 60 := Nat.mod_lt _ (by decide)

theorem second_lt (t : Instant) : t.second < 61 := by
  rw [second]
  split <;> omega

/-- A leap second shows. -/
theorem isLeap_iff (h : t.isRepresentable = true) : t.isLeap = true ↔ t.second = 60 := by
  cases hleap : t.isLeap with
  | true => simp only [second, hleap, secondOfDay_of_isLeap h hleap, if_true]
  | false =>
    simp only [second, hleap, Bool.false_eq_true, if_false, false_iff]
    omega

theorem nanos_eq (t : Instant) : t.nanos = t.fraction + if t.isLeap then 1000000000 else 0 := by
  cases hleap : t.isLeap with
  | false => simp [fraction, hleap]
  | true =>
    have hnanos : 1000000000 ≤ t.nanos := of_decide_eq_true hleap
    simp only [fraction, hleap, if_true]
    omega

/-- The time of day that is shown tells the second of the day, and whether it is a leap second. -/
theorem eq_of_shown (h : t.isRepresentable = true) (h' : t'.isRepresentable = true) (hhour : t.hour = t'.hour)
    (hminute : t.minute = t'.minute) (hsecond : t.second = t'.second) :
    t.secondOfDay = t'.secondOfDay ∧ t.isLeap = t'.isLeap := by
  have hleap : t.isLeap = t'.isLeap := by
    rw [Bool.eq_iff_iff, isLeap_iff h, isLeap_iff h', hsecond]
  refine ⟨?_, hleap⟩
  rw [second, second, hleap, Nat.add_right_cancel_iff] at hsecond
  rw [hour, hour] at hhour
  rw [minute, minute] at hminute
  omega

/-! ### Stamps -/

theorem seconds_eq_of_date_eq (hdate : t.date = t'.date) (htime : t.secondOfDay = t'.secondOfDay) :
    t.seconds = t'.seconds := by
  have hday := Date.ofDays_injective hdate
  simp only [secondOfDay, secondsPerDay] at hday htime
  rw [Int.fdiv_eq_ediv_of_nonneg _ (by decide), Int.fdiv_eq_ediv_of_nonneg _ (by decide)] at hday
  rw [Int.fmod_eq_emod_of_nonneg _ (by decide), Int.fmod_eq_emod_of_nonneg _ (by decide)] at htime
  omega

/-- The parts of a stamp, read from its end. -/
theorem shown_eq_of_stamp_eq (hstamp : t.stamp = t'.stamp) :
    t.date = t'.date ∧ t.hour = t'.hour ∧ t.minute = t'.minute ∧ t.second = t'.second ∧
      t.fraction / 1000 = t'.fraction / 1000 := by
  have hpoint : ∀ n, '.' ∉ Digits.padded 6 n := Digits.not_mem_padded rfl 6
  have hhyphen : ∀ n, '-' ∉ Digits.padded 2 n := Digits.not_mem_padded rfl 2
  have htwo : ∀ {m n : Nat} {xs ys : List Char}, m < 100 → n < 100 →
      xs ++ Digits.padded 2 m = ys ++ Digits.padded 2 n → xs = ys ∧ m = n := fun hm hn =>
    Digits.eq_of_append_padded (by decide) hm hn
  have hminute : ∀ t : Instant, t.minute < 100 := fun t => Nat.lt_trans t.minute_lt (by decide)
  have hsecond : ∀ t : Instant, t.second < 100 := fun t => Nat.lt_trans t.second_lt (by decide)
  have hmonth : ∀ t : Instant, t.date.month < 100 := fun t => Nat.lt_trans (Date.month_ofDays_lt _) (by decide)
  have hday : ∀ t : Instant, t.date.day < 100 := fun t => Nat.lt_trans (Date.day_ofDays_lt _) (by decide)
  obtain ⟨hstamp, hmicros⟩ := eq_of_append_cons (hpoint _) (hpoint _) hstamp
  obtain ⟨hstamp, hseconds⟩ := htwo (hsecond t) (hsecond t') hstamp
  obtain ⟨hstamp, hminutes⟩ := htwo (hminute t) (hminute t') hstamp
  obtain ⟨hstamp, hhours⟩ := eq_of_append_cons (hhyphen _) (hhyphen _) hstamp
  obtain ⟨hstamp, hdays⟩ := htwo (hday t) (hday t') hstamp
  obtain ⟨hyears, hmonths⟩ := htwo (hmonth t) (hmonth t') hstamp
  have hdate : t.date = t'.date := by
    rw [Date.mk.injEq]
    exact ⟨yearText_inj hyears, hmonths, hdays⟩
  exact ⟨hdate, Digits.padded_inj hhours, hminutes, hseconds, Digits.padded_inj hmicros⟩

theorem stamp_truncated (t : Instant) : t.truncated.stamp = t.stamp := by
  have hnanos : t.truncated.nanos = t.nanos / 1000 * 1000 := rfl
  have hleap : t.truncated.isLeap = t.isLeap := by
    rw [isLeap, isLeap, hnanos]
    exact decide_eq_decide.2 (by omega)
  have hfraction : t.truncated.fraction / 1000 = t.fraction / 1000 := by
    rw [fraction, fraction, hleap, hnanos]
    split <;> omega
  have hsecond : t.truncated.second = t.second := by
    rw [second, hleap]
    rfl
  rw [stamp, hsecond, hfraction]
  rfl

private theorem stamp_eq_iff_of_isRepresentable (h : t.isRepresentable = true) (h' : t'.isRepresentable = true) :
    t.stamp = t'.stamp ↔ t.truncated = t'.truncated := by
  constructor
  · intro hstamp
    obtain ⟨hdate, hhour, hminute, hsecond, hfraction⟩ := shown_eq_of_stamp_eq hstamp
    obtain ⟨htime, hleap⟩ := eq_of_shown h h' hhour hminute hsecond
    have hmicros : t.nanos / 1000 = t'.nanos / 1000 := by
      rw [nanos_eq t, nanos_eq t', hleap]
      split <;> omega
    rw [truncated, truncated, seconds_eq_of_date_eq hdate htime, hmicros]
  · intro htruncated
    rw [← stamp_truncated t, ← stamp_truncated t', htruncated]

/-! ### Leap seconds within a minute -/

/-- What may be given by its seconds and nanoseconds is shown as it is. -/
theorem asShown_of_isRepresentable (h : t.isRepresentable = true) : t.asShown = t := by
  rw [asShown, if_pos (isRepresentable_iff.1 h).2]

/-- The second that follows a leap second within a minute is in the same minute, and not beyond the last one. -/
theorem isRepresentable_asShown (h : t.isTime = true) : t.asShown.isRepresentable = true := by
  cases hends : t.endsMinute with
  | true => rw [asShown, if_pos hends, isRepresentable, h, hends, Bool.and_self]
  | false =>
    have hwithin := endsMinute_eq_false_iff.1 hends
    have hrange := isTime_iff.1 h
    have hnanos : t.asShown.isLeap = false := by
      simp only [asShown, hends, Bool.false_eq_true, if_false, isLeap, decide_eq_false_iff_not]
      omega
    rw [isRepresentable, endsMinute, hnanos, Bool.not_false, Bool.true_or, Bool.and_true, isTime_iff]
    simp only [asShown, hends, Bool.false_eq_true, if_false]
    omega

/-- The next second of a minute is on the same day. -/
private theorem day_of_endsMinute_eq_false (hwithin : t.seconds % 60 ≠ 59) :
    (t.seconds + 1).fdiv secondsPerDay = t.seconds.fdiv secondsPerDay ∧
      ((t.seconds + 1).fmod secondsPerDay).toNat = t.secondOfDay + 1 ∧ t.secondOfDay % 60 < 59 := by
  simp only [secondOfDay, secondsPerDay]
  rw [Int.fdiv_eq_ediv_of_nonneg _ (by decide), Int.fdiv_eq_ediv_of_nonneg _ (by decide),
    Int.fmod_eq_emod_of_nonneg _ (by decide), Int.fmod_eq_emod_of_nonneg _ (by decide)]
  omega

/-- A time and what it is shown as have all parts in common. -/
private theorem parts_asShown (h : t.isTime = true) :
    t.asShown.date = t.date ∧ t.asShown.hour = t.hour ∧ t.asShown.minute = t.minute ∧ t.asShown.second = t.second ∧
      t.asShown.fraction = t.fraction := by
  cases hends : t.endsMinute with
  | true =>
    rw [asShown, if_pos hends]
    exact ⟨rfl, rfl, rfl, rfl, rfl⟩
  | false =>
    obtain ⟨hnanos, hwithin⟩ := endsMinute_eq_false_iff.1 hends
    obtain ⟨hday, htime, hlow⟩ := day_of_endsMinute_eq_false hwithin
    have hshown : t.asShown = ⟨t.seconds + 1, t.nanos - 1000000000⟩ := by
      rw [asShown, hends, if_neg Bool.false_ne_true]
    have hleap : t.isLeap = true := decide_eq_true hnanos
    have hplain : t.asShown.isLeap = false := by
      have hlt := (isTime_iff.1 h).2.2
      simp only [hshown, isLeap, decide_eq_false_iff_not]
      omega
    have hdate : t.asShown.date = t.date := by rw [date, date, hshown, hday]
    have hsecondOfDay : t.asShown.secondOfDay = t.secondOfDay + 1 := by rw [← htime, hshown, secondOfDay]
    have hhour : t.asShown.hour = t.hour := by rw [hour, hour, hsecondOfDay]; omega
    have hminute : t.asShown.minute = t.minute := by rw [minute, minute, hsecondOfDay]; omega
    have hsecond : t.asShown.second = t.second := by
      rw [second, second, hplain, hleap, hsecondOfDay]
      simp only [Bool.false_eq_true, if_false, if_true]
      omega
    have hfraction : t.asShown.fraction = t.fraction := by
      simp only [fraction, hplain, hleap, Bool.false_eq_true, if_false, if_true]
      rw [hshown]
    exact ⟨hdate, hhour, hminute, hsecond, hfraction⟩

theorem stamp_asShown (h : t.isTime = true) : t.asShown.stamp = t.stamp := by
  obtain ⟨hdate, hhour, hminute, hsecond, hfraction⟩ := parts_asShown h
  rw [stamp, stamp, hdate, hhour, hminute, hsecond, hfraction]

/-- Two times have the same stamp if and only if they are shown as times in the same microsecond. -/
theorem stamp_eq_iff (h : t.isTime = true) (h' : t'.isTime = true) :
    t.stamp = t'.stamp ↔ t.asShown.truncated = t'.asShown.truncated := by
  rw [← stamp_asShown h, ← stamp_asShown h']
  exact stamp_eq_iff_of_isRepresentable (isRepresentable_asShown h) (isRepresentable_asShown h')

/-! ### Texts -/

/-- A fraction that is not zero has as many places as it needs. -/
private theorem fractionText_cases {n : Nat} (hn : n < 1000000000) :
    n = 0 ∧ fractionText n = [] ∨ ∃ width k, n = k * 10 ^ (9 - width) ∧
      fractionText n = '.' :: Digits.padded width k ∧ (Digits.padded width k).length = width := by
  unfold fractionText
  split
  · next h => exact .inl ⟨h, rfl⟩
  · split
    · exact .inr ⟨3, n / 1000000, by omega, rfl, Digits.length_padded (by decide) (by omega)⟩
    · split
      · exact .inr ⟨6, n / 1000, by omega, rfl, Digits.length_padded (by decide) (by omega)⟩
      · exact .inr ⟨9, n, by omega, rfl, Digits.length_padded (by decide) hn⟩

theorem fractionText_inj {m n : Nat} (hm : m < 1000000000) (hn : n < 1000000000)
    (h : fractionText m = fractionText n) : m = n := by
  rcases fractionText_cases hm with ⟨rfl, hnone⟩ | ⟨width, k, hvalue, htext, hlength⟩ <;>
    rcases fractionText_cases hn with ⟨rfl, hnone'⟩ | ⟨width', k', hvalue', htext', hlength'⟩
  · rfl
  · simp [hnone, htext'] at h
  · simp [hnone', htext] at h
  · rw [htext, htext', List.cons.injEq] at h
    obtain rfl : width = width' := by rw [← hlength, ← hlength', h.2]
    rw [hvalue, hvalue', Digits.padded_inj h.2]

theorem not_mem_fractionText {mark : Char} (h : mark.isDigit = false) (hpoint : mark ≠ '.') (n : Nat) :
    mark ∉ fractionText n := by
  have hpadded := Digits.not_mem_padded h
  unfold fractionText
  split
  · simp
  · split
    · simp [hpoint, hpadded]
    · split <;> simp [hpoint, hpadded]

/-- The parts of a text, read from its end. -/
private theorem shown_eq_of_rfc3339_eq (h : t.fraction < 1000000000) (h' : t'.fraction < 1000000000)
    (htext : t.rfc3339 = t'.rfc3339) :
    t.date = t'.date ∧ t.hour = t'.hour ∧ t.minute = t'.minute ∧ t.second = t'.second ∧ t.fraction = t'.fraction := by
  have hparts : ∀ t : Instant, t.dateText ++ 'T' :: t.timeText ++ ['Z'] =
      yearText t.date.year ++ '-' :: Digits.padded 2 t.date.month ++ '-' :: Digits.padded 2 t.date.day ++
        'T' :: Digits.padded 2 t.hour ++ ':' :: Digits.padded 2 t.minute ++
        ':' :: (Digits.padded 2 t.second ++ fractionText t.fraction) ++ ['Z'] := by
    intro t
    simp [dateText, timeText]
  have hdigits : ∀ {mark : Char}, mark.isDigit = false → ∀ n, mark ∉ Digits.padded 2 n := fun hmark =>
    Digits.not_mem_padded hmark 2
  have hcolon : ∀ t : Instant, ':' ∉ Digits.padded 2 t.second ++ fractionText t.fraction := by
    intro t hmem
    rcases List.mem_append.1 hmem with hmem | hmem
    · exact hdigits rfl _ hmem
    · exact not_mem_fractionText rfl (by decide) _ hmem
  have hwidth : ∀ t : Instant, (Digits.padded 2 t.second).length = 2 := fun t =>
    Digits.length_padded (by decide) (Nat.lt_trans t.second_lt (by decide))
  -- The fraction has no fixed width, but stands with the seconds behind the last colon.
  have hchars := String.ofList_injective htext
  rw [hparts, hparts] at hchars
  obtain ⟨hchars, hrest⟩ := eq_of_append_cons (hcolon t) (hcolon t') (List.append_inj' hchars rfl).1
  obtain ⟨hseconds, hfractions⟩ := List.append_inj hrest (by rw [hwidth, hwidth])
  obtain ⟨hchars, hminutes⟩ := eq_of_append_cons (hdigits rfl _) (hdigits rfl _) hchars
  obtain ⟨hchars, hhours⟩ := eq_of_append_cons (hdigits rfl _) (hdigits rfl _) hchars
  obtain ⟨hchars, hdays⟩ := eq_of_append_cons (hdigits rfl _) (hdigits rfl _) hchars
  obtain ⟨hyears, hmonths⟩ := eq_of_append_cons (hdigits rfl _) (hdigits rfl _) hchars
  have hdate : t.date = t'.date := by
    rw [Date.mk.injEq]
    exact ⟨yearText_inj hyears, Digits.padded_inj hmonths, Digits.padded_inj hdays⟩
  exact ⟨hdate, Digits.padded_inj hhours, Digits.padded_inj hminutes, Digits.padded_inj hseconds,
    fractionText_inj h h' hfractions⟩

private theorem fraction_lt (h : t.isTime = true) : t.fraction < 1000000000 := by
  have hlt := (isTime_iff.1 h).2.2
  unfold fraction isLeap
  split
  · omega
  · next hleap => simpa using hleap

theorem rfc3339_asShown (h : t.isTime = true) : t.asShown.rfc3339 = t.rfc3339 := by
  obtain ⟨hdate, hhour, hminute, hsecond, hfraction⟩ := parts_asShown h
  rw [rfc3339, rfc3339, dateText, dateText, timeText, timeText, hdate, hhour, hminute, hsecond, hfraction]

/-- The text of a record tells the time that is shown, to the nanosecond. -/
theorem rfc3339_eq_iff (h : t.isTime = true) (h' : t'.isTime = true) :
    t.rfc3339 = t'.rfc3339 ↔ t.asShown = t'.asShown := by
  rw [← rfc3339_asShown h, ← rfc3339_asShown h']
  have hshown := isRepresentable_asShown h
  have hshown' := isRepresentable_asShown h'
  generalize t.asShown = u at hshown ⊢
  generalize t'.asShown = u' at hshown' ⊢
  refine ⟨fun htext => ?_, fun hsame => hsame ▸ rfl⟩
  have hlt := fraction_lt (isRepresentable_iff.1 hshown).1
  have hlt' := fraction_lt (isRepresentable_iff.1 hshown').1
  obtain ⟨hdate, hhour, hminute, hsecond, hfraction⟩ := shown_eq_of_rfc3339_eq hlt hlt' htext
  obtain ⟨htime, hleap⟩ := eq_of_shown hshown hshown' hhour hminute hsecond
  rw [Instant.mk.injEq, nanos_eq u, nanos_eq u', hfraction, hleap]
  exact ⟨seconds_eq_of_date_eq hdate htime, rfl⟩

end Instant

end FailurePipeline
