import FailurePipeline.Time.Calendar
import Mathlib.Logic.Function.Basic

/-!
# The calendar names every day

A day is a cycle of 400 years, a year in the cycle and a day in the year (`exists_yearDay`), where years begin in
March.  The date of the day says all three: `toDays` reads them back, so that different days have different dates
(`ofDays_injective`).
-/

namespace FailurePipeline

namespace Date

/-! ### Years of a cycle -/

/-- Days from the beginning of a cycle to the first of March of one of its years. -/
def startOfYear (y : Nat) : Nat := 365 * y + y / 4 - y / 100

private theorem startOfYear_century {c y : Nat} (hy : y < 100) :
    startOfYear (100 * c + y) = 36524 * c + (365 * y + y / 4) := by
  have hcentury : (100 * c + y) / 100 = c := by omega
  have hleap : (100 * c + y) / 4 = 25 * c + y / 4 := by omega
  rw [startOfYear, hcentury, hleap]
  omega

private theorem yearOfCycle_century {c d : Nat} (hc : c < 4) (hd : d < 36524) :
    yearOfCycle (36524 * c + d) = 100 * c + (d - (d + 24 * c) / 1460) / 365 := by
  have hlast : (36524 * c + d) / 146096 = 0 := by omega
  have hcentury : (36524 * c + d) / 36524 = c := by omega
  have hleap : (36524 * c + d) / 1460 = 25 * c + (d + 24 * c) / 1460 := by omega
  rw [yearOfCycle, hlast, hcentury, hleap]
  omega

/-- Leap days are counted early, by 24 days for each century that has passed, and the year is right all the same. -/
private theorem yearOfCentury_bounds {c d y : Nat} (hc : c < 4) (hd : d < 36524)
    (hy : y = (d - (d + 24 * c) / 1460) / 365) :
    y < 100 ∧ 365 * y + y / 4 ≤ d ∧ d < 365 * y + y / 4 + 366 := by
  refine ⟨?_, ?_, ?_⟩ <;> omega

theorem yearOfCycle_bounds {day : Nat} (h : day < 146097) :
    yearOfCycle day < 400 ∧ startOfYear (yearOfCycle day) ≤ day ∧
      day < startOfYear (yearOfCycle day) + 366 := by
  by_cases hlast : day = 146096
  · -- The last day of a cycle is a leap day, the only one at the end of a century.
    subst hlast
    decide
  · have hc : day / 36524 < 4 := by omega
    have hd : day % 36524 < 36524 := by omega
    have hyear := yearOfCycle_century hc hd
    rw [Nat.div_add_mod] at hyear
    obtain ⟨hy, hle, hlt⟩ := yearOfCentury_bounds hc hd rfl
    rw [hyear, startOfYear_century hy]
    omega

/-! ### Days of a year -/

/-- The date of a day of a year, counted from the first of March. -/
def ofYearDay (cycle : Int) (y n : Nat) : Date :=
  let m := (5 * n + 2) / 153
  let month := if m < 10 then m + 3 else m - 9
  { year := cycle * 400 + y + (if month ≤ 2 then 1 else 0)
    month := month
    day := n - (153 * m + 2) / 5 + 1 }

/-- Every day is a day of a year of a cycle, and has its date. -/
theorem exists_yearDay (days : Int) :
    ∃ (cycle : Int) (y n : Nat), ofDays days = ofYearDay cycle y n ∧ y < 400 ∧ n < 366 ∧
      cycle * 146097 + startOfYear y + n = days + epochOffset := by
  have hcycle : (days + epochOffset).fdiv 146097 * 146097 + ((days + epochOffset).fmod 146097).toNat =
      days + epochOffset := by
    rw [Int.fdiv_eq_ediv_of_nonneg _ (by decide), Int.fmod_eq_emod_of_nonneg _ (by decide)]
    omega
  have hday : ((days + epochOffset).fmod 146097).toNat < 146097 := by
    rw [Int.fmod_eq_emod_of_nonneg _ (by decide)]
    omega
  obtain ⟨hy, hle, hlt⟩ := yearOfCycle_bounds hday
  refine ⟨_, _, _, rfl, hy, Nat.sub_lt_left_of_lt_add hle hlt, ?_⟩
  rw [← startOfYear]
  omega

/-- The months from March to the month of a date. -/
def monthsFromMarch (d : Date) : Nat := if d.month ≤ 2 then d.month + 9 else d.month - 3

/-- The year of a date, where years begin in March. -/
def yearFromMarch (d : Date) : Int := if d.month ≤ 2 then d.year - 1 else d.year

/-- The day that has a date. -/
def toDays (d : Date) : Int :=
  d.yearFromMarch / 400 * 146097 + startOfYear (d.yearFromMarch % 400).toNat +
    ((153 * d.monthsFromMarch + 2) / 5 + (d.day - 1) : Nat) - epochOffset

private theorem fromMarch_ofYearDay {n : Nat} (hn : n < 366) (cycle : Int) (y : Nat) :
    (ofYearDay cycle y n).monthsFromMarch = (5 * n + 2) / 153 ∧
      (ofYearDay cycle y n).yearFromMarch = cycle * 400 + y := by
  have hm : (5 * n + 2) / 153 < 12 := by omega
  by_cases hspring : (5 * n + 2) / 153 < 10
  · have hmonth : ¬ (5 * n + 2) / 153 + 3 ≤ 2 := by omega
    simp only [monthsFromMarch, yearFromMarch, ofYearDay, hspring, hmonth, if_true, if_false]
    omega
  · have hmonth : (5 * n + 2) / 153 - 9 ≤ 2 := by omega
    simp only [monthsFromMarch, yearFromMarch, ofYearDay, hspring, hmonth, if_true, if_false]
    omega

theorem toDays_ofYearDay {y n : Nat} (hy : y < 400) (hn : n < 366) (cycle : Int) :
    (ofYearDay cycle y n).toDays = cycle * 146097 + startOfYear y + n - epochOffset := by
  obtain ⟨hmonths, hyears⟩ := fromMarch_ofYearDay hn cycle y
  have hcycle : (cycle * 400 + y) / 400 = cycle := by omega
  have hyear : ((cycle * 400 + y) % 400).toNat = y := by omega
  have hday : (153 * ((5 * n + 2) / 153) + 2) / 5 + ((ofYearDay cycle y n).day - 1) = n := by
    simp only [ofYearDay]
    omega
  rw [toDays, hmonths, hyears, hcycle, hyear, hday]

theorem toDays_ofDays (days : Int) : (ofDays days).toDays = days := by
  obtain ⟨cycle, y, n, hdate, hy, hn, hdays⟩ := exists_yearDay days
  rw [hdate, toDays_ofYearDay hy hn, hdays, Int.add_sub_cancel]

theorem ofDays_injective : Function.Injective ofDays :=
  Function.LeftInverse.injective toDays_ofDays

theorem month_ofDays_lt (days : Int) : (ofDays days).month < 13 := by
  obtain ⟨cycle, y, n, hdate, -, hn, -⟩ := exists_yearDay days
  rw [hdate]
  simp only [ofYearDay]
  split <;> omega

theorem day_ofDays_lt (days : Int) : (ofDays days).day < 32 := by
  obtain ⟨cycle, y, n, hdate, -, hn, -⟩ := exists_yearDay days
  rw [hdate]
  simp only [ofYearDay]
  omega

end Date

end FailurePipeline
