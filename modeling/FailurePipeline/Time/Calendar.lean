/-!
# The Gregorian calendar

Days are counted from the first of January 1970.  The calendar repeats every 400 years, which have 146097
days; a year is taken to begin in March, so that the leap day is its last.
-/

namespace FailurePipeline

structure Date where
  year : Int
  month : Nat
  day : Nat
  deriving Repr, DecidableEq, Inhabited

namespace Date

/-- Days from the first of March of the year 0 to the first of January 1970. -/
def epochOffset : Int := 719468

/-- The year of a 400-year cycle, counted from its first of March, to which a day of the cycle belongs. -/
def yearOfCycle (day : Nat) : Nat := (day - day / 1460 + day / 36524 - day / 146096) / 365

/-- The date of a day. -/
def ofDays (days : Int) : Date :=
  let shifted := days + epochOffset
  let cycle := shifted.fdiv 146097
  let day := (shifted.fmod 146097).toNat
  let y := yearOfCycle day
  let dayOfYear := day - (365 * y + y / 4 - y / 100)
  let m := (5 * dayOfYear + 2) / 153
  let month := if m < 10 then m + 3 else m - 9
  { year := cycle * 400 + y + (if month ≤ 2 then 1 else 0)
    month := month
    day := dayOfYear - (153 * m + 2) / 5 + 1 }

end Date

end FailurePipeline
