import FailurePipeline.Text.Digits
import FailurePipeline.Time.Calendar

/-!
# Instants

An `Instant` counts seconds from the beginning of 1970 (UTC) and nanoseconds in the second; nanoseconds from
`10^9` up belong to the leap second that follows, which is shown as the second after: as second 60, where it ends a
minute.  There are three written forms: `rfc3339`, `display` and the `stamp` in the names of dead-letter objects.
-/

namespace FailurePipeline

structure Instant where
  seconds : Int
  nanos : Nat
  deriving Repr, DecidableEq, Inhabited

namespace Instant

def secondsPerDay : Int := 86400

/-- The first second of the year -262143. -/
def minSeconds : Int := -8334601228800

/-- The last second of the year 262142. -/
def maxSeconds : Int := 8210266876799

def isLeap (t : Instant) : Bool := 1000000000 ≤ t.nanos

/-- Whether an instant is a time that a clock can hold: its year has at most six digits, and one leap second at most
follows a second. -/
def isTime (t : Instant) : Bool := minSeconds ≤ t.seconds && t.seconds ≤ maxSeconds && t.nanos < 2000000000

/-- Whether a leap second, if it is one, ends a minute.  A clock can be set to any other leap second too. -/
def endsMinute (t : Instant) : Bool := !t.isLeap || t.seconds.fmod 60 == 59

/-- Whether an instant may be given by its seconds and nanoseconds, which takes only leap seconds that end a minute. -/
def isRepresentable (t : Instant) : Bool := t.isTime && t.endsMinute

def date (t : Instant) : Date := Date.ofDays (t.seconds.fdiv secondsPerDay)

def secondOfDay (t : Instant) : Nat := (t.seconds.fmod secondsPerDay).toNat

def hour (t : Instant) : Nat := t.secondOfDay / 3600

def minute (t : Instant) : Nat := t.secondOfDay / 60 % 60

def second (t : Instant) : Nat := t.secondOfDay % 60 + (if t.isLeap then 1 else 0)

/-- Nanoseconds in the second that is shown. -/
def fraction (t : Instant) : Nat := if t.isLeap then t.nanos - 1000000000 else t.nanos

/-- A year of at least four digits, with its sign unless it has four and is not negative. -/
def yearText (year : Int) : List Char :=
  if year < 0 then '-' :: Digits.padded 4 year.natAbs
  else if 9999 < year then '+' :: Digits.padded 4 year.natAbs
  else Digits.padded 4 year.natAbs

def dateText (t : Instant) : List Char :=
  yearText t.date.year ++ '-' :: Digits.padded 2 t.date.month ++ '-' :: Digits.padded 2 t.date.day

/-- The fewest of 0, 3, 6 and 9 places that show the fraction exactly. -/
def fractionText (nanos : Nat) : List Char :=
  if nanos = 0 then []
  else if nanos % 1000000 = 0 then '.' :: Digits.padded 3 (nanos / 1000000)
  else if nanos % 1000 = 0 then '.' :: Digits.padded 6 (nanos / 1000)
  else '.' :: Digits.padded 9 nanos

def timeText (t : Instant) : List Char :=
  Digits.padded 2 t.hour ++ ':' :: Digits.padded 2 t.minute ++ ':' :: Digits.padded 2 t.second ++
    fractionText t.fraction

/-- The form of records: `2026-03-01T12:30:45.123456Z`. -/
def rfc3339 (t : Instant) : String := String.ofList (t.dateText ++ 'T' :: t.timeText ++ ['Z'])

/-- The form of log lines: `2026-03-01 12:30:45.123456 UTC`. -/
def display (t : Instant) : String := String.ofList (t.dateText ++ ' ' :: t.timeText ++ " UTC".toList)

/-- The form of object names, cut to microseconds: `20260301-123045.123456`. -/
def stamp (t : Instant) : List Char :=
  yearText t.date.year ++ Digits.padded 2 t.date.month ++ Digits.padded 2 t.date.day ++
    '-' :: Digits.padded 2 t.hour ++ Digits.padded 2 t.minute ++ Digits.padded 2 t.second ++
    '.' :: Digits.padded 6 (t.fraction / 1000)

end Instant

end FailurePipeline
