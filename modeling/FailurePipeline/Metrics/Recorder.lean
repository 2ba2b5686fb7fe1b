import FailurePipeline.Binary64.Basic
import FailurePipeline.Metrics.Event

/-!
# Recorded measurements

A `Recorder` keeps every instrument that has been moved, in the order of first use.  Counters are 64-bit words
and wrap around; a gauge and the records of a histogram are binary64 numbers.
-/

namespace FailurePipeline

namespace Metrics

/-- The value kept under a key, changed, or added at the end. -/
def update {α : Type} (key : Key) (change : Option α → α) : List (Key × α) → List (Key × α)
  | [] => [(key, change none)]
  | (k, a) :: rest => if k = key then (k, change (some a)) :: rest else (k, a) :: update key change rest

def find? {α : Type} (key : Key) : List (Key × α) → Option α
  | [] => none
  | (k, a) :: rest => if k = key then some a else find? key rest

structure Recorder where
  counters : List (Key × Nat) := []
  gauges : List (Key × Nat) := []
  /-- The durations that have been recorded, the latest first. -/
  histograms : List (Key × List Duration) := []
  deriving Repr, DecidableEq, Inhabited

namespace Recorder

/-- Counters are counted modulo this number. -/
def wordSize : Nat := 18446744073709551616

def measure (r : Recorder) : Measurement → Recorder
  | .increment key amount =>
    { r with counters := update key (fun n => ((n.getD 0) + amount) % wordSize) r.counters }
  | .set key value => { r with gauges := update key (fun _ => value) r.gauges }
  | .record key duration => { r with histograms := update key (fun ds => duration :: ds.getD []) r.histograms }

/-- Records what an event moves. -/
def emit (r : Recorder) (e : Event) : Recorder := e.measurements.foldl measure r

/-- The count under a key; one that has never moved counts zero. -/
def count (r : Recorder) (key : Key) : Nat := (find? key r.counters).getD 0

end Recorder

/-- A length of time in seconds. -/
def toSeconds (d : Duration) : Binary64 :=
  Binary64.add (.ofNat d.seconds) (Binary64.divNat (.ofNat d.nanos) 1000000000)

/-- The largest 64-bit word. -/
def maxGauge : Nat := 18446744073709551615

/-- The value of a gauge that was set to a natural number, which it keeps as a binary64 number. -/
def gaugeValue (n : Nat) : Nat :=
  match Binary64.ofNat n with
  | .finite _ m q => min maxGauge ((Binary64.ratio m q).1 / (Binary64.ratio m q).2)
  | _ => maxGauge

end Metrics

end FailurePipeline
