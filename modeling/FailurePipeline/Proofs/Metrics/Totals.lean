import FailurePipeline.Proofs.Metrics.Counting
import Mathlib.Algebra.GroupWithZero.Nat

/-!
# Totals of counters

What several events add to all the counters under some keys together is a plain sum (`Metrics.amounts`).  The total
of these counters in a recorder that has recorded the events is the same sum, as long as that fits into a word
(`Recorder.total_emitAll`): then none of the counters has wrapped around.
-/

namespace FailurePipeline

namespace Metrics

/-- What an event adds to counters. -/
def Event.increments (e : Event) : List (Key × Nat) :=
  e.measurements.filterMap fun
    | .increment k n => some (k, n)
    | _ => none

/-- The sum of the counts under some keys. -/
def sumWhere (p : Key → Bool) (counts : List (Key × Nat)) : Nat :=
  (counts.map fun c => if p c.1 then c.2 else 0).sum

/-- What an event adds to the counters under some keys together. -/
def Event.amount (p : Key → Bool) (e : Event) : Nat := sumWhere p e.increments

/-- What events add to the counters under some keys together. -/
def amounts (p : Key → Bool) (es : List Event) : Nat := (es.map (Event.amount p)).sum

/-- The sum of the counters under some keys. -/
def Recorder.total (r : Recorder) (p : Key → Bool) : Nat := sumWhere p r.counters

/-! ### Counters that never wrap around -/

/-- Adds to a count, of whatever size. -/
private def addTo (counts : List (Key × Nat)) (c : Key × Nat) : List (Key × Nat) :=
  update c.1 (fun n => n.getD 0 + c.2) counts

/-- Adds to a count modulo the size of a word. -/
private def wrapTo (counts : List (Key × Nat)) (c : Key × Nat) : List (Key × Nat) :=
  update c.1 (fun n => (n.getD 0 + c.2) % Recorder.wordSize) counts

private def wrap (c : Key × Nat) : Key × Nat := (c.1, c.2 % Recorder.wordSize)

private theorem sumWhere_addTo (p : Key → Bool) (counts : List (Key × Nat)) (c : Key × Nat) :
    sumWhere p (addTo counts c) = sumWhere p counts + if p c.1 then c.2 else 0 := by
  induction counts with
  | nil => simp [addTo, update, sumWhere]
  | cons first rest ih =>
    simp only [addTo, update]
    split
    · next h =>
      simp only [sumWhere, List.map_cons, List.sum_cons, Option.getD_some, h]
      split <;> omega
    · simp only [addTo, sumWhere] at ih
      simp only [sumWhere, List.map_cons, List.sum_cons, ih]
      omega

private theorem sumWhere_foldl_addTo (p : Key → Bool) (cs counts : List (Key × Nat)) :
    sumWhere p (cs.foldl addTo counts) = sumWhere p counts + sumWhere p cs := by
  induction cs generalizing counts with
  | nil => rfl
  | cons c cs ih =>
    rw [List.foldl_cons, ih, sumWhere_addTo]
    simp only [sumWhere, List.map_cons, List.sum_cons]
    omega

/-- Wrapping around at once or in the end comes to the same. -/
private theorem wrapTo_map_wrap (counts : List (Key × Nat)) (c : Key × Nat) :
    wrapTo (counts.map wrap) c = (addTo counts c).map wrap := by
  induction counts with
  | nil => simp [wrapTo, addTo, update, wrap]
  | cons first rest ih =>
    simp only [wrapTo, addTo, update, List.map_cons, wrap] at ih ⊢
    split
    · simp [wrap, Nat.mod_add_mod]
    · simp [wrap, ih]

private theorem foldl_wrapTo (cs counts : List (Key × Nat)) :
    cs.foldl wrapTo (counts.map wrap) = (cs.foldl addTo counts).map wrap := by
  induction cs generalizing counts with
  | nil => rfl
  | cons c cs ih => rw [List.foldl_cons, wrapTo_map_wrap, ih, List.foldl_cons]

/-- A sum that fits into a word is a sum of counts that do. -/
private theorem sumWhere_map_wrap {p : Key → Bool} {counts : List (Key × Nat)}
    (h : sumWhere p counts < Recorder.wordSize) : sumWhere p (counts.map wrap) = sumWhere p counts := by
  induction counts with
  | nil => rfl
  | cons c rest ih =>
    simp only [sumWhere, List.map_cons, List.sum_cons] at h ih ⊢
    rw [ih (by omega)]
    cases hp : p c.1 with
    | false => simp [wrap, hp]
    | true =>
      have hfits : c.2 < Recorder.wordSize := by
        rw [if_pos hp] at h
        omega
      simp [wrap, hp, Nat.mod_eq_of_lt hfits]

/-! ### Recorders -/

namespace Recorder

private theorem counters_emit (r : Recorder) (e : Event) :
    (r.emit e).counters = e.increments.foldl wrapTo r.counters := by
  rw [emit, Event.increments]
  induction e.measurements generalizing r with
  | nil => rfl
  | cons m ms ih =>
    rw [List.foldl_cons, ih]
    cases m <;> rfl

private theorem counters_emitAll (r : Recorder) (es : List Event) :
    (r.emitAll es).counters = (es.flatMap Event.increments).foldl wrapTo r.counters := by
  induction es generalizing r with
  | nil => rfl
  | cons e es ih =>
    have hrest := ih (r.emit e)
    rw [counters_emit, ← List.foldl_append] at hrest
    exact hrest

private theorem sumWhere_flatMap (p : Key → Bool) (es : List Event) :
    sumWhere p (es.flatMap Event.increments) = amounts p es := by
  induction es with
  | nil => rfl
  | cons e es ih =>
    rw [List.flatMap_cons, amounts, List.map_cons, List.sum_cons]
    rw [amounts] at ih
    rw [← ih]
    simp [sumWhere, Event.amount]

/-- The counters under some keys add up to what the events have added, if that fits into a word. -/
theorem total_emitAll {p : Key → Bool} {es : List Event} (h : amounts p es < wordSize) :
    (emitAll {} es).total p = amounts p es := by
  have hsum : sumWhere p ((es.flatMap Event.increments).foldl addTo []) = amounts p es := by
    rw [sumWhere_foldl_addTo, sumWhere_flatMap]
    exact Nat.zero_add _
  rw [total, counters_emitAll]
  have hwrapped := foldl_wrapTo (es.flatMap Event.increments) []
  rw [List.map_nil] at hwrapped
  rw [hwrapped, sumWhere_map_wrap (by rwa [hsum]), hsum]

private theorem foldl_wrapAdd (count : Nat) (ns : List Nat) (hc : count < wordSize) :
    ns.foldl wrapAdd count = (count + ns.sum) % wordSize := by
  induction ns generalizing count with
  | nil => simp [Nat.mod_eq_of_lt hc]
  | cons n ns ih =>
    have hfits : wrapAdd count n < wordSize := Nat.mod_lt _ (by decide)
    rw [List.foldl_cons, ih _ hfits, wrapAdd, List.sum_cons, Nat.mod_add_mod, Nat.add_assoc]

private theorem sum_additions (key : Key) (e : Event) : (e.additions key).sum = e.amount (· == key) := by
  unfold Event.additions Event.amount Event.increments sumWhere
  induction e.measurements with
  | nil => rfl
  | cons m ms ih =>
    cases m with
    | increment k n => by_cases hk : k = key <;> simp [hk, ih]
    | set k n => simpa using ih
    | record k d => simpa using ih

private theorem count_emitAll_mod (r : Recorder) (key : Key) (es : List Event) (hr : r.count key < wordSize) :
    (r.emitAll es).count key = (r.count key + amounts (· == key) es) % wordSize := by
  induction es generalizing r with
  | nil => simpa [amounts, emitAll] using (Nat.mod_eq_of_lt hr).symm
  | cons e es ih =>
    have hfirst : (r.emit e).count key = (r.count key + e.amount (· == key)) % wordSize := by
      rw [count_emit, foldl_wrapAdd _ _ hr, sum_additions]
    have hrest := ih (r.emit e) (by rw [hfirst]; exact Nat.mod_lt _ (by decide))
    rw [hfirst, Nat.mod_add_mod, Nat.add_assoc] at hrest
    exact hrest

/-- A counter is what the events have added to it, if that fits into a word. -/
theorem count_emitAll {key : Key} {es : List Event} (h : amounts (· == key) es < wordSize) :
    (emitAll {} es).count key = amounts (· == key) es := by
  have hzero : ({} : Recorder).count key = 0 := rfl
  have hmod := count_emitAll_mod {} key es (by rw [hzero]; decide)
  rw [hzero, Nat.zero_add, Nat.mod_eq_of_lt h] at hmod
  exact hmod

end Recorder

end Metrics

end FailurePipeline
