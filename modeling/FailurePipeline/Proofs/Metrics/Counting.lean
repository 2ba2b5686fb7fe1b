import FailurePipeline.Metrics.Recorder

/-!
# What events add to counters

A counter grows by what the measurements of an event add under its key, modulo the size of a word; under another
key nothing changes.
-/

namespace FailurePipeline

namespace Metrics

/-- What an event adds to the counter under a key. -/
def Event.additions (key : Key) (e : Event) : List Nat :=
  e.measurements.filterMap fun
    | .increment k n => if k = key then some n else none
    | _ => none

/-- Adds to a count as counters do. -/
def wrapAdd (count n : Nat) : Nat := (count + n) % Recorder.wordSize

theorem find?_update {α : Type} (key k : Key) (change : Option α → α) (kept : List (Key × α)) :
    find? k (update key change kept) = if key = k then some (change (find? key kept)) else find? k kept := by
  induction kept with
  | nil => rfl
  | cons entry rest ih =>
    obtain ⟨k', a⟩ := entry
    by_cases h : k' = key
    · subst h
      by_cases hk : k' = k <;> simp [update, find?, hk]
    · by_cases hk : k' = k
      · subst hk
        simp [update, find?, h, Ne.symm h]
      · simp [update, find?, h, hk, ih]

namespace Recorder

theorem count_increment (r : Recorder) (key k : Key) (n : Nat) :
    (r.measure (.increment k n)).count key = if k = key then wrapAdd (r.count key) n else r.count key := by
  simp only [count, measure, find?_update]
  split
  · next h => simp [h, wrapAdd]
  · rfl

/-- An event adds to a counter what its measurements say, one after the other. -/
theorem count_emit (r : Recorder) (key : Key) (e : Event) :
    (r.emit e).count key = (e.additions key).foldl wrapAdd (r.count key) := by
  rw [emit, Event.additions]
  induction e.measurements generalizing r with
  | nil => rfl
  | cons m ms ih =>
    rw [List.foldl_cons, ih]
    cases m with
    | increment k n =>
      rw [count_increment]
      by_cases h : k = key <;> simp [h]
    | set k n => rfl
    | record k d => rfl

/-- Records what several events move, in order. -/
def emitAll (r : Recorder) (es : List Event) : Recorder := es.foldl emit r

theorem emitAll_append (r : Recorder) (es fs : List Event) : r.emitAll (es ++ fs) = (r.emitAll es).emitAll fs :=
  List.foldl_append

/-- Events that do not move a counter leave it as it is. -/
theorem count_emitAll_of_none (r : Recorder) {key : Key} {es : List Event} (h : ∀ e ∈ es, e.additions key = []) :
    (r.emitAll es).count key = r.count key := by
  induction es generalizing r with
  | nil => rfl
  | cons e es ih =>
    have hfirst : (r.emit e).count key = r.count key := by rw [count_emit, h e List.mem_cons_self]; rfl
    exact (ih (r.emit e) fun e' he' => h e' (List.mem_cons_of_mem e he')).trans hfirst

end Recorder

/-- Whether an event is the end of a drain. -/
def Event.isDrained : Event → Bool
  | .drained .. => true
  | _ => false

private theorem additions_batchesDrained {e : Event} (h : e.isDrained = false) :
    e.additions .batchesDrained = [] := by
  cases e <;> simp [Event.isDrained, Event.additions, Event.measurements, Key.batchesDrained, Key.batchesSubmitted,
    Key.failuresSubmitted, Key.batchesHandled, Key.batchesDropped, Key.messagesAcknowledged, Key.acknowledgeErrors,
    Key.deadLetterRecords, Key.deadLetterOctets, Key.inputLines] at h ⊢

namespace Recorder

/-- Only the end of a drain moves the counter of drained batches. -/
theorem batchesDrained_emitAll (r : Recorder) {es : List Event} (h : ∀ e ∈ es, e.isDrained = false) :
    (r.emitAll es).count .batchesDrained = r.count .batchesDrained :=
  r.count_emitAll_of_none fun e he => additions_batchesDrained (h e he)

theorem batchesDrained_emit (r : Recorder) {e : Event} (h : e.isDrained = false) :
    (r.emit e).count .batchesDrained = r.count .batchesDrained := by
  have hall : ∀ e' ∈ [e], e'.isDrained = false := by simp [h]
  exact r.batchesDrained_emitAll hall

theorem batchesDrained_emit_drained (r : Recorder) (batches : Nat) (d : Duration) :
    (r.emit (.drained batches d)).count .batchesDrained = wrapAdd (r.count .batchesDrained) batches := by
  rw [count_emit]
  rfl

end Recorder

end Metrics

end FailurePipeline
