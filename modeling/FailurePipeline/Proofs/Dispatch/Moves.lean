import FailurePipeline.Dispatch.Basic

/-!
# Moves of a dispatch

All that a step of a dispatch (`StepMove`), or of one of its calls (`CallMove`), can do, with the conditions under
which it is done.  What holds of every step is shown by these cases, and does not open `step` and `stepCall` again.
-/

namespace FailurePipeline

namespace Dispatch

/-- What a step of a dispatch does that is not one of a call. -/
inductive StepMove (s : Surroundings) (w : Workplace) (d : Dispatch) (w' : Workplace) (d' : Dispatch) : Prop
  | idle (hcan : d.canStep s w = false) (hw : w' = w) (hd : d' = d)
  /-- An empty batch needs no handler. -/
  | skip (h : d.phase = .routing) (he : d.batch.isEmpty = true) (hw : w' = w) (hd : d' = { d with phase := .finished })
  /-- A handler panics when it is asked whether it takes the batch. -/
  | crash (p : Panic) (h : d.phase = .routing) (he : d.batch.isEmpty = false)
      (hr : w.registry.resolve d.batch = .error p) (hw : w' = w) (hd : d' = { d with phase := .crashed p })
  | drop (h : d.phase = .routing) (he : d.batch.isEmpty = false) (hr : w.registry.resolve d.batch = .ok .unroutable)
      (hw : w' = w.drop d.batch) (hd : d' = { d with phase := .acknowledging })
  | route (r : Route) (h : d.phase = .routing) (he : d.batch.isEmpty = false)
      (hr : w.registry.resolve d.batch = .ok r) (hne : r ≠ .unroutable) (hw : w' = w)
      (hd : d' = { d with phase := .calling (r.seats.map ({ seat := · })) })
  /-- All calls have ended. -/
  | gather (calls : List Call) (h : d.phase = .calling calls) (hall : ∀ c ∈ calls, c.phase = .ended) (hw : w' = w)
      (hd : d' = { d with phase := .acknowledging })
  /-- There is nothing to acknowledge. -/
  | pass (h : d.phase = .acknowledging) (hf : d.batch.flagged.isEmpty = true) (hw : w' = w)
      (hd : d' = { d with phase := .counting })
  | acknowledge (h : d.phase = .acknowledging) (hf : d.batch.flagged.isEmpty = false)
      (hw : w' = (w.beginAcknowledge d.batch).1)
      (hd : d' = { d with phase := .awaiting s.now (w.beginAcknowledge d.batch).2 })
  /-- The acknowledger answers. -/
  | answer (began call : Nat) (h : d.phase = .awaiting began call) (hw : w' = w.endAcknowledge call d.batch)
      (hd : d' = { d with phase := .counting })
  | count (h : d.phase = .counting) (hw : w' = w.countProcessed) (hd : d' = { d with phase := .finished })

private theorem route_move (d : Dispatch) (s : Surroundings) (w : Workplace) (h : d.phase = .routing) :
    StepMove s w d (d.route w).1 (d.route w).2 := by
  rw [Dispatch.route]
  split
  · next he => exact .skip h he rfl rfl
  · next hno =>
    have he : d.batch.isEmpty = false := by simpa using hno
    split
    · next p hr => exact .crash p h he hr rfl rfl
    · next hr => exact .drop h he hr rfl rfl
    · next r hne hr =>
      have hroutable : r ≠ .unroutable := by
        rintro rfl
        exact hne rfl
      exact .route r h he hr hroutable rfl rfl

theorem step_move (d : Dispatch) (s : Surroundings) (w : Workplace) :
    StepMove s w d (d.step s w).1 (d.step s w).2 := by
  rw [step]
  split
  · next hcan =>
    split
    · next h => exact d.route_move s w h
    · next calls h =>
      have hall : ∀ c ∈ calls, c.phase = .ended := by simpa [canStep, h] using hcan
      exact .gather calls h hall rfl rfl
    · next h =>
      split
      · next hf => exact .pass h hf rfl rfl
      · next hf => exact .acknowledge h (by simpa using hf) rfl rfl
    · next began call h => exact .answer began call h rfl rfl
    · next h => exact .count h rfl rfl
    · next h => simp [canStep, h] at hcan
    · next h => simp [canStep, h] at hcan
  · next hcan => exact .idle (by simpa using hcan) rfl rfl

/-- What a step of the call at a place does. -/
inductive CallMove (s : Surroundings) (w : Workplace) (d : Dispatch) (i : Nat) (w' : Workplace) (d' : Dispatch) : Prop
  | idle (hcan : d.canStepCall s w i = false) (hw : w' = w) (hd : d' = d)
  | begins (calls : List Call) (seat : Seat) (h : d.phase = .calling calls) (hi : calls[i]? = some ⟨seat, .ready⟩)
      (hw : w' = (w.beginCall seat d.batch).1)
      (hd : d' = { d with phase := .calling (calls.set i ⟨seat, .running s.now (w.beginCall seat d.batch).2⟩) })
  | ends (calls : List Call) (seat : Seat) (began call : Nat) (h : d.phase = .calling calls)
      (hi : calls[i]? = some ⟨seat, .running began call⟩)
      (hcan : (⟨seat, .running began call⟩ : Call).canStep s w = true)
      (hw : w' = w.endCall s seat began call d.batch)
      (hd : d' = { d with phase := .calling (calls.set i ⟨seat, .ended⟩) })

theorem stepCall_move (d : Dispatch) (s : Surroundings) (w : Workplace) (i : Nat) :
    CallMove s w d i (d.stepCall s w i).1 (d.stepCall s w i).2 := by
  rw [stepCall]
  split
  · next calls h =>
    split
    · next c hi =>
      split
      · next hcan =>
        obtain ⟨seat, phase⟩ := c
        cases phase with
        | ready => exact .begins calls seat h hi rfl rfl
        | running began call => exact .ends calls seat began call h hi hcan rfl rfl
        | ended => simp [Call.canStep] at hcan
      · next hcan => exact .idle (by simpa [canStepCall, h, hi] using hcan) rfl rfl
    · next hi => exact .idle (by simp [canStepCall, h, hi]) rfl rfl
  · next h =>
    refine .idle ?_ rfl rfl
    unfold canStepCall
    split
    · next calls h' => exact absurd h' (h calls)
    · rfl

end Dispatch

end FailurePipeline
