import FailurePipeline.Proofs.Dispatch.Effects
import FailurePipeline.Proofs.Dispatch.Moves
import FailurePipeline.Proofs.Metrics.Counting

/-!
# What a dispatch counts and measures

Every batch that is not empty counts as processed once, at the end of its dispatch (`step_processed`).  Whatever
a dispatch measures is about handlers, routes, acknowledgments and objects that were kept (`step_measures`).
-/

namespace FailurePipeline

/-- Whether an event is measured by dispatches. -/
def Metrics.Event.isOfDispatch : Metrics.Event → Bool
  | .batchHandled .. | .batchDropped .. | .acknowledged .. | .acknowledgeFailed | .recordsWritten .. => true
  | .queueDepth .. | .batchSubmitted .. | .drained .. | .lineRead .. => false

/-- What has been recorded in between is what dispatches measure. -/
def Workplace.Measures (w w' : Workplace) : Prop :=
  ∃ es : List Metrics.Event, (∀ e ∈ es, e.isOfDispatch = true) ∧ w'.recorder = w.recorder.emitAll es

namespace Workplace

variable {w w' : Workplace}

theorem Measures.of_eq (h : w'.recorder = w.recorder) : Measures w w' := ⟨[], by simp, h⟩

theorem Measures.emit (h : Measures w w') {e : Metrics.Event} (he : e.isOfDispatch = true) :
    Measures w (w'.emit e) := by
  obtain ⟨es, hes, hrec⟩ := h
  refine ⟨es ++ [e], fun e' he' => ?_, ?_⟩
  · rcases List.mem_append.1 he' with he' | he'
    · exact hes e' he'
    · exact List.mem_singleton.1 he' ▸ he
  · rw [Metrics.Recorder.emitAll_append, ← hrec]
    rfl

/-- Dispatches do not measure drains. -/
theorem Measures.batchesDrained (h : Measures w w') :
    w'.recorder.count .batchesDrained = w.recorder.count .batchesDrained := by
  obtain ⟨es, hes, hrec⟩ := h
  rw [hrec]
  refine Metrics.Recorder.batchesDrained_emitAll _ fun e he => ?_
  have hof := hes e he
  cases e <;> simp [Metrics.Event.isOfDispatch, Metrics.Event.isDrained] at hof ⊢

variable (w : Workplace) (s : Surroundings) (seat : Seat) (call began : Nat) (b : Batch)

private theorem perform_measures : Measures w (w.perform s seat call b).1 := by
  have hsame : Measures w w := .of_eq rfl
  simp only [perform]
  split
  · exact hsame
  · split
    · exact hsame
    · exact hsame
    · next k hk =>
      -- A sink measures what it has kept, if the put succeeds.
      rw [Sink.write]
      cases k.store s w.depot b with
      | ok depot => exact ⟨[Sink.written b], by simp [Sink.written, Metrics.Event.isOfDispatch], rfl⟩
      | error e => exact hsame

theorem beginCall_counts :
    (w.beginCall seat b).1.recorder = w.recorder ∧ (w.beginCall seat b).1.stats = w.stats := by
  cases hs : w.registry.get? seat with
  | none => simp [beginCall, hs]
  | some h => simp [beginCall_eq hs]

private theorem judge_recorder (name : String) (o : Outcome HandlerError) :
    (w.judge name b o).1.recorder = w.recorder := by cases o <;> rfl

private theorem endCall_measures : Measures w (w.endCall s seat began call b) := by
  obtain ⟨es, hes, hperform⟩ := perform_measures (w.note (.ended seat b.id)) s seat call b
  exact Measures.emit ⟨es, hes, (judge_recorder ..).trans hperform⟩ rfl

private theorem endAcknowledge_measures : Measures w (w.endAcknowledge call b) := by
  rw [endAcknowledge]
  split <;> exact Measures.emit (.of_eq rfl) rfl

end Workplace

namespace Dispatch

variable (d : Dispatch) (s : Surroundings) (w : Workplace)

theorem step_measures : w.Measures (d.step s w).1 := by
  cases d.step_move s w with
  | idle _ hw | skip _ _ hw | crash _ _ _ _ hw | route _ _ _ _ _ hw | gather _ _ _ hw | pass _ _ hw =>
    exact .of_eq (by rw [hw])
  | drop _ _ _ hw =>
    rw [hw]
    exact Workplace.Measures.emit (.of_eq rfl) rfl
  | answer began call _ hw =>
    rw [hw]
    exact Workplace.endAcknowledge_measures ..
  | acknowledge _ _ hw => exact .of_eq (by rw [hw]; rfl)
  | count _ hw => exact .of_eq (by rw [hw]; rfl)

theorem stepCall_measures (i : Nat) : w.Measures (d.stepCall s w i).1 := by
  cases d.stepCall_move s w i with
  | idle _ hw => exact .of_eq (by rw [hw])
  | begins calls seat _ _ hw => exact .of_eq (by rw [hw, (w.beginCall_counts seat d.batch).1])
  | ends calls seat began call _ _ _ hw =>
    rw [hw]
    exact Workplace.endCall_measures ..

/-- One for a dispatch whose batch will still count as processed. -/
def unprocessed : Nat :=
  match d.phase with
  | .routing => if d.batch.isEmpty then 0 else 1
  | .finished => 0
  | .calling _ | .acknowledging | .awaiting .. | .counting | .crashed _ => 1

/-- A step of a dispatch leaves its batch to be counted, or counts it. -/
theorem step_processed :
    (d.step s w).1.stats.processed + (d.step s w).2.unprocessed = w.stats.processed + d.unprocessed := by
  cases d.step_move s w with
  | idle _ hw hd => rw [hw, hd]
  | skip h he hw hd => simp [hw, hd, unprocessed, h, he]
  | crash p h he _ hw hd => simp [hw, hd, unprocessed, h, he]
  | drop h he _ hw hd => simp [hw, hd, unprocessed, h, he, Workplace.drop, Workplace.emit]
  | route r h he _ _ hw hd => simp [hw, hd, unprocessed, h, he]
  | gather calls h _ hw hd => simp [hw, hd, unprocessed, h]
  | pass h _ hw hd => simp [hw, hd, unprocessed, h]
  | acknowledge h _ hw hd => simp [hw, hd, unprocessed, h, Workplace.beginAcknowledge, Workplace.note]
  | answer began call h hw hd =>
    have hstats : (w.endAcknowledge call d.batch).stats.processed = w.stats.processed := by
      rw [Workplace.endAcknowledge_stats]
      split <;> rfl
    simp [hw, hd, unprocessed, h, hstats]
  | count h hw hd => simp [hw, hd, unprocessed, h, Workplace.countProcessed]

theorem stepCall_processed (i : Nat) :
    (d.stepCall s w i).1.stats.processed + (d.stepCall s w i).2.unprocessed =
      w.stats.processed + d.unprocessed := by
  cases d.stepCall_move s w i with
  | idle _ hw hd => rw [hw, hd]
  | begins calls seat h _ hw hd => simp [hw, hd, unprocessed, h, (w.beginCall_counts seat d.batch).2]
  | ends calls seat began call h _ _ hw hd => simp [hw, hd, unprocessed, h, Workplace.endCall_stats]

end Dispatch

end FailurePipeline
