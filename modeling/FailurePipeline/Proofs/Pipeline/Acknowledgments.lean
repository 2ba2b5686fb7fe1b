import FailurePipeline.Proofs.Dispatch.Moves
import FailurePipeline.Proofs.Dispatch.Run
import FailurePipeline.Proofs.Pipeline.Dispatching

/-!
# Acknowledging follows dispatching

The calls of the acknowledger that have been made and the one that the dispatch under way still owes are
together those that the dispatched batches ask for, in the order of the dispatches, as long as the consumer does
not panic (`Acknowledges`).
-/

namespace FailurePipeline

namespace Dispatch

/-- The call of the acknowledger that a dispatch has not made yet. -/
def owed (d : Dispatch) : List (Nat × List Message) :=
  match d.phase with
  | .routing | .calling _ | .acknowledging | .crashed _ => acknowledgmentsOf d.batch
  | .awaiting .. | .counting | .finished => []

private theorem acknowledgmentsOf_of_isEmpty {b : Batch} (h : b.isEmpty = true) : acknowledgmentsOf b = [] := by
  have hnone : b.flagged = [] := by
    cases hf : b.failures <;> simp_all [Batch.isEmpty, Batch.size, Failures.size, Batch.flagged, Failures.flagged]
  simp [acknowledgmentsOf, hnone]

/-- A step of a dispatch makes the call that it owed, or owes it still. -/
theorem step_acknowledgments (d : Dispatch) (s : Surroundings) (w : Workplace) :
    Note.acknowledgments (d.step s w).1.journal ++ (d.step s w).2.owed =
      Note.acknowledgments w.journal ++ d.owed := by
  cases d.step_move s w with
  | idle _ hw hd => rw [hw, hd]
  | skip h he hw hd => simp [hw, hd, owed, h, acknowledgmentsOf_of_isEmpty he]
  | crash p h _ _ hw hd => simp [hw, hd, owed, h]
  | drop h _ _ hw hd => simp [hw, hd, owed, h, Workplace.drop, Workplace.emit]
  | route r h _ _ _ hw hd => simp [hw, hd, owed, h]
  | gather calls h _ hw hd => simp [hw, hd, owed, h]
  | pass h hf hw hd => simp [hw, hd, owed, h, acknowledgmentsOf, hf]
  | acknowledge h hf hw hd =>
    simp [hw, hd, owed, h, acknowledgmentsOf, hf, Workplace.beginAcknowledge, Workplace.note, Note.acknowledgments]
  | answer began call h hw hd =>
    have hremark := Workplace.count_of_remarks fun n
        (hn : n ∈ Workplace.acknowledgeComplaint d.batch (w.acknowledger.outcome call)) =>
      Workplace.isRemark_of_mem_acknowledgeComplaint hn
    simp [hw, hd, owed, h, Workplace.endAcknowledge_journal, (hremark .fallback 0).2.2]
  | count h hw hd => simp [hw, hd, owed, h, Workplace.countProcessed]

private theorem beginCall_acknowledgments (w : Workplace) (seat : Seat) (b : Batch) :
    Note.acknowledgments (w.beginCall seat b).1.journal = Note.acknowledgments w.journal := by
  cases hs : w.registry.get? seat with
  | none => simp [Workplace.beginCall, hs]
  | some h =>
    have hremark := Workplace.count_of_remarks fun n (hn : n ∈ Workplace.openingNotes h b) =>
      Workplace.isRemark_of_mem_openingNotes hn
    have hopen : Note.acknowledgments (.began seat b.id :: Workplace.openingNotes h b) = [] :=
      (hremark seat b.id).2.2
    simp [Workplace.beginCall_eq hs, hopen]

private theorem endCall_acknowledgments (w : Workplace) (s : Surroundings) (seat : Seat) (began call : Nat)
    (b : Batch) :
    Note.acknowledgments (w.endCall s seat began call b).journal = Note.acknowledgments w.journal := by
  obtain ⟨name, hj⟩ := w.endCall_journal s seat call began b
  have hremark := Workplace.count_of_remarks fun n
      (hn : n ∈ Workplace.complaint b name (w.outcome s seat call b)) =>
    Workplace.isRemark_of_mem_complaint hn
  have hend : Note.acknowledgments (.ended seat b.id :: Workplace.complaint b name (w.outcome s seat call b)) =
      [] := (hremark seat b.id).2.2
  simp [hj, hend]

/-- The calls of handlers acknowledge nothing. -/
theorem stepCall_acknowledgments (d : Dispatch) (s : Surroundings) (w : Workplace) (i : Nat) :
    Note.acknowledgments (d.stepCall s w i).1.journal ++ (d.stepCall s w i).2.owed =
      Note.acknowledgments w.journal ++ d.owed := by
  cases d.stepCall_move s w i with
  | idle _ hw hd => rw [hw, hd]
  | begins calls seat h _ hw hd => simp [hw, hd, owed, h, beginCall_acknowledgments]
  | ends calls seat began call h _ _ hw hd => simp [hw, hd, owed, h, endCall_acknowledgments]

end Dispatch

namespace ConsumerPhase

/-- Whether the consumer has panicked. -/
def hasCrashed : ConsumerPhase → Bool
  | .leaving true | .gone true => true
  | _ => false

/-- The call of the acknowledger that the dispatch under way has not made yet. -/
def owed : ConsumerPhase → List (Nat × List Message)
  | .dispatching d _ => d.owed
  | _ => []

end ConsumerPhase

namespace World

variable {w w' : World}

def hasCrashed (w : World) : Bool := w.service.consumer.any (·.hasCrashed)

/-- The call of the acknowledger that the consumer has not made yet. -/
def owed (w : World) : List (Nat × List Message) := (w.service.consumer.map (·.owed)).getD []

def acknowledged (w : World) : List (Nat × List Message) := Note.acknowledgments w.workplace.journal

theorem hasCrashed_of_isFree {p : ConsumerPhase} (hp : w.service.consumer = some p) (hfree : p.IsFree) :
    w.hasCrashed = false := by
  cases p with
  | leaving c | gone c =>
    obtain rfl : c = false := hfree
    simp [hasCrashed, hp, ConsumerPhase.hasCrashed]
  | _ => simp [hasCrashed, hp, ConsumerPhase.hasCrashed]

private theorem owed_of_isFree {p : ConsumerPhase} (hp : w.service.consumer = some p) (hfree : p.IsFree) :
    w.owed = [] := by
  cases p with
  | dispatching d mode =>
    have hd : d.phase = .finished := hfree
    simp [owed, hp, ConsumerPhase.owed, Dispatch.owed, hd]
  | _ => simp [owed, hp, ConsumerPhase.owed]

theorem acknowledged_of_onlyMeasures (h : w.OnlyMeasures w') : w'.acknowledged = w.acknowledged := by
  obtain ⟨recorder, hplace⟩ := h
  rw [acknowledged, acknowledged, hplace]

/-- Until the consumer panics, what has been acknowledged since and what is still owed is what the dispatched
batches ask for. -/
def Acknowledges (before : List (Nat × List Message)) (w : World) : Prop :=
  w.hasCrashed = false → w.acknowledged ++ w.owed = before ++ w.dispatched.flatMap Dispatch.acknowledgmentsOf

namespace Acknowledges

variable {before : List (Nat × List Message)}

theorem fresh (hv : w.service = {}) : Acknowledges w.acknowledged w := by
  intro _
  simp [owed, dispatched, hv]

theorem of_dispatchStep (ha : Acknowledges before w) (h : w.DispatchStep w') : Acknowledges before w' := by
  intro hcalm
  cases h with
  | apart hc hplace hd =>
    have hsame : w'.hasCrashed = w.hasCrashed ∧ w'.owed = w.owed := by
      rcases hc with hc | ⟨hnone, hc⟩
      · simp [hasCrashed, owed, hc]
      · simp [hasCrashed, owed, hc, hnone, ConsumerPhase.hasCrashed, ConsumerPhase.owed]
    rw [acknowledged_of_onlyMeasures hplace, hsame.2, hd]
    exact ha (hsame.1 ▸ hcalm)
  | rest p p' hp hfree hp' hfree' hno hplace hd =>
    have hbefore := ha (hasCrashed_of_isFree hp hfree)
    rw [owed_of_isFree hp hfree] at hbefore
    rw [acknowledged_of_onlyMeasures hplace, owed_of_isFree hp' hfree', hd, hbefore]
  | begins p b mode hp hfree hp' hplace hd =>
    have hbefore := ha (hasCrashed_of_isFree hp hfree)
    have howed : w'.owed = Dispatch.acknowledgmentsOf b := by rw [owed, hp']; rfl
    rw [owed_of_isFree hp hfree, List.append_nil] at hbefore
    rw [acknowledged_of_onlyMeasures hplace, howed, hd, hbefore]
    simp
  | goesOn d mode hp hp' hplace hd =>
    have hbefore := ha (by simp [hasCrashed, hp, ConsumerPhase.hasCrashed])
    rw [owed, hp] at hbefore
    rw [acknowledged, owed, hp', hplace, hd]
    exact (d.step_acknowledgments w.surroundings w.workplace).trans hbefore
  | calls i d mode hp hp' hplace hd =>
    have hbefore := ha (by simp [hasCrashed, hp, ConsumerPhase.hasCrashed])
    rw [owed, hp] at hbefore
    rw [acknowledged, owed, hp', hplace, hd]
    exact (d.stepCall_acknowledgments w.surroundings w.workplace i).trans hbefore
  | panics hp' hplace hd =>
    rcases hp' with hp' | hp' <;> simp [hasCrashed, hp', ConsumerPhase.hasCrashed] at hcalm

theorem step (ha : Acknowledges before w) (hl : Lifecycle w) (a : Action) : Acknowledges before (w.step a) :=
  ha.of_dispatchStep (dispatchStep hl a)

theorem run (ha : Acknowledges before w) (hl : Lifecycle w) (actions : List Action) :
    Acknowledges before (w.run actions) := by
  induction actions generalizing w with
  | nil => exact ha
  | cons a as ih => exact ih (ha.step hl a) (hl.step a)

/-- A consumer that has gone without a panic owes nothing. -/
theorem of_gone (ha : Acknowledges before w) (hgone : w.service.consumer = some (.gone false)) :
    w.acknowledged = before ++ w.dispatched.flatMap Dispatch.acknowledgmentsOf := by
  have howed : w.owed = [] := by simp [owed, hgone, ConsumerPhase.owed]
  have hcrash : w.hasCrashed = false := by simp [hasCrashed, hgone, ConsumerPhase.hasCrashed]
  rw [← ha hcrash, howed, List.append_nil]

end Acknowledges

end World

end FailurePipeline
