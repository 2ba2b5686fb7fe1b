import FailurePipeline.Proofs.Pipeline.Order
import FailurePipeline.Proofs.Service.Lifecycle

/-!
# Steps, seen from the dispatches

What becomes of the dispatched batches depends neither on where they come from nor on what anybody but the consumer
does.  `World.DispatchStep` says all that a step can mean for them (`World.dispatchStep`), so that an invariant
about dispatches has six cases, however many moves a pipeline has.
-/

namespace FailurePipeline

def ConsumerPhase.isDispatching : ConsumerPhase → Bool
  | .dispatching .. => true
  | _ => false

/-- No batch is being dispatched any more, and the consumer has not panicked. -/
def ConsumerPhase.IsFree : ConsumerPhase → Prop
  | .dispatching d _ => d.phase = .finished
  | .leaving crashed | .gone crashed => crashed = false
  | _ => True

namespace World

variable {w w' : World}

/-- Nothing in the workplace has changed but what is measured. -/
def OnlyMeasures (w w' : World) : Prop := ∃ recorder, w'.workplace = { w.workplace with recorder := recorder }

/-- What a step means for dispatches. -/
inductive DispatchStep (w w' : World) : Prop
  /-- The consumer is left alone, or spawned. -/
  | apart
      (hc : w'.service.consumer = w.service.consumer ∨
        w.service.consumer = none ∧ w'.service.consumer = some .launching)
      (hplace : w.OnlyMeasures w') (hd : w'.dispatched = w.dispatched)
  /-- The consumer goes on without a batch. -/
  | rest (p p' : ConsumerPhase) (hp : w.service.consumer = some p) (hfree : p.IsFree)
      (hp' : w'.service.consumer = some p') (hfree' : p'.IsFree) (hno : p'.isDispatching = false)
      (hplace : w.OnlyMeasures w') (hd : w'.dispatched = w.dispatched)
  | begins (p : ConsumerPhase) (b : Batch) (mode : ConsumerMode) (hp : w.service.consumer = some p) (hfree : p.IsFree)
      (hp' : w'.service.consumer = some (.dispatching { batch := b } mode))
      (hplace : w.OnlyMeasures w') (hd : w'.dispatched = w.dispatched ++ [b])
  | goesOn (d : Dispatch) (mode : ConsumerMode) (hp : w.service.consumer = some (.dispatching d mode))
      (hp' : w'.service.consumer = some (.dispatching (d.step w.surroundings w.workplace).2 mode))
      (hplace : w'.workplace = (d.step w.surroundings w.workplace).1) (hd : w'.dispatched = w.dispatched)
  /-- A call of the dispatch goes on. -/
  | calls (i : Nat) (d : Dispatch) (mode : ConsumerMode) (hp : w.service.consumer = some (.dispatching d mode))
      (hp' : w'.service.consumer = some (.dispatching (d.stepCall w.surroundings w.workplace i).2 mode))
      (hplace : w'.workplace = (d.stepCall w.surroundings w.workplace i).1) (hd : w'.dispatched = w.dispatched)
  | panics (hp' : w'.service.consumer = some (.leaving true) ∨ w'.service.consumer = some (.gone true))
      (hplace : w.OnlyMeasures w') (hd : w'.dispatched = w.dispatched)

theorem ConsumerMove.dispatchStep (h : ConsumerMove w w') : w.DispatchStep w' := by
  have hsame : w.OnlyMeasures w := ⟨_, rfl⟩
  have hpolled := dispatched_log w (.polled w.config.shutdownAwait) rfl
  cases h with
  | idle => exact .apart (.inl rfl) hsame rfl
  | launch h | close h => split <;> exact .rest _ _ h trivial rfl trivial rfl hsame rfl
  | seeShutdown asked h hs => exact .rest _ _ h trivial rfl trivial rfl hsame (dispatched_log w .sawShutdown rfl)
  | ask asked h hs =>
    cases asked with
    | false => exact .rest _ _ h trivial rfl trivial rfl hsame (dispatched_log w .asked rfl)
    | true => exact .rest _ _ h trivial rfl trivial rfl hsame rfl
  | receive b q h hs ht =>
    exact .begins _ b _ h trivial rfl ⟨_, rfl⟩ (dispatched_log_both w (.received b) b rfl)
  | hear a steady timed h hs =>
    cases a with
    | batch b => exact .begins _ b _ h trivial rfl hsame (dispatched_log_both w (.received b) b rfl)
    | nothing => exact .rest _ _ h trivial rfl trivial rfl hsame (dispatched_log w .exhausted rfl)
    | panic p => exact .panics (.inl rfl) hsame rfl
  | dispatch d mode h => exact .goesOn d mode h rfl rfl rfl
  | call i d mode h => exact .calls i d mode h rfl rfl rfl
  | goOn d h hd | drainOn d count since h hd => exact .rest _ _ h hd rfl trivial rfl hsame rfl
  | poll count since h hs => exact .rest _ _ h trivial rfl trivial rfl hsame hpolled
  | pollScript a steady timed count since h hs =>
    cases a with
    | batch b =>
      exact .begins _ b _ h trivial rfl hsame
        ((dispatched_log_both _ (.drew b) b rfl).trans (congrArg (· ++ [b]) hpolled))
    | nothing =>
      exact .rest _ _ h trivial rfl trivial rfl hsame ((dispatched_log _ .expired rfl).trans hpolled)
    | panic p => exact .panics (.inl rfl) hsame hpolled
  | pollEnd steady count since h hs =>
    exact .rest _ _ h trivial rfl trivial rfl hsame ((dispatched_log _ .expired rfl).trans hpolled)
  | draw deadline count since b q h ht =>
    exact .begins _ b _ h trivial rfl ⟨_, rfl⟩ (dispatched_log_both w (.drew b) b rfl)
  | expire deadline count since h ht hd =>
    exact .rest _ _ h trivial rfl trivial rfl hsame (dispatched_log w .expired rfl)
  | sum count since h => exact .rest _ _ h trivial rfl rfl rfl ⟨_, rfl⟩ rfl
  | leave crashed h =>
    cases crashed with
    | false => exact .rest _ _ h rfl rfl rfl rfl hsame rfl
    | true => exact .panics (.inr rfl) hsame rfl
  | fall | crash => exact .panics (.inl rfl) hsame rfl
  | wait h | hang _ h | wake h => exact .rest _ _ h trivial rfl trivial rfl hsame rfl

theorem ne_dispatching {p : ConsumerPhase} (hp : w.service.consumer = some p) (hno : p.isDispatching = false)
    (d : Dispatch) (mode : ConsumerMode) : w.service.consumer ≠ some (.dispatching d mode) := by
  intro h
  cases hp.symm.trans h
  simp [ConsumerPhase.isDispatching] at hno

theorem TaskMove.dispatchStep (hl : Lifecycle w) {i : Nat} (h : TaskMove w i w') : w.DispatchStep w' := by
  obtain ⟨-, -, -, hev, hc⟩ := h.frame
  have hd : w'.dispatched = w.dispatched := by rw [dispatched, dispatched, hev]
  exact .apart (hc.imp_right fun hs => ⟨hl.consumer_eq_none hs.1, hs.2⟩) h.workplace hd

/-- All that a step can mean for dispatches. -/
theorem dispatchStep (hl : Lifecycle w) (a : Action) : w.DispatchStep (w.step a) := by
  refine step_cases w a (fun j _ => ?_) (fun _ _ _ h => h.dispatchStep hl) (fun _ _ h => h.dispatchStep)
    fun _ _ _ _ => .apart (.inl rfl) ⟨_, rfl⟩ rfl
  obtain ⟨-, -, -, -, hv, hplace, -⟩ := w.spawn_frame j
  exact .apart (.inl (by rw [hv])) ⟨w.workplace.recorder, hplace⟩ (by rw [dispatched, dispatched, hv])

end World

end FailurePipeline
