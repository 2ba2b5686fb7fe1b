import FailurePipeline.Proofs.Pipeline.Order
import FailurePipeline.Proofs.Pipeline.Provenance
import Mathlib.Data.List.Perm.Basic

/-!
# Who gets the batches of the queue

Every batch that the queue has delivered was dispatched by the consumer or is the answer of a task that asked for
one, and the consumer has dispatched those that it got in the order in which they came (`Hands`).
-/

namespace FailurePipeline

/-- The batch that a task has received. -/
def TaskPhase.taken? : TaskPhase → Option Batch
  | .finished (.batch b) => b
  -- A task that is over without a batch gets none any more; the others may.
  | .finished _ | .abandoned => none
  | _ => none

/-- Where a place that gave nothing is set, what it gives now comes in addition. -/
private theorem perm_filterMap_set {α β : Type} {l : List α} {i : Nat} {a : α} (hi : l[i]? = some a) (a' : α)
    {f : α → Option β} (ha : f a = none) : ((l.set i a').filterMap f).Perm (l.filterMap f ++ (f a').toList) := by
  obtain ⟨hlt, hget⟩ := List.getElem?_eq_some_iff.1 hi
  have hsplit : l = l.take i ++ a :: l.drop (i + 1) := by
    rw [← hget, List.getElem_cons_drop, List.take_append_drop]
  have hset : l.set i a' = l.take i ++ a' :: l.drop (i + 1) := List.set_eq_take_append_cons_drop.trans (if_pos hlt)
  have hold : l.filterMap f = (l.take i).filterMap f ++ (l.drop (i + 1)).filterMap f := by
    conv_lhs => rw [hsplit]
    rw [List.filterMap_append, List.filterMap_cons_none ha]
  have hnew : (l.set i a').filterMap f =
      (l.take i).filterMap f ++ ((f a').toList ++ (l.drop (i + 1)).filterMap f) := by
    rw [hset, List.filterMap_append]
    cases h : f a' with
    | none => rw [List.filterMap_cons_none h]; rfl
    | some b => rw [List.filterMap_cons_some h]; rfl
  rw [hold, hnew, List.append_assoc]
  exact List.perm_append_comm.append_left _

namespace World

/-- The batches that tasks have received. -/
def taken (w : World) : List Batch := w.tasks.filterMap TaskPhase.taken?

variable {w w' : World} {before : List Batch} {jobs : List Job}

/-- What the queue has delivered, it has delivered to the consumer, in the order of its dispatches, and to
tasks. -/
structure Hands (before : List Batch) (w : World) : Prop where
  source : w.source = .queue
  order : (before ++ w.dispatched).Sublist w.queue.delivered
  shared : w.queue.delivered.Perm (before ++ w.dispatched ++ w.taken)

namespace Hands

theorem fresh (hs : w.source = .queue) (hv : w.service = {}) (ht : w.tasks = []) :
    Hands w.queue.delivered w := by
  have hnone : w.dispatched = [] := by simp [dispatched, hv]
  constructor
  · exact hs
  · simp [hnone]
  · simp [hnone, taken, ht]

private theorem of_quiet (hh : Hands before w) (hs : w'.source = w.source) (ht : w'.tasks = w.tasks)
    (hd : w'.dispatched = w.dispatched) (hq : w'.queue.delivered = w.queue.delivered) : Hands before w' := by
  refine ⟨hs.trans hh.source, ?_, ?_⟩
  · rw [hd, hq]
    exact hh.order
  · rw [hd, hq, taken, ht]
    exact hh.shared

/-- The consumer takes a batch and dispatches it. -/
private theorem of_take (hh : Hands before w) {q : Queue} {b : Batch} (hq : q.delivered = w.queue.delivered)
    (htake : q.take .consumer = some (b, w'.queue)) (hs : w'.source = w.source) (ht : w'.tasks = w.tasks)
    (hd : w'.dispatched = w.dispatched ++ [b]) : Hands before w' := by
  have hdelivered : w'.queue.delivered = w.queue.delivered ++ [b] := by
    rw [Queue.delivered_of_take htake, hq]
  refine ⟨hs.trans hh.source, ?_, ?_⟩
  · rw [hd, hdelivered, ← List.append_assoc]
    exact hh.order.append (.refl [b])
  · have hmore : (w.queue.delivered ++ [b]).Perm (before ++ w.dispatched ++ (w.taken ++ [b])) := by
      rw [← List.append_assoc]
      exact hh.shared.append_right [b]
    have hswap : (before ++ w.dispatched ++ (w.taken ++ [b])).Perm
        (before ++ w.dispatched ++ ([b] ++ w.taken)) := List.perm_append_comm.append_left _
    have htaken : w'.taken = w.taken := by rw [taken, ht, taken]
    rw [hd, hdelivered, htaken]
    simpa using hmore.trans hswap

theorem consumerMove (hh : Hands before w) (h : ConsumerMove w w') : Hands before w' := by
  cases h with
  | idle => exact hh
  | launch | close => split <;> exact hh.of_quiet rfl rfl rfl rfl
  | seeShutdown => exact hh.of_quiet rfl rfl (dispatched_log w .sawShutdown rfl) rfl
  | ask asked =>
    cases asked with
    | false => exact hh.of_quiet rfl rfl (dispatched_log w .asked rfl) rfl
    | true => exact hh.of_quiet rfl rfl rfl rfl
  | receive b q h hs ht =>
    exact hh.of_take (Queue.join_delivered ..) ht rfl rfl (dispatched_log_both w (.received b) b rfl)
  | wait => exact hh.of_quiet rfl rfl rfl (Queue.join_delivered ..)
  | hear _ _ _ _ hs | pollScript _ _ _ _ _ _ hs | pollEnd _ _ _ _ hs => simp [hh.source] at hs
  | poll => exact hh.of_quiet rfl rfl (dispatched_log w (.polled _) rfl) (Queue.join_delivered ..)
  | draw deadline count since b q h ht => exact hh.of_take rfl ht rfl rfl (dispatched_log_both w (.drew b) b rfl)
  | expire => exact hh.of_quiet rfl rfl (dispatched_log w .expired rfl) rfl
  | _ => exact hh.of_quiet rfl rfl rfl rfl

/-- A task goes on, and receives what the queue delivers. -/
private theorem of_task (hh : Hands before w) {i : Nat} (h : TaskMove w i w') {p p' : TaskPhase}
    (hi : w.tasks[i]? = some p) (hp : p.isOver = false) (ht : w'.tasks = w.tasks.set i p')
    (hq : w'.queue.delivered = w.queue.delivered ++ p'.taken?.toList) : Hands before w' := by
  obtain ⟨hs, -, -, he, -⟩ := h.frame
  have hd : w'.dispatched = w.dispatched := by rw [dispatched, dispatched, he]
  have hnone : p.taken? = none := by cases p <;> simp [TaskPhase.isOver, TaskPhase.taken?] at hp ⊢
  have htaken : w'.taken.Perm (w.taken ++ p'.taken?.toList) := by
    rw [taken, ht]
    exact perm_filterMap_set hi p' hnone
  refine ⟨hs.trans hh.source, ?_, ?_⟩
  · rw [hd, hq]
    exact hh.order.trans (List.sublist_append_left ..)
  · have hmore : (w.queue.delivered ++ p'.taken?.toList).Perm
        (before ++ w.dispatched ++ (w.taken ++ p'.taken?.toList)) := by
      rw [← List.append_assoc]
      exact hh.shared.append_right _
    rw [hd, hq]
    exact hmore.trans (htaken.symm.append_left _)

/-- Who sends a batch does not receive one. -/
private theorem taken?_of_answer (hp : Provenance jobs w) {i : Nat} {p : SendPhase} {b : Batch} {r : TaskResult}
    (hi : w.tasks[i]? = some (.sending p b (.answer r))) : (TaskPhase.finished r).taken? = none := by
  obtain ⟨j, -, hserves⟩ := hp.job hi
  cases j <;> simp only [Job.Serves, Job.Sends] at hserves
  · cases hserves.2.1
    rfl
  · cases hserves.2.1
    rfl
  · simp at hserves

theorem taskMove (hh : Hands before w) (hp : Provenance jobs w) {i : Nat} (h : TaskMove w i w') :
    Hands before w' := by
  have hquiet : ∀ {v : World} {q p : TaskPhase}, TaskMove w i v → w.tasks[i]? = some q → q.isOver = false →
      v.tasks = w.tasks.set i p → p.taken? = none → v.queue.delivered = w.queue.delivered → Hands before v := by
    intro v q p hv hi hp ht hnone hq
    exact hh.of_task hv hi hp ht (by rw [hq, hnone]; simp)
  have hmove := h
  cases h with
  | idle => exact hh
  | ask b after h => exact hquiet hmove h rfl rfl rfl (Queue.ask_delivered ..)
  | call limit h => exact hquiet hmove h rfl rfl rfl (Queue.join_delivered ..)
  | abandonQueued b after h => exact hquiet hmove h rfl rfl rfl (Queue.withdraw_delivered ..)
  | receive deadline b q h ht => exact hh.of_task hmove h rfl rfl (Queue.delivered_of_take ht)
  | answer b r h => exact hquiet hmove h rfl rfl (taken?_of_answer hp h) rfl
  | read intake h hf hr hi =>
    refine hquiet (p := .reading (intake.step w.surroundings.wall)) hmove h rfl ?_ rfl ?_ <;> split <;> rfl
  | stop h =>
    refine hquiet hmove h rfl rfl ?_ rfl
    split <;> rfl
  | join crashed h hc =>
    refine hquiet hmove h rfl rfl ?_ rfl
    cases crashed <;> rfl
  | _ => exact hquiet hmove (by assumption) rfl rfl rfl rfl

private theorem spawn (hh : Hands before w) (j : Job) : Hands before (w.spawn j) := by
  obtain ⟨hs, -, -, hq, hv, -, ht⟩ := w.spawn_frame j
  have htaken : (w.spawn j).taken = w.taken := by
    have hnone : ((w.firstPhase j).2).taken? = none := by cases j <;> rfl
    rw [taken, ht, List.filterMap_append, taken]
    simp [hnone]
  refine ⟨hs.trans hh.source, ?_, ?_⟩
  · rw [hq, dispatched, hv]
    exact hh.order
  · rw [hq, dispatched, hv, htaken]
    exact hh.shared

theorem step (hh : Hands before w) (hp : Provenance jobs w) (a : Action) : Hands before (w.step a) :=
  step_cases w a (fun j _ => hh.spawn j) (fun _ _ _ h => hh.taskMove hp h) (fun _ _ h => hh.consumerMove h)
    fun _ _ _ hs => ⟨hs hh.source, hh.order, hh.shared⟩

theorem run (hh : Hands before w) (hp : Provenance jobs w) (actions : List Action) :
    Hands before (w.run actions) := by
  induction actions generalizing jobs w with
  | nil => exact hh
  | cons a as ih => exact ih (hh.step hp a) (hp.step a)

end Hands

end World

end FailurePipeline
