import FailurePipeline.Proofs.Pipeline.Moves

/-!
# Batches are dispatched in the order of the queue

As long as nobody but the consumer takes batches from the queue, those that have been dispatched and those that
are still in the queue are together those that have been accepted, in the same order (`Sole.order`).  No step
takes a batch without dispatching it, whatever the phase of the consumer.
-/

namespace FailurePipeline

def ConsumerEvent.dispatched? : ConsumerEvent → Option Batch
  | .dispatched b => some b
  | _ => none

def TaskPhase.isReceiving : TaskPhase → Bool
  | .calling _ | .receiving _ => true
  | _ => false

/-- Whether an action begins a task that takes batches from the queue. -/
def Action.beginsReceiver : Action → Bool
  | .spawn (.receive _) => true
  | _ => false

namespace World

/-- The batches that have been given to dispatch, in order. -/
def dispatched (w : World) : List Batch := w.service.events.filterMap ConsumerEvent.dispatched?

/-- The consumer notes something else than a dispatch. -/
theorem dispatched_log (w : World) (e : ConsumerEvent) (he : e.dispatched? = none) :
    (w.log e).dispatched = w.dispatched := by
  simp [dispatched, log, Service.log, he]

theorem dispatched_log_dispatched (w : World) (b : Batch) :
    (w.log (.dispatched b)).dispatched = w.dispatched ++ [b] := by
  simp [dispatched, log, Service.log, ConsumerEvent.dispatched?]

/-- A batch is noted as dispatched with the event that brought it. -/
theorem dispatched_log_both (w : World) (e : ConsumerEvent) (b : Batch) (he : e.dispatched? = none) :
    ((w.log e).log (.dispatched b)).dispatched = w.dispatched ++ [b] := by
  rw [dispatched_log_dispatched, dispatched_log w e he]

/-- Nobody but the consumer receives. -/
structure Sole (w : World) : Prop where
  source : w.source = .queue
  tasks : ∀ p ∈ w.tasks, p.isReceiving = false
  line : w.queue.receivers = [] ∨ w.queue.receivers = [.consumer]
  expecting : ∀ deadline count since, w.service.consumer = some (.expecting deadline count since) →
    w.queue.receivers = [.consumer]
  order : w.dispatched ++ w.queue.buffer = w.queue.accepted

namespace Sole

variable {w w' : World}

theorem fresh (hs : w.source = .queue) (hv : w.service = {}) (ht : w.tasks = []) {capacity : Nat}
    (hq : Queue.create? capacity = some w.queue) : Sole w := by
  obtain ⟨-, hq'⟩ := Queue.eq_of_create? hq
  constructor
  · exact hs
  · simp [ht]
  · simp [hq']
  · simp [hv]
  · simp [dispatched, hv, hq']

private theorem erase_line (hl : Sole w) : w.queue.receivers.erase .consumer = [] := by
  rcases hl.line with h | h <;> simp [h]

/-- The consumer takes a batch and dispatches it. -/
private theorem of_take (hl : Sole w) {b : Batch} {q q' : Queue} (hb : q.buffer = w.queue.buffer)
    (ha : q.accepted = w.queue.accepted) (hr : q.receivers = [] ∨ q.receivers = [.consumer])
    (ht : q.take .consumer = some (b, q')) (hs : w'.source = w.source) (htasks : w'.tasks = w.tasks)
    (hq : w'.queue = q') (he : w'.dispatched = w.dispatched ++ [b]) {d : Dispatch} {mode : ConsumerMode}
    (hc : w'.service.consumer = some (.dispatching d mode)) : Sole w' := by
  obtain ⟨hbuffer, haccepted, hreceivers⟩ := Queue.of_take ht
  refine ⟨hs.trans hl.source, htasks ▸ hl.tasks, .inl ?_, ?_, ?_⟩
  · rcases hr with hr | hr <;> simp [hq, hreceivers, hr]
  · intro deadline count since h
    simp [hc] at h
  · rw [he, hq, haccepted, ha, ← hl.order, ← hb, hbuffer]
    simp

/-- The consumer goes on without a batch. -/
private theorem of_quiet (hl : Sole w) (hs : w'.source = w.source) (htasks : w'.tasks = w.tasks)
    (hb : w'.queue.buffer = w.queue.buffer) (ha : w'.queue.accepted = w.queue.accepted)
    (hr : w'.queue.receivers = [] ∨ w'.queue.receivers = [.consumer]) (he : w'.dispatched = w.dispatched)
    (hx : ∀ deadline count since, w'.service.consumer = some (.expecting deadline count since) →
      w'.queue.receivers = [.consumer]) : Sole w' :=
  ⟨hs.trans hl.source, htasks ▸ hl.tasks, hr, hx, by rw [he, hb, ha, hl.order]⟩

theorem consumerMove (hl : Sole w) (h : ConsumerMove w w') : Sole w' := by
  -- A batch that is taken is noted as dispatched with the same move.
  have hjoin := Queue.join_receivers_of_alone hl.line
  have hleave := hl.erase_line
  cases h with
  | idle => exact hl
  | launch h => split <;> exact hl.of_quiet rfl rfl rfl rfl hl.line rfl nofun
  | seeShutdown asked h hs =>
    exact hl.of_quiet rfl rfl rfl rfl (.inl hleave) (dispatched_log w .sawShutdown rfl) nofun
  | ask asked h hs =>
    cases asked with
    | false => exact hl.of_quiet rfl rfl rfl rfl hl.line (dispatched_log w .asked rfl) nofun
    | true => exact hl.of_quiet rfl rfl rfl rfl hl.line rfl nofun
  | receive b q h hs ht =>
    exact hl.of_take (Queue.join_buffer ..) (Queue.join_accepted ..) (.inr hjoin) ht rfl rfl rfl
      (dispatched_log_both w (.received b) b rfl) rfl
  | wait h hs ht => exact hl.of_quiet rfl rfl (Queue.join_buffer ..) (Queue.join_accepted ..) (.inr hjoin) rfl nofun
  | hear a steady timed h hs => simp [hl.source] at hs
  | hang timed h hs => simp [hl.source] at hs
  | close h => split <;> exact hl.of_quiet rfl rfl rfl rfl hl.line rfl nofun
  | poll count since h hs =>
    exact hl.of_quiet rfl rfl (Queue.join_buffer ..) (Queue.join_accepted ..) (.inr hjoin)
      (dispatched_log w (.polled w.config.shutdownAwait) rfl) fun _ _ _ _ => hjoin
  | pollScript a steady timed count since h hs => simp [hl.source] at hs
  | pollEnd steady count since h hs => simp [hl.source] at hs
  | draw deadline count since b q h ht =>
    exact hl.of_take rfl rfl hl.line ht rfl rfl rfl (dispatched_log_both w (.drew b) b rfl) rfl
  | expire deadline count since h ht hd =>
    exact hl.of_quiet rfl rfl rfl rfl (.inl hleave) (dispatched_log w .expired rfl) nofun
  | crash p h _ _ => exact hl.of_quiet rfl rfl rfl rfl (.inl hleave) rfl nofun
  | _ => exact hl.of_quiet rfl rfl rfl rfl hl.line rfl nofun

/-- A task goes on without taking a batch. -/
private theorem of_task (hl : Sole w) {i : Nat} (h : TaskMove w i w') {p : TaskPhase}
    (htasks : w'.tasks = w.tasks.set i p) (hp : p.isReceiving = false)
    (hr : w'.queue.receivers = w.queue.receivers)
    (ho : w.dispatched ++ w'.queue.buffer = w'.queue.accepted) : Sole w' := by
  obtain ⟨hs, -, -, he, hc⟩ := h.frame
  refine ⟨hs.trans hl.source, fun p' hp' => ?_, hr ▸ hl.line, fun deadline count since hx => ?_, ?_⟩
  · rw [htasks] at hp'
    rcases List.mem_or_eq_of_mem_set hp' with hp' | rfl
    · exact hl.tasks p' hp'
    · exact hp
  · rcases hc with hc | ⟨-, hc⟩
    · rw [hr]
      exact hl.expecting deadline count since (hc ▸ hx)
    · simp [hc] at hx
  · rw [dispatched, he]
    exact ho

theorem taskMove (hl : Sole w) {i : Nat} (h : TaskMove w i w') : Sole w' := by
  have hno : ∀ {p : TaskPhase}, w.tasks[i]? = some p → p.isReceiving = false := fun hp =>
    hl.tasks _ (List.mem_of_getElem? hp)
  have hquiet : ∀ {v : World} {p : TaskPhase}, TaskMove w i v → v.tasks = w.tasks.set i p →
      p.isReceiving = false → v.queue = w.queue → Sole v := by
    intro v p hv ht hp hq
    exact hl.of_task hv ht hp (by rw [hq]) (by rw [hq, hl.order])
  have hmove := h
  cases h with
  | idle => exact hl
  | ask b after h => exact hl.of_task hmove rfl rfl (Queue.ask_receivers ..) (by simp [setTask, hl.order])
  | push b after h hg => exact hl.of_task hmove rfl rfl rfl (by simp [setTask, ← hl.order])
  | abandonQueued b after h =>
    exact hl.of_task hmove rfl rfl (Queue.withdraw_receivers ..) (by simp [setTask, hl.order])
  | call limit h => simpa [TaskPhase.isReceiving] using hno h
  | receive deadline b q h ht => simpa [TaskPhase.isReceiving] using hno h
  | expire deadline h ht hd => simpa [TaskPhase.isReceiving] using hno h
  | abandonReceiving deadline h => simpa [TaskPhase.isReceiving] using hno h
  | read intake h hf hr hi =>
    refine hquiet (p := .reading (intake.step w.surroundings.wall)) hmove ?_ rfl ?_ <;> split <;> rfl
  | stop h =>
    refine hquiet hmove rfl ?_ rfl
    split <;> rfl
  | join crashed h hc =>
    refine hquiet hmove rfl ?_ rfl
    cases crashed <;> rfl
  | _ => exact hquiet hmove rfl rfl rfl

private theorem spawn (hl : Sole w) {j : Job} (hj : (Action.spawn j).beginsReceiver = false) :
    Sole (w.spawn j) := by
  have hphase : ((w.firstPhase j).2).isReceiving = false := by
    cases j <;> first | rfl | simp [Action.beginsReceiver] at hj
  obtain ⟨hs, -, -, hq, hv, -, ht⟩ := w.spawn_frame j
  refine ⟨hs.trans hl.source, fun p hp => ?_, hq ▸ hl.line, ?_, ?_⟩
  · rw [ht, List.mem_append, List.mem_singleton] at hp
    rcases hp with hp | rfl
    · exact hl.tasks p hp
    · exact hphase
  · rw [hq, hv]
    exact hl.expecting
  · rw [dispatched, hq, hv]
    exact hl.order

theorem step (hl : Sole w) {a : Action} (ha : a.beginsReceiver = false) : Sole (w.step a) :=
  step_cases w a (fun _ hj => hl.spawn (hj ▸ ha)) (fun _ _ _ h => hl.taskMove h)
    (fun _ _ h => hl.consumerMove h)
    fun _ _ _ hs => ⟨hs hl.source, hl.tasks, hl.line, hl.expecting, hl.order⟩

theorem run (hl : Sole w) {actions : List Action} (ha : ∀ a ∈ actions, a.beginsReceiver = false) :
    Sole (w.run actions) :=
  run_induction hl (fun _ _ ha h => h.step ha) ha

theorem dispatched_prefix (hl : Sole w) : w.dispatched <+: w.queue.accepted := ⟨_, hl.order⟩

end Sole

end World

end FailurePipeline
