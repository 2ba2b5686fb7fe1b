import FailurePipeline.Proofs.Pipeline.Passage
import FailurePipeline.Proofs.Pipeline.Receivers
import FailurePipeline.Proofs.Pipeline.Turns
import FailurePipeline.Proofs.Service.OneWay

/-!
# The queue holds its senders back

Whoever sends, receives, waits or gives up: the queue passes batches on in the order in which it accepts them, never
holds more of them than its capacity, makes senders wait only while there is no room, and lets them in as they came
(`queue_is_a_bounded_fifo`).  A sending or a receiving that comes to nothing leaves nothing behind.
-/

namespace FailurePipeline

namespace World

variable {w w' : World} {i : Nat} {b : Batch} {after : AfterSend}

/-- No batch is accepted, or that of a sending which holds a permit is. -/
def Accepts (w w' : World) : Prop :=
  w'.queue.accepted = w.queue.accepted ∨
    ∃ i b after, w.tasks[i]? = some (.sending .queued b after) ∧ .task i ∈ w.queue.granted ∧
      w'.tasks[i]? = some (.sending .recording b after) ∧ w'.queue.accepted = w.queue.accepted ++ [b]

private theorem TaskMove.accepts (h : TaskMove w i w') : Accepts w w' := by
  cases h with
  | push b after h hg =>
    exact .inr ⟨i, b, after, h, hg, List.getElem?_set_self (List.getElem?_eq_some_iff.1 h).1, rfl⟩
  | ask => exact .inl (Queue.ask_accepted ..)
  | abandonQueued => exact .inl (Queue.withdraw_accepted ..)
  | call => exact .inl (Queue.join_accepted ..)
  | receive deadline b q h ht => exact .inl (Queue.of_take ht).2.1
  | read => split <;> exact .inl rfl
  | _ => exact .inl rfl

theorem step_accepts (w : World) (a : Action) : Accepts w (w.step a) :=
  step_cases w a (fun j _ => .inl (by rw [(w.spawn_frame j).2.2.2.1])) (fun _ _ _ h => h.accepts)
    (fun _ _ h => .inl h.frame.2.2.2.2.1) fun _ _ _ _ => .inl rfl

/-- What a queue of this capacity does, at a moment of a run and ever after. -/
structure BoundedFifo (capacity : Nat) (w : World) : Prop where
  /-- What has been delivered, and behind it what is buffered, is what has been accepted. -/
  order : w.queue.delivered ++ w.queue.buffer = w.queue.accepted
  /-- Batches are accepted at the end and delivered from the front, each to a receiver. -/
  accepts : ∀ a, Accepts w (w.step a)
  gives : ∀ a, HandsOut w (w.step a)
  /-- No batch is accepted twice. -/
  once : w.acceptedIds.Nodup
  bounded : w.queue.buffer.length ≤ capacity
  /-- The size is between what is buffered and the capacity, and exact as long as nobody is about to put a batch
  in. -/
  size : w.queue.buffer.length ≤ w.queue.size ∧ w.queue.size ≤ capacity
  exact : (∀ i, w.isSender (.task i) = false) → w.queue.size = w.queue.buffer.length
  /-- A sender comes to the end of the line, and need not wait if there is room. -/
  asks : ∀ {i : Nat} {b : Batch} {after : AfterSend}, w.tasks[i]? = some (.sending .asking b after) →
    (w.step (.task i)).queue.senders = w.queue.senders ++ [.task i] ∧
      ((w.step (.task i)).canStepTask i = true ↔ w.queue.buffer.length + w.queue.granted.length < capacity)
  /-- A sender waits only while all of the room is taken up by batches, and by others that came earlier. -/
  waits : ∀ {i : Nat} {b : Batch} {after : AfterSend},
    w.tasks[i]? = some (.sending .queued b after) → w.canStepTask i = false →
    w.queue.buffer.length + w.queue.granted.length = capacity ∧
      ∀ a ∈ w.queue.granted, [a, .task i].Sublist w.queue.senders
  /-- Nobody is let in while somebody who came earlier is not. -/
  inTurn : ∀ {i : Nat} {b : Batch} {after after' : AfterSend} {c : Agent} (later : List Action),
    w.tasks[i]? = some (.sending .queued b after) → [.task i, c].Sublist w.queue.senders →
    (w.run later).tasks[i]? = some (.sending .queued b after') → c ∈ (w.run later).queue.granted →
    .task i ∈ (w.run later).queue.granted
  /-- A batch is not in the queue before its sender is let in. -/
  pending : ∀ {i : Nat} {p : SendPhase} {b : Batch} {after : AfterSend},
    w.tasks[i]? = some (.sending p b after) → p ≠ .recording → b.id ∉ w.acceptedIds
  /-- Nor is it, ever, if its sender is given up before. -/
  dropped : ∀ {i : Nat} {p : SendPhase} {b : Batch} {after : AfterSend},
    w.tasks[i]? = some (.sending p b after) → p ≠ .recording → Forgotten w i b
  /-- A receiver that gives up takes nothing, and misses nothing if it was alone. -/
  misses : ∀ {a : Action} {x : Agent}, GivesUp w (w.step a) x → Misses w (w.step a) x

/-- Who holds a permit is in line before everybody who waits for one. -/
private theorem sublist_senders {a c : Agent} (ha : a ∈ w.queue.granted) (hc : c ∈ w.queue.waiting) :
    [a, c].Sublist w.queue.senders :=
  (List.singleton_sublist.2 ha).append (List.singleton_sublist.2 hc)

private theorem mem_waiting (hp : Permits w) (hi : w.tasks[i]? = some (.sending .queued b after))
    (hcan : w.canStepTask i = false) : .task i ∈ w.queue.waiting := by
  have hin : .task i ∈ w.queue.senders := by
    rw [hp.senders, isSender_task hi]
    rfl
  rcases List.mem_append.1 hin with hgranted | hwaiting
  · simp [canStepTask, hi, hgranted] at hcan
  · exact hwaiting

private theorem Permits.asks (hp : Permits w) (hi : w.tasks[i]? = some (.sending .asking b after)) :
    (w.step (.task i)).queue.senders = w.queue.senders ++ [.task i] ∧
      ((w.step (.task i)).canStepTask i = true ↔
        w.queue.buffer.length + w.queue.granted.length < w.queue.capacity) := by
  have hout : .task i ∉ w.queue.senders := by
    rw [hp.senders, isSender_task hi]
    exact Bool.false_ne_true
  have hgranted : .task i ∉ w.queue.granted := fun h => hout (List.mem_append_left _ h)
  have hself : (w.tasks.set i (.sending .queued b after))[i]? = some (.sending .queued b after) :=
    List.getElem?_set_self (List.getElem?_eq_some_iff.1 hi).1
  rw [step_asking hi]
  refine ⟨Queue.senders_ask hp.balanced _, ?_⟩
  simp only [canStepTask, setTask, hself, List.contains_eq_mem, decide_eq_true_eq]
  exact hp.balanced.mem_granted_ask hgranted

private theorem Permits.granted_eq_nil (hp : Permits w) (hnone : ∀ i, w.isSender (.task i) = false) :
    w.queue.granted = [] := by
  refine List.eq_nil_iff_forall_not_mem.2 fun a ha => ?_
  have hsender := (hp.senders a).1 (List.mem_append_left _ ha)
  cases a with
  | consumer => simp [isSender] at hsender
  | task i => simp [hnone i] at hsender

variable {w₀ : World} {capacity : Nat}

/-- A queue of any capacity, from its creation, whoever sends, receives and gives up. -/
theorem queue_is_a_bounded_fifo (hq : Queue.create? capacity = some w₀.queue) (hs : w₀.source = .queue)
    (hv : w₀.service = {}) (ht : w₀.tasks = []) (actions : List Action) :
    BoundedFifo capacity (w₀.run actions) := by
  have hp : Permits (w₀.run actions) := (Permits.fresh hq ht).run actions
  have hn : Numbered (w₀.run actions) := (Numbered.fresh hq ht).run actions
  have hr : Receivers (w₀.run actions) := (Receivers.fresh hq hs hv ht).run (.fresh hv ht) actions
  have horder : (w₀.run actions).queue.InOrder := run_inOrder (.create hq) actions
  have hcapacity : (w₀.run actions).queue.capacity = capacity := by
    rw [run_capacity, (Queue.eq_of_create? hq).2]
  have hsize := hp.balanced.size_eq
  have htotal := hp.balanced.total
  refine
    { order := horder
      accepts := step_accepts _
      gives := step_handsOut _
      once := hn.nodup
      bounded := hcapacity ▸ hp.balanced.length_buffer_le
      size := ⟨by omega, by omega⟩
      exact := fun hnone => by rw [hsize, hp.granted_eq_nil hnone, List.length_nil, Nat.zero_add]
      asks := fun hi => hcapacity ▸ hp.asks hi
      waits := fun hi hcan => ?_
      inTurn := fun _ hi hline hi' hc => granted_in_turn hp hn hi hline hi' hc
      pending := fun hi hr => (hn.of_carries hi (TaskPhase.carries_sending hr _ _)).2.1
      dropped := fun hi hr => forgotten hp hn hi hr
      misses := fun h => h.misses hr }
  have hwaiting := mem_waiting hp hi hcan
  exact ⟨hcapacity ▸ hp.balanced.length_eq_of_mem_waiting hwaiting, fun a ha => sublist_senders ha hwaiting⟩

/-- Three tasks send to a queue with room for one batch; the first has put its batch in, and the others wait. -/
def crowd : List Action :=
  [.spawn (.send (.input [default])), .spawn (.send (.input [default])), .spawn (.send (.input [default])),
    .task 0, .task 0, .task 1, .task 2]

/-- Somebody takes the batch, so that the first of the two is let in, and the next receiver waits in vain. -/
def opening : List Action :=
  [.spawn (.receive (some 5)), .task 3, .task 3, .spawn (.receive (some 5)), .task 4, .pass 5]

theorem queue_is_a_bounded_fifo_in_crowd :
    BoundedFifo 1 (smallPipeline.run crowd) ∧ (smallPipeline.run crowd).queue.waiting = [.task 1, .task 2] ∧
      (smallPipeline.run crowd).canStepTask 1 = false ∧
      ((smallPipeline.run crowd).run opening).queue.granted = [.task 1] ∧
      BoundedFifo 1 (smallPipeline.run (crowd ++ opening)) ∧
      GivesUp (smallPipeline.run (crowd ++ opening)) ((smallPipeline.run (crowd ++ opening)).step (.task 4))
        (.task 4) := by
  have hbefore : BoundedFifo 1 (smallPipeline.run crowd) := queue_is_a_bounded_fifo rfl rfl rfl rfl crowd
  have hafter : BoundedFifo 1 (smallPipeline.run (crowd ++ opening)) :=
    queue_is_a_bounded_fifo rfl rfl rfl rfl (crowd ++ opening)
  exact ⟨hbefore, rfl, rfl, rfl, hafter, .task 4 (some 5) rfl rfl⟩

end World

end FailurePipeline
