import FailurePipeline.Proofs.Pipeline.Drain
import FailurePipeline.Proofs.Pipeline.Patience
import FailurePipeline.Proofs.Pipeline.Permits
import FailurePipeline.Proofs.Service.OneWay

/-!
# Sending after the end of the service

The queue stays open when the service has ended.  Whoever sends a batch then is told that it was taken on, as long
as there is room, and waits for good when there is none; in either case nobody ever dispatches the batch
(`sending_after_the_end`).
-/

namespace FailurePipeline

namespace World

variable {w : World} {i : Nat} {b : Batch} {after : AfterSend} {a : Action}

/-- The task has not been given a place in the queue for its batch, or has not used it yet. -/
def Awaits (w : World) (i : Nat) (b : Batch) (after : AfterSend) : Prop :=
  w.tasks[i]? = some (.sending .asking b after) ∨ w.tasks[i]? = some (.sending .queued b after)

theorem Awaits.exists_carries (h : Awaits w i b after) :
    ∃ p, w.tasks[i]? = some p ∧ p.carries b.id = true := by
  rcases h with hi | hi
  · exact ⟨_, hi, beq_self_eq_true b.id⟩
  · exact ⟨_, hi, beq_self_eq_true b.id⟩

theorem Awaits.lt_length (h : Awaits w i b after) : i < w.tasks.length := by
  obtain ⟨p, hp, -⟩ := h.exists_carries
  exact (List.getElem?_eq_some_iff.1 hp).1

/-- Actions with which nobody begins to receive, and the task is not given up. -/
def Undisturbed (i : Nat) (actions : List Action) : Prop :=
  ∀ a ∈ actions, a.beginsReceiver = false ∧ a.givesUp i = false

/-- The service has ended, and nobody else receives. -/
structure Ended (w : World) : Prop where
  terminated : w.service.state = .terminated
  lifecycle : Lifecycle w
  sole : Sole w
  numbered : Numbered w
  permits : Permits w

namespace Ended

theorem step (he : Ended w) (ha : a.beginsReceiver = false) : Ended (w.step a) :=
  ⟨(step_of_terminated he.lifecycle he.terminated a).1, he.lifecycle.step a, he.sole.step ha, he.numbered.step a,
    he.permits.step a⟩

/-- Nothing is dispatched any more. -/
theorem step_dispatched (he : Ended w) (a : Action) : (w.step a).dispatched = w.dispatched := by
  refine step_cases (P := fun v => v.dispatched = w.dispatched) w a (fun j _ => ?_) (fun k v _ h => ?_)
    (fun v _ h => ?_) fun _ _ _ _ => rfl
  · rw [dispatched, (w.spawn_frame j).2.2.2.2.1]
    rfl
  · rw [dispatched, h.frame.2.2.2.1]
    rfl
  · rw [h.eq_of_over (he.lifecycle.consumer_over he.terminated)]

/-- What is in the queue stays in it. -/
theorem step_buffer (he : Ended w) (ha : a.beginsReceiver = false) :
    w.queue.buffer <+: (w.step a).queue.buffer := by
  have horder := (he.step ha).sole.order
  obtain ⟨later, hlater⟩ := w.step_grows a
  rw [he.step_dispatched a, ← hlater, ← he.sole.order, List.append_assoc] at horder
  exact ⟨later, (List.append_cancel_left horder).symm⟩

/-- A queue that is full of batches stays so. -/
theorem step_full (he : Ended w) (ha : a.beginsReceiver = false) (hfull : w.queue.buffer.length = w.queue.capacity) :
    (w.step a).queue.buffer.length = (w.step a).queue.capacity := by
  have hgrows := (he.step_buffer ha).length_le
  have hle := (he.step ha).permits.balanced.length_buffer_le
  rw [step_capacity] at hle ⊢
  omega

/-- A task that waits with its batch and is not given up comes to hold a place, goes on waiting, or pushes. -/
private theorem awaits_of_taskMove {v : World} (hw : Awaits w i b after) (h : TaskMove w i v)
    (hv : v.tasks[i]? ≠ some .abandoned) :
    Awaits v i b after ∨ (.task i ∈ w.queue.granted ∧ v.queue.buffer = w.queue.buffer ++ [b]) := by
  have hlt := hw.lt_length
  have hself : ∀ p, (w.tasks.set i p)[i]? = some p := fun p => List.getElem?_set_self hlt
  have hno : ∀ {p : TaskPhase}, w.tasks[i]? = some p → p.carries b.id = false → False := by
    intro p hp hcarries
    obtain ⟨q, hq, hyes⟩ := hw.exists_carries
    obtain rfl : p = q := Option.some.inj (hp.symm.trans hq)
    simp [hcarries] at hyes
  cases h with
  | idle => exact .inl hw
  | ask b' after' h =>
    have hsame : w.tasks[i]? = some (.sending .asking b after) := by
      rcases hw with hi | hi
      · exact hi
      · simp [hi] at h
    obtain ⟨rfl, rfl⟩ : b = b' ∧ after = after' := by simpa [hsame] using h
    exact .inl (.inr (hself _))
  | push b' after' h hg =>
    have hsame : w.tasks[i]? = some (.sending .queued b after) := by
      rcases hw with hi | hi
      · simp [hi] at h
      · exact hi
    obtain ⟨rfl, rfl⟩ : b = b' ∧ after = after' := by simpa [hsame] using h
    exact .inr ⟨hg, rfl⟩
  | abandonQueued => exact absurd (hself _) hv
  | abandonAsking => exact absurd (hself _) hv
  | _ => exact (hno (by assumption) rfl).elim

/-- A task that waits with its batch goes on waiting, unless it pushes the batch. -/
theorem step_awaits (ha : a.givesUp i = false) (hw : Awaits w i b after) :
    Awaits (w.step a) i b after ∨
      (.task i ∈ w.queue.granted ∧ (w.step a).queue.buffer = w.queue.buffer ++ [b]) := by
  have hi : w.tasks[i]? ≠ some .abandoned := by
    rcases hw with hi | hi <;> simp [hi]
  have hsame : ∀ {v : World}, v.tasks[i]? = w.tasks[i]? → Awaits v i b after := by
    intro v ht
    rwa [Awaits, ht]
  refine step_cases_at (P := fun v => Awaits v i b after ∨
      (.task i ∈ w.queue.granted ∧ v.queue.buffer = w.queue.buffer ++ [b])) w a ha hi (fun j _ => ?_)
    (fun v _ h hv => awaits_of_taskMove hw h hv) (fun k v _ hk h => ?_) (fun v _ h => ?_) fun _ _ _ _ => .inl hw
  · exact .inl (hsame (by rw [(w.spawn_frame j).2.2.2.2.2.2, List.getElem?_append_left hw.lt_length]))
  · rcases h.tasks with rfl | ⟨p, p', -, -, ht⟩
    · exact .inl hw
    · exact .inl (hsame (by rw [ht, List.getElem?_set_ne hk]))
  · exact .inl (hsame (by rw [h.frame.1]))

/-- A batch that waits with its task or in the queue has not been dispatched. -/
theorem not_dispatched (he : Ended w) (h : Awaits w i b after ∨ b ∈ w.queue.buffer) : b ∉ w.dispatched := by
  intro hd
  have haccepted : b ∈ w.queue.accepted := by
    rw [← he.sole.order]
    exact List.mem_append_left _ hd
  rcases h with hw | hb
  · -- The number of a batch that waits with its task is not among the accepted ones.
    obtain ⟨p, hp, hcarries⟩ := hw.exists_carries
    have hcarried : 0 < w.tasks.countP (·.carries b.id) :=
      List.countP_pos_iff.2 ⟨p, List.mem_of_getElem? hp, hcarries⟩
    have hcount : 0 < w.acceptedIds.count b.id :=
      List.count_pos_iff.2 (List.mem_map_of_mem haccepted)
    have honce := he.numbered.given.once b.id
    rw [shares] at honce
    omega
  · have hnodup := he.numbered.nodup
    rw [acceptedIds, ← he.sole.order, List.map_append, List.nodup_append] at hnodup
    exact hnodup.2.2 _ (List.mem_map_of_mem hd) _ (List.mem_map_of_mem hb) rfl

/-- Nobody comes to take a batch that is on its way into the queue, or in it. -/
theorem run_kept (he : Ended w) {more : List Action} (hm : Undisturbed i more)
    (h : Awaits w i b after ∨ b ∈ w.queue.buffer) :
    Ended (w.run more) ∧ (Awaits (w.run more) i b after ∨ b ∈ (w.run more).queue.buffer) := by
  refine run_induction (P := fun v => Ended v ∧ (Awaits v i b after ∨ b ∈ v.queue.buffer)) ⟨he, h⟩
    (fun v a ha hv => ?_) hm
  obtain ⟨hev, hkept⟩ := hv
  refine ⟨hev.step ha.1, ?_⟩
  rcases hkept with hw | hb
  · rcases step_awaits ha.2 hw with hw | ⟨-, hbuffer⟩
    · exact .inl hw
    · exact .inr (by simp [hbuffer])
  · exact .inr ((hev.step_buffer ha.1).subset hb)

/-- A task that finds the queue full waits for good. -/
theorem run_awaits (he : Ended w) {more : List Action} (hm : Undisturbed i more) (hw : Awaits w i b after)
    (hfull : w.queue.buffer.length = w.queue.capacity) : Awaits (w.run more) i b after := by
  have hall : Ended (w.run more) ∧ (w.run more).queue.buffer.length = (w.run more).queue.capacity ∧
      Awaits (w.run more) i b after := by
    refine run_induction (P := fun v => Ended v ∧ v.queue.buffer.length = v.queue.capacity ∧ Awaits v i b after)
      ⟨he, hfull, hw⟩ (fun v a ha hv => ?_) hm
    obtain ⟨hev, hfullv, hwv⟩ := hv
    refine ⟨hev.step ha.1, hev.step_full ha.1 hfullv, ?_⟩
    rcases step_awaits ha.2 hwv with hwv | ⟨hgranted, -⟩
    · exact hwv
    · rw [(hev.permits.balanced.of_full hfullv).2] at hgranted
      simp at hgranted
  exact hall.2.2

end Ended

/-! ### Sending with room in the queue -/

/-- With a free permit, a task sends its batch in three steps. -/
theorem run_sending (hi : w.tasks[i]? = some (.sending .asking b after)) (hfree : 0 < w.queue.free) :
    (w.run [.task i, .task i, .task i]).tasks[i]? = some after.next := by
  have hlt := (List.getElem?_eq_some_iff.1 hi).1
  have hasked := step_asking hi
  have hqueued : (w.step (.task i)).tasks[i]? = some (.sending .queued b after) := by
    rw [hasked]
    exact List.getElem?_set_self hlt
  have hgranted : .task i ∈ (w.step (.task i)).queue.granted := by
    rw [hasked]
    simp [setTask, Queue.ask, hfree]
  have hrecording : ((w.step (.task i)).step (.task i)).tasks[i]? = some (.sending .recording b after) := by
    rw [step_queued hqueued hgranted]
    exact List.getElem?_set_self (List.getElem?_eq_some_iff.1 hqueued).1
  exact step_recording hrecording

/-! ### All of it together -/

/-- What becomes of a batch that a task is about to send. -/
structure Stranded (w : World) (i : Nat) (b : Batch) (after : AfterSend) : Prop where
  /-- It waits with its task or in the queue, and is never dispatched. -/
  never : ∀ more, Undisturbed i more →
    b ∉ (w.run more).dispatched ∧ (Awaits (w.run more) i b after ∨ b ∈ (w.run more).queue.buffer)
  /-- With room in the queue the task goes on as after any sending. -/
  room : 0 < w.queue.free → (w.run [.task i, .task i, .task i]).tasks[i]? = some after.next
  /-- With no room the task waits for good. -/
  full : w.queue.buffer.length = w.queue.capacity → ∀ more, Undisturbed i more → Awaits (w.run more) i b after

variable {w₀ : World} {actions : List Action}

/-- Whatever has ended the service, a batch that is sent afterwards is taken on or waits, and is lost. -/
theorem sending_after_the_end (hf : Fresh w₀) (ha : ∀ a ∈ actions, a.beginsReceiver = false)
    (ht : (w₀.run actions).service.state = .terminated)
    (hi : (w₀.run actions).tasks[i]? = some (.sending .asking b after)) : Stranded (w₀.run actions) i b after := by
  have hflow := (Flow.fresh hf).run ha
  obtain ⟨capacity, hq⟩ := hf.queue
  have he : Ended (w₀.run actions) :=
    ⟨ht, hflow.lifecycle, hflow.sole, hflow.numbered, (Permits.fresh hq hf.tasks).run actions⟩
  refine ⟨fun more hm => ?_, run_sending hi, fun hfull more hm => he.run_awaits hm (.inl hi) hfull⟩
  obtain ⟨hend, hkept⟩ := he.run_kept hm (.inl (.inl hi))
  exact ⟨hend.not_dispatched hkept, hkept⟩

/-- Somebody stops a service that was never started; two batches are sent after that. -/
def lateSendings : List Action :=
  [.spawn .stop, .task 0, .spawn (.send (.input [default])), .spawn (.send (.input [default]))]

/-- The first of the two is lost in the queue, and the second waits for its place for good. -/
theorem sending_after_the_end_in_lateSendings :
    Stranded (smallPipeline.run lateSendings) 1 ⟨1, .input [default]⟩ (.answer (.reported (some 1) none)) ∧
      Stranded (smallPipeline.run (lateSendings ++ [.task 1, .task 1])) 2 ⟨2, .input [default]⟩
        (.answer (.reported (some 2) none)) := by
  have hfresh : Fresh smallPipeline := ⟨⟨1, rfl⟩, rfl, rfl, rfl⟩
  constructor
  · apply sending_after_the_end hfresh
    · simp [lateSendings, Action.beginsReceiver]
    · rfl
    · rfl
  · apply sending_after_the_end hfresh
    · simp [lateSendings, Action.beginsReceiver]
    · rfl
    · rfl

/-- After the end, one sending is answered as if the batch were going to be dispatched, and the next one cannot go
on. -/
theorem sending_succeeds_after_stop :
    Fresh smallPipeline ∧ (smallPipeline.run lateSendings).service.state = .terminated ∧
      (smallPipeline.run (lateSendings ++ [.task 1, .task 1, .task 1])).tasks[1]? =
        some (.finished (.reported (some 1) none)) ∧
      (smallPipeline.run (lateSendings ++ [.task 1, .task 1, .task 1, .task 2])).tasks[2]? =
        some (.sending .queued ⟨2, .input [default]⟩ (.answer (.reported (some 2) none))) ∧
      (smallPipeline.run (lateSendings ++ [.task 1, .task 1, .task 1, .task 2])).canStepTask 2 = false :=
  ⟨⟨⟨1, rfl⟩, rfl, rfl, rfl⟩, rfl, rfl, rfl, rfl⟩

end World

end FailurePipeline
