import FailurePipeline.Proofs.Pipeline.Moves

/-!
# Batches leave the queue as they came

Whoever takes batches from the queue, those that have been taken and those that can still be taken are together
those that have been accepted, in the same order (`Queue.InOrder`).
-/

namespace FailurePipeline

namespace Queue

/-- What has been taken, and after it what is in the queue, is all that was accepted. -/
def InOrder (q : Queue) : Prop := q.delivered ++ q.buffer = q.accepted

namespace InOrder

variable {q q' : Queue} {a : Agent} {b : Batch}

theorem create {capacity : Nat} (h : create? capacity = some q) : q.InOrder := by
  obtain ⟨-, rfl⟩ := eq_of_create? h
  rfl

/-- Nothing comes or goes. -/
theorem of_same (hq : q.InOrder) (hd : q'.delivered = q.delivered) (hb : q'.buffer = q.buffer)
    (ha : q'.accepted = q.accepted) : q'.InOrder := by
  rwa [InOrder, hd, hb, ha]

theorem push (hq : q.InOrder) (a : Agent) (b : Batch) : (q.push a b).InOrder := by
  unfold InOrder at hq ⊢
  rw [push_buffer, push_accepted, ← hq, ← List.append_assoc]
  rfl

theorem of_take (hq : q.InOrder) (h : q.take a = some (b, q')) : q'.InOrder := by
  obtain ⟨hbuffer, haccepted, -⟩ := Queue.of_take h
  unfold InOrder at hq ⊢
  rw [delivered_of_take h, haccepted, ← hq, hbuffer, List.append_assoc]
  rfl

theorem join (hq : q.InOrder) (a : Agent) : (q.join a).InOrder :=
  hq.of_same (join_delivered ..) (join_buffer ..) (join_accepted ..)

theorem leave (hq : q.InOrder) (a : Agent) : (q.leave a).InOrder := hq.of_same rfl rfl rfl

end InOrder

theorem Receives.inOrder {q q' : Queue} (h : q.Receives q') (hq : q.InOrder) : q'.InOrder := by
  cases h with
  | keep => exact hq
  | join a => exact hq.join a
  | leave a => exact hq.leave a
  | take a b q' ht => exact hq.of_take ht
  | joinAndTake a b q' ht => exact (hq.join a).of_take ht

theorem Move.inOrder {q q' : Queue} (h : q.Move q') (hq : q.InOrder) : q'.InOrder := by
  cases h with
  | receive q' h => exact h.inOrder hq
  | ask => exact hq.of_same (ask_delivered ..) (ask_buffer ..) (ask_accepted ..)
  | push a b => exact hq.push a b
  | withdraw => exact hq.of_same (withdraw_delivered ..) (withdraw_buffer ..) (withdraw_accepted ..)

end Queue

namespace World

variable {w : World}

theorem step_inOrder (hw : w.queue.InOrder) (a : Action) : (w.step a).queue.InOrder := (w.step_queue a).inOrder hw

theorem run_inOrder (hw : w.queue.InOrder) (actions : List Action) : (w.run actions).queue.InOrder :=
  run_induction (A := fun _ => True) (P := fun v => v.queue.InOrder) hw (fun _ a _ h => step_inOrder h a)
    fun _ _ => trivial

end World

end FailurePipeline
