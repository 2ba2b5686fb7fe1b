import FailurePipeline.Proofs.Queue.Permits

/-!
# What a step can do to the queue

Whoever acts, the queue stays as it is, or one of a few things happens to it (`Queue.Move`).  What each of them keeps
every step keeps: the capacity, and the order of the senders, of whom one comes at the end or one goes.  Receivers do
nothing to the line of the senders (`Queue.Receives`).
-/

namespace FailurePipeline

namespace Queue

/-- A receiver comes to the line, leaves it or takes a batch, if anything happens at all. -/
inductive Receives (q : Queue) : Queue → Prop
  | keep : Receives q q
  | join (a : Agent) : Receives q (q.join a)
  | leave (a : Agent) : Receives q (q.leave a)
  | take (a : Agent) (b : Batch) (q' : Queue) (ht : q.take a = some (b, q')) : Receives q q'
  | joinAndTake (a : Agent) (b : Batch) (q' : Queue) (ht : (q.join a).take a = some (b, q')) : Receives q q'

inductive Move (q : Queue) : Queue → Prop
  | receive (q' : Queue) (h : q.Receives q') : Move q q'
  | ask (a : Agent) : Move q (q.ask a)
  | push (a : Agent) (b : Batch) (ha : a ∈ q.granted) : Move q (q.push a b)
  | withdraw (a : Agent) : Move q (q.withdraw a)

variable {q q' : Queue}

namespace Receives

theorem balanced (h : q.Receives q') (hb : q.Balanced) : q'.Balanced := by
  cases h with
  | keep => exact hb
  | join a => exact hb.join a
  | leave a => exact hb.leave a
  | take a b q' ht => exact hb.of_take ht
  | joinAndTake a b q' ht => exact (hb.join a).of_take ht

theorem capacity (h : q.Receives q') : q'.capacity = q.capacity := by
  cases h with
  | keep | leave => rfl
  | join a => exact join_capacity q a
  | take a b q' ht => exact capacity_of_take ht
  | joinAndTake a b q' ht => exact (capacity_of_take ht).trans (join_capacity q a)

theorem senders (h : q.Receives q') : q'.senders = q.senders := by
  cases h with
  | keep | leave => rfl
  | join a => exact senders_join q a
  | take a b q' ht => exact senders_of_take ht
  | joinAndTake a b q' ht => exact (senders_of_take ht).trans (senders_join q a)

end Receives

namespace Move

theorem capacity (h : q.Move q') : q'.capacity = q.capacity := by
  cases h with
  | receive q' h => exact h.capacity
  | ask a => exact ask_capacity q a
  | push => rfl
  | withdraw a => exact withdraw_capacity q a

/-- The line of the senders stays as it is, gets one more at its end, or loses one. -/
theorem senders (h : q.Move q') (hb : q.Balanced) :
    q'.senders = q.senders ∨ ∃ a, q'.senders = q.senders ++ [a] ∨ q'.senders = q.senders.erase a := by
  cases h with
  | receive q' h => exact .inl h.senders
  | ask a => exact .inr ⟨a, .inl (senders_ask hb a)⟩
  | push a b ha => exact .inr ⟨a, .inr (senders_push ha b)⟩
  | withdraw a => exact .inr ⟨a, .inr (senders_withdraw q a)⟩

end Move

end Queue

end FailurePipeline
