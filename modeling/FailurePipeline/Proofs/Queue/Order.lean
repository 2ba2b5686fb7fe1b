import FailurePipeline.Queue.Basic

/-!
# The order of the queue

What each operation of a `Queue` does to the batches in it: only `push` accepts one, at the end, and only `take`
gives one out, from the front.  Permits and the lines of senders and receivers leave the batches alone.
-/

namespace FailurePipeline

namespace Queue

variable (q : Queue) (a : Agent)

/-- A queue begins empty, with all of its permits. -/
theorem eq_of_create? {q : Queue} {capacity : Nat} (h : create? capacity = some q) :
    0 < capacity ∧ q = { capacity := capacity, free := capacity } := by
  unfold create? at h
  split at h
  · next hc => exact ⟨hc.1, (Option.some.inj h).symm⟩
  · simp at h

/-! ### What leaves the batches alone -/

@[simp] theorem ask_buffer : (q.ask a).buffer = q.buffer := by unfold ask; split <;> rfl

@[simp] theorem ask_accepted : (q.ask a).accepted = q.accepted := by unfold ask; split <;> rfl

@[simp] theorem ask_receivers : (q.ask a).receivers = q.receivers := by unfold ask; split <;> rfl

@[simp] theorem release_buffer : q.release.buffer = q.buffer := by unfold release; split <;> rfl

@[simp] theorem release_accepted : q.release.accepted = q.accepted := by unfold release; split <;> rfl

@[simp] theorem release_receivers : q.release.receivers = q.receivers := by unfold release; split <;> rfl

@[simp] theorem withdraw_buffer : (q.withdraw a).buffer = q.buffer := by unfold withdraw; split <;> simp

@[simp] theorem withdraw_accepted : (q.withdraw a).accepted = q.accepted := by unfold withdraw; split <;> simp

@[simp] theorem withdraw_receivers : (q.withdraw a).receivers = q.receivers := by unfold withdraw; split <;> simp

@[simp] theorem join_buffer : (q.join a).buffer = q.buffer := by unfold join; split <;> rfl

@[simp] theorem join_accepted : (q.join a).accepted = q.accepted := by unfold join; split <;> rfl

@[simp] theorem leave_buffer : (q.leave a).buffer = q.buffer := rfl

@[simp] theorem leave_accepted : (q.leave a).accepted = q.accepted := rfl

@[simp] theorem leave_receivers : (q.leave a).receivers = q.receivers.erase a := rfl

@[simp] theorem ask_delivered : (q.ask a).delivered = q.delivered := by unfold ask; split <;> rfl

@[simp] theorem release_delivered : q.release.delivered = q.delivered := by unfold release; split <;> rfl

@[simp] theorem withdraw_delivered : (q.withdraw a).delivered = q.delivered := by unfold withdraw; split <;> simp

@[simp] theorem join_delivered : (q.join a).delivered = q.delivered := by unfold join; split <;> rfl

/-! ### Accepting and giving out -/

@[simp] theorem push_buffer (b : Batch) : (q.push a b).buffer = q.buffer ++ [b] := rfl

@[simp] theorem push_accepted (b : Batch) : (q.push a b).accepted = q.accepted ++ [b] := rfl

@[simp] theorem push_receivers (b : Batch) : (q.push a b).receivers = q.receivers := rfl

theorem canTake_eq_isSome_take : q.canTake a = (q.take a).isSome := by
  unfold canTake take
  cases hb : q.buffer with
  | nil => simp
  | cons b rest =>
    by_cases hr : q.receivers.head? = some a <;> simp [hr]

variable {q a}

/-- Who takes a batch is first in line, and gives a permit back with it. -/
theorem eq_of_take {b : Batch} {q' : Queue} (h : q.take a = some (b, q')) :
    ∃ rest, q.buffer = b :: rest ∧ q.receivers.head? = some a ∧
      q' = ({ q with buffer := rest, delivered := q.delivered ++ [b] }.release).leave a := by
  unfold take at h
  split at h
  · next b' rest hb =>
    split at h
    · next hr =>
      cases h
      exact ⟨rest, hb, hr, rfl⟩
    · simp at h
  · simp at h

/-- Whoever takes a batch takes the oldest one and leaves the line. -/
theorem of_take {b : Batch} {q' : Queue} (h : q.take a = some (b, q')) :
    q.buffer = b :: q'.buffer ∧ q'.accepted = q.accepted ∧ q'.receivers = q.receivers.erase a := by
  obtain ⟨rest, hb, -, rfl⟩ := eq_of_take h
  simp [hb]

/-- A batch that is taken is delivered. -/
theorem delivered_of_take {b : Batch} {q' : Queue} (h : q.take a = some (b, q')) :
    q'.delivered = q.delivered ++ [b] := by
  obtain ⟨rest, -, -, rfl⟩ := eq_of_take h
  simp [leave]

/-- Who is first in line misses a batch only if there is none. -/
theorem buffer_eq_nil_of_take (hr : q.receivers.head? = some a) (h : q.take a = none) : q.buffer = [] := by
  unfold take at h
  split at h
  · simp [hr] at h
  · assumption

/-- A receiver who is alone in line is first. -/
theorem join_receivers_of_alone (hr : q.receivers = [] ∨ q.receivers = [a]) : (q.join a).receivers = [a] := by
  unfold join
  rcases hr with hr | hr <;> simp [hr]

end Queue

end FailurePipeline
