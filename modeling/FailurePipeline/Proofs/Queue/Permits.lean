import FailurePipeline.Proofs.Queue.Order

/-!
# The permits of the queue

A permit is free, with a sender, or used up by a batch that has not been taken yet; all of them together are
the capacity, and as long as one is free nobody waits (`Queue.Balanced`).  What each operation does to the
senders is told by one list (`Queue.senders`): a sender comes at its end when it asks, stays in it however
permits are handed round, and goes when it pushes or withdraws.
-/

namespace FailurePipeline

namespace Queue

/-- The senders that hold a permit, and behind them those that wait for one. -/
def senders (q : Queue) : List Agent := q.granted ++ q.waiting

/-- No permit is lost, and none is kept back from those who wait. -/
structure Balanced (q : Queue) : Prop where
  total : q.free + q.granted.length + q.buffer.length = q.capacity
  busy : q.waiting ≠ [] → q.free = 0

variable {q : Queue} {a : Agent}

/-! ### The senders -/

/-- A permit that is given back goes to who has waited longest. -/
@[simp] theorem release_granted (q : Queue) : q.release.granted = q.granted ++ q.waiting.take 1 := by
  unfold release
  split
  · next b rest hw => simp [hw]
  · next hw => simp [hw]

@[simp] theorem release_waiting (q : Queue) : q.release.waiting = q.waiting.drop 1 := by
  unfold release
  split
  · next b rest hw => simp [hw]
  · next hw => simp [hw]

@[simp] theorem join_granted (q : Queue) (a : Agent) : (q.join a).granted = q.granted := by
  unfold join
  split <;> rfl

@[simp] theorem join_waiting (q : Queue) (a : Agent) : (q.join a).waiting = q.waiting := by
  unfold join
  split <;> rfl

/-- The permit changes hands, but not the line of the senders. -/
@[simp] theorem senders_release (q : Queue) : q.release.senders = q.senders := by
  rw [senders, senders, release_granted, release_waiting, List.append_assoc, List.take_append_drop]

@[simp] theorem senders_join (q : Queue) (a : Agent) : (q.join a).senders = q.senders := by
  rw [senders, senders, join_granted, join_waiting]

@[simp] theorem senders_leave (q : Queue) (a : Agent) : (q.leave a).senders = q.senders := rfl

theorem senders_ask (hb : q.Balanced) (a : Agent) : (q.ask a).senders = q.senders ++ [a] := by
  unfold ask senders
  split
  · next hfree =>
    have hnone : q.waiting = [] := by
      cases hw : q.waiting with
      | nil => rfl
      | cons b rest =>
        have := hb.busy (by simp [hw])
        omega
    simp [hnone]
  · simp

theorem senders_push (ha : a ∈ q.granted) (b : Batch) : (q.push a b).senders = q.senders.erase a :=
  (List.erase_append_left _ ha).symm

theorem senders_withdraw (q : Queue) (a : Agent) : (q.withdraw a).senders = q.senders.erase a := by
  unfold withdraw
  split
  · next ha =>
    rw [senders_release]
    exact (List.erase_append_left _ ha).symm
  · next ha => exact (List.erase_append_right _ ha).symm

/-- Who is not in the line cannot go out of it. -/
theorem withdraw_of_not_mem (ha : a ∉ q.senders) : q.withdraw a = q := by
  obtain ⟨hgranted, hwaiting⟩ := not_or.1 (mt List.mem_append.2 ha)
  rw [withdraw, if_neg hgranted, List.erase_of_not_mem hwaiting]

theorem senders_of_take {b : Batch} {q' : Queue} (h : q.take a = some (b, q')) : q'.senders = q.senders := by
  obtain ⟨rest, -, -, rfl⟩ := eq_of_take h
  rw [senders_leave, senders_release]
  rfl

/-! ### The capacity -/

@[simp] theorem ask_capacity (q : Queue) (a : Agent) : (q.ask a).capacity = q.capacity := by
  unfold ask
  split <;> rfl

@[simp] theorem release_capacity (q : Queue) : q.release.capacity = q.capacity := by
  unfold release
  split <;> rfl

@[simp] theorem withdraw_capacity (q : Queue) (a : Agent) : (q.withdraw a).capacity = q.capacity := by
  unfold withdraw
  split
  · exact release_capacity _
  · rfl

@[simp] theorem join_capacity (q : Queue) (a : Agent) : (q.join a).capacity = q.capacity := by
  unfold join
  split <;> rfl

theorem capacity_of_take {b : Batch} {q' : Queue} (h : q.take a = some (b, q')) : q'.capacity = q.capacity := by
  obtain ⟨rest, -, -, rfl⟩ := eq_of_take h
  exact release_capacity _

/-! ### The balance -/

namespace Balanced

theorem create {capacity : Nat} (h : create? capacity = some q) : q.Balanced := by
  obtain ⟨-, rfl⟩ := eq_of_create? h
  constructor <;> simp

/-- A permit that is given back goes to somebody or is free. -/
theorem release (ht : q.free + q.granted.length + q.buffer.length + 1 = q.capacity)
    (hw : q.waiting ≠ [] → q.free = 0) : q.release.Balanced := by
  unfold Queue.release
  split
  · next b rest hwait =>
    have hfree : q.free = 0 := hw (by simp [hwait])
    constructor
    · simp only [List.length_append, List.length_singleton]
      omega
    · intro _
      exact hfree
  · next hnone =>
    constructor
    · simp only
      omega
    · intro h
      exact absurd hnone h

theorem ask (hb : q.Balanced) (a : Agent) : (q.ask a).Balanced := by
  have htotal := hb.total
  unfold Queue.ask
  split
  · next hfree =>
    constructor
    · simp only [List.length_append, List.length_singleton]
      omega
    · intro hw
      have := hb.busy hw
      omega
  · next hfree =>
    constructor
    · exact htotal
    · intro _
      simp only
      omega

theorem push (hb : q.Balanced) (ha : a ∈ q.granted) (b : Batch) : (q.push a b).Balanced := by
  have hlength := List.length_erase_of_mem ha
  have hpos := List.length_pos_of_mem ha
  have htotal := hb.total
  constructor
  · simp only [Queue.push, List.length_append, List.length_singleton]
    omega
  · exact hb.busy

theorem withdraw (hb : q.Balanced) (a : Agent) : (q.withdraw a).Balanced := by
  unfold Queue.withdraw
  split
  · next ha =>
    have hlength := List.length_erase_of_mem ha
    have hpos := List.length_pos_of_mem ha
    have htotal := hb.total
    apply release
    · simp only
      omega
    · exact hb.busy
  · refine ⟨hb.total, fun hw => hb.busy fun hnone => hw ?_⟩
    simp [hnone]

theorem of_take (hb : q.Balanced) {b : Batch} {q' : Queue} (h : q.take a = some (b, q')) : q'.Balanced := by
  obtain ⟨rest, hbuffer, -, rfl⟩ := eq_of_take h
  have htotal := hb.total
  rw [hbuffer, List.length_cons] at htotal
  have hrelease : ({ q with buffer := rest, delivered := q.delivered ++ [b] }.release).Balanced := by
    apply release
    · simp only
      omega
    · exact hb.busy
  exact ⟨hrelease.total, hrelease.busy⟩

theorem join (hb : q.Balanced) (a : Agent) : (q.join a).Balanced := by
  unfold Queue.join
  split
  · exact hb
  · exact ⟨hb.total, hb.busy⟩

theorem leave (hb : q.Balanced) (a : Agent) : (q.leave a).Balanced := ⟨hb.total, hb.busy⟩

/-- A queue that is full of batches has no permit for anybody. -/
theorem of_full (hb : q.Balanced) (hfull : q.buffer.length = q.capacity) : q.free = 0 ∧ q.granted = [] := by
  have htotal := hb.total
  refine ⟨by omega, List.eq_nil_of_length_eq_zero ?_⟩
  omega

theorem length_buffer_le (hb : q.Balanced) : q.buffer.length ≤ q.capacity := by
  have htotal := hb.total
  omega

/-- The size counts the batches and the permits that are held. -/
theorem size_eq (hb : q.Balanced) : q.size = q.granted.length + q.buffer.length := by
  have htotal := hb.total
  rw [size]
  omega

/-- Somebody waits only while batches and permits that are held take up all of the room. -/
theorem length_eq_of_mem_waiting (hb : q.Balanced) (ha : a ∈ q.waiting) :
    q.buffer.length + q.granted.length = q.capacity := by
  have hfree := hb.busy (List.ne_nil_of_mem ha)
  have htotal := hb.total
  omega

/-- Who asks gets a permit at once if there is room, and only then. -/
theorem mem_granted_ask (hb : q.Balanced) (ha : a ∉ q.granted) :
    a ∈ (q.ask a).granted ↔ q.buffer.length + q.granted.length < q.capacity := by
  have htotal := hb.total
  unfold Queue.ask
  split
  · simp only [List.mem_append, List.mem_singleton, or_true, true_iff]
    omega
  · simp only [ha, false_iff]
    omega

end Balanced

end Queue

end FailurePipeline
