import FailurePipeline.Proofs.Lists
import FailurePipeline.Proofs.Pipeline.Moves

/-!
# Every batch has a number of its own

A batch is numbered when it is made, and then is on its way with one task until it is accepted or given up.
So no number is accepted twice (`Numbered.nodup`).
-/

namespace FailurePipeline

/-- Whether a task has a batch with this number that is not accepted yet. -/
def TaskPhase.carries (id : Nat) : TaskPhase → Bool
  | .sending .asking b _ | .sending .queued b _ => b.id == id
  | _ => false

theorem TaskPhase.carries_sending {p : SendPhase} (hp : p ≠ .recording) (b : Batch) (after : AfterSend) :
    (TaskPhase.sending p b after).carries b.id = true := by
  cases p with
  | recording => exact absurd rfl hp
  | _ => exact beq_self_eq_true b.id

namespace World

/-- The numbers of the accepted batches, in order. -/
def acceptedIds (w : World) : List Nat := w.queue.accepted.map (·.id)

/-- How often a number occurs among the accepted batches and those on their way. -/
def shares (w : World) (id : Nat) : Nat := w.acceptedIds.count id + w.tasks.countP (·.carries id)

end World

/-- Of each number below the next one there is at most one, and of later ones there is none. -/
structure GivenOnce (amount : Nat → Nat) (nextId : Nat) : Prop where
  once : ∀ id, amount id ≤ 1
  later : ∀ id, nextId ≤ id → amount id = 0

namespace GivenOnce

variable {amount amount' : Nat → Nat} {nextId : Nat}

/-- Nobody gets a number. -/
theorem of_le (h : GivenOnce amount nextId) (hs : ∀ id, amount' id ≤ amount id) : GivenOnce amount' nextId := by
  refine ⟨fun id => Nat.le_trans (hs id) (h.once id), fun id hlater => ?_⟩
  have := hs id
  have := h.later id hlater
  omega

/-- The next number is given. -/
theorem of_new (h : GivenOnce amount nextId) (hs : ∀ id, amount' id = amount id + (nextId == id).toNat) :
    GivenOnce amount' (nextId + 1) := by
  refine ⟨fun id => ?_, fun id hlater => ?_⟩
  · rw [hs]
    by_cases hid : nextId = id
    · have := h.later id (Nat.le_of_eq hid)
      simp [this, hid]
    · have hne : (nextId == id) = false := by simpa using hid
      rw [hne]
      exact h.once id
  · have hlt : nextId < id := by omega
    have hne : (nextId == id) = false := by simpa using Nat.ne_of_lt hlt
    rw [hs, h.later id (Nat.le_of_lt hlt), hne]
    rfl

end GivenOnce

theorem toNat_le_toNat {a b : Bool} (h : a = true → b = true) : a.toNat ≤ b.toNat := by
  cases a with
  | false => exact Nat.zero_le _
  | true => simp [h rfl]

namespace World

variable {w w' : World}

/-- Nobody gets a number, or the next one is given. -/
def GivesNumber (w w' : World) : Prop :=
  (w'.nextId = w.nextId ∧ ∀ id, w'.shares id ≤ w.shares id) ∨
    (w'.nextId = w.nextId + 1 ∧ ∀ id, w'.shares id = w.shares id + (w.nextId == id).toNat)

/-- A task goes on with the batch that it has, if any, or without. -/
private theorem givesNumber_of_task {i : Nat} {p p' : TaskPhase} (hi : w.tasks[i]? = some p)
    (ht : w'.tasks = w.tasks.set i p') (hq : w'.queue.accepted = w.queue.accepted) (hid : w'.nextId = w.nextId)
    (hp : ∀ id, p'.carries id = true → p.carries id = true) : GivesNumber w w' := by
  refine .inl ⟨hid, fun id => ?_⟩
  have hset := countP_set_add_toNat hi p' (·.carries id)
  have hle := toNat_le_toNat (hp id)
  unfold shares acceptedIds
  rw [hq, ht]
  omega

/-- A task makes a batch. -/
private theorem givesNumber_setTask {i : Nat} {p : TaskPhase} (hi : w.tasks[i]? = some p)
    (hp : ∀ id, p.carries id = false) (failures : Failures) (after : AfterSend) :
    GivesNumber w ({ w with nextId := w.nextId + 1 }.setTask i (.sending .asking ⟨w.nextId, failures⟩ after)) := by
  refine .inr ⟨rfl, fun id => ?_⟩
  have hset : (w.tasks.set i (.sending .asking ⟨w.nextId, failures⟩ after)).countP (·.carries id) +
      (p.carries id).toNat = w.tasks.countP (·.carries id) + (w.nextId == id).toNat :=
    countP_set_add_toNat hi (.sending .asking ⟨w.nextId, failures⟩ after) (·.carries id)
  rw [hp] at hset
  simp only [shares, setTask, acceptedIds, Bool.toNat_false] at hset ⊢
  omega

/-- A batch that is accepted is no longer on its way. -/
private theorem shares_push {i : Nat} {b : Batch} {after : AfterSend}
    (hi : w.tasks[i]? = some (.sending .queued b after)) (id : Nat) :
    ({ w with queue := w.queue.push (.task i) b }.setTask i (.sending .recording b after)).shares id =
      w.shares id := by
  have hset : (w.tasks.set i (.sending .recording b after)).countP (·.carries id) + (b.id == id).toNat =
      w.tasks.countP (·.carries id) := countP_set_add_toNat hi (.sending .recording b after) (·.carries id)
  have hone : [b.id].count id = (b.id == id).toNat := by
    cases h : b.id == id <;> simp [List.count_singleton, h]
  simp only [shares, setTask, acceptedIds, Queue.push_accepted, List.map_append, List.map_cons, List.map_nil,
    List.count_append, hone] at hset ⊢
  omega

theorem ConsumerMove.givesNumber (h : ConsumerMove w w') : GivesNumber w w' := by
  obtain ⟨ht, hid, -, -, hq, -⟩ := h.frame
  refine .inl ⟨hid, fun id => ?_⟩
  rw [shares, acceptedIds, hq, ht]
  exact Nat.le_refl _

theorem TaskMove.givesNumber {i : Nat} (h : TaskMove w i w') : GivesNumber w w' := by
  cases h with
  | idle => exact .inl ⟨rfl, fun _ => Nat.le_refl _⟩
  | submit s failures h hf => exact givesNumber_setTask h (fun _ => rfl) failures _
  | report intake f h hp => exact givesNumber_setTask h (fun _ => rfl) (.input [f]) _
  | ask b after h => exact givesNumber_of_task h rfl (Queue.ask_accepted ..) rfl fun _ h => h
  | push b after h hg => exact .inl ⟨rfl, fun id => Nat.le_of_eq (shares_push h id)⟩
  | call limit h => exact givesNumber_of_task h rfl (Queue.join_accepted ..) rfl nofun
  | receive deadline b q h ht => exact givesNumber_of_task h rfl (Queue.of_take ht).2.1 rfl nofun
  | abandonQueued b after h => exact givesNumber_of_task h rfl (Queue.withdraw_accepted ..) rfl nofun
  | read intake h hf hr hi => split <;> exact givesNumber_of_task h rfl rfl rfl nofun
  | stop h =>
    refine givesNumber_of_task h rfl rfl rfl fun id hc => ?_
    split at hc <;> simp [TaskPhase.carries] at hc
  | join crashed h hc =>
    refine givesNumber_of_task h rfl rfl rfl fun id hc => ?_
    cases crashed <;> simp [TaskPhase.carries] at hc
  | _ => exact givesNumber_of_task (by assumption) rfl rfl rfl nofun

private theorem givesNumber_spawn (w : World) (j : Job) : GivesNumber w (w.spawn j) := by
  cases j with
  | send failures =>
    refine .inr ⟨rfl, fun id => ?_⟩
    have hlast : [(w.firstPhase (.send failures)).2].countP (·.carries id) = (w.nextId == id).toNat := by
      cases h : w.nextId == id <;> simp [firstPhase, newBatch, TaskPhase.carries, h]
    rw [← hlast]
    simp only [World.spawn, shares, List.countP_append]
    exact (Nat.add_assoc ..).symm
  | _ =>
    refine .inl ⟨rfl, fun id => ?_⟩
    simp [World.spawn, firstPhase, shares, acceptedIds, TaskPhase.carries]

/-- A step gives one number at most, and no number becomes more often than it was given. -/
theorem step_givesNumber (w : World) (a : Action) : GivesNumber w (w.step a) :=
  step_cases w a (fun j _ => givesNumber_spawn w j) (fun _ _ _ h => h.givesNumber) (fun _ _ h => h.givesNumber)
    fun _ _ _ _ => .inl ⟨rfl, fun _ => Nat.le_refl _⟩

/-- A number that has been given is with one task or in the queue at most. -/
structure Numbered (w : World) : Prop where
  given : GivenOnce w.shares w.nextId

namespace Numbered

theorem fresh {capacity : Nat} (hq : Queue.create? capacity = some w.queue) (ht : w.tasks = []) : Numbered w := by
  have hnone : ∀ id, w.shares id = 0 := by
    intro id
    simp [shares, acceptedIds, ht, (Queue.eq_of_create? hq).2]
  exact ⟨⟨fun id => by simp [hnone], fun id _ => hnone id⟩⟩

theorem nodup (hn : Numbered w) : w.acceptedIds.Nodup := by
  rw [List.nodup_iff_count]
  intro id
  have := hn.given.once id
  unfold shares at this
  omega

/-- The number of a batch that is on its way is given, and not to an accepted batch. -/
theorem of_carries (hn : Numbered w) {i id : Nat} {p : TaskPhase} (hi : w.tasks[i]? = some p)
    (hp : p.carries id = true) : id < w.nextId ∧ id ∉ w.acceptedIds ∧ w.tasks.countP (·.carries id) = 1 := by
  have hcarried : 0 < w.tasks.countP (·.carries id) := List.countP_pos_iff.2 ⟨p, List.mem_of_getElem? hi, hp⟩
  have honce := hn.given.once id
  rw [shares] at honce
  refine ⟨Nat.lt_of_not_le fun hlater => ?_, List.count_eq_zero.1 (by omega), by omega⟩
  have hnone := hn.given.later id hlater
  rw [shares] at hnone
  omega

theorem step (hn : Numbered w) (a : Action) : Numbered (w.step a) := by
  rcases step_givesNumber w a with ⟨hid, hle⟩ | ⟨hid, hnew⟩
  · exact ⟨hid ▸ hn.given.of_le hle⟩
  · exact ⟨hid ▸ hn.given.of_new hnew⟩

theorem run (hn : Numbered w) (actions : List Action) : Numbered (w.run actions) :=
  run_induction (A := fun _ => True) hn (fun _ a _ h => h.step a) fun _ _ => trivial

end Numbered

/-- A number that nothing has any more is never given again. -/
theorem shares_run {id : Nat} (hlt : id < w.nextId) (hnone : w.shares id = 0) (actions : List Action) :
    (w.run actions).shares id = 0 := by
  induction actions generalizing w with
  | nil => exact hnone
  | cons a as ih =>
    rcases step_givesNumber w a with ⟨hid, hle⟩ | ⟨hid, hnew⟩
    · exact ih (hid ▸ hlt) (Nat.eq_zero_of_le_zero (hnone ▸ hle id))
    · have hne : (w.nextId == id) = false := by simpa using Nat.ne_of_gt hlt
      refine ih (by rw [hid]; omega) ?_
      rw [hnew, hnone, hne]
      rfl

end World

end FailurePipeline
