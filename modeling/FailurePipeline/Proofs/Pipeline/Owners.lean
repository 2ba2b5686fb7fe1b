import FailurePipeline.Proofs.Pipeline.Numbers
import FailurePipeline.Proofs.Pipeline.Provenance

/-!
# Every accepted batch has one owner

Where nobody reads an input, a batch belongs to one task from its making to the task's answer (`Owners`): no two
tasks own the same number, and the owner of an accepted batch has sent it and will report it, or has done so.
-/

namespace FailurePipeline

namespace TaskPhase

/-- Whether a task sends the batch with this number, or has reported it. -/
def owns (id : Nat) : TaskPhase → Bool
  | .sending _ b _ => b.id == id
  | .finished (.reported (some own) _) => own == id
  | _ => false

/-- Whether a task has got the batch with this number accepted. -/
def hasSent (id : Nat) (p : TaskPhase) : Bool := p.owns id && !p.carries id

end TaskPhase

def Job.isRead : Job → Bool
  | .read _ => true
  | _ => false

namespace World

/-- How many tasks own a number. -/
def owners (w : World) (id : Nat) : Nat := w.tasks.countP (·.owns id)

structure Owners (w : World) : Prop where
  given : GivenOnce w.owners w.nextId
  taken : ∀ b ∈ w.queue.accepted, ∃ (i : Nat) (p : TaskPhase), w.tasks[i]? = some p ∧ p.hasSent b.id = true

variable {w w' : World} {jobs : List Job}

/-- What a task that records a batch will answer is this batch, unless it reads an input. -/
private theorem recording_cases (hp : Provenance jobs w) (hr : ∀ j ∈ jobs, j.isRead = false) {i : Nat} {b : Batch}
    {after : AfterSend} (hi : w.tasks[i]? = some (.sending .recording b after)) :
    ∃ g, after = .answer (.reported (some b.id) g) := by
  obtain ⟨j, hj, hserves⟩ := hp.job hi
  have hno := hr j (List.mem_of_getElem? hj)
  cases j <;> simp only [Job.Serves] at hserves
  · exact ⟨_, hserves.2.1⟩
  · exact ⟨_, hserves.2.1⟩
  · simp [Job.isRead] at hno

/-- Once a task has got its batch accepted, it keeps to it. -/
theorem TaskMove.hasSent {i : Nat} (h : TaskMove w i w') (hp : Provenance jobs w)
    (hr : ∀ j ∈ jobs, j.isRead = false) {k id : Nat} {p : TaskPhase} (hk : w.tasks[k]? = some p)
    (hs : p.hasSent id = true) : ∃ p', w'.tasks[k]? = some p' ∧ p'.hasSent id = true := by
  -- Nobody but the task itself can change what it has sent.
  have hset : ∀ {v : World} {q q' : TaskPhase}, w.tasks[i]? = some q → v.tasks = w.tasks.set i q' →
      (q.hasSent id = true → q'.hasSent id = true) → ∃ p', v.tasks[k]? = some p' ∧ p'.hasSent id = true := by
    intro v q q' hi ht himp
    by_cases hik : i = k
    · subst hik
      obtain rfl : p = q := Option.some.inj (hk.symm.trans hi)
      refine ⟨q', ?_, himp hs⟩
      rw [ht, List.getElem?_set_self (List.getElem?_eq_some_iff.1 hi).1]
    · exact ⟨p, by rw [ht, List.getElem?_set_ne hik, hk], hs⟩
  cases h with
  | idle => exact ⟨p, hk, hs⟩
  | answer b r h =>
    obtain ⟨g, hg⟩ := recording_cases hp hr h
    cases hg
    exact hset h rfl fun hq => hq
  | readOn b intake h =>
    obtain ⟨g, hg⟩ := recording_cases hp hr h
    cases hg
  | read intake h => split <;> exact hset h rfl nofun
  | _ =>
    refine hset (by assumption) rfl fun hq => ?_
    simp [TaskPhase.hasSent, TaskPhase.owns, TaskPhase.carries] at hq

namespace Owners

theorem fresh {capacity : Nat} (hq : Queue.create? capacity = some w.queue) (ht : w.tasks = []) : Owners w := by
  have hnone : w.queue.accepted = [] := by rw [(Queue.eq_of_create? hq).2]
  refine ⟨⟨fun id => ?_, fun id _ => ?_⟩, ?_⟩ <;> simp [owners, ht, hnone]

/-- A task goes on with the batch that it owns, if any, or without. -/
private theorem of_task {i : Nat} {p p' : TaskPhase} (hg : GivenOnce w.owners w.nextId)
    (hi : w.tasks[i]? = some p) (ht : w'.tasks = w.tasks.set i p') (hid : w'.nextId = w.nextId)
    (hp : ∀ id, p'.owns id = true → p.owns id = true) : GivenOnce w'.owners w'.nextId := by
  refine hid ▸ hg.of_le fun id => ?_
  have hset := countP_set_add_toNat hi p' (·.owns id)
  have hle := toNat_le_toNat (hp id)
  rw [owners, owners, ht]
  omega

private theorem of_new {i : Nat} {p : TaskPhase} (hg : GivenOnce w.owners w.nextId)
    (hi : w.tasks[i]? = some p) (hp : ∀ id, p.owns id = false) (failures : Failures) (after : AfterSend) :
    GivenOnce ({ w with nextId := w.nextId + 1 }.setTask i
      (.sending .asking ⟨w.nextId, failures⟩ after)).owners (w.nextId + 1) := by
  refine hg.of_new fun id => ?_
  have hset : (w.tasks.set i (.sending .asking ⟨w.nextId, failures⟩ after)).countP (·.owns id) +
      (p.owns id).toNat = w.tasks.countP (·.owns id) + (w.nextId == id).toNat :=
    countP_set_add_toNat hi (.sending .asking ⟨w.nextId, failures⟩ after) (·.owns id)
  rw [hp] at hset
  simp only [owners, setTask, Bool.toNat_false] at hset ⊢
  omega

private theorem given_taskMove (hg : GivenOnce w.owners w.nextId) (hp : Provenance jobs w)
    (hr : ∀ j ∈ jobs, j.isRead = false) {i : Nat} (h : TaskMove w i w') : GivenOnce w'.owners w'.nextId := by
  cases h with
  | idle => exact hg
  | submit s failures h hf => exact of_new hg h (fun _ => rfl) failures _
  | report intake f h hf => exact of_new hg h (fun _ => rfl) (.input [f]) _
  | ask b after h => exact of_task hg h rfl rfl fun _ hq => hq
  | push b after h => exact of_task hg h rfl rfl fun _ hq => hq
  | answer b r h =>
    obtain ⟨g, hg'⟩ := recording_cases hp hr h
    cases hg'
    exact of_task hg h rfl rfl fun _ hq => hq
  | stop h =>
    refine of_task hg h rfl rfl fun id hc => ?_
    split at hc <;> simp [TaskPhase.owns] at hc
  | join crashed h hc =>
    refine of_task hg h rfl rfl fun id hc => ?_
    cases crashed <;> simp [TaskPhase.owns] at hc
  | read intake h => split <;> exact of_task hg h rfl rfl nofun
  | _ => exact of_task hg (by assumption) rfl rfl nofun

/-- A batch that is accepted with a step is the one that the task has sent. -/
private theorem accepted_taskMove {i : Nat} (h : TaskMove w i w') {b : Batch} (hb : b ∈ w'.queue.accepted) :
    b ∈ w.queue.accepted ∨ ∃ after, w'.tasks[i]? = some (.sending .recording b after) := by
  cases h with
  | push b' after h =>
    rcases List.mem_append.1 hb with hb | hb
    · exact .inl hb
    · obtain rfl := List.mem_singleton.1 hb
      exact .inr ⟨after, List.getElem?_set_self (List.getElem?_eq_some_iff.1 h).1⟩
  | ask => exact .inl ((Queue.ask_accepted ..) ▸ hb)
  | call => exact .inl ((Queue.join_accepted ..) ▸ hb)
  | abandonQueued => exact .inl ((Queue.withdraw_accepted ..) ▸ hb)
  | receive deadline b' q h ht => exact .inl ((Queue.of_take ht).2.1 ▸ hb)
  | read => split at hb <;> exact .inl hb
  | _ => exact .inl hb

theorem taskMove (ho : Owners w) (hp : Provenance jobs w) (hr : ∀ j ∈ jobs, j.isRead = false) {i : Nat}
    (h : TaskMove w i w') : Owners w' := by
  refine ⟨given_taskMove ho.given hp hr h, fun b hb => ?_⟩
  rcases accepted_taskMove h hb with hb | ⟨after, hi⟩
  · obtain ⟨k, p, hk, hs⟩ := ho.taken b hb
    obtain ⟨p', hk', hs'⟩ := h.hasSent hp hr hk hs
    exact ⟨k, p', hk', hs'⟩
  · exact ⟨i, _, hi, by simp [TaskPhase.hasSent, TaskPhase.owns, TaskPhase.carries]⟩

private theorem spawn (ho : Owners w) (j : Job) : Owners (w.spawn j) := by
  obtain ⟨-, -, -, hq, -, -, ht⟩ := w.spawn_frame j
  refine ⟨?_, fun b hb => ?_⟩
  · cases j with
    | send failures =>
      refine ho.given.of_new fun id => ?_
      have hlast : [(w.firstPhase (.send failures)).2].countP (·.owns id) = (w.nextId == id).toNat := by
        cases h : w.nextId == id <;> simp [firstPhase, newBatch, TaskPhase.owns, h]
      rw [← hlast]
      simp only [World.spawn, owners, List.countP_append]
      rfl
    | _ =>
      refine ho.given.of_le fun id => ?_
      simp [World.spawn, firstPhase, owners, TaskPhase.owns]
  · obtain ⟨i, p, hi, hs⟩ := ho.taken b (hq ▸ hb)
    exact ⟨i, p, by rw [ht, List.getElem?_append_left (List.getElem?_eq_some_iff.1 hi).1, hi], hs⟩

theorem step (ho : Owners w) (hp : Provenance jobs w) (hr : ∀ j ∈ jobs, j.isRead = false) (a : Action) :
    Owners (w.step a) := by
  refine step_cases w a (fun j _ => ho.spawn j) (fun _ _ _ h => ho.taskMove hp hr h) (fun v _ h => ?_)
    fun _ _ _ _ => ⟨ho.given, ho.taken⟩
  obtain ⟨ht, hid, -, -, hq, -⟩ := h.frame
  refine ⟨?_, ?_⟩
  · have hsame : v.owners = w.owners := by
      funext id
      rw [owners, owners, ht]
    rw [hsame, hid]
    exact ho.given
  · rw [hq, ht]
    exact ho.taken

/-- Two tasks that own the same number are the same. -/
theorem eq_of_owns (ho : Owners w) {i k id : Nat} {p q : TaskPhase} (hi : w.tasks[i]? = some p)
    (hk : w.tasks[k]? = some q) (hp : p.owns id = true) (hq : q.owns id = true) : i = k := by
  by_cases hik : i = k
  · exact hik
  · have hpos := countP_set_add_toNat hi .abandoned (·.owns id)
    have hi' : (w.tasks.set i .abandoned)[k]? = some q := by rw [List.getElem?_set_ne hik, hk]
    have hmem : 0 < (w.tasks.set i .abandoned).countP (·.owns id) :=
      List.countP_pos_iff.2 ⟨q, List.mem_of_getElem? hi', hq⟩
    have hone := ho.given.once id
    rw [owners] at hone
    rw [hp] at hpos
    simp only [Bool.toNat_true] at hpos
    have : ((TaskPhase.abandoned).owns id).toNat = 0 := rfl
    omega

end Owners

/-! ### Runs -/

theorem step_hasSent (hp : Provenance jobs w) (hr : ∀ j ∈ jobs, j.isRead = false) {k id : Nat} {p : TaskPhase}
    (hk : w.tasks[k]? = some p) (hs : p.hasSent id = true) (a : Action) :
    ∃ p', (w.step a).tasks[k]? = some p' ∧ p'.hasSent id = true := by
  refine step_cases (P := fun v => ∃ p', v.tasks[k]? = some p' ∧ p'.hasSent id = true) w a (fun j _ => ?_)
    (fun _ _ _ h => h.hasSent hp hr hk hs) (fun v _ h => ?_) fun _ _ _ _ => ⟨p, hk, hs⟩
  · refine ⟨p, ?_, hs⟩
    rw [(w.spawn_frame j).2.2.2.2.2.2, List.getElem?_append_left (List.getElem?_eq_some_iff.1 hk).1, hk]
  · exact ⟨p, by rw [h.frame.1, hk], hs⟩

private theorem isRead_cons {a : Action} {as : List Action}
    (hr : ∀ j ∈ jobs ++ Action.jobs (a :: as), j.isRead = false) :
    (∀ j ∈ jobs, j.isRead = false) ∧ ∀ j ∈ jobs ++ a.job?.toList ++ Action.jobs as, j.isRead = false := by
  refine ⟨fun j hj => hr j (List.mem_append_left _ hj), fun j hj => hr j ?_⟩
  rw [Action.jobs_cons, ← List.append_assoc]
  exact hj

theorem Owners.run (ho : Owners w) (hp : Provenance jobs w) {actions : List Action}
    (hr : ∀ j ∈ jobs ++ Action.jobs actions, j.isRead = false) : Owners (w.run actions) := by
  induction actions generalizing jobs w with
  | nil => exact ho
  | cons a as ih =>
    obtain ⟨hnow, hlater⟩ := isRead_cons hr
    exact ih (ho.step hp hnow a) (hp.step a) hlater

/-- Once a task has got its batch accepted, it keeps to it for the rest of a run. -/
theorem run_hasSent (hp : Provenance jobs w) {actions : List Action}
    (hr : ∀ j ∈ jobs ++ Action.jobs actions, j.isRead = false) {k id : Nat} {p : TaskPhase}
    (hk : w.tasks[k]? = some p) (hs : p.hasSent id = true) :
    ∃ p', (w.run actions).tasks[k]? = some p' ∧ p'.hasSent id = true := by
  induction actions generalizing jobs w p with
  | nil => exact ⟨p, hk, hs⟩
  | cons a as ih =>
    obtain ⟨hnow, hlater⟩ := isRead_cons hr
    obtain ⟨p', hk', hs'⟩ := step_hasSent hp hnow hk hs a
    exact ih (hp.step a) hlater hk' hs'

end World

end FailurePipeline
