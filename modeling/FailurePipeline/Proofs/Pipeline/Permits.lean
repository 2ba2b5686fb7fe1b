import FailurePipeline.Proofs.Pipeline.Moves
import FailurePipeline.Proofs.Queue.Permits

/-!
# Who stands in line for a permit

The senders that hold a permit or wait for one are exactly the tasks whose batch is on its way into the queue,
each of them once, and the permits stay balanced (`Permits`).  So a permit is never held by a task that is over,
and nobody waits twice.
-/

namespace FailurePipeline

/-- Whether a task holds a permit or waits for one. -/
def TaskPhase.isQueued : TaskPhase → Bool
  | .sending .queued _ _ => true
  | _ => false

namespace World

/-- Whether somebody holds a permit or waits for one; the consumer never does. -/
def isSender (w : World) : Agent → Bool
  | .task i => w.tasks[i]?.any (·.isQueued)
  | .consumer => false

structure Permits (w : World) : Prop where
  balanced : w.queue.Balanced
  nodup : w.queue.senders.Nodup
  senders : ∀ a, a ∈ w.queue.senders ↔ w.isSender a = true

variable {w w' : World}

theorem isSender_task {i : Nat} {p : TaskPhase} (hi : w.tasks[i]? = some p) : w.isSender (.task i) = p.isQueued := by
  simp [isSender, hi]

/-- A task that goes on changes only whether it is a sender itself. -/
theorem isSender_of_set {i : Nat} {p p' : TaskPhase} (hi : w.tasks[i]? = some p)
    (ht : w'.tasks = w.tasks.set i p') (a : Agent) :
    w'.isSender a = if a = .task i then p'.isQueued else w.isSender a := by
  have hlt := (List.getElem?_eq_some_iff.1 hi).1
  cases a with
  | consumer => simp [isSender]
  | task k =>
    by_cases hik : i = k
    · subst hik
      simp [isSender, ht, List.getElem?_set_self hlt]
    · have hne : ¬(Agent.task k = .task i) := by
        intro h
        exact hik (Agent.task.inj h).symm
      rw [if_neg hne, isSender, isSender, ht, List.getElem?_set_ne hik]

namespace Permits

theorem fresh {capacity : Nat} (hq : Queue.create? capacity = some w.queue) (ht : w.tasks = []) : Permits w := by
  have hnone : w.queue.senders = [] := by
    rw [(Queue.eq_of_create? hq).2]
    rfl
  refine ⟨.create hq, ?_, fun a => ?_⟩
  · rw [hnone]
    exact List.nodup_nil
  · cases a <;> simp [hnone, isSender, ht]

/-- A task goes on without coming to the line of the senders or leaving it. -/
private theorem of_task (hp : Permits w) {i : Nat} {p p' : TaskPhase} (hi : w.tasks[i]? = some p)
    (ht : w'.tasks = w.tasks.set i p') (hno : p.isQueued = false) (hno' : p'.isQueued = false)
    (hb : w'.queue.Balanced) (hs : w'.queue.senders = w.queue.senders) : Permits w' := by
  refine ⟨hb, hs ▸ hp.nodup, fun a => ?_⟩
  rw [hs, hp.senders, isSender_of_set hi ht]
  split
  · next h =>
    subst h
    rw [isSender_task hi, hno, hno']
  · exact Iff.rfl

/-- A task comes to the end of the line. -/
private theorem of_ask (hp : Permits w) {i : Nat} {p p' : TaskPhase} (hi : w.tasks[i]? = some p)
    (ht : w'.tasks = w.tasks.set i p') (hno : p.isQueued = false) (hyes : p'.isQueued = true)
    (hb : w'.queue.Balanced) (hs : w'.queue.senders = w.queue.senders ++ [.task i]) : Permits w' := by
  have hnew : Agent.task i ∉ w.queue.senders := by
    rw [hp.senders, isSender_task hi, hno]
    exact Bool.false_ne_true
  refine ⟨hb, ?_, fun a => ?_⟩
  · rw [hs, List.nodup_append]
    refine ⟨hp.nodup, List.pairwise_singleton .., ?_⟩
    rintro a ha b hb rfl
    obtain rfl := List.mem_singleton.1 hb
    exact hnew ha
  · rw [hs, List.mem_append, List.mem_singleton, isSender_of_set hi ht, hp.senders]
    by_cases h : a = .task i
    · simp [h, hyes]
    · simp [h]

/-- A task leaves the line. -/
private theorem of_erase (hp : Permits w) {i : Nat} {p p' : TaskPhase} (hi : w.tasks[i]? = some p)
    (ht : w'.tasks = w.tasks.set i p') (hno : p'.isQueued = false) (hb : w'.queue.Balanced)
    (hs : w'.queue.senders = w.queue.senders.erase (.task i)) : Permits w' := by
  refine ⟨hb, hs ▸ hp.nodup.erase _, fun a => ?_⟩
  rw [hs, hp.nodup.mem_erase_iff, isSender_of_set hi ht, hp.senders]
  by_cases h : a = .task i
  · simp [h, hno]
  · simp [h]

/-- Nobody's place in the line changes with a step of the consumer. -/
private theorem of_same (hp : Permits w) (ht : w'.tasks = w.tasks) (hb : w'.queue.Balanced)
    (hs : w'.queue.senders = w.queue.senders) : Permits w' := by
  refine ⟨hb, hs ▸ hp.nodup, fun a => ?_⟩
  rw [hs, hp.senders]
  cases a <;> simp [isSender, ht]

theorem consumerMove (hp : Permits w) (h : ConsumerMove w w') : Permits w' :=
  hp.of_same h.frame.1 (h.receives.balanced hp.balanced) h.receives.senders

theorem taskMove (hp : Permits w) {i : Nat} (h : TaskMove w i w') : Permits w' := by
  have hquiet : ∀ {v : World} {p p' : TaskPhase}, w.tasks[i]? = some p → v.tasks = w.tasks.set i p' →
      p.isQueued = false → p'.isQueued = false → v.queue = w.queue → Permits v := by
    intro v p p' hi ht hno hno' hq
    exact hp.of_task hi ht hno hno' (hq ▸ hp.balanced) (congrArg Queue.senders hq)
  cases h with
  | idle => exact hp
  | ask b after h =>
    exact hp.of_ask h rfl rfl rfl (hp.balanced.ask _) (Queue.senders_ask hp.balanced _)
  | push b after h hg =>
    exact hp.of_erase h rfl rfl (hp.balanced.push hg b) (Queue.senders_push hg b)
  | abandonQueued b after h =>
    exact hp.of_erase h rfl rfl (hp.balanced.withdraw _) (Queue.senders_withdraw ..)
  | receive deadline b q h ht =>
    exact hp.of_task h rfl rfl rfl (hp.balanced.of_take ht) (Queue.senders_of_take ht)
  | call limit h => exact hp.of_task h rfl rfl rfl (hp.balanced.join _) (Queue.senders_join ..)
  | expire deadline h ht hd => exact hp.of_task h rfl rfl rfl (hp.balanced.leave _) rfl
  | abandonReceiving deadline h => exact hp.of_task h rfl rfl rfl (hp.balanced.leave _) rfl
  | read intake h hf hr hi => split <;> exact hquiet h rfl rfl rfl rfl
  | stop h =>
    refine hquiet h rfl rfl ?_ rfl
    split <;> rfl
  | join crashed h hc =>
    refine hquiet h rfl rfl ?_ rfl
    cases crashed <;> rfl
  | _ => exact hquiet (by assumption) rfl rfl rfl rfl

private theorem spawn (hp : Permits w) (j : Job) : Permits (w.spawn j) := by
  obtain ⟨-, -, -, hq, -, -, ht⟩ := w.spawn_frame j
  have hlast : ((w.firstPhase j).2).isQueued = false := by cases j <;> rfl
  refine ⟨hq ▸ hp.balanced, hq ▸ hp.nodup, fun a => ?_⟩
  rw [hq, hp.senders]
  cases a with
  | consumer => exact Iff.rfl
  | task k =>
    rw [isSender, isSender, ht, List.getElem?_append]
    split
    · exact Iff.rfl
    · next hge =>
      have hnone : w.tasks[k]? = none := List.getElem?_eq_none (Nat.le_of_not_lt hge)
      rw [hnone]
      cases hk : k - w.tasks.length <;> simp [hlast]

theorem step (hp : Permits w) (a : Action) : Permits (w.step a) :=
  step_cases w a (fun j _ => hp.spawn j) (fun _ _ _ h => hp.taskMove h) (fun _ _ h => hp.consumerMove h)
    fun _ _ _ _ => ⟨hp.balanced, hp.nodup, hp.senders⟩

theorem run (hp : Permits w) (actions : List Action) : Permits (w.run actions) :=
  run_induction (A := fun _ => True) hp (fun _ a _ h => h.step a) fun _ _ => trivial

end Permits

/-! ### The capacity -/

/-- The capacity of the queue never changes. -/
theorem step_capacity (w : World) (a : Action) : (w.step a).queue.capacity = w.queue.capacity :=
  (w.step_queue a).capacity

theorem run_capacity (w : World) (actions : List Action) : (w.run actions).queue.capacity = w.queue.capacity := by
  induction actions generalizing w with
  | nil => rfl
  | cons a as ih => exact (ih (w.step a)).trans (w.step_capacity a)

end World

end FailurePipeline
