import FailurePipeline.Proofs.Pipeline.Moves

/-!
# A task that is not given up

Only an action that says so gives a task up (`abandoned_of_step`).  For a task that is not given up, a step of the
pipeline is a step of its own, or somebody else's that leaves it where it is (`step_cases_at`).  A task that sends
asks for a permit, pushes its batch once it holds one, and measures.
-/

namespace FailurePipeline

/-- Whether an action gives up the task with this number. -/
def Action.givesUp (i : Nat) : Action → Bool
  | .abandon k => k == i
  | _ => false

/-- What a task goes on with once its batch is in the queue and has been measured. -/
def AfterSend.next : AfterSend → TaskPhase
  | .answer r => .finished r
  | .readOn i => .reading i.accepted

namespace World

variable {w : World} {i k : Nat}

private theorem setTask_abandoned {v : World} {p : TaskPhase}
    (h : (v.setTask i p).tasks[k]? = some .abandoned) (ht : v.tasks = w.tasks) (hp : p ≠ .abandoned) :
    w.tasks[k]? = some .abandoned := by
  have hset : (w.tasks.set i p)[k]? = some .abandoned := by rwa [setTask, ht] at h
  rw [List.getElem?_set] at hset
  split at hset
  · split at hset
    · exact absurd (Option.some.inj hset) hp
    · simp at hset
  · exact hset

private theorem stepSending_abandoned {p : SendPhase} {b : Batch} {after : AfterSend}
    (h : (w.stepSending i p b after).tasks[k]? = some .abandoned) : w.tasks[k]? = some .abandoned := by
  unfold stepSending at h
  split at h
  · exact setTask_abandoned h rfl nofun
  · exact setTask_abandoned h rfl nofun
  · cases after with
    | answer r => exact setTask_abandoned h rfl nofun
    | readOn intake => exact setTask_abandoned h rfl nofun

private theorem stepReading_abandoned {intake : Intake}
    (h : (w.stepReading i intake).tasks[k]? = some .abandoned) : w.tasks[k]? = some .abandoned := by
  unfold stepReading at h
  split at h
  · exact setTask_abandoned h rfl nofun
  · exact setTask_abandoned h rfl nofun
  · refine setTask_abandoned h ?_ nofun
    split <;> rfl

/-- No task gives itself up. -/
theorem stepTask_abandoned (h : (w.stepTask i).tasks[k]? = some .abandoned) : w.tasks[k]? = some .abandoned := by
  unfold stepTask at h
  split at h
  · split at h
    · exact h
    · exact h
    · exact h
    · split at h <;> exact setTask_abandoned h rfl nofun
    · exact stepSending_abandoned h
    · exact stepReading_abandoned h
    · exact setTask_abandoned h rfl nofun
    · split at h
      · next b v htake =>
        obtain ⟨q, -, rfl⟩ := eq_of_take htake
        exact setTask_abandoned h rfl nofun
      · exact setTask_abandoned h rfl nofun
    · split at h <;> exact setTask_abandoned h rfl nofun
    · exact setTask_abandoned h rfl nofun
    · refine setTask_abandoned h rfl ?_
      split <;> exact nofun
    · exact setTask_abandoned h rfl nofun
    · exact setTask_abandoned h rfl nofun
    · split at h <;> exact setTask_abandoned h rfl nofun
    · split at h <;> exact setTask_abandoned h rfl nofun
    · exact setTask_abandoned h rfl nofun
  · exact h

/-- The cases of a step, seen from a task that is not given up with it. -/
theorem step_cases_at {P : World → Prop} (w : World) (a : Action) {i : Nat} (ha : a.givesUp i = false)
    (hi : w.tasks[i]? ≠ some .abandoned) (spawn : ∀ j, a = .spawn j → P (w.spawn j))
    (own : ∀ w', a = .task i → TaskMove w i w' → w'.tasks[i]? ≠ some .abandoned → P w')
    (other : ∀ k w', a.job? = none → k ≠ i → TaskMove w k w' → P w')
    (consumer : ∀ w', a.job? = none → ConsumerMove w w' → P w')
    (outside : ∀ source surroundings, a.job? = none → (w.source = .queue → source = .queue) →
      P { w with source := source, surroundings := surroundings }) : P (w.step a) := by
  refine step_cases_of w a spawn (fun k hk => ?_) (fun k hk => ?_) consumer outside
  · by_cases hki : k = i
    · subst hki
      exact own _ hk (stepTask_move w k) fun h => hi (stepTask_abandoned h)
    · exact other k _ (hk ▸ rfl) hki (stepTask_move w k)
  · have hki : k ≠ i := by
      rintro rfl
      simp [hk, Action.givesUp] at ha
    exact other k _ (hk ▸ rfl) hki (abandonTask_move w k)

/-! ### The steps of a sending -/

section Sending

variable {b : Batch} {after : AfterSend}

theorem step_asking (hi : w.tasks[i]? = some (.sending .asking b after)) :
    w.step (.task i) = { w with queue := w.queue.ask (.task i) }.setTask i (.sending .queued b after) := by
  have hcan : w.canStepTask i = true := by simp [canStepTask, hi]
  rw [step, stepTask, if_pos hcan, hi]
  rfl

theorem step_queued (hi : w.tasks[i]? = some (.sending .queued b after)) (hg : .task i ∈ w.queue.granted) :
    w.step (.task i) = { w with queue := w.queue.push (.task i) b }.setTask i (.sending .recording b after) := by
  have hcan : w.canStepTask i = true := by simp [canStepTask, hi, hg]
  rw [step, stepTask, if_pos hcan, hi]
  rfl

theorem step_recording (hi : w.tasks[i]? = some (.sending .recording b after)) :
    (w.step (.task i)).tasks[i]? = some after.next := by
  have hcan : w.canStepTask i = true := by simp [canStepTask, hi]
  have hlt := (List.getElem?_eq_some_iff.1 hi).1
  rw [step, stepTask, if_pos hcan, hi]
  cases after with
  | answer r => exact List.getElem?_set_self hlt
  | readOn intake => exact List.getElem?_set_self hlt

end Sending

end World

end FailurePipeline
