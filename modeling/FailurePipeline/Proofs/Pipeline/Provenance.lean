import FailurePipeline.Proofs.Pipeline.Moves
import Mathlib.Data.List.Induction

/-!
# What tasks do for their jobs

A task stays within the phases of its job, and what it sends and reports is what the job asked for:
`Job.Serves` says so for a single task, and `Provenance` for all tasks of a pipeline, which are in the order in
which their jobs were begun.
-/

namespace FailurePipeline

/-- The jobs that are begun in a run, in order. -/
def Action.jobs (actions : List Action) : List Job := actions.filterMap Action.job?

theorem Action.jobs_append (as bs : List Action) : jobs (as ++ bs) = jobs as ++ jobs bs := List.filterMap_append

theorem Action.jobs_cons (a : Action) (as : List Action) : jobs (a :: as) = a.job?.toList ++ jobs as := by
  cases hj : a.job? <;> simp [jobs, hj]

namespace Job

/-- What a batch that a task sends can be, how far it has come, and what the task will answer. -/
def Sends (accepted : List Batch) (goesOn : Option Bool) (made : Failures → Prop) (p : SendPhase) (b : Batch)
    (after : AfterSend) : Prop :=
  made b.failures ∧ after = .answer (.reported (some b.id) goesOn) ∧ (p = .recording → b ∈ accepted)

/-- The phases that a task goes through for its job. -/
def Serves (c : HandlingConfig) (accepted : List Batch) : Job → TaskPhase → Prop
  | .send failures, .sending p b after => Sends accepted none (· = failures) p b after
  | .send failures, .finished r =>
    ∃ b ∈ accepted, r = .reported (some b.id) none ∧ b.failures = failures
  | .submit s, .submitting s' => s' = s
  | .submit s, .sending p b after =>
    Sends accepted (s.goesOn? c) (fun fs => ∃ now, s.failures? c now = some fs) p b after
  | .submit s, .finished r =>
    (r = .reported none (s.goesOn? c) ∧ ∃ now, s.failures? c now = none) ∨
      ∃ b ∈ accepted, r = .reported (some b.id) (s.goesOn? c) ∧ ∃ now, s.failures? c now = some b.failures
  | .read _, .reading _ => True
  | .read _, .sending p b after => (p = .recording → b ∈ accepted) ∧ ∃ i, after = .readOn i
  | .read _, .finished r => ∃ i, r = .intake i
  | .receive _, .calling _ | .receive _, .receiving _ => True
  | .receive _, .finished r => ∃ b, r = .batch b
  | .start, .starting | .start, .spawning => True
  | .stop, .stopping | .stop, .telling => True
  | .stop, .finished r => r = .done
  | .awaitRunning, .awaitingRunning => True
  | .awaitTerminated, .claiming | .awaitTerminated, .joining | .awaitTerminated, .awaitingTerminated => True
  | .start, .finished r | .awaitRunning, .finished r | .awaitTerminated, .finished r => ∃ e, r = .service e
  | .send _, .abandoned | .submit _, .abandoned | .read _, .abandoned | .receive _, .abandoned => True
  | _, _ => False

variable {c : HandlingConfig} {accepted accepted' : List Batch}

/-- Batches that are accepted meanwhile change nothing. -/
theorem Serves.mono (ha : ∀ b ∈ accepted, b ∈ accepted') {j : Job} {p : TaskPhase} (h : j.Serves c accepted p) :
    j.Serves c accepted' p := by
  cases j <;> cases p <;> simp only [Serves, Sends] at h ⊢ <;> grind

end Job

namespace World

/-- The tasks are those of the jobs, in the same order, and only a job to stop has told the consumer to. -/
structure Provenance (jobs : List Job) (w : World) : Prop where
  length : w.tasks.length = jobs.length
  serves : ∀ (i : Nat) j p, jobs[i]? = some j → w.tasks[i]? = some p → j.Serves w.config w.queue.accepted p
  told : w.service.shutdown = true → .stop ∈ jobs

namespace Provenance

variable {jobs : List Job} {w w' : World}

theorem fresh (hv : w.service = {}) (ht : w.tasks = []) : Provenance [] w := by
  constructor <;> simp [hv, ht]

/-- The job of a task. -/
theorem job (hp : Provenance jobs w) {i : Nat} {p : TaskPhase} (hi : w.tasks[i]? = some p) :
    ∃ j, jobs[i]? = some j ∧ j.Serves w.config w.queue.accepted p := by
  have hlt : i < jobs.length := by
    have := (List.getElem?_eq_some_iff.1 hi).1
    rw [← hp.length]
    exact this
  exact ⟨jobs[i], List.getElem?_eq_getElem hlt, hp.serves i _ p (List.getElem?_eq_getElem hlt) hi⟩

/-- A task goes on within its job. -/
private theorem of_task (hp : Provenance jobs w) {i : Nat} {p p' : TaskPhase} (hi : w.tasks[i]? = some p)
    (ht : w'.tasks = w.tasks.set i p') (hc : w'.config = w.config)
    (ha : ∀ b ∈ w.queue.accepted, b ∈ w'.queue.accepted)
    (hs : w'.service.shutdown = true → w.service.shutdown = true ∨ p = .telling)
    (hnew : ∀ j : Job, j.Serves w.config w.queue.accepted p → j.Serves w.config w'.queue.accepted p') :
    Provenance jobs w' where
  length := by rw [ht, List.length_set, hp.length]
  serves k j q hj hq := by
    rw [ht, List.getElem?_set] at hq
    rw [hc]
    split at hq
    · next hik =>
      subst hik
      split at hq
      · cases hq
        exact hnew j (hp.serves i j p hj hi)
      · simp at hq
    · exact (hp.serves k j q hj hq).mono ha
  told hsh := by
    rcases hs hsh with h | rfl
    · exact hp.told h
    · obtain ⟨j, hj, hserves⟩ := hp.job hi
      cases j <;> simp only [Job.Serves] at hserves
      exact List.mem_of_getElem? hj

/-- A task goes on within its job, accepts nothing and tells the consumer nothing. -/
private theorem of_quiet (hp : Provenance jobs w) {i : Nat} {p p' : TaskPhase} (hi : w.tasks[i]? = some p)
    (ht : w'.tasks = w.tasks.set i p') (hc : w'.config = w.config) (hq : w'.queue.accepted = w.queue.accepted)
    (hs : w'.service.shutdown = w.service.shutdown)
    (hnew : ∀ j : Job, j.Serves w.config w.queue.accepted p → j.Serves w.config w.queue.accepted p') :
    Provenance jobs w' :=
  hp.of_task hi ht hc (fun _ hb => hq ▸ hb) (fun h => .inl (hs ▸ h)) (hq ▸ hnew)

theorem consumerMove (hp : Provenance jobs w) (h : ConsumerMove w w') : Provenance jobs w' := by
  obtain ⟨ht, -, hc, -, hq, hs⟩ := h.frame
  refine ⟨ht ▸ hp.length, ?_, hs ▸ hp.told⟩
  rw [hq, ht, hc]
  exact hp.serves

theorem taskMove (hp : Provenance jobs w) {i : Nat} (h : TaskMove w i w') : Provenance jobs w' := by
  -- In each case the phase tells which jobs it can serve, and `cases j` leaves just these.
  cases h with
  | idle => exact hp
  | submitNothing s h hf =>
    refine hp.of_quiet h rfl rfl rfl rfl fun j hj => ?_
    cases j <;> simp only [Job.Serves] at hj ⊢
    exact .inl ⟨by rw [hj], _, hj ▸ hf⟩
  | submit s failures h hf =>
    refine hp.of_quiet h rfl rfl rfl rfl fun j hj => ?_
    cases j <;> simp only [Job.Serves] at hj ⊢
    exact ⟨⟨_, hj ▸ hf⟩, by rw [hj], nofun⟩
  | ask b after h =>
    refine hp.of_quiet h rfl rfl (Queue.ask_accepted ..) rfl fun j hj => ?_
    cases j <;> simp only [Job.Serves, Job.Sends] at hj ⊢
    · exact ⟨hj.1, hj.2.1, nofun⟩
    · exact ⟨hj.1, hj.2.1, nofun⟩
    · exact ⟨nofun, hj.2⟩
  | push b after h hg =>
    refine hp.of_task h rfl rfl (fun b' hb' => List.mem_append_left _ hb') .inl fun j hj => ?_
    have hmem : b ∈ (w.queue.push (.task i) b).accepted := by simp
    cases j <;> simp only [Job.Serves, Job.Sends] at hj ⊢
    · exact ⟨hj.1, hj.2.1, fun _ => hmem⟩
    · exact ⟨hj.1, hj.2.1, fun _ => hmem⟩
    · exact ⟨fun _ => hmem, hj.2⟩
  | answer b r h =>
    refine hp.of_quiet h rfl rfl rfl rfl fun j hj => ?_
    cases j <;> simp only [Job.Serves, Job.Sends, AfterSend.answer.injEq] at hj ⊢
    · exact ⟨b, hj.2.2 trivial, hj.2.1, hj.1⟩
    · exact .inr ⟨b, hj.2.2 trivial, hj.2.1, hj.1⟩
    · simp at hj
  | readOn b intake h =>
    refine hp.of_quiet h rfl rfl rfl rfl fun j hj => ?_
    cases j <;> simp [Job.Serves, Job.Sends] at hj ⊢
  | endReading _ _ h | report _ _ h =>
    refine hp.of_quiet h rfl rfl rfl rfl fun j hj => ?_
    cases j <;> simp [Job.Serves] at hj ⊢
  | read intake h hf hr hi =>
    have hnew : ∀ j : Job, j.Serves w.config w.queue.accepted (.reading intake) →
        j.Serves w.config w.queue.accepted (.reading (intake.step w.surroundings.wall)) := by
      intro j hj
      cases j <;> simp [Job.Serves] at hj ⊢
    split <;> exact hp.of_quiet h rfl rfl rfl rfl hnew
  | receive deadline b q h ht =>
    refine hp.of_quiet h rfl rfl (Queue.of_take ht).2.1 rfl fun j hj => ?_
    cases j <;> simp [Job.Serves] at hj ⊢
  | call limit h =>
    refine hp.of_quiet h rfl rfl (Queue.join_accepted ..) rfl fun j hj => ?_
    cases j <;> simp [Job.Serves] at hj ⊢
  | start v h hv =>
    refine hp.of_quiet h rfl rfl rfl (start_frame hv).2.2 fun j hj => ?_
    cases j <;> simp [Job.Serves] at hj ⊢
  | stop h =>
    refine hp.of_quiet h rfl rfl rfl (stop_frame w.service).2.2 fun j hj => ?_
    cases j <;> simp only [Job.Serves] at hj
    split <;> simp [Job.Serves]
  | tell h =>
    refine hp.of_task h rfl rfl (fun _ hb => hb) (fun _ => .inr rfl) fun j hj => ?_
    cases j <;> simp [Job.Serves] at hj ⊢
  | join crashed h hc =>
    refine hp.of_quiet h rfl rfl rfl rfl fun j hj => ?_
    cases j <;> simp only [Job.Serves] at hj
    cases crashed <;> simp [Job.Serves]
  | abandonQueued b after h =>
    refine hp.of_quiet h rfl rfl (Queue.withdraw_accepted ..) rfl fun j hj => ?_
    cases j <;> simp only [Job.Serves] at hj ⊢
  | _ =>
    refine hp.of_quiet (by assumption) rfl rfl rfl rfl fun j hj => ?_
    cases j <;> simp [Job.Serves] at hj ⊢

private theorem firstPhase_serves (w : World) (c : HandlingConfig) (accepted : List Batch) (j : Job) :
    j.Serves c accepted (w.firstPhase j).2 := by
  cases j with
  | send failures => exact ⟨rfl, rfl, nofun⟩
  | submit s => rfl
  | _ => trivial

private theorem spawn (hp : Provenance jobs w) (j : Job) : Provenance (jobs ++ [j]) (w.spawn j) := by
  obtain ⟨-, hc, -, hq, hv, -, ht⟩ := w.spawn_frame j
  refine ⟨by simp [ht, hp.length], fun i k p hk hi => ?_, fun hs => ?_⟩
  · rw [hc, hq]
    rw [ht] at hi
    by_cases hlt : i < jobs.length
    · rw [List.getElem?_append_left hlt] at hk
      rw [List.getElem?_append_left (hp.length ▸ hlt)] at hi
      exact hp.serves i k p hk hi
    · have hle : jobs.length ≤ i := Nat.le_of_not_lt hlt
      rw [List.getElem?_append_right hle] at hk
      rw [List.getElem?_append_right (hp.length ▸ hle), hp.length] at hi
      have hlast : i - jobs.length = 0 := by
        have := (List.getElem?_eq_some_iff.1 hk).1
        simp only [List.length_singleton] at this
        omega
      rw [hlast] at hk hi
      obtain rfl : j = k := by simpa using hk
      obtain rfl : (w.firstPhase j).2 = p := by simpa using hi
      exact firstPhase_serves w _ _ j
  · exact List.mem_append_left _ (hp.told (hv ▸ hs))

theorem step (hp : Provenance jobs w) (a : Action) : Provenance (jobs ++ a.job?.toList) (w.step a) := by
  have hnone : a.job? = none → jobs ++ a.job?.toList = jobs := by
    intro h
    simp [h]
  refine step_cases (P := Provenance (jobs ++ a.job?.toList)) w a (fun j hj => ?_) (fun i v hj h => ?_)
    (fun v hj h => ?_) fun _ _ hj _ => ?_
  · rw [hj]
    exact hp.spawn j
  · rw [hnone hj]
    exact hp.taskMove h
  · rw [hnone hj]
    exact hp.consumerMove h
  · rw [hnone hj]
    exact ⟨hp.length, hp.serves, hp.told⟩

theorem run (hp : Provenance jobs w) (actions : List Action) :
    Provenance (jobs ++ Action.jobs actions) (w.run actions) := by
  induction actions generalizing jobs w with
  | nil => simpa [Action.jobs, World.run] using hp
  | cons a as ih =>
    rw [Action.jobs_cons, ← List.append_assoc]
    exact ih (hp.step a)

/-- There is no task before its job is begun. -/
theorem getElem?_eq_none (hp : Provenance [] w) {before as : List Action} (h : before <+: as) {i : Nat}
    (hi : (Action.jobs as).length = i) : (w.run before).tasks[i]? = none := by
  obtain ⟨rest, rfl⟩ := h
  have hlen := (hp.run before).length
  rw [List.nil_append] at hlen
  rw [Action.jobs_append, List.length_append] at hi
  exact List.getElem?_eq_none (by omega)

/-- What holds once a job is begun, and still holds with one action more, holds of every run with the job in it. -/
theorem induction_of_job (hp : Provenance [] w) {Q : List Action → Prop} {j : Job} {i : Nat}
    (begins : ∀ as, (Action.jobs as).length = i →
      (w.run (as ++ [.spawn j])).tasks[i]? = some ((w.run as).firstPhase j).2 → Q (as ++ [.spawn j]))
    (concat : ∀ as a, Q as → Q (as ++ [a])) {actions : List Action} (hj : (Action.jobs actions)[i]? = some j) :
    Q actions := by
  induction actions using List.reverseRecOn with
  | nil => simp [Action.jobs] at hj
  | append_singleton as a ih =>
    rw [Action.jobs_append] at hj
    by_cases hlt : i < (Action.jobs as).length
    · rw [List.getElem?_append_left hlt] at hj
      exact concat as a (ih hj)
    · rw [List.getElem?_append_right (Nat.le_of_not_lt hlt), Action.jobs_cons] at hj
      cases a with
      | spawn j' =>
        simp only [Action.job?, Option.toList_some, Action.jobs, List.filterMap_nil, List.append_nil,
          List.getElem?_singleton, Option.ite_none_right_eq_some, Option.some.injEq] at hj
        obtain ⟨hlast, rfl⟩ := hj
        have hi : (Action.jobs as).length = i := Nat.le_antisymm (Nat.le_of_not_lt hlt) (Nat.le_of_sub_eq_zero hlast)
        have hlen : (w.run as).tasks.length = i := by rw [(hp.run as).length, List.nil_append, hi]
        refine begins as hi ?_
        rw [run_concat, World.step, (spawn_frame _ _).2.2.2.2.2.2, ← hlen, List.getElem?_concat_length]
      | _ => simp [Action.jobs, Action.job?] at hj

end Provenance

end World

end FailurePipeline
