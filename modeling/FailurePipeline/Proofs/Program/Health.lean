import FailurePipeline.Proofs.Pipeline.Acknowledgments
import FailurePipeline.Proofs.Program.Course

/-!
# The service gives no error

Where the jobs of a program are begun in turn and the consumer does not panic, the service is started when it is
new, nobody stops it before it has been seen running, and it ends by itself; so nothing that was asked of the
service is answered with an error (`World.Healthy`).
-/

namespace FailurePipeline

/-- The places of the jobs of a program. -/
theorem Program.place_of_jobs {intake : Intake} {i : Nat} {j : Job} (h : (jobs intake)[i]? = some j) :
    (i = 0 ∧ j = .start) ∨ (i = 1 ∧ j = .awaitRunning) ∨ (i = 2 ∧ j = .read intake) ∨ (i = 3 ∧ j = .stop) ∨
      (i = 4 ∧ j = .awaitTerminated) := by
  have hlt := (List.getElem?_eq_some_iff.1 h).1
  match i, hlt with
  | 0, _ | 1, _ | 2, _ | 3, _ | 4, _ =>
    obtain rfl := Option.some.inj h
    simp

namespace TaskPhase

/-- Whether a task starts the service. -/
def isStarting : TaskPhase → Bool
  | .starting | .spawning => true
  | _ => false

/-- Whether a task is about to start the service, or has got an error from it. -/
def isSuspect : TaskPhase → Bool
  | .starting | .finished (.service (.error _)) => true
  | _ => false

/-- Whether a task has an answer of the service. -/
def isAnswered : TaskPhase → Bool
  | .finished (.service _) => true
  | _ => false

end TaskPhase

namespace World

variable {w w' : World} {jobs : List Job} {intake : Intake}

/-- The service is new until the first task starts it, has a consumer once that is done, does not stop before
somebody begins to stop it, and is terminated when the last task is done; no task has got an error from it. -/
structure Healthy (jobs : List Job) (w : World) : Prop where
  new : w.tasks[0]? = none ∨ w.tasks[0]? = some .starting → w.service.state = .new
  spawned : ∀ p, w.tasks[0]? = some p → p = .starting ∨ p = .spawning ∨ w.service.consumer.isSome = true
  calm : .stop ∉ jobs → w.service.state ≤ .running
  ended : w.tasks[4]? = some (.finished (.service (.ok ()))) → w.service.state = .terminated
  faultless : ∀ (i : Nat) e, w.tasks[i]? ≠ some (.finished (.service (.error e)))

namespace Healthy

theorem fresh (hv : w.service = {}) (ht : w.tasks = []) : Healthy [] w := by
  refine ⟨fun _ => by rw [hv], by simp [ht], fun _ => ?_, by simp [ht], by simp [ht]⟩
  rw [hv]
  decide

theorem consumerMove (hh : Healthy jobs w) (hf : Flow jobs w) (hcrash : w.hasCrashed = false)
    (h : ConsumerMove w w') : Healthy jobs w' := by
  have ht := h.frame.1
  have htold : ∀ {p}, w.service.consumer = some p → p.isDraining = true → .stop ∈ jobs :=
    fun hp hd => hf.provenance.told (hf.closes _ hp hd)
  -- A service with a consumer is not new, and is terminated only if that has gone.
  have hgo : ∀ {v : World} {p p'}, w.service.consumer = some p → v.service.consumer = some p' →
      v.tasks = w.tasks → (.stop ∉ jobs → v.service.state ≤ .running) →
      (v.service.state = w.service.state ∨ ∀ c, p ≠ .gone c) → Healthy jobs v := by
    intro v p p' hp hp' htasks hcalm hstate
    have hstarted := hf.lifecycle.hasStarted_of_consumer hp
    refine ⟨fun hfirst => ?_, fun q hq => .inr (.inr (by rw [hp']; rfl)), hcalm, fun hlast => ?_,
      htasks ▸ hh.faultless⟩
    · have hnone := hf.lifecycle.new (hh.new (htasks ▸ hfirst))
      simp [hstarted] at hnone
    · have hterm := hh.ended (htasks ▸ hlast)
      rcases hstate with hsame | hno
      · rw [hsame, hterm]
      · obtain ⟨c, hc⟩ := hf.lifecycle.ended hterm hstarted
        exact absurd (Option.some.inj (hp.symm.trans hc)) (hno c)
  cases h with
  | idle => exact hh
  | launch h =>
    refine hgo h rfl ht (fun hstop => ?_) (.inr nofun)
    split
    · exact Nat.le_refl 2
    · exact hh.calm hstop
  | close h => exact hgo h rfl ht (fun hstop => absurd (htold h rfl) hstop) (.inr nofun)
  | leave crashed h =>
    refine hgo h rfl rfl (fun hstop => absurd (htold h ?_) hstop) (.inr nofun)
    cases crashed with
    | false => rfl
    | true => simp [hasCrashed, h, ConsumerPhase.hasCrashed] at hcrash
  | ask asked h hs => cases asked <;> exact hgo h rfl rfl hh.calm (.inl rfl)
  | hear a steady timed h hs => cases a <;> exact hgo h rfl rfl hh.calm (.inl rfl)
  | pollScript a steady timed count since h hs => cases a <;> exact hgo h rfl rfl hh.calm (.inl rfl)
  | _ => exact hgo (by assumption) rfl rfl hh.calm (.inl rfl)

/-- The job at a place among those of a program that have been begun. -/
private theorem job_at_place (hj : jobs <+: Program.jobs intake) {i : Nat} {j : Job} (hi : jobs[i]? = some j) :
    (Program.jobs intake)[i]? = some j := by
  obtain ⟨hlt, rfl⟩ := List.getElem?_eq_some_iff.1 hi
  exact (hj.getElem hlt) ▸ List.getElem?_eq_getElem _

/-- A task goes on, and all before it are done. -/
private theorem of_task (hh : Healthy jobs w) (hlen : w.tasks.length = jobs.length)
    (hj : jobs <+: Program.jobs intake) (hturn : ∀ i, i + 1 < jobs.length → w.IsDone i) {i : Nat}
    {p p' : TaskPhase} (hp : w.tasks[i]? = some p) (ht : w'.tasks = w.tasks.set i p') (hover : p.isOver = false)
    (hsound : p'.isSuspect = false)
    (hconsumer : w.service.consumer.isSome = true → w'.service.consumer.isSome = true)
    (hspawn : p.isStarting = true → p' = .spawning ∨ w'.service.consumer.isSome = true)
    (hcalm : .stop ∉ jobs → w'.service.state ≤ .running)
    (hend : i = 4 → p'.isAnswered = true → w'.service.state = .terminated) : Healthy jobs w' := by
  have hin := (List.getElem?_eq_some_iff.1 hp).1
  have hself : (w.tasks.set i p')[i]? = some p' := List.getElem?_set_self hin
  have hlast : i + 1 = jobs.length := by
    refine Nat.le_antisymm (hlen ▸ hin) (Nat.le_of_not_lt fun hlt => ?_)
    obtain ⟨r, hr⟩ := hturn i hlt
    obtain rfl : TaskPhase.finished r = p := Option.some.inj (hr.symm.trans hp)
    simp [TaskPhase.isOver] at hover
  -- So the first task can be the one that goes on only if it is the last as well.
  have hfive : jobs.length ≤ 5 := hj.length_le
  refine ⟨?_, ?_, hcalm, ?_, ?_⟩
  · rw [ht]
    intro hfirst
    by_cases hzero : i = 0
    · rw [← hzero, hself] at hfirst
      rcases hfirst with hfirst | hfirst
      · simp at hfirst
      · simp [Option.some.inj hfirst, TaskPhase.isSuspect] at hsound
    · obtain ⟨r, hr⟩ := hturn 0 (by omega)
      simp [List.getElem?_set_ne hzero, hr] at hfirst
  · rw [ht]
    intro q hq
    by_cases hzero : i = 0
    · rw [← hzero, hself] at hq
      obtain rfl := Option.some.inj hq
      rcases hh.spawned p (hzero ▸ hp) with rfl | rfl | hsome
      · exact .inr (hspawn rfl)
      · exact .inr (hspawn rfl)
      · exact .inr (.inr (hconsumer hsome))
    · rw [List.getElem?_set_ne hzero] at hq
      exact (hh.spawned q hq).imp_right fun h => h.imp_right hconsumer
  · rw [ht]
    intro hdone
    by_cases hfour : i = 4
    · rw [← hfour, hself] at hdone
      exact hend hfour (by rw [Option.some.inj hdone]; rfl)
    · have hlt := (List.getElem?_eq_some_iff.1 hdone).1
      rw [List.length_set] at hlt
      omega
  · rw [ht]
    intro k e hk
    rw [List.getElem?_set] at hk
    split at hk
    · next hik =>
      have hp' : p' = .finished (.service (.error e)) := by simpa [← hik, hin] using hk
      simp [hp', TaskPhase.isSuspect] at hsound
    · exact hh.faultless k e hk

/-- A task of a program goes through the phases of the job at its place. -/
private theorem place (hp : Provenance jobs w) (hj : jobs <+: Program.jobs intake) {i : Nat} {p : TaskPhase}
    (hi : w.tasks[i]? = some p) :
    ∃ j ∈ jobs, j.Serves w.config w.queue.accepted p ∧
      ((i = 0 ∧ j = .start) ∨ (i = 1 ∧ j = .awaitRunning) ∨ (i = 2 ∧ j = .read intake) ∨ (i = 3 ∧ j = .stop) ∨
        (i = 4 ∧ j = .awaitTerminated)) := by
  obtain ⟨j, hjob, hserves⟩ := hp.job hi
  exact ⟨j, List.mem_of_getElem? hjob, hserves, Program.place_of_jobs (job_at_place hj hjob)⟩

/-- Only the first task starts the service. -/
private theorem eq_zero_of_isStarting (hp : Provenance jobs w) (hj : jobs <+: Program.jobs intake) {i : Nat}
    {p : TaskPhase} (hi : w.tasks[i]? = some p) (hs : p.isStarting = true) : i = 0 := by
  obtain ⟨j, -, hserves, ⟨h, -⟩ | ⟨-, rfl⟩ | ⟨-, rfl⟩ | ⟨-, rfl⟩ | ⟨-, rfl⟩⟩ := place hp hj hi
  · exact h
  all_goals cases p <;> simp_all [TaskPhase.isStarting, Job.Serves]

/-- The service is stopped by a task that was begun to stop it. -/
private theorem stop_mem_of_stopping (hp : Provenance jobs w) (hj : jobs <+: Program.jobs intake) {i : Nat}
    (hi : w.tasks[i]? = some .stopping) : .stop ∈ jobs := by
  obtain ⟨j, hmem, hserves, ⟨-, rfl⟩ | ⟨-, rfl⟩ | ⟨-, rfl⟩ | ⟨-, rfl⟩ | ⟨-, rfl⟩⟩ := place hp hj hi <;>
    simp only [Job.Serves] at hserves
  exact hmem

/-- The second task waits for the service to run, and nobody has begun to stop it meanwhile. -/
private theorem stop_not_mem_of_awaitingRunning (hp : Provenance jobs w) (hj : jobs <+: Program.jobs intake)
    (hturn : ∀ i, i + 1 < jobs.length → w.IsDone i) {i : Nat} (hi : w.tasks[i]? = some .awaitingRunning) :
    i = 1 ∧ .stop ∉ jobs := by
  obtain ⟨j, -, hserves, ⟨-, rfl⟩ | ⟨rfl, rfl⟩ | ⟨-, rfl⟩ | ⟨-, rfl⟩ | ⟨-, rfl⟩⟩ := place hp hj hi <;>
    simp only [Job.Serves] at hserves
  have hlen : jobs.length ≤ 2 := by
    refine Nat.le_of_not_lt fun hlt => ?_
    obtain ⟨r, hr⟩ := hturn 1 hlt
    simp [hi] at hr
  refine ⟨rfl, fun hin => ?_⟩
  rw [List.prefix_iff_eq_take.1 hj] at hin
  have hsub := (List.take_sublist_take_left hlen).subset hin
  simp [Program.jobs] at hsub

/-- No task of a program answers with what became of a batch. -/
private theorem not_sending_answer (hp : Provenance jobs w) (hj : jobs <+: Program.jobs intake) {i : Nat}
    {q : SendPhase} {b : Batch} {r : TaskResult} : w.tasks[i]? ≠ some (.sending q b (.answer r)) := by
  intro hi
  obtain ⟨j, -, hserves, ⟨-, rfl⟩ | ⟨-, rfl⟩ | ⟨-, rfl⟩ | ⟨-, rfl⟩ | ⟨-, rfl⟩⟩ := place hp hj hi <;>
    simp [Job.Serves] at hserves

/-- A task goes on that has to do neither with starting nor with an answer of the service. -/
private theorem of_quiet (hh : Healthy jobs w) (hlen : w.tasks.length = jobs.length)
    (hj : jobs <+: Program.jobs intake) (hturn : ∀ i, i + 1 < jobs.length → w.IsDone i) {i : Nat}
    {p p' : TaskPhase} (hp : w.tasks[i]? = some p) (ht : w'.tasks = w.tasks.set i p') (hover : p.isOver = false)
    (hstarting : p.isStarting = false) (hsound : p'.isSuspect = false) (hanswered : p'.isAnswered = false)
    (hc : w'.service.consumer = w.service.consumer) (hcalm : .stop ∉ jobs → w'.service.state ≤ .running) :
    Healthy jobs w' := by
  refine hh.of_task hlen hj hturn hp ht hover hsound (hc ▸ id) (fun h => ?_) hcalm fun _ h => ?_
  · simp [hstarting] at h
  · simp [hanswered] at h

theorem taskMove (hh : Healthy jobs w) (hf : Flow jobs w) (hcrash : w.hasCrashed = false)
    (hj : jobs <+: Program.jobs intake) (hturn : ∀ i, i + 1 < jobs.length → w.IsDone i) {i : Nat}
    (h : TaskMove w i w') : Healthy jobs w' := by
  have hp := hf.provenance
  -- Each job has its place on the agenda, and begins when all before it are done.
  cases h with
  | idle => exact hh
  | answer b r h => exact absurd h (not_sending_answer hp hj)
  | start v h hv =>
    obtain ⟨-, rfl⟩ := eq_of_start hv
    exact hh.of_task hp.length hj hturn h rfl rfl rfl id (fun _ => .inl rfl) (fun _ => Nat.le_succ 1)
      fun _ h => Bool.noConfusion h
  | refuse e h he =>
    obtain rfl := eq_zero_of_isStarting hp hj h rfl
    simp [Service.start, hh.new (.inr h)] at he
  | spawnConsumer h =>
    obtain rfl := eq_zero_of_isStarting hp hj h rfl
    exact hh.of_task hp.length hj hturn h rfl rfl rfl (fun _ => rfl) (fun _ => .inr rfl) hh.calm
      fun h => Nat.noConfusion h
  | stop h =>
    have hstop := stop_mem_of_stopping hp hj h
    refine hh.of_quiet hp.length hj hturn h rfl rfl rfl ?_ ?_ (stop_frame w.service).2.1
      fun hno => absurd hstop hno
    · split <;> rfl
    · split <;> rfl
  | seeRunning h hr =>
    obtain ⟨rfl, hstop⟩ := stop_not_mem_of_awaitingRunning hp hj hturn h
    have hrunning : w.service.state = .running := by
      have hle := hh.calm hstop
      revert hle hr
      cases w.service.state <;> decide
    refine hh.of_task hp.length hj hturn h rfl rfl ?_ id (fun h => Bool.noConfusion h) hh.calm
      fun h => by simp at h
    simp [hrunning, TaskPhase.isSuspect]
  | join crashed h hc =>
    cases crashed with
    | false => exact hh.of_quiet hp.length hj hturn h rfl rfl rfl rfl rfl rfl hh.calm
    | true => simp [hasCrashed, hc, ConsumerPhase.hasCrashed] at hcrash
  | seeTerminated h ht =>
    exact hh.of_task hp.length hj hturn h rfl rfl rfl id (fun h => Bool.noConfusion h) hh.calm fun _ _ => ht
  | read intake h => split <;> exact hh.of_quiet hp.length hj hturn h rfl rfl rfl rfl rfl rfl hh.calm
  | _ => exact hh.of_quiet hp.length hj hturn (by assumption) rfl rfl rfl rfl rfl rfl hh.calm

private theorem spawn (hh : Healthy jobs w) (hlen : w.tasks.length = jobs.length) {j : Job}
    (hj : jobs ++ [j] <+: Program.jobs intake) : Healthy (jobs ++ [j]) (w.spawn j) := by
  obtain ⟨-, -, -, -, hv, -, ht⟩ := w.spawn_frame j
  have hnew : ∀ r, (w.firstPhase j).2 ≠ .finished r := by
    intro r
    cases j <;> simp [firstPhase]
  have hold : ∀ {i : Nat} {r}, (w.spawn j).tasks[i]? = some (.finished r) → w.tasks[i]? = some (.finished r) := by
    intro i r hi
    rw [ht, List.getElem?_append] at hi
    split at hi
    · exact hi
    · exact absurd (List.mem_singleton.1 (List.mem_of_getElem? hi)).symm (hnew r)
  refine ⟨fun hfirst => ?_, fun p hp => ?_, fun hstop => ?_, fun hlast => ?_, fun i e hi => ?_⟩
  · rw [hv]
    refine hh.new ?_
    cases hw : w.tasks with
    | nil => exact .inl rfl
    | cons p ps => simpa [ht, hw] using hfirst
  · rw [hv]
    cases hw : w.tasks with
    | nil =>
      have hnone : jobs = [] := List.eq_nil_of_length_eq_zero (by rw [← hlen, hw]; rfl)
      have hstart : j = .start := by simpa [hnone, Program.jobs] using hj
      subst hstart
      exact .inl (by simpa [ht, hw, firstPhase] using hp.symm)
    | cons q qs => exact hh.spawned p (by simpa [ht, hw] using hp)
  · rw [hv]
    exact hh.calm fun hin => hstop (List.mem_append_left _ hin)
  · rw [hv]
    exact hh.ended (hold hlast)
  · exact hh.faultless i e (hold hi)

/-- In a run of a program in which the consumer does not panic, nothing that is asked of the service fails. -/
theorem run {w₀ : World} {actions : List Action} (h : Orderly w₀ (Program.jobs intake) actions) (hf : Fresh w₀)
    (hcrash : ∀ first, Orderly w₀ (Program.jobs intake) first → (w₀.run first).hasCrashed = false) :
    Healthy (Action.jobs actions) (w₀.run actions) := by
  induction actions using List.reverseRecOn with
  | nil => exact .fresh hf.service hf.tasks
  | append_singleton actions a ih =>
    have hh := ih h.left
    have hflow := (Flow.fresh hf).run (h.left.beginsReceiver (by simp [Program.jobs]))
    have hcalm := hcrash actions h.left
    have hjobs : a.job? = none → Action.jobs (actions ++ [a]) = Action.jobs actions := by
      intro ha
      simp [Action.jobs, ha]
    rw [run_concat]
    refine step_cases (P := Healthy (Action.jobs (actions ++ [a]))) _ a (fun j hj => ?_) (fun i v ha hv => ?_)
      (fun v ha hv => ?_) fun _ _ ha _ => ?_
    · have hpre := h.jobs
      rw [Action.jobs_append, hj] at hpre ⊢
      exact hh.spawn hflow.provenance.length hpre
    · rw [hjobs ha]
      exact hh.taskMove hflow hcalm h.left.jobs (fun _ => h.left.isDone_of_lt) hv
    · rw [hjobs ha]
      exact hh.consumerMove hflow hcalm hv
    · rw [hjobs ha]
      exact ⟨hh.new, hh.spawned, hh.calm, hh.ended, hh.faultless⟩

end Healthy

end World

end FailurePipeline
