import FailurePipeline.Proofs.Pipeline.Provenance
import FailurePipeline.Proofs.Service.Transitions

/-!
# A service goes one way

However those who start, stop and await a service and its consumer go on side by side, and wherever the consumer
panics, the service goes through its states once and upwards, is started once, and calls no handler after its
end: `OneWay` collects what holds at any moment of a run, and `service_goes_one_way` says that it does.
-/

namespace FailurePipeline

namespace World

variable {w w' : World} {jobs : List Job}

/-! ### Starting once -/

/-- The task was begun to start the service, and has succeeded, or has only to spawn the consumer. -/
def StartedBy (jobs : List Job) (w : World) (i : Nat) : Prop :=
  jobs[i]? = some .start ∧
    (w.tasks[i]? = some .spawning ∨ w.tasks[i]? = some (.finished (.service (.ok ()))))

structure OneStart (jobs : List Job) (w : World) : Prop where
  started : ∀ i, StartedBy jobs w i → w.hasStarted = true
  unique : ∀ i k, StartedBy jobs w i → StartedBy jobs w k → i = k
  spawned : w.service.spawned = w.service.consumer.isSome.toNat

/-- That a service has been started is not undone. -/
theorem hasStarted_of_changes (h : Changes w w') (hs : w.hasStarted = true) : w'.hasStarted = true := by
  rcases h with ⟨-, hp⟩ | ⟨-, hp⟩
  · rw [hasStarted, hp]
    exact hs
  · rw [hasStarted, List.contains_iff_mem] at hs ⊢
    rw [hp]
    exact List.mem_append_left _ hs

/-- Only a task that finds the service new comes to have started it. -/
private theorem startedBy_of_taskMove (hp : Provenance jobs w) {i k : Nat} (h : TaskMove w i w')
    (hk : StartedBy jobs w' k) :
    StartedBy jobs w k ∨ (k = i ∧ w.service.state = .new ∧ w'.hasStarted = true) := by
  obtain ⟨hjob, hphase⟩ := hk
  rcases h.tasks with rfl | ⟨p, p', hi, hover, hset⟩
  · exact .inl ⟨hjob, hphase⟩
  · by_cases hki : k = i
    · subst hki
      have hserves := hp.serves k .start p hjob hi
      cases p <;> simp only [Job.Serves, TaskPhase.isOver, Bool.true_eq_false] at hserves hover
      · -- A task that is about to start either starts the service or is refused.
        have hlt := (List.getElem?_eq_some_iff.1 hi).1
        cases h with
        | start v h hv =>
          obtain ⟨hn, rfl⟩ := eq_of_start hv
          exact .inr ⟨rfl, hn, by simp [hasStarted, setTask, Service.publish]⟩
        | refuse e h he => simp [setTask, hlt] at hphase
        | idle => exact .inl ⟨hjob, hphase⟩
        | _ => simp_all
      · exact .inl ⟨hjob, .inl hi⟩
    · rw [hset, List.getElem?_set_ne (Ne.symm hki)] at hphase
      exact .inl ⟨hjob, hphase⟩

namespace OneStart

theorem fresh (hv : w.service = {}) : OneStart [] w := by
  constructor <;> simp [StartedBy, hv]

theorem taskMove (ho : OneStart jobs w) (hl : Lifecycle w) (hp : Provenance jobs w) {i : Nat}
    (h : TaskMove w i w') : OneStart jobs w' := by
  have hnone : w.service.state = .new → ∀ k, ¬ StartedBy jobs w k := by
    intro hn k hk
    have := ho.started k hk
    simp [hl.new hn] at this
  refine ⟨fun k hk => ?_, fun k k' hk hk' => ?_, ?_⟩
  · rcases startedBy_of_taskMove hp h hk with hk | ⟨-, -, hs⟩
    · exact hasStarted_of_changes (changes_of_taskMove h) (ho.started k hk)
    · exact hs
  · rcases startedBy_of_taskMove hp h hk with hk | ⟨rfl, hn, -⟩ <;>
      rcases startedBy_of_taskMove hp h hk' with hk' | ⟨rfl, hn', -⟩
    · exact ho.unique k k' hk hk'
    · exact absurd hk (hnone hn' k)
    · exact absurd hk' (hnone hn k')
    · rfl
  · have hspawned := ho.spawned
    cases h with
    | spawnConsumer h => simp [setTask, Service.spawn, hspawned, hl.consumer_eq_none h]
    | start v h hv =>
      obtain ⟨-, rfl⟩ := eq_of_start hv
      exact hspawned
    | stop h =>
      rcases w.service.stop_cases with ⟨-, hstop⟩ | ⟨-, hstop⟩ | ⟨-, hstop⟩ <;> rw [hstop] <;> exact hspawned
    | read => split <;> exact hspawned
    | _ => exact hspawned

theorem consumerMove (ho : OneStart jobs w) (hl : Lifecycle w) (h : ConsumerMove w w') : OneStart jobs w' := by
  have htasks := h.frame.1
  have hstarted : ∀ k, StartedBy jobs w' k → StartedBy jobs w k := by
    intro k hk
    rw [StartedBy, htasks] at hk
    exact hk
  refine ⟨fun k hk => ?_, fun k k' hk hk' => ho.unique k k' (hstarted k hk) (hstarted k' hk'), ?_⟩
  · exact hasStarted_of_changes (hl.changes_of_consumerMove h) (ho.started k (hstarted k hk))
  · have hspawned := ho.spawned
    have hone : ∀ {v : World} {p p'}, w.service.consumer = some p → v.service.consumer = some p' →
        v.service.spawned = w.service.spawned → v.service.spawned = v.service.consumer.isSome.toNat := by
      intro v p p' hp hp' hs
      rw [hs, hspawned, hp, hp']
      rfl
    cases h with
    | idle => exact hspawned
    | launch h => split <;> exact hone h rfl rfl
    | close h => split <;> exact hone h rfl rfl
    | hear a steady timed h => cases a <;> exact hone h rfl rfl
    | pollScript a steady timed count since h => cases a <;> exact hone h rfl rfl
    | ask asked h => cases asked <;> exact hone h rfl rfl
    | _ => exact hone (by assumption) rfl rfl

private theorem spawn (ho : OneStart jobs w) (hp : Provenance jobs w) (j : Job) :
    OneStart (jobs ++ [j]) (w.spawn j) := by
  obtain ⟨-, -, -, -, hv, -, ht⟩ := w.spawn_frame j
  have hold : ∀ k, StartedBy (jobs ++ [j]) (w.spawn j) k → StartedBy jobs w k := by
    rintro k ⟨hjob, hphase⟩
    rw [ht] at hphase
    by_cases hlt : k < jobs.length
    · rw [List.getElem?_append_left hlt] at hjob
      rw [List.getElem?_append_left (hp.length ▸ hlt)] at hphase
      exact ⟨hjob, hphase⟩
    · -- The task that is begun has not started anything yet.
      have hle : jobs.length ≤ k := Nat.le_of_not_lt hlt
      rw [List.getElem?_append_right hle] at hjob
      rw [List.getElem?_append_right (hp.length ▸ hle), hp.length] at hphase
      have hlast : k - jobs.length = 0 := by
        have := (List.getElem?_eq_some_iff.1 hjob).1
        simp only [List.length_singleton] at this
        omega
      rw [hlast] at hjob hphase
      obtain rfl : j = .start := by simpa using hjob
      simp [firstPhase] at hphase
  refine ⟨fun k hk => ?_, fun k k' hk hk' => ho.unique k k' (hold k hk) (hold k' hk'), ?_⟩
  · rw [hasStarted, hv]
    exact ho.started k (hold k hk)
  · rw [hv]
    exact ho.spawned

theorem step (ho : OneStart jobs w) (hl : Lifecycle w) (hp : Provenance jobs w) (a : Action) :
    OneStart (jobs ++ a.job?.toList) (w.step a) := by
  have hnone : a.job? = none → jobs ++ a.job?.toList = jobs := by
    intro h
    simp [h]
  refine step_cases (P := OneStart (jobs ++ a.job?.toList)) w a (fun j hj => ?_) (fun i v hj h => ?_)
    (fun v hj h => ?_) fun _ _ hj _ => ?_
  · rw [hj]
    exact ho.spawn hp j
  · rw [hnone hj]
    exact ho.taskMove hl hp h
  · rw [hnone hj]
    exact ho.consumerMove hl h
  · rw [hnone hj]
    exact ⟨ho.started, ho.unique, ho.spawned⟩

theorem run (ho : OneStart jobs w) (hl : Lifecycle w) (hp : Provenance jobs w) (actions : List Action) :
    OneStart (jobs ++ Action.jobs actions) (w.run actions) := by
  induction actions generalizing jobs w with
  | nil => simpa [Action.jobs, World.run] using ho
  | cons a as ih =>
    rw [Action.jobs_cons, ← List.append_assoc]
    exact ih (ho.step hl hp a) (hl.step a) (hp.step a)

end OneStart

/-! ### Quiet after the end -/

/-- There is no consumer any more when the service is terminated. -/
theorem Lifecycle.consumer_over (hl : Lifecycle w) (ht : w.service.state = .terminated) :
    w.service.consumer = none ∨ ∃ c, w.service.consumer = some (.gone c) := by
  cases hc : w.service.consumer with
  | none => exact .inl rfl
  | some p =>
    obtain ⟨c, hgone⟩ := hl.ended ht (hl.hasStarted_of_consumer hc)
    exact .inr ⟨c, hc.symm.trans hgone⟩

/-- A consumer that has gone, or was never there, does nothing. -/
theorem ConsumerMove.eq_of_over (h : ConsumerMove w w')
    (hc : w.service.consumer = none ∨ ∃ c, w.service.consumer = some (.gone c)) : w' = w := by
  have hno : ∀ {p}, w.service.consumer = some p → (∀ c, p ≠ .gone c) → False := by
    intro p hp hg
    rcases hc with hc | ⟨c, hc⟩
    · simp [hc] at hp
    · exact hg c (Option.some.inj (hp.symm.trans hc))
  cases h with
  | idle => rfl
  | crash p h hl hg => exact (hno h hg).elim
  | _ =>
    refine (hno (by assumption) ?_).elim
    exact nofun

/-- A terminated service stays so, and nothing is done in its workplace but measuring. -/
theorem step_of_terminated (hl : Lifecycle w) (ht : w.service.state = .terminated) (a : Action) :
    (w.step a).service.state = .terminated ∧
      ∃ recorder, (w.step a).workplace = { w.workplace with recorder := recorder } := by
  constructor
  · exact (hl.step_changes a).terminated ht
  · refine step_cases (P := fun v => ∃ recorder, v.workplace = { w.workplace with recorder := recorder }) w a
      (fun j _ => ?_) (fun i v _ h => h.workplace) (fun v _ h => ?_) fun _ _ _ _ => ⟨w.workplace.recorder, rfl⟩
    · rw [(w.spawn_frame j).2.2.2.2.2.1]
      exact ⟨w.workplace.recorder, rfl⟩
    · rw [h.eq_of_over (hl.consumer_over ht)]
      exact ⟨w.workplace.recorder, rfl⟩

theorem run_of_terminated (hl : Lifecycle w) (ht : w.service.state = .terminated) (actions : List Action) :
    ∃ recorder, (w.run actions).workplace = { w.workplace with recorder := recorder } := by
  induction actions generalizing w with
  | nil => exact ⟨w.workplace.recorder, rfl⟩
  | cons a as ih =>
    obtain ⟨ht', recorder, hplace⟩ := step_of_terminated hl ht a
    obtain ⟨recorder', hrest⟩ := ih (hl.step a) ht'
    refine ⟨recorder', ?_⟩
    rw [run, List.foldl_cons]
    rw [run] at hrest
    rw [hrest, hplace]

/-! ### Calls that come too late -/

/-- A start that does not find a new service is refused, and nothing else happens. -/
theorem stepTask_of_refused {i : Nat} (hi : w.tasks[i]? = some .starting) (hs : w.service.state ≠ .new) :
    w.step (.task i) = w.setTask i (.finished (.service (.error (.invalidState .start w.service.state)))) := by
  have hcan : w.canStepTask i = true := by simp [canStepTask, hi]
  have hrefuse : w.service.start = .error (.invalidState .start w.service.state) := by simp [Service.start, hs]
  rw [step, stepTask, if_pos hcan, hi]
  simp only [hrefuse]

/-- A stop that finds a service that stops, or has ended, does nothing. -/
theorem stepTask_of_ignored {i : Nat} (hi : w.tasks[i]? = some .stopping)
    (hs : w.service.state = .stopping ∨ w.service.state = .terminated) :
    w.step (.task i) = w.setTask i (.finished .done) := by
  have hcan : w.canStepTask i = true := by simp [canStepTask, hi]
  have hstop : w.service.stop = (w.service, false) := by
    rcases hs with hs | hs <;> simp [Service.stop, hs]
  rw [step, stepTask, if_pos hcan, hi]
  simp [hstop]

/-! ### All of it together -/

/-- What holds of the service at any moment, whatever is done next. -/
structure OneWay (jobs : List Job) (w : World) : Prop where
  /-- The states that have been published went up. -/
  ascending : Ascending w
  /-- Every change of state is one of those that are listed. -/
  changes : ∀ a, Changes w (w.step a)
  startedOnce : ∀ i k, StartedBy jobs w i → StartedBy jobs w k → i = k
  spawnedOnce : w.service.spawned ≤ 1
  refuses : ∀ i, w.tasks[i]? = some .starting → w.service.state ≠ .new →
    w.step (.task i) = w.setTask i (.finished (.service (.error (.invalidState .start w.service.state))))
  ignores : ∀ i, w.tasks[i]? = some .stopping →
    w.service.state = .stopping ∨ w.service.state = .terminated →
    w.step (.task i) = w.setTask i (.finished .done)
  /-- After the end no handler and no acknowledger is called, and nothing is counted for the dispatches. -/
  quiet : w.service.state = .terminated → ∀ more,
    ∃ recorder, (w.run more).workplace = { w.workplace with recorder := recorder }

variable {w₀ : World}

/-- A new service goes up through its states, is started and gets a consumer at most once, and is quiet after its
end, in every run. -/
theorem service_goes_one_way (hv : w₀.service = {}) (ht : w₀.tasks = []) (actions : List Action) :
    OneWay (Action.jobs actions) (w₀.run actions) := by
  have hfresh : Lifecycle w₀ := .fresh hv ht
  have hlife := hfresh.run actions
  have hone : OneStart (Action.jobs actions) (w₀.run actions) :=
    (OneStart.fresh hv).run hfresh (.fresh hv ht) actions
  refine ⟨(Ascending.fresh hv).run hfresh actions, hlife.step_changes, hone.unique, ?_,
    fun i => stepTask_of_refused, fun i => stepTask_of_ignored, fun hterm more => run_of_terminated hlife hterm more⟩
  rw [hone.spawned]
  exact Bool.toNat_le _

/-- Two tasks start the service, one stops it before its consumer is spawned, and the consumer panics while it
drains. -/
def hurriedStop : List Action :=
  [.spawn .start, .spawn .start, .spawn .stop, .task 0, .task 2, .task 1, .task 0, .consumer, .task 2, .consumer,
    .consumer, .crash, .consumer]

/-- A pipeline with room for one batch, at its beginning. -/
def smallPipeline : World :=
  { queue := { capacity := 1, free := 1 }, workplace := { registry := { fallback := .log } } }

/-- The service never runs, the second start is refused, and the panic terminates the service. -/
theorem service_goes_one_way_in_hurriedStop :
    smallPipeline.service = {} ∧ smallPipeline.tasks = [] ∧
      OneWay (Action.jobs hurriedStop) (smallPipeline.run hurriedStop) ∧
      (smallPipeline.run hurriedStop).states = [.new, .starting, .stopping, .terminated] ∧
      (smallPipeline.run hurriedStop).service.consumer = some (.gone true) ∧
      ((smallPipeline.run hurriedStop).tasks[1]?).any (fun
        | .finished (.service (.error e)) => e = .invalidState .start .stopping
        | _ => false) = true := by
  have hway : OneWay (Action.jobs hurriedStop) (smallPipeline.run hurriedStop) :=
    service_goes_one_way rfl rfl hurriedStop
  exact ⟨rfl, rfl, hway, by decide +kernel, by decide +kernel, by decide +kernel⟩

end World

end FailurePipeline
