import FailurePipeline.Proofs.Pipeline.Panics
import FailurePipeline.Proofs.Service.Awaiting
import FailurePipeline.Proofs.Service.BoundedDrain

/-!
# Awaiting the end of the service

The handle of the consumer lets one call wait for the end of the consumer itself, and learn whether that was a panic;
it is taken by the first call that has a turn when a start has succeeded.  Every other call waits until the service is
terminated, and learns nothing.  So wherever the consumer panics, the service is terminated, one call is told, and no
call is answered before the end (`crash_is_reported_once`).
-/

namespace FailurePipeline

namespace World

variable {w w' w₀ : World} {i k : Nat} {p p' : TaskPhase} {a : Action} {as actions : List Action}

/-! ### Panics in a run -/

/-- The consumer panics with one of the actions of a run. -/
def Panicked (w : World) (actions : List Action) : Prop :=
  ∃ before a, before ++ [a] <+: actions ∧ Panics (w.run before) a

theorem panicked_concat : Panicked w (as ++ [a]) ↔ Panicked w as ∨ Panics (w.run as) a := by
  constructor
  · rintro ⟨before, b, hwithin, hpanics⟩
    rcases List.prefix_concat_iff.1 hwithin with heq | hold
    · obtain ⟨rfl, hlast⟩ := List.append_inj' heq rfl
      obtain rfl : b = a := by simpa using hlast
      exact .inr hpanics
    · exact .inl ⟨before, b, hold, hpanics⟩
  · rintro (⟨before, b, hold, hpanics⟩ | hpanics)
    · exact ⟨before, b, hold.trans (List.prefix_append _ _), hpanics⟩
    · exact ⟨as, a, List.prefix_rfl, hpanics⟩

/-- The consumer is at the end that a panic leads to exactly if it has panicked. -/
theorem hasCrashed_run_iff (hv : w₀.service = {}) (ht : w₀.tasks = []) (actions : List Action) :
    (w₀.run actions).hasCrashed = true ↔ Panicked w₀ actions := by
  induction actions using List.reverseRecOn with
  | nil =>
    constructor
    · intro h
      simp [run, hasCrashed, hv] at h
    · rintro ⟨before, a, hwithin, -⟩
      simpa using hwithin.length_le
  | append_singleton as a ih =>
    have hlife := (Lifecycle.fresh hv ht).run as
    rw [panicked_concat, run_concat, ← ih]
    constructor
    · intro hc
      cases hbefore : (w₀.run as).hasCrashed with
      | true => exact .inl rfl
      | false => exact .inr (panics_of_step hbefore hc)
    · rintro (hc | hpanics)
      · exact hasCrashed_step hlife a hc
      · exact hasCrashed_of_panics hpanics

theorem terminated_run (hl : Lifecycle w) (ht : w.service.state = .terminated) (actions : List Action) :
    (w.run actions).service.state = .terminated := by
  have hup := hl.state_le_run actions
  rw [ht] at hup
  cases hs : (w.run actions).service.state with
  | terminated => rfl
  | _ => rw [hs] at hup; exact absurd hup (by decide)

/-- With its next turn a consumer that has panicked is gone, and the service is terminated. -/
theorem step_consumer_of_hasCrashed (hg : ∀ c, w.service.consumer = some (.gone c) → w.service.state = .terminated)
    (hc : w.hasCrashed = true) : (w.step .consumer).service.state = .terminated := by
  rw [hasCrashed, Option.any_eq_true] at hc
  obtain ⟨p, hp, hcrashed⟩ := hc
  cases p with
  | leaving c => simp [step, stepConsumer, canStepConsumer, hp, Service.publish, Service.enter]
  | gone c => simp [step, stepConsumer, canStepConsumer, hp, hg c hp]
  | _ => simp [ConsumerPhase.hasCrashed] at hcrashed

/-- A consumer that has panicked comes to its end, and the service with it, as soon as it has another turn. -/
theorem terminated_of_panics (hv : w₀.service = {}) (ht : w₀.tasks = []) {before after : List Action}
    (hp : Panics (w₀.run before) a) (h : .consumer ∈ after) :
    (w₀.run (before ++ a :: after)).service.state = .terminated ∧
      (w₀.run (before ++ a :: after)).service.consumer = some (.gone true) := by
  have hlife := Lifecycle.fresh hv ht
  obtain ⟨meanwhile, later, rfl⟩ := List.append_of_mem h
  have hsplit : before ++ a :: (meanwhile ++ .consumer :: later) =
      (before ++ a :: meanwhile) ++ [.consumer] ++ later := by simp
  have hpanicked : ∀ more, (w₀.run (before ++ a :: more)).hasCrashed = true := by
    intro more
    exact (hasCrashed_run_iff hv ht _).2 ⟨before, a, by simp, hp⟩
  have hend : (w₀.run (before ++ a :: (meanwhile ++ .consumer :: later))).service.state = .terminated := by
    rw [hsplit, run_append]
    refine terminated_run (hlife.run _) ?_ later
    rw [run_concat]
    exact step_consumer_of_hasCrashed (fun c => terminated_of_gone hv _) (hpanicked meanwhile)
  refine ⟨hend, ?_⟩
  have hcrashed := hpanicked (meanwhile ++ .consumer :: later)
  rw [hasCrashed, Option.any_eq_true] at hcrashed
  obtain ⟨p, hconsumer, hp'⟩ := hcrashed
  have hrun := hlife.run (before ++ a :: (meanwhile ++ .consumer :: later))
  obtain ⟨c, hgone⟩ := hrun.ended hend (hrun.hasStarted_of_consumer hconsumer)
  obtain rfl : p = .gone c := Option.some.inj (hconsumer.symm.trans hgone)
  cases c with
  | true => exact hgone
  | false => simp [ConsumerPhase.hasCrashed] at hp'

/-! ### The handle -/

/-- In the run a call takes the handle of the consumer, after some of the actions. -/
structure TakesHandleAt (w : World) (actions : List Action) (i : Nat) (before : List Action) : Prop where
  within : before ++ [.task i] <+: actions
  claims : (w.run before).tasks[i]? = some .claiming
  handle : (w.run before).service.handle = true

def TakesHandle (w : World) (actions : List Action) (i : Nat) : Prop := ∃ before, TakesHandleAt w actions i before

theorem takes_concat :
    TakesHandle w (as ++ [a]) i ↔
      TakesHandle w as i ∨
        a = .task i ∧ (w.run as).tasks[i]? = some .claiming ∧ (w.run as).service.handle = true := by
  constructor
  · rintro ⟨before, hwithin, hclaims, hhandle⟩
    rcases List.prefix_concat_iff.1 hwithin with heq | hold
    · obtain ⟨rfl, hlast⟩ := List.append_inj' heq rfl
      exact .inr ⟨by simpa using hlast.symm, hclaims, hhandle⟩
    · exact .inl ⟨before, hold, hclaims, hhandle⟩
  · rintro (⟨before, hold, hclaims, hhandle⟩ | ⟨rfl, hclaims, hhandle⟩)
    · exact ⟨before, hold.trans (List.prefix_append _ _), hclaims, hhandle⟩
    · exact ⟨as, List.prefix_rfl, hclaims, hhandle⟩

/-- A call that has its first turn while there is a handle takes it. -/
theorem step_claiming (hi : w.tasks[i]? = some .claiming) (hh : w.service.handle = true) :
    w.step (.task i) = { w with service := { w.service with handle := false } }.setTask i .joining := by
  have hcan : w.canStepTask i = true := by simp [canStepTask, hi]
  rw [step, stepTask, if_pos hcan, hi]
  simp [hh]

theorem ConsumerMove.handle (h : ConsumerMove w w') :
    w'.service.handle = w.service.handle ∧ w'.service.consumer.isSome = w.service.consumer.isSome := by
  have hsome : ∀ {v : World} {p p'}, w.service.consumer = some p → v.service.consumer = some p' →
      v.service.handle = w.service.handle →
      v.service.handle = w.service.handle ∧ v.service.consumer.isSome = w.service.consumer.isSome := by
    intro v p p' hp hp' hh
    exact ⟨hh, by rw [hp, hp', Option.isSome_some, Option.isSome_some]⟩
  cases h with
  | idle => exact ⟨rfl, rfl⟩
  | launch h => split <;> exact hsome h rfl rfl
  | close h => split <;> exact hsome h rfl rfl
  | hear a steady timed h => cases a <;> exact hsome h rfl rfl
  | pollScript a steady timed count since h => cases a <;> exact hsome h rfl rfl
  | ask asked h => cases asked <;> exact hsome h rfl rfl
  | _ => exact hsome (by assumption) rfl rfl

/-- A task makes the handle when it spawns the consumer, and takes it when it claims it. -/
theorem TaskMove.handle (h : TaskMove w i w') :
    (w'.service.handle = w.service.handle ∧ w'.service.consumer = w.service.consumer) ∨
      (w.tasks[i]? = some .spawning ∧ w'.service.handle = true ∧ w'.service.consumer = some .launching) ∨
      (w.tasks[i]? = some .claiming ∧ w.service.handle = true) := by
  cases h with
  | spawnConsumer h => exact .inr (.inl ⟨h, rfl, rfl⟩)
  | claim h hh => exact .inr (.inr ⟨h, hh⟩)
  | start v h hv =>
    obtain ⟨-, rfl⟩ := eq_of_start hv
    exact .inl ⟨rfl, rfl⟩
  | stop h =>
    rcases w.service.stop_cases with ⟨-, hstop⟩ | ⟨-, hstop⟩ | ⟨-, hstop⟩ <;> rw [hstop] <;> exact .inl ⟨rfl, rfl⟩
  | read => split <;> exact .inl ⟨rfl, rfl⟩
  | _ => exact .inl ⟨rfl, rfl⟩

/-- What has become of the handle in a run: it is there together with the consumer, until one call takes it. -/
inductive HandleSoFar (w : World) (actions : List Action) : Prop
  | unmade (hc : (w.run actions).service.consumer.isSome = false) (hh : (w.run actions).service.handle = false)
    (no : ∀ i, ¬ TakesHandle w actions i)
  | free (hc : (w.run actions).service.consumer.isSome = true) (hh : (w.run actions).service.handle = true)
    (no : ∀ i, ¬ TakesHandle w actions i)
  | taken (hc : (w.run actions).service.consumer.isSome = true) (hh : (w.run actions).service.handle = false)
    (i : Nat) (h : TakesHandle w actions i) (only : ∀ k, TakesHandle w actions k → k = i)

namespace HandleSoFar

/-- A step in which the handle is not taken leaves it alone, or makes it together with the consumer. -/
private theorem step_handle (hl : Lifecycle w)
    (hno : ∀ i, a = .task i → w.tasks[i]? = some .claiming → w.service.handle = false) :
    ((w.step a).service.handle = w.service.handle ∧
        (w.step a).service.consumer.isSome = w.service.consumer.isSome) ∨
      (w.service.consumer = none ∧ (w.step a).service.handle = true ∧
        (w.step a).service.consumer.isSome = true) := by
  have htask : ∀ {i v}, TaskMove w i v → (w.tasks[i]? = some .claiming → w.service.handle = false) →
      (v.service.handle = w.service.handle ∧ v.service.consumer.isSome = w.service.consumer.isSome) ∨
        (w.service.consumer = none ∧ v.service.handle = true ∧ v.service.consumer.isSome = true) := by
    intro i v h hclaim
    rcases h.handle with ⟨hh, hc⟩ | ⟨hi, hh, hc⟩ | ⟨hi, hh⟩
    · exact .inl ⟨hh, by rw [hc]⟩
    · exact .inr ⟨hl.consumer_eq_none hi, hh, by rw [hc, Option.isSome_some]⟩
    · simp [hclaim hi] at hh
  refine step_cases_of
    (P := fun v => (v.service.handle = w.service.handle ∧ v.service.consumer.isSome = w.service.consumer.isSome) ∨
      (w.service.consumer = none ∧ v.service.handle = true ∧ v.service.consumer.isSome = true))
    w a (fun j _ => ?_) (fun i hi => htask (stepTask_move w i) (hno i hi)) (fun i _ => ?_)
    (fun v _ h => .inl h.handle) fun _ _ _ _ => .inl ⟨rfl, rfl⟩
  · rw [(w.spawn_frame j).2.2.2.2.1]
    exact .inl ⟨rfl, rfl⟩
  · by_cases hi : w.tasks[i]? = some .claiming
    · simp [abandonTask, hi]
    · exact htask (abandonTask_move w i) fun h => absurd h hi

theorem concat (hl : Lifecycle (w.run as)) (h : HandleSoFar w as) (a : Action) : HandleSoFar w (as ++ [a]) := by
  by_cases htake : ∃ i, a = .task i ∧ (w.run as).tasks[i]? = some .claiming ∧ (w.run as).service.handle = true
  · obtain ⟨i, rfl, hi, hh⟩ := htake
    cases h with
    | unmade hc hno _ => simp [hno] at hh
    | taken hc hno => simp [hno] at hh
    | free hc _ no =>
      refine .taken ?_ ?_ i (takes_concat.2 (.inr ⟨rfl, hi, hh⟩)) fun k hk => ?_
      · rw [run_concat, step_claiming hi hh]
        exact hc
      · rw [run_concat, step_claiming hi hh]
        rfl
      · rcases takes_concat.1 hk with hk | ⟨hki, -⟩
        · exact absurd hk (no k)
        · exact (Action.task.inj hki).symm
  · have hsame : ∀ i, TakesHandle w (as ++ [a]) i → TakesHandle w as i := by
      intro i hi
      rcases takes_concat.1 hi with hi | hnow
      · exact hi
      · exact absurd ⟨i, hnow⟩ htake
    have hno : ∀ i, a = .task i → (w.run as).tasks[i]? = some .claiming → (w.run as).service.handle = false :=
      fun i ha hi => Bool.eq_false_iff.2 fun hh => htake ⟨i, ha, hi, hh⟩
    have hstep := step_handle hl hno
    rw [← run_concat] at hstep
    cases h with
    | unmade hc hh no =>
      have no' : ∀ i, ¬ TakesHandle w (as ++ [a]) i := fun i hi => no i (hsame i hi)
      rcases hstep with ⟨hh', hc'⟩ | ⟨-, hh', hc'⟩
      · exact .unmade (hc'.trans hc) (hh'.trans hh) no'
      · exact .free hc' hh' no'
    | free hc hh no =>
      have no' : ∀ i, ¬ TakesHandle w (as ++ [a]) i := fun i hi => no i (hsame i hi)
      rcases hstep with ⟨hh', hc'⟩ | ⟨hnone, -⟩
      · exact .free (hc'.trans hc) (hh'.trans hh) no'
      · simp [hnone] at hc
    | taken hc hh i h only =>
      rcases hstep with ⟨hh', hc'⟩ | ⟨hnone, -⟩
      · exact .taken (hc'.trans hc) (hh'.trans hh) i (takes_concat.2 (.inl h)) fun k hk => only k (hsame k hk)
      · simp [hnone] at hc

theorem run (hv : w₀.service = {}) (ht : w₀.tasks = []) (actions : List Action) : HandleSoFar w₀ actions := by
  induction actions using List.reverseRecOn with
  | nil =>
    refine .unmade (by simp [World.run, hv]) (by simp [World.run, hv]) ?_
    rintro i ⟨before, hwithin, -⟩
    simpa using hwithin.length_le
  | append_singleton as a ih => exact ih.concat ((Lifecycle.fresh hv ht).run as) a

end HandleSoFar

/-- A start that has succeeded has spawned the consumer. -/
theorem consumer_isSome_of_started (hv : w₀.service = {}) (ht : w₀.tasks = [])
    (hj : (Action.jobs actions)[k]? = some .start)
    (hk : (w₀.run actions).tasks[k]? = some (.finished (.service (.ok ())))) :
    (w₀.run actions).service.consumer.isSome = true := by
  have hlife := (Lifecycle.fresh hv ht).run actions
  have hjobs := (Provenance.fresh hv ht).run actions
  have honce := (OneStart.fresh hv).run (.fresh hv ht) (.fresh hv ht) actions
  have hstarted := honce.started k ⟨hj, .inr hk⟩
  have hnone : (w₀.run actions).tasks.countP (·.isSpawning) = 0 := by
    rw [List.countP_eq_zero]
    intro p hp hspawning
    -- Whoever is about to spawn the consumer has started the service, too.
    obtain ⟨i, hi⟩ := List.mem_iff_getElem?.1 hp
    cases p <;> simp only [TaskPhase.isSpawning, Bool.false_eq_true] at hspawning
    obtain ⟨j, hji, hserves⟩ := hjobs.job hi
    cases j <;> simp only [Job.Serves] at hserves
    obtain rfl := honce.unique i k ⟨hji, .inl hi⟩ ⟨hj, .inr hk⟩
    simp [hi] at hk
  have hcount := hlife.once
  rw [hnone, hstarted] at hcount
  cases hc : (w₀.run actions).service.consumer with
  | some p => rfl
  | none => simp [hc] at hcount

/-! ### A call in a run -/

/-- How far a call has come in a run: it has had no turn yet; it waits for the end of the consumer, whose handle it has;
it waits for the end of the service; or it has answered.  Only with the handle it learns of a panic. -/
inductive JoiningSoFar (w : World) (actions : List Action) (i : Nat) : Prop
  | claiming (h : (w.run actions).tasks[i]? = some .claiming) (no : ¬ TakesHandle w actions i)
  | joining (h : (w.run actions).tasks[i]? = some .joining) (took : TakesHandle w actions i)
  | awaiting (h : (w.run actions).tasks[i]? = some .awaitingTerminated)
    (whole : TakesHandle w actions i → (w.run actions).service.consumer = some (.gone false))
  | told (h : (w.run actions).tasks[i]? = some (.finished (.service (.error .crashed))))
    (took : TakesHandle w actions i)
    (gone : (w.run actions).service.consumer = some (.gone true))
  | ended (h : (w.run actions).tasks[i]? = some (.finished (.service (.ok ()))))
    (whole : TakesHandle w actions i → (w.run actions).service.consumer = some (.gone false))
    (terminated : (w.run actions).service.state = .terminated)

/-- A consumer that has gone stays so. -/
theorem step_consumer_gone (hl : Lifecycle w) {c : Bool} (hc : w.service.consumer = some (.gone c)) (a : Action) :
    (w.step a).service.consumer = some (.gone c) := by
  refine step_cases (P := fun v => v.service.consumer = some (.gone c)) w a (fun j _ => ?_) (fun i v _ h => ?_)
    (fun v _ h => ?_) fun _ _ _ _ => hc
  · rw [(w.spawn_frame j).2.2.2.2.1, hc]
  · rcases h.frame.2.2.2.2 with hsame | ⟨hi, -⟩
    · rw [hsame, hc]
    · simp [hl.consumer_eq_none hi] at hc
  · rw [h.eq_of_over (.inr ⟨c, hc⟩), hc]

/-- A task has its turn, and goes on with it to its next phase. -/
private theorem getElem?_step (hi : w.tasks[i]? = some p) (hs : w.step (.task i) = w'.setTask i p')
    (ht : w'.tasks = w.tasks) : (w.step (.task i)).tasks[i]? = some p' := by
  rw [hs, setTask, ht, List.getElem?_set_self (List.getElem?_eq_some_iff.1 hi).1]

/-- A call that finds no handle waits for the end of the service. -/
theorem step_claiming_in_vain (hi : w.tasks[i]? = some .claiming) (hh : w.service.handle = false) :
    w.step (.task i) = w.setTask i .awaitingTerminated := by
  have hcan : w.canStepTask i = true := by simp [canStepTask, hi]
  rw [step, stepTask, if_pos hcan, hi]
  simp [hh]

theorem step_joining {c : Bool} (hi : w.tasks[i]? = some .joining) (hc : w.service.consumer = some (.gone c)) :
    w.step (.task i) = w.setTask i (if c then .finished (.service (.error .crashed)) else .awaitingTerminated) := by
  have hcan : w.canStepTask i = true := by simp [canStepTask, hi, hc]
  rw [step, stepTask, if_pos hcan, hi]
  cases c <;> simp [hc]

/-- As long as the consumer is there, the end of it is waited for. -/
theorem step_joining_early (hi : w.tasks[i]? = some .joining) (hc : ∀ c, w.service.consumer ≠ some (.gone c)) :
    w.step (.task i) = w := by
  have hcan : w.canStepTask i = false := by simp [canStepTask, hi]
  rw [step, stepTask, hcan, if_neg Bool.false_ne_true]

theorem step_awaitingTerminated (hi : w.tasks[i]? = some .awaitingTerminated) :
    w.step (.task i) =
      if w.service.state = .terminated then w.setTask i (.finished (.service (.ok ()))) else w := by
  rw [step, stepTask]
  by_cases ht : w.service.state = .terminated <;> simp [canStepTask, hi, ht]

namespace JoiningSoFar

/-- A call that is not about to take the handle has taken it before, if at all. -/
private theorem gone_concat (hl : Lifecycle (w.run as)) (hi : (w.run as).tasks[i]? ≠ some .claiming)
    (whole : TakesHandle w as i → (w.run as).service.consumer = some (.gone false)) {a : Action}
    (took : TakesHandle w (as ++ [a]) i) : (w.run (as ++ [a])).service.consumer = some (.gone false) := by
  rw [run_concat]
  rcases takes_concat.1 took with took | ⟨-, hclaims, -⟩
  · exact step_consumer_gone hl (whole took) a
  · exact absurd hclaims hi

/-- One more action. -/
theorem concat (hl : Lifecycle (w.run as)) (h : JoiningSoFar w as i) (a : Action) :
    JoiningSoFar w (as ++ [a]) i := by
  -- A call gets further in its own turns only, but the consumer may go while the call waits for it.
  cases h with
  | claiming hi no =>
    by_cases ha : a = .task i
    · subst ha
      cases hh : (w.run as).service.handle with
      | true =>
        refine .joining ?_ (takes_concat.2 (.inr ⟨rfl, hi, hh⟩))
        rw [run_concat]
        exact getElem?_step hi (step_claiming hi hh) rfl
      | false =>
        refine .awaiting ?_ fun took => ?_
        · rw [run_concat]
          exact getElem?_step hi (step_claiming_in_vain hi hh) rfl
        · rcases takes_concat.1 took with took | ⟨-, -, hyes⟩
          · exact absurd took no
          · simp [hh] at hyes
    · refine .claiming ?_ fun took => ?_
      · rw [run_concat]
        exact step_of_other hi ha (by simp [abandonTask, hi])
      · rcases takes_concat.1 took with took | ⟨hown, -⟩
        · exact no took
        · exact ha hown
  | joining hi took =>
    have took' : TakesHandle w (as ++ [a]) i := takes_concat.2 (.inl took)
    by_cases ha : a = .task i
    · subst ha
      by_cases hgone : ∃ c, (w.run as).service.consumer = some (.gone c)
      · obtain ⟨c, hc⟩ := hgone
        have hnext := getElem?_step hi (step_joining hi hc) rfl
        have hstill := step_consumer_gone hl hc (.task i)
        rw [← run_concat] at hnext hstill
        cases c with
        | true => exact .told hnext took' hstill
        | false => exact .awaiting hnext fun _ => hstill
      · refine .joining ?_ took'
        rw [run_concat, step_joining_early hi fun c hc => hgone ⟨c, hc⟩, hi]
    · refine .joining ?_ took'
      rw [run_concat]
      exact step_of_other hi ha (by simp [abandonTask, hi])
  | awaiting hi whole =>
    have whole' := fun took => gone_concat (a := a) hl (by simp [hi]) whole took
    by_cases ha : a = .task i
    · subst ha
      have hnext := step_awaitingTerminated hi
      by_cases hs : (w.run as).service.state = .terminated
      · rw [if_pos hs] at hnext
        refine .ended ?_ whole' ?_
        · rw [run_concat]
          exact getElem?_step hi hnext rfl
        · rw [run_concat]
          exact (hl.step_changes _).terminated hs
      · rw [if_neg hs] at hnext
        refine .awaiting ?_ whole'
        rw [run_concat, hnext, hi]
    · refine .awaiting ?_ whole'
      rw [run_concat]
      exact step_of_other hi ha (by simp [abandonTask, hi])
  | told hi took gone =>
    refine .told ?_ (takes_concat.2 (.inl took)) ?_
    · rw [run_concat, step_finished hi]
    · rw [run_concat]
      exact step_consumer_gone hl gone a
  | ended hi whole hs =>
    refine .ended ?_ (fun took => gone_concat hl (by simp [hi]) whole took) ?_
    · rw [run_concat, step_finished hi]
    · rw [run_concat]
      exact (hl.step_changes a).terminated hs

theorem run (hv : w₀.service = {}) (ht : w₀.tasks = [])
    (hj : (Action.jobs actions)[i]? = some .awaitTerminated) : JoiningSoFar w₀ actions i := by
  have hp := Provenance.fresh hv ht
  refine hp.induction_of_job (Q := fun as => JoiningSoFar w₀ as i) (fun as hi h => .claiming h fun took => ?_)
    (fun as a h => h.concat ((Lifecycle.fresh hv ht).run as) a) hj
  rcases takes_concat.1 took with ⟨before, hwithin, hclaims, -⟩ | ⟨hown, -⟩
  · rw [hp.getElem?_eq_none ((List.prefix_append _ _).trans hwithin) hi] at hclaims
    simp at hclaims
  · simp at hown

/-- A call cannot be given up. -/
theorem abandonTask_eq (h : JoiningSoFar w actions i) : (w.run actions).abandonTask i = w.run actions := by
  cases h with
  | claiming h | joining h | awaiting h | told h | ended h => simp [abandonTask, h]

end JoiningSoFar

/-! ### Turns to the end -/

/-- How many turns a call needs at most once the service is terminated. -/
def turnsToEnd : TaskPhase → Nat
  | .claiming => 3
  | .joining => 2
  | .awaitingTerminated => 1
  | _ => 0

/-- Whose handle has been taken is there. -/
theorem HandleSoFar.consumer_isSome (h : HandleSoFar w actions) (took : TakesHandle w actions i) :
    (w.run actions).service.consumer.isSome = true := by
  cases h with
  | unmade hc hh no => exact absurd took (no i)
  | free hc => exact hc
  | taken hc => exact hc

section

variable (hv : w₀.service = {}) (ht : w₀.tasks = [])
include hv ht

/-- Once the service is terminated, a call gets on with each of its turns. -/
private theorem turn_of_terminated (hj : (Action.jobs actions)[i]? = some .awaitTerminated)
    (hs : (w₀.run actions).service.state = .terminated) (hi : (w₀.run actions).tasks[i]? = some p) :
    (∃ r, p = .finished r) ∨
      ∃ p', (w₀.run (actions ++ [.task i])).tasks[i]? = some p' ∧ turnsToEnd p' < turnsToEnd p := by
  rw [run_concat]
  cases JoiningSoFar.run hv ht hj with
  | claiming h no =>
    obtain rfl : TaskPhase.claiming = p := Option.some.inj (h.symm.trans hi)
    cases hh : (w₀.run actions).service.handle with
    | true => exact .inr ⟨_, getElem?_step hi (step_claiming hi hh) rfl, by decide⟩
    | false => exact .inr ⟨_, getElem?_step hi (step_claiming_in_vain hi hh) rfl, by decide⟩
  | joining h took =>
    obtain rfl : TaskPhase.joining = p := Option.some.inj (h.symm.trans hi)
    have hsome := (HandleSoFar.run hv ht actions).consumer_isSome took
    rcases ((Lifecycle.fresh hv ht).run actions).consumer_over hs with hnone | ⟨c, hc⟩
    · simp [hnone] at hsome
    · refine .inr ⟨_, getElem?_step hi (step_joining hi hc) rfl, ?_⟩
      cases c <;> simp [turnsToEnd]
  | awaiting h whole =>
    obtain rfl : TaskPhase.awaitingTerminated = p := Option.some.inj (h.symm.trans hi)
    have hnext := step_awaitingTerminated hi
    rw [if_pos hs] at hnext
    exact .inr ⟨_, getElem?_step hi hnext rfl, by simp [turnsToEnd]⟩
  | told h took gone => exact .inl ⟨_, Option.some.inj (hi.symm.trans h)⟩
  | ended h whole terminated => exact .inl ⟨_, Option.some.inj (hi.symm.trans h)⟩

/-- Once the service is terminated, a call is answered as soon as it has had as many turns as it needs. -/
theorem answered_of_turns (hj : (Action.jobs actions)[i]? = some .awaitTerminated)
    (hs : (w₀.run actions).service.state = .terminated) (hi : (w₀.run actions).tasks[i]? = some p)
    {more : List Action} (hturns : (List.replicate (turnsToEnd p) (Action.task i)).Sublist more) :
    ∃ r, (w₀.run (actions ++ more)).tasks[i]? = some (.finished r) := by
  have hlife := Lifecycle.fresh hv ht
  -- Turns of the call leave it fewer to go, and actions of others leave it as it is.
  induction more generalizing actions p with
  | nil =>
    rw [List.append_nil]
    rcases turn_of_terminated hv ht hj hs hi with ⟨r, rfl⟩ | ⟨p', -, hless⟩
    · exact ⟨r, hi⟩
    · have hlen := hturns.length_le
      rw [List.length_replicate, List.length_nil] at hlen
      omega
  | cons a rest ih =>
    have hj' : (Action.jobs (actions ++ [a]))[i]? = some .awaitTerminated := by
      rw [Action.jobs_append, List.getElem?_append_left (List.getElem?_eq_some_iff.1 hj).1, hj]
    have hs' : (w₀.run (actions ++ [a])).service.state = .terminated := by
      rw [run_concat]
      exact ((hlife.run actions).step_changes a).terminated hs
    rw [List.append_cons]
    by_cases ha : a = .task i
    · subst ha
      rcases turn_of_terminated hv ht hj hs hi with ⟨r, rfl⟩ | ⟨p', hp', hless⟩
      · refine ⟨r, ?_⟩
        rw [run_append]
        exact run_finished (by rw [run_concat, step_finished hi]) rest
      · obtain ⟨n, hn⟩ := Nat.exists_eq_add_of_lt hless
        rw [hn, List.replicate_succ] at hturns
        refine ih hj' hs' hp' (List.Sublist.trans ?_ (List.cons_sublist_cons.1 hturns))
        exact (List.replicate_sublist_replicate _).2 (Nat.le_add_right _ _)
    · refine ih hj' hs' ?_ ?_ (p := p)
      · rw [run_concat]
        exact step_of_other hi ha (JoiningSoFar.run hv ht hj).abandonTask_eq
      · rcases List.sublist_cons_iff.1 hturns with hrest | ⟨l, hl, -⟩
        · exact hrest
        · have hmem : a ∈ List.replicate (turnsToEnd p) (Action.task i) := hl ▸ List.mem_cons_self
          exact absurd (List.eq_of_mem_replicate hmem) ha

/-! ### All of it together -/

/-- What calls that await the end of the service learn of the end of the consumer. -/
structure ReportedOnce (w₀ : World) (actions : List Action) : Prop where
  /-- Wherever the consumer panics, it is gone and the service is terminated as soon as it has another turn. -/
  terminates : ∀ before a after, actions = before ++ a :: after → Panics (w₀.run before) a →
    .consumer ∈ after →
    (w₀.run actions).service.state = .terminated ∧ (w₀.run actions).service.consumer = some (.gone true)
  /-- When a start has succeeded, the first call that has its first turn takes the handle of the consumer. -/
  first : ∀ before (i k : Nat), before ++ [.task i] <+: actions → (Action.jobs before)[k]? = some .start →
    (w₀.run before).tasks[k]? = some (.finished (.service (.ok ()))) →
    (w₀.run before).tasks[i]? = some .claiming → (∀ j, ¬ TakesHandle w₀ before j) → TakesHandle w₀ actions i
  /-- No other one takes it. -/
  once : ∀ i k, TakesHandle w₀ actions i → TakesHandle w₀ actions k → i = k
  /-- A call is answered only when the service is terminated.  If the consumer has panicked, the call that has taken the
  handle is told so; else, and everybody else, is told nothing. -/
  answers : ∀ (i : Nat) r, (Action.jobs actions)[i]? = some .awaitTerminated →
    (w₀.run actions).tasks[i]? = some (.finished r) →
    (w₀.run actions).service.state = .terminated ∧
      (r = .service (.error .crashed) ∧ TakesHandle w₀ actions i ∧ Panicked w₀ actions ∨
        r = .service (.ok ()) ∧ ¬ (TakesHandle w₀ actions i ∧ Panicked w₀ actions))
  /-- When the service is terminated, three turns are enough for a call to be answered. -/
  returns : (w₀.run actions).service.state = .terminated →
    ∀ i : Nat, (Action.jobs actions)[i]? = some .awaitTerminated →
      ∀ more, (List.replicate 3 (Action.task i)).Sublist more →
        ∃ r, (w₀.run (actions ++ more)).tasks[i]? = some (.finished r)

/-- However the consumer, its source, the starts, the stops and any number of calls that await the end of the service go
on side by side: a panic of the consumer terminates the service and is told to the call that has taken its handle, and
to no other one. -/
theorem crash_is_reported_once (actions : List Action) : ReportedOnce w₀ actions := by
  refine ⟨?terminates, ?first, ?once, ?answers, ?returns⟩
  case terminates =>
    rintro before a after rfl hp hturn
    exact terminated_of_panics hv ht hp hturn
  case first =>
    intro before i k hwithin hj hk hi hno
    refine ⟨before, hwithin, hi, ?_⟩
    have hsome := consumer_isSome_of_started hv ht hj hk
    cases HandleSoFar.run hv ht before with
    | unmade hc => simp [hc] at hsome
    | free hc hh => exact hh
    | taken hc hh j hj => exact absurd hj (hno j)
  case once =>
    intro i k hi hk
    cases HandleSoFar.run hv ht actions with
    | unmade hc hh no => exact absurd hi (no i)
    | free hc hh no => exact absurd hi (no i)
    | taken hc hh j hj only => exact (only i hi).trans (only k hk).symm
  case answers =>
    intro i r hj hr
    have hpanicked := hasCrashed_run_iff hv ht actions
    cases JoiningSoFar.run hv ht hj with
    | told h took gone =>
      obtain rfl : TaskResult.service (.error .crashed) = r := by simpa [h] using hr
      refine ⟨terminated_of_gone hv actions gone, .inl ⟨rfl, took, hpanicked.1 ?_⟩⟩
      simp [hasCrashed, gone, ConsumerPhase.hasCrashed]
    | ended h whole hs =>
      obtain rfl : TaskResult.service (.ok ()) = r := by simpa [h] using hr
      refine ⟨hs, .inr ⟨rfl, fun hboth => ?_⟩⟩
      obtain ⟨took, hp⟩ := hboth
      have hcrashed := hpanicked.2 hp
      simp [hasCrashed, whole took, ConsumerPhase.hasCrashed] at hcrashed
    | claiming h => simp [h] at hr
    | joining h => simp [h] at hr
    | awaiting h => simp [h] at hr
  case returns =>
    intro hs i hj more hturns
    have hlt : i < (w₀.run actions).tasks.length := by
      have hlen := ((Provenance.fresh hv ht).run actions).length
      rw [List.nil_append] at hlen
      rw [hlen]
      exact (List.getElem?_eq_some_iff.1 hj).1
    refine answered_of_turns hv ht hj hs (List.getElem?_eq_getElem hlt) (List.Sublist.trans ?_ hturns)
    refine (List.replicate_sublist_replicate _).2 ?_
    unfold turnsToEnd
    split <;> decide

end

/-- A pipeline whose source has nothing to give, and panics when it is drained. -/
def drainingInVain : World := { smallPipeline with source := .scripted [.nothing] [.panic .other] }

/-- Two calls await the end of the service; the one that was begun later has its first turn first. -/
def panicWhileDraining : List Action :=
  [.spawn .start, .spawn .awaitTerminated, .spawn .awaitTerminated, .task 0, .task 0, .task 2, .consumer, .consumer,
    .consumer, .consumer, .task 1, .consumer, .task 2, .consumer, .task 1, .task 2]

/-- The second call has taken the handle and is told of the panic, the first one is not. -/
theorem crash_is_reported_once_in_panicWhileDraining :
    drainingInVain.service = {} ∧ drainingInVain.tasks = [] ∧ ReportedOnce drainingInVain panicWhileDraining ∧
      Panicked drainingInVain panicWhileDraining ∧ TakesHandle drainingInVain panicWhileDraining 2 ∧
      (drainingInVain.run panicWhileDraining).tasks[1]? = some (.finished (.service (.ok ()))) ∧
      (drainingInVain.run panicWhileDraining).tasks[2]? = some (.finished (.service (.error .crashed))) := by
  have hreported : ReportedOnce drainingInVain panicWhileDraining := crash_is_reported_once rfl rfl panicWhileDraining
  have hpanicked : Panicked drainingInVain panicWhileDraining := (hasCrashed_run_iff rfl rfl _).1 (by decide +kernel)
  have htakes : TakesHandle drainingInVain panicWhileDraining 2 :=
    ⟨panicWhileDraining.take 5, List.take_prefix 6 panicWhileDraining, rfl, by decide +kernel⟩
  exact ⟨rfl, rfl, hreported, hpanicked, htakes, rfl, rfl⟩

end World

end FailurePipeline
