import FailurePipeline.Proofs.Service.OneWay

/-!
# Awaiting that the service runs

A call that awaits that the service runs looks at the state of the service in each of its turns, and answers in
the first one that does not find it too early.  A state that comes and goes between two turns is not seen.  So a
call succeeds exactly if the service was running in one of its turns; that it fails says that the service does
not run and never will again, but not that it never did (`awaitRunning_answers_what_it_saw`).
-/

namespace FailurePipeline

theorem ServiceState.le_of_eq_or_lt {s t : ServiceState} (h : t = s ∨ s < t) : s ≤ t := by
  rcases h with rfl | h
  · exact Nat.le_refl t.rank
  · exact Nat.le_of_lt h

namespace World

variable {w w₀ : World} {i : Nat} {actions : List Action}

/-! ### The state at the moments of a run -/

theorem Changes.le {w' : World} (h : Changes w w') : w.service.state ≤ w'.service.state := by
  rcases h with ⟨hs, -⟩ | ⟨htrans, -⟩
  · exact ServiceState.le_of_eq_or_lt (.inl hs)
  · exact ServiceState.le_of_eq_or_lt (.inr htrans.lt)

/-- The state never goes down in a run. -/
theorem Lifecycle.state_le_run (hl : Lifecycle w) (actions : List Action) :
    w.service.state ≤ (w.run actions).service.state := by
  induction actions generalizing w with
  | nil => exact Nat.le_refl _
  | cons a as ih => exact Nat.le_trans (hl.step_changes a).le (ih (hl.step a))

/-- The service is in a state at some moment of a run. -/
def Reaches (w : World) (actions : List Action) (s : ServiceState) : Prop :=
  ∃ before, before <+: actions ∧ (w.run before).service.state = s

/-! ### The turns of a call -/

/-- What a call answers in a turn that finds the service in a state. -/
def runningAnswer (s : ServiceState) : Except ServiceError Unit :=
  if s = .running then .ok () else .error (.notRunning s)

/-- In the run the call has a turn that finds the service in a state, after some of the actions. -/
structure TurnAt (w : World) (actions : List Action) (i : Nat) (before : List Action) (s : ServiceState) :
    Prop where
  within : before ++ [.task i] <+: actions
  waits : (w.run before).tasks[i]? = some .awaitingRunning
  state : (w.run before).service.state = s

/-- The turns in a run with one more action are those that there were, and perhaps this action. -/
theorem turnAt_concat {as before : List Action} {a : Action} {s : ServiceState} :
    TurnAt w (as ++ [a]) i before s ↔
      TurnAt w as i before s ∨
        (before = as ∧ a = .task i ∧ (w.run as).tasks[i]? = some .awaitingRunning ∧
          (w.run as).service.state = s) := by
  constructor
  · rintro ⟨hwithin, hwaits, hstate⟩
    rcases List.prefix_concat_iff.1 hwithin with heq | hold
    · obtain ⟨rfl, hlast⟩ := List.append_inj' heq rfl
      exact .inr ⟨rfl, by simpa using hlast.symm, hwaits, hstate⟩
    · exact .inl ⟨hold, hwaits, hstate⟩
  · rintro (⟨hwithin, hwaits, hstate⟩ | ⟨rfl, rfl, hwaits, hstate⟩)
    · exact ⟨hwithin.trans (List.prefix_append _ _), hwaits, hstate⟩
    · exact ⟨List.prefix_rfl, hwaits, hstate⟩

/-- A turn that finds the service too early leaves the call as it is. -/
theorem step_awaitingRunning_early (hi : w.tasks[i]? = some .awaitingRunning) (hs : w.service.state < .running) :
    (w.step (.task i)).tasks[i]? = some .awaitingRunning := by
  have hearly : ¬ ServiceState.running ≤ w.service.state := Nat.not_le_of_lt hs
  have hcan : w.canStepTask i = false := by simp [canStepTask, hi, hearly]
  simpa [step, stepTask, hcan] using hi

/-- A turn that finds the service running, or past that, answers the call. -/
theorem step_awaitingRunning_late (hi : w.tasks[i]? = some .awaitingRunning)
    (hs : ServiceState.running ≤ w.service.state) :
    (w.step (.task i)).tasks[i]? = some (.finished (.service (runningAnswer w.service.state))) := by
  have hcan : w.canStepTask i = true := by simp [canStepTask, hi, hs]
  rw [step, stepTask, if_pos hcan, hi]
  exact List.getElem?_set_self (List.getElem?_eq_some_iff.1 hi).1

/-- What others do leaves a call as it is. -/
theorem step_awaitingRunning_other (hi : w.tasks[i]? = some .awaitingRunning) {a : Action} (ha : a ≠ .task i) :
    (w.step a).tasks[i]? = some .awaitingRunning :=
  step_of_other hi ha (by simp [abandonTask, hi])

/-! ### A call in a run -/

/-- How far a call has come in a run: it still waits and all its turns came too early, or it has answered what its
last turn found, and every turn before that came too early. -/
inductive AwaitingSoFar (w : World) (actions : List Action) (i : Nat) : Prop
  | waiting (h : (w.run actions).tasks[i]? = some .awaitingRunning)
    (early : ∀ before s, TurnAt w actions i before s → s < .running)
  | answered (last : List Action) (s : ServiceState) (turn : TurnAt w actions i last s)
    (late : ServiceState.running ≤ s)
    (h : (w.run actions).tasks[i]? = some (.finished (.service (runningAnswer s))))
    (early : ∀ before s', TurnAt w actions i before s' → before = last ∨ s' < .running)

namespace AwaitingSoFar

/-- One more action. -/
theorem concat {as : List Action} (h : AwaitingSoFar w as i) (a : Action) : AwaitingSoFar w (as ++ [a]) i := by
  cases h with
  | waiting hi early =>
    by_cases ha : a = .task i
    · subst ha
      by_cases hs : ServiceState.running ≤ (w.run as).service.state
      · refine .answered as _ (turnAt_concat.2 (.inr ⟨rfl, rfl, hi, rfl⟩)) hs ?_ fun before s' hturn => ?_
        · rw [run_concat, step_awaitingRunning_late hi hs]
        · rcases turnAt_concat.1 hturn with hold | ⟨rfl, -⟩
          · exact .inr (early _ _ hold)
          · exact .inl rfl
      · have hs' : (w.run as).service.state < .running := Nat.lt_of_not_le hs
        refine .waiting ?_ fun before s hturn => ?_
        · rw [run_concat, step_awaitingRunning_early hi hs']
        · rcases turnAt_concat.1 hturn with hold | ⟨-, -, -, rfl⟩
          · exact early _ _ hold
          · exact hs'
    · refine .waiting ?_ fun before s hturn => ?_
      · rw [run_concat, step_awaitingRunning_other hi ha]
      · rcases turnAt_concat.1 hturn with hold | ⟨-, hown, -⟩
        · exact early _ _ hold
        · exact absurd hown ha
  | answered last s turn late hi early =>
    refine .answered last s (turnAt_concat.2 (.inl turn)) late ?_ fun before s' hturn => ?_
    · rw [run_concat, step_finished hi]
    · rcases turnAt_concat.1 hturn with hold | ⟨-, -, hwaits, -⟩
      · exact early _ _ hold
      · simp [hi] at hwaits

theorem run (hp : Provenance [] w) {actions : List Action} (hj : (Action.jobs actions)[i]? = some .awaitRunning) :
    AwaitingSoFar w actions i := by
  refine hp.induction_of_job (Q := fun as => AwaitingSoFar w as i)
    (fun as hi h => .waiting h fun before s hturn => ?_) (fun as a h => h.concat a) hj
  -- A call that begins has had no turn yet.
  rcases turnAt_concat.1 hturn with ⟨hwithin, hwaits, -⟩ | ⟨-, hown, -⟩
  · rw [hp.getElem?_eq_none ((List.prefix_append _ _).trans hwithin) hi] at hwaits
    simp at hwaits
  · exact absurd hown (by simp)

end AwaitingSoFar

/-! ### What the answer says -/

/-- What is known of a call that was answered. -/
structure Answered (w : World) (actions : List Action) (i : Nat) (r : Except ServiceError Unit) : Prop where
  /-- It succeeds exactly if one of its turns found the service running. -/
  ok_iff : r = .ok () ↔ ∃ before, TurnAt w actions i before .running
  /-- It fails with a later state, which one of its turns found, and the service does not run from then on. -/
  error : ∀ e, r = .error e → ∃ before s, e = .notRunning s ∧ TurnAt w actions i before s ∧
    (s = .stopping ∨ s = .terminated) ∧
    ∀ later, before <+: later → (w.run later).service.state ≠ .running
  /-- It cannot succeed in a run in which the service never runs. -/
  honest : ¬ Reaches w actions .running → ∃ s, r = .error (.notRunning s)

private theorem runningAnswer_eq_ok_iff {s : ServiceState} : runningAnswer s = .ok () ↔ s = .running := by
  unfold runningAnswer
  split <;> simp_all

private theorem answered_of_turn (hl : Lifecycle w) {last : List Action} {s : ServiceState}
    (turn : TurnAt w actions i last s) (late : ServiceState.running ≤ s)
    (early : ∀ before s', TurnAt w actions i before s' → before = last ∨ s' < .running) :
    Answered w actions i (runningAnswer s) := by
  have hok : runningAnswer s = .ok () ↔ ∃ before, TurnAt w actions i before .running := by
    rw [runningAnswer_eq_ok_iff]
    constructor
    · rintro rfl
      exact ⟨last, turn⟩
    · rintro ⟨before, hturn⟩
      rcases early before .running hturn with rfl | h
      · exact turn.state.symm.trans hturn.state
      · exact absurd h (by decide)
  refine ⟨hok, fun e he => ?_, fun hnever => ?_⟩
  · have hne : s ≠ .running := by
      intro h
      simp [runningAnswer_eq_ok_iff.2 h] at he
    rw [runningAnswer, if_neg hne] at he
    have hpast : s = .stopping ∨ s = .terminated := by
      cases s <;> first | exact absurd late (by decide) | simp_all
    refine ⟨last, s, (Except.error.inj he).symm, turn, hpast, ?_⟩
    rintro later ⟨rest, rfl⟩ hrun
    have hup := (hl.run last).state_le_run rest
    rw [← run_append, hrun, turn.state] at hup
    rcases hpast with rfl | rfl <;> exact absurd hup (by decide)
  · refine ⟨s, ?_⟩
    rw [runningAnswer, if_neg]
    rintro rfl
    exact hnever ⟨last, (List.prefix_append _ _).trans turn.within, turn.state⟩

/-- However the starts, the stops, the consumer and any number of calls that await that the service runs go on side
by side: a call waits as long as all its turns come too early, and is answered in its next turn once the service
runs or is past that; what it answers is what that turn found.  So a success says that the service was running, and
a failure that it will not run any more. -/
theorem awaitRunning_answers_what_it_saw (hv : w₀.service = {}) (ht : w₀.tasks = []) (actions : List Action)
    (i : Nat) (hj : (Action.jobs actions)[i]? = some .awaitRunning) :
    ((w₀.run actions).tasks[i]? = some .awaitingRunning ∧
        (∀ before s, TurnAt w₀ actions i before s → s < .running) ∧
        (ServiceState.running ≤ (w₀.run actions).service.state →
          (w₀.run (actions ++ [.task i])).tasks[i]? =
            some (.finished (.service (runningAnswer (w₀.run actions).service.state))))) ∨
      ∃ r, (w₀.run actions).tasks[i]? = some (.finished (.service r)) ∧ Answered w₀ actions i r := by
  cases AwaitingSoFar.run (.fresh hv ht) hj with
  | waiting hi early =>
    refine .inl ⟨hi, early, fun hs => ?_⟩
    rw [run_concat, step_awaitingRunning_late hi hs]
  | answered last s turn late hi early =>
    exact .inr ⟨_, hi, answered_of_turn (.fresh hv ht) turn late early⟩

/-- Two calls await that the service runs.  One has a turn while it does; the other one has its first turn when the
consumer, whose source has nothing to give, has come to its end. -/
def earlyAndLateTurn : List Action :=
  [.spawn .awaitRunning, .spawn .awaitRunning, .spawn .start, .task 0, .task 2, .task 2, .consumer, .task 0,
    .consumer, .consumer, .consumer, .consumer, .consumer, .consumer, .task 1]

/-- A pipeline whose consumer is told at once that nothing can come. -/
def barrenPipeline : World := { smallPipeline with source := .scripted [.nothing] [] }

/-- The first call succeeds and the second one fails. -/
theorem awaitRunning_answers_what_it_saw_in_earlyAndLateTurn :
    (barrenPipeline.run earlyAndLateTurn).tasks[0]? = some (.finished (.service (.ok ()))) ∧
      (barrenPipeline.run earlyAndLateTurn).tasks[1]? =
        some (.finished (.service (.error (.notRunning .terminated)))) ∧
      Answered barrenPipeline earlyAndLateTurn 0 (.ok ()) ∧
      Answered barrenPipeline earlyAndLateTurn 1 (.error (.notRunning .terminated)) := by
  have hfirst : (barrenPipeline.run earlyAndLateTurn).tasks[0]? = some (.finished (.service (.ok ()))) := rfl
  have hsecond : (barrenPipeline.run earlyAndLateTurn).tasks[1]? =
      some (.finished (.service (.error (.notRunning .terminated)))) := rfl
  refine ⟨hfirst, hsecond, ?_, ?_⟩
  · rcases @awaitRunning_answers_what_it_saw barrenPipeline rfl rfl earlyAndLateTurn 0 rfl with ⟨h, -⟩ | ⟨r, h, hr⟩
    · simp [hfirst] at h
    · obtain rfl : Except.ok () = r := by simpa [hfirst] using h
      exact hr
  · rcases @awaitRunning_answers_what_it_saw barrenPipeline rfl rfl earlyAndLateTurn 1 rfl with ⟨h, -⟩ | ⟨r, h, hr⟩
    · simp [hsecond] at h
    · obtain rfl : Except.error (.notRunning .terminated) = r := by simpa [hsecond] using h
      exact hr

/-- The second call is told that the service was terminated before it was running, though it was running while the
call waited. -/
theorem running_unseen_by_a_call :
    (barrenPipeline.run earlyAndLateTurn).tasks[1]? =
        some (.finished (.service (.error (.notRunning .terminated)))) ∧
      ∃ moment, moment <+: earlyAndLateTurn ∧ (barrenPipeline.run moment).service.state = .running ∧
        (barrenPipeline.run moment).tasks[1]? = some .awaitingRunning :=
  ⟨rfl, earlyAndLateTurn.take 7, List.take_prefix .., by decide +kernel, rfl⟩

end World

end FailurePipeline
