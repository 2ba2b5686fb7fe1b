import FailurePipeline.Proofs.Intake.Progress
import FailurePipeline.Proofs.Pipeline.Provenance
import FailurePipeline.Proofs.Program.Course

/-!
# One task reads, and nobody else sends

Where one task reads an input and no other task sends anything, the accepted batches are those of the failures
that the input has reported, one batch for each, numbered from one (`World.Reader`).
-/

namespace FailurePipeline

/-- The batches of failures that are reported one by one. -/
def inputBatches (failures : List InputFailure) : List Batch := failures.mapIdx fun n f => ⟨n + 1, .input [f]⟩

theorem inputBatches_concat (failures : List InputFailure) (f : InputFailure) :
    inputBatches (failures ++ [f]) = inputBatches failures ++ [⟨failures.length + 1, .input [f]⟩] := by
  simp [inputBatches, List.mapIdx_concat]

/-- Whether a job has to do with the service only. -/
def Job.isSilent : Job → Bool
  | .start | .stop | .awaitRunning | .awaitTerminated => true
  | _ => false

/-- How far the task that reads an input has come, with what has been accepted of it. -/
def TaskPhase.Reads (i₀ : Intake) (accepted : List Batch) (nextId : Nat) : TaskPhase → Prop
  | .reading i =>
    ∃ lines fs cut, i₀.Progress lines fs cut i ∧ accepted = inputBatches fs ∧ nextId = fs.length + 1
  | .sending p b (.readOn i) =>
    ∃ lines fs cut f, i₀.Progress lines fs cut i ∧ i.phase = .reporting f ∧ b = ⟨fs.length + 1, .input [f]⟩ ∧
      accepted = inputBatches (if p = .recording then fs ++ [f] else fs) ∧ nextId = fs.length + 2
  | .finished (.intake i) =>
    ∃ lines fs cut r, i₀.Progress lines fs cut i ∧ i.phase = .finished r ∧ accepted = inputBatches fs
  | .abandoned => ∃ fs, accepted = inputBatches fs
  | _ => False

namespace World

variable {w w' : World} {i₀ : Intake} {n : Nat}

/-- The task with the number `n` reads an input, or is going to; no other task has sent a batch. -/
def Reader (i₀ : Intake) (n : Nat) (w : World) : Prop :=
  match w.tasks[n]? with
  | none => w.queue.accepted = [] ∧ w.nextId = 1
  | some p => p.Reads i₀ w.queue.accepted w.nextId

/-- A task that has to do with the service only makes no batch, and none is accepted with its steps. -/
private theorem TaskMove.of_isSilent {k : Nat} (h : TaskMove w k w') {j : Job} (hj : j.isSilent = true)
    (hs : ∀ p, w.tasks[k]? = some p → j.Serves w.config w.queue.accepted p) :
    w'.queue.accepted = w.queue.accepted ∧ w'.nextId = w.nextId := by
  have hno : ∀ {p}, w.tasks[k]? = some p → (∀ c acc, ¬ j.Serves c acc p) → w'.queue.accepted = w.queue.accepted ∧
      w'.nextId = w.nextId := fun hp hnot => absurd (hs _ hp) (hnot _ _)
  cases h with
  | submit s failures h =>
    refine hno h fun c acc hserves => ?_
    cases j <;> simp [Job.Serves, Job.isSilent] at hserves hj
  | push b after h =>
    refine hno h fun c acc hserves => ?_
    cases j <;> simp [Job.Serves, Job.isSilent] at hserves hj
  | report i f h =>
    refine hno h fun c acc hserves => ?_
    cases j <;> simp [Job.Serves, Job.isSilent] at hserves hj
  | ask => exact ⟨Queue.ask_accepted .., rfl⟩
  | call => exact ⟨Queue.join_accepted .., rfl⟩
  | receive deadline b q h ht => exact ⟨(Queue.of_take ht).2.1, rfl⟩
  | abandonQueued => exact ⟨Queue.withdraw_accepted .., rfl⟩
  | read i h => split <;> exact ⟨rfl, rfl⟩
  | _ => exact ⟨rfl, rfl⟩

namespace Reader

theorem of_phase {p : TaskPhase} (hp : w.tasks[n]? = some p) :
    Reader i₀ n w ↔ p.Reads i₀ w.queue.accepted w.nextId := by
  simp [Reader, hp]

theorem of_same (hr : Reader i₀ n w) (ht : w'.tasks[n]? = w.tasks[n]?)
    (ha : w'.queue.accepted = w.queue.accepted) (hid : w'.nextId = w.nextId) : Reader i₀ n w' := by
  unfold Reader at hr ⊢
  rw [ht, ha, hid]
  exact hr

theorem consumerMove (hr : Reader i₀ n w) (h : ConsumerMove w w') : Reader i₀ n w' := by
  obtain ⟨ht, hid, -, -, ha, -⟩ := h.frame
  exact hr.of_same (by rw [ht]) ha hid

private theorem setTask_self {p p' : TaskPhase} (hp : w.tasks[n]? = some p) (ht : w'.tasks = w.tasks.set n p')
    (hreads : p'.Reads i₀ w'.queue.accepted w'.nextId) : Reader i₀ n w' := by
  refine (of_phase ?_).2 hreads
  rw [ht, List.getElem?_set_self (List.getElem?_eq_some_iff.1 hp).1]

/-- The task that reads takes a step. -/
theorem taskMove_self (hr : Reader i₀ n w) (h : TaskMove w n w') : Reader i₀ n w' := by
  have hreads : ∀ {p}, w.tasks[n]? = some p → p.Reads i₀ w.queue.accepted w.nextId := fun hp => (of_phase hp).1 hr
  cases h with
  | idle => exact hr
  | read intake h hf hrep hi =>
    obtain ⟨lines, fs, cut, hp, ha, hid⟩ := hreads h
    obtain ⟨lines', cut', hp'⟩ := hp.step w.surroundings.wall
    have hnext : (TaskPhase.reading (intake.step w.surroundings.wall)).Reads i₀ w.queue.accepted w.nextId :=
      ⟨lines', fs, cut', hp', ha, hid⟩
    split <;> exact setTask_self h rfl hnext
  | report intake f h hphase =>
    obtain ⟨lines, fs, cut, hp, ha, hid⟩ := hreads h
    refine setTask_self h rfl ⟨lines, fs, cut, f, hp, hphase, by rw [hid], ha, ?_⟩
    simp [setTask, hid]
  | ask b after h =>
    cases after with
    | answer r => exact absurd (hreads h) id
    | readOn intake =>
      obtain ⟨lines, fs, cut, f, hp, hphase, hb, ha, hid⟩ := hreads h
      exact setTask_self h rfl ⟨lines, fs, cut, f, hp, hphase, hb, (Queue.ask_accepted ..).trans ha, hid⟩
  | push b after h hg =>
    -- The batch counts as accepted from here on, although the intake learns of it later.
    cases after with
    | answer r => exact absurd (hreads h) id
    | readOn intake =>
      obtain ⟨lines, fs, cut, f, hp, hphase, hb, ha, hid⟩ := hreads h
      refine setTask_self h rfl ⟨lines, fs, cut, f, hp, hphase, hb, ?_, hid⟩
      rw [if_neg (by simp)] at ha
      rw [if_pos rfl, inputBatches_concat, ← ha, ← hb]
      simp [setTask]
  | readOn b intake h =>
    obtain ⟨lines, fs, cut, f, hp, hphase, hb, ha, hid⟩ := hreads h
    obtain ⟨lines', hp'⟩ := hp.accepted hphase
    refine setTask_self h rfl ⟨lines', fs ++ [f], cut, hp', ha, ?_⟩
    rw [List.length_append]
    exact hid
  | endReading intake r h hphase =>
    obtain ⟨lines, fs, cut, hp, ha, -⟩ := hreads h
    exact setTask_self h rfl ⟨lines, fs, cut, r, hp, hphase, ha⟩
  | abandonQueued b after h =>
    cases after with
    | answer r => exact absurd (hreads h) id
    | readOn intake =>
      obtain ⟨lines, fs, cut, f, -, -, -, ha, -⟩ := hreads h
      exact setTask_self h rfl ⟨_, (Queue.withdraw_accepted ..).trans ha⟩
  | abandonAsking b after h =>
    cases after with
    | answer r => exact absurd (hreads h) id
    | readOn intake =>
      obtain ⟨lines, fs, cut, f, -, -, -, ha, -⟩ := hreads h
      exact setTask_self h rfl ⟨_, ha⟩
  | _ => exact absurd (hreads (by assumption)) id

/-- A task takes a step: the one that reads, or one that has to do with the service only. -/
theorem taskMove (hr : Reader i₀ n w) {jobs : List Job} (hp : Provenance jobs w)
    (hsilent : ∀ (k : Nat) j, jobs[k]? = some j → k ≠ n → j.isSilent = true) {k : Nat} (h : TaskMove w k w') :
    Reader i₀ n w' := by
  by_cases hk : k = n
  · exact hr.taskMove_self (hk ▸ h)
  · rcases h.tasks with rfl | ⟨p, p', hi, -, ht⟩
    · exact hr
    · obtain ⟨j, hj, -⟩ := hp.job hi
      obtain ⟨ha, hid⟩ := h.of_isSilent (hsilent k j hj hk) fun q hq => hp.serves k j q hj hq
      exact hr.of_same (by rw [ht, List.getElem?_set_ne hk]) ha hid

private theorem spawn (hr : Reader i₀ n w) {j : Job}
    (hj : if w.tasks.length = n then j = .read i₀ else j.isSilent = true) (hi₀ : i₀.Fresh) :
    Reader i₀ n (w.spawn j) := by
  obtain ⟨-, -, -, hq, -, -, ht⟩ := w.spawn_frame j
  by_cases hn : w.tasks.length = n
  · rw [if_pos hn] at hj
    subst hj
    have hnone : w.tasks[n]? = none := List.getElem?_eq_none (Nat.le_of_eq hn)
    have hfresh : w.queue.accepted = [] ∧ w.nextId = 1 := by simpa [Reader, hnone] using hr
    refine (of_phase (p := .reading i₀) ?_).2 ⟨[], [], [], .fresh hi₀, hq ▸ hfresh.1, hfresh.2⟩
    rw [ht, List.getElem?_append_right (Nat.le_of_eq hn), hn, Nat.sub_self]
    rfl
  · rw [if_neg hn] at hj
    have hid : (w.spawn j).nextId = w.nextId := by cases j <;> simp [Job.isSilent] at hj <;> rfl
    refine hr.of_same ?_ (by rw [hq]) hid
    rw [ht]
    by_cases hlt : n < w.tasks.length
    · rw [List.getElem?_append_left hlt]
    · have hle : (w.tasks ++ [(w.firstPhase j).2]).length ≤ n := by
        simp only [List.length_append, List.length_singleton]
        omega
      rw [List.getElem?_eq_none hle, List.getElem?_eq_none (by omega)]

/-- The accepted batches are those of the failures that have been reported. -/
theorem exists_inputBatches (hr : Reader i₀ n w) : ∃ fs, w.queue.accepted = inputBatches fs := by
  unfold Reader at hr
  split at hr
  · exact ⟨[], hr.1⟩
  · next p hp =>
    cases p with
    | reading i =>
      obtain ⟨-, fs, -, -, ha, -⟩ := hr
      exact ⟨fs, ha⟩
    | sending s b after =>
      cases after with
      | answer r => exact absurd hr id
      | readOn i =>
        obtain ⟨-, fs, -, f, -, -, -, ha, -⟩ := hr
        exact ⟨_, ha⟩
    | finished r =>
      cases r with
      | intake i =>
        obtain ⟨-, fs, -, -, -, -, ha⟩ := hr
        exact ⟨fs, ha⟩
      | _ => exact absurd hr id
    | abandoned => exact hr
    | _ => exact absurd hr id

/-- Every orderly run of an agenda with one job that reads keeps to this. -/
theorem run {w₀ : World} {agenda : List Job} {actions : List Action} (h : Orderly w₀ agenda actions) (hw : Fresh w₀)
    (hid : w₀.nextId = 1) (hi₀ : i₀.Fresh)
    (hag : ∀ (k : Nat) j, agenda[k]? = some j → if k = n then j = .read i₀ else j.isSilent = true) :
    Reader i₀ n (w₀.run actions) := by
  refine h.induction ?_ fun actions a ha hr => ?_
  · obtain ⟨capacity, hq⟩ := hw.queue
    have hnone : w₀.queue.accepted = [] := by rw [(Queue.eq_of_create? hq).2]
    simp [Reader, hw.tasks, hnone, hid]
  · have hp : Provenance (Action.jobs actions) (w₀.run actions) :=
      (Provenance.fresh hw.service hw.tasks).run actions
    have hjobs : ∀ (k : Nat) j, (Action.jobs (actions ++ [a]))[k]? = some j → agenda[k]? = some j := by
      intro k j hj
      obtain ⟨hlt, rfl⟩ := List.getElem?_eq_some_iff.1 hj
      exact (ha.jobs.getElem hlt) ▸ List.getElem?_eq_getElem _
    refine step_cases _ a (fun j hj => ?_) (fun k v _ hv => ?_) (fun v _ hv => hr.consumerMove hv)
      fun _ _ _ _ => hr
    · refine hr.spawn ?_ hi₀
      have hlast : (Action.jobs (actions ++ [a]))[(w₀.run actions).tasks.length]? = some j := by
        rw [hp.length, hj, Action.jobs_append, List.getElem?_append_right (Nat.le_refl _), Nat.sub_self]
        rfl
      exact hag _ j (hjobs _ j hlast)
    · refine hr.taskMove hp (fun k j hj hk => ?_) hv
      have hin : (Action.jobs (actions ++ [a]))[k]? = some j := by
        rw [Action.jobs_append, List.getElem?_append_left (List.getElem?_eq_some_iff.1 hj).1]
        exact hj
      have hk' := hag k j (hjobs k j hin)
      rwa [if_neg hk] at hk'

/-- Once the input has been read, no batch is accepted any more. -/
theorem accepted_eq (hr : Reader i₀ n w) (hr' : Reader i₀ n w') (hgrows : w.queue.accepted <+: w'.queue.accepted)
    {i : Intake} (hi : w.tasks[n]? = some (.finished (.intake i)))
    (hi' : w'.tasks[n]? = some (.finished (.intake i))) : w.queue.accepted = w'.queue.accepted := by
  obtain ⟨_, fs, _, _, hp, -, ha⟩ := (of_phase hi).1 hr
  obtain ⟨_, fs', _, _, hp', -, ha'⟩ := (of_phase hi').1 hr'
  refine hgrows.eq_of_length ?_
  rw [ha, ha', inputBatches, inputBatches, List.length_mapIdx, List.length_mapIdx, ← hp.failed, hp'.failed]

end Reader

end World

end FailurePipeline
