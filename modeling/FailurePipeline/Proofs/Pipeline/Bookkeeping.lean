import FailurePipeline.Proofs.Dispatch.Figures
import FailurePipeline.Proofs.Intake.Progress
import FailurePipeline.Proofs.Pipeline.Owners
import Mathlib.Data.List.Induction

/-!
# Statistics and metrics agree

Whatever happens in a pipeline, the metrics say of every `Figure` what the statistics, the queue, the stores and the
inputs say, but for batches that are in the queue and have not been measured yet (`World.Booked`).  Once there are
none of these, both agree (`statistics_agree_with_metrics`).
-/

namespace FailurePipeline

/-- How many lines have had this status. -/
def IntakeStats.count (stats : IntakeStats) : LineStatus → Nat
  | .decoded => stats.forwarded
  | .failed => stats.failed

/-- The input that a task reads, or has read. -/
def TaskPhase.intake? : TaskPhase → Option Intake
  | .reading i | .sending _ _ (.readOn i) | .finished (.intake i) => some i
  | _ => none

/-- What a batch says of a figure when it is accepted. -/
def Batch.figure (b : Batch) : Figure → Nat
  | .batches t => if b.type = t then 1 else 0
  | .failures t => if b.type = t then b.size else 0
  | _ => 0

namespace TaskPhase

/-- What the input of a task says of a figure. -/
def figure (p : TaskPhase) : Figure → Nat
  | .lines s => (p.intake?.map (·.stats.count s)).getD 0
  | _ => 0

/-- What has not been measured yet of a batch that the task has got accepted. -/
def unmeasured (p : TaskPhase) (f : Figure) : Nat :=
  match p with
  | .sending .recording b _ => b.figure f
  | _ => 0

theorem figure_congr {p p' : TaskPhase} (h : p'.intake? = p.intake?) (f : Figure) : p'.figure f = p.figure f := by
  cases f <;> simp [figure, h]

theorem figure_of_none {p : TaskPhase} (h : p.intake? = none) (f : Figure) : p.figure f = 0 := by
  cases f <;> simp [figure, h]

end TaskPhase

namespace World

variable {w w' : World}

/-- The object that a handler puts into its store with an action, if one is put. -/
def put? (w : World) : Action → Option Put
  | .call i =>
    match w.service.consumer with
    | some (.dispatching d _) => d.put? w.surroundings w.workplace i
    | _ => none
  | _ => none

/-- The objects that handlers put into their stores in a run, in order. -/
def puts (w : World) : List Action → List Put
  | [] => []
  | a :: as => (w.put? a).toList ++ (w.step a).puts as

theorem puts_concat (w : World) (as : List Action) (a : Action) :
    w.puts (as ++ [a]) = w.puts as ++ ((w.run as).put? a).toList := by
  induction as generalizing w with
  | nil => simp [puts, run]
  | cons b bs ih =>
    rw [List.cons_append, puts, ih, puts, List.append_assoc]
    rfl

/-- What the statistics of the dispatches, the queue, the handlers that keep batches, the stores and the inputs say of
a figure, when these objects have been put. -/
def figure (w : World) (puts : List Put) : Figure → Nat
  | .dropped => w.workplace.stats.dropped
  | .handlerErrors => w.workplace.stats.handlerErrors
  | .acknowledged => w.workplace.stats.acknowledged
  | .acknowledgeErrors => w.workplace.stats.acknowledgeErrors
  | .batches t => (w.queue.accepted.filter (·.type = t)).length
  | .failures t => ((w.queue.accepted.filter (·.type = t)).map (·.size)).sum
  | .records => (w.workplace.registry.sinks.map (·.stats.total)).sum
  | .octets => (puts.map (·.octets.length)).sum
  | .lines s => ((w.tasks.filterMap (·.intake?)).map (·.stats.count s)).sum

private theorem length_filter_eq (bs : List Batch) (t : FailureType) :
    (bs.filter (·.type = t)).length = (bs.map (·.figure (.batches t))).sum := by
  induction bs with
  | nil => rfl
  | cons b bs ih => by_cases h : b.type = t <;> simp [h, ih, Batch.figure, Nat.add_comm]

private theorem sum_filter_eq (bs : List Batch) (t : FailureType) :
    ((bs.filter (·.type = t)).map (·.size)).sum = (bs.map (·.figure (.failures t))).sum := by
  induction bs with
  | nil => rfl
  | cons b bs ih => by_cases h : b.type = t <;> simp [h, ih, Batch.figure]

/-- Each part of the pipeline tells of its own figures only. -/
theorem figure_eq (w : World) (puts : List Put) (f : Figure) :
    w.figure puts f = w.workplace.figure f + (puts.map (Put.figure f)).sum + (w.queue.accepted.map (·.figure f)).sum +
      (w.tasks.map (·.figure f)).sum := by
  have hputs : f ≠ .octets → (puts.map (Put.figure f)).sum = 0 := by
    intro hf
    refine sum_map_eq_zero fun p _ => ?_
    cases f <;> first | rfl | exact absurd rfl hf
  have hbatches : (∀ t, f ≠ .batches t) → (∀ t, f ≠ .failures t) → (w.queue.accepted.map (·.figure f)).sum = 0 := by
    intro hb hf
    refine sum_map_eq_zero fun b _ => ?_
    cases f <;> first | rfl | exact absurd rfl (hb _) | exact absurd rfl (hf _)
  have htasks : (∀ s, f ≠ .lines s) → (w.tasks.map (·.figure f)).sum = 0 := by
    intro hf
    refine sum_map_eq_zero fun p _ => ?_
    cases f <;> first | rfl | exact absurd rfl (hf _)
  cases f with
  | batches t =>
    rw [hputs (by simp), htasks (by simp), ← length_filter_eq]
    simp [figure, Workplace.figure]
  | failures t =>
    rw [hputs (by simp), htasks (by simp), ← sum_filter_eq]
    simp [figure, Workplace.figure]
  | octets =>
    rw [hbatches (by simp) (by simp), htasks (by simp)]
    simp only [figure, Workplace.figure, Nat.zero_add, Nat.add_zero]
    rfl
  | lines s =>
    rw [hputs (by simp), hbatches (by simp) (by simp)]
    simp [figure, Workplace.figure, TaskPhase.figure, sum_filterMap]
  | _ =>
    rw [hputs (by simp), hbatches (by simp) (by simp), htasks (by simp)]
    rfl

/-! ### What the consumer does -/

private theorem advances_of_same {v : World} (hv : v.workplace = w.workplace) :
    ∃ es, w.workplace.Advances v.workplace es [] := by
  refine ⟨[], ?_⟩
  rw [hv]
  exact .of_same rfl (fun _ => rfl) rfl

/-- What is measured beside a dispatch moves no figure. -/
private theorem advances_of_emit {v : World} {e : Metrics.Event} (he : ∀ f : Figure, f.ofEvent e = 0)
    (hv : v.workplace = w.workplace.emit e) : ∃ es, w.workplace.Advances v.workplace es [] := by
  refine ⟨[e], ?_⟩
  rw [hv]
  refine .of_emit rfl rfl fun f => ?_
  rw [he f]
  rfl

private theorem advances_of_take {u v : World} {b : Batch} (ht : u.take .consumer = some (b, v))
    (hu : u.workplace = w.workplace) : ∃ es, w.workplace.Advances v.workplace es [] := by
  obtain ⟨q, -, rfl⟩ := eq_of_take ht
  have hdepth : ∀ f : Figure, f.ofEvent (.queueDepth q.size) = 0 := by
    intro f
    cases f <;> rfl
  exact advances_of_emit hdepth (congrArg (·.emit (.queueDepth q.size)) hu)

/-- The consumer keeps the books, and puts no object itself. -/
theorem stepConsumer_advances (w : World) : ∃ es, w.workplace.Advances w.stepConsumer.workplace es [] := by
  rw [stepConsumer]
  split
  · split
    · exact advances_of_same rfl
    · exact advances_of_same rfl
    · refine advances_of_same ?_
      split <;> rfl
    · next asked _ =>
      refine advances_of_same ?_
      split
      · rfl
      · cases asked <;> rfl
    · rw [stepAsking]
      split
      · simp only
        split
        · next b v ht =>
          obtain ⟨es, ha⟩ := advances_of_take (w := w) ht rfl
          exact ⟨es, ha⟩
        · exact advances_of_same rfl
      · exact advances_of_same rfl
      · next h _ _ _ => cases h <;> exact advances_of_same rfl
    · exact advances_of_same rfl
    · next d mode _ =>
      unfold stepDispatch
      split
      · exact advances_of_same rfl
      · exact advances_of_same rfl
      · exact advances_of_same rfl
      · exact d.step_advances w.surroundings w.workplace
    · refine advances_of_same ?_
      split <;> rfl
    · next count since _ =>
      simp only [stepPolling]
      split
      · exact advances_of_same rfl
      · exact advances_of_same rfl
      · next h _ _ => cases h <;> exact advances_of_same rfl
    · split
      · next b v ht =>
        obtain ⟨es, ha⟩ := advances_of_take (w := w) ht rfl
        exact ⟨es, ha⟩
      · exact advances_of_same rfl
    · refine advances_of_emit (fun f => ?_) rfl
      cases f <;> rfl
    · exact advances_of_same rfl
  · exact advances_of_same rfl

/-- A call of a handler puts an object at most, and keeps the books. -/
theorem stepCall_advances (w : World) (i : Nat) :
    ∃ es, w.workplace.Advances (w.stepCall i).workplace es (w.put? (.call i)).toList := by
  have hsame : ∃ es, w.workplace.Advances w.workplace es [] := advances_of_same rfl
  unfold stepCall put?
  cases hc : w.service.consumer with
  | none => exact hsame
  | some p =>
    cases p with
    | dispatching d mode => exact d.stepCall_advances w.surroundings w.workplace i
    | _ => exact hsame

/-! ### The books -/

/-- What these events say of every figure is what the pipeline says, but for what has not been measured yet. -/
structure Booked (depot : Depot) (puts : List Put) (w : World) : Prop where
  events : ∃ es, w.workplace.recorder = Metrics.Recorder.emitAll {} es ∧
    ∀ f, f.ofEvents es + (w.tasks.map (·.unmeasured f)).sum = w.figure puts f
  depot : Put.all depot puts = .ok w.workplace.depot

namespace Booked

variable {depot : Depot} {ps : List Put} {jobs : List Job}

/-- The dispatch goes on. -/
private theorem of_advances (hb : Booked depot ps w) {es : List Metrics.Event} {ps' : List Put}
    (ha : w.workplace.Advances w'.workplace es ps') (ht : w'.tasks = w.tasks)
    (hq : w'.queue.accepted = w.queue.accepted) : Booked depot (ps ++ ps') w' := by
  obtain ⟨⟨es', hrecorder, hfigures⟩, hdepot⟩ := hb
  refine ⟨⟨es' ++ es, ?_, fun f => ?_⟩, Put.all_append hdepot ha.depot⟩
  · rw [ha.recorder, hrecorder, ← Metrics.Recorder.emitAll_append]
  · have hold := hfigures f
    have hnew := ha.figures f
    rw [figure_eq] at hold ⊢
    rw [Figure.ofEvents_append, List.map_append, List.sum_append, ht, hq]
    omega

/-- A task goes on, has these batches accepted, and measures these events. -/
private theorem of_task (hb : Booked depot ps w) {i : Nat} {p p' : TaskPhase} (es : List Metrics.Event)
    (bs : List Batch) (hi : w.tasks[i]? = some p) (ht : w'.tasks = w.tasks.set i p')
    (hw : ∃ recorder, w'.workplace = { w.workplace with recorder := recorder })
    (hr : w'.workplace.recorder = w.workplace.recorder.emitAll es) (hq : w'.queue.accepted = w.queue.accepted ++ bs)
    (hf : ∀ f, f.ofEvents es + p'.unmeasured f + p.figure f =
      p.unmeasured f + p'.figure f + (bs.map (·.figure f)).sum) : Booked depot ps w' := by
  obtain ⟨⟨es', hrecorder, hfigures⟩, hdepot⟩ := hb
  obtain ⟨recorder, hw⟩ := hw
  refine ⟨⟨es' ++ es, ?_, fun f => ?_⟩, ?_⟩
  · rw [hr, Metrics.Recorder.emitAll_append, ← hrecorder]
  · have hold := hfigures f
    have hlocal := hf f
    have hsame : w'.workplace.figure f = w.workplace.figure f := by
      rw [hw]
      rfl
    have hunmeasured := sum_map_set_add hi p' (·.unmeasured f)
    have hfigure := sum_map_set_add hi p' (·.figure f)
    rw [figure_eq] at hold ⊢
    rw [Figure.ofEvents_append, ht, hq, hsame, List.map_append, List.sum_append]
    omega
  · rw [hw]
    exact hdepot

/-- A task goes on, and there is nothing to count. -/
private theorem of_quiet (hb : Booked depot ps w) {i : Nat} {p p' : TaskPhase} (hi : w.tasks[i]? = some p)
    (ht : w'.tasks = w.tasks.set i p') (hw : w'.workplace = w.workplace)
    (hq : w'.queue.accepted = w.queue.accepted) (hin : p'.intake? = p.intake?)
    (hun : ∀ f, p'.unmeasured f = p.unmeasured f) : Booked depot ps w' := by
  have hnone : w'.queue.accepted = w.queue.accepted ++ [] := by rw [hq, List.append_nil]
  refine hb.of_task [] [] hi ht ⟨w.workplace.recorder, hw⟩ (by rw [hw]; rfl) hnone fun f => ?_
  rw [hun f, TaskPhase.figure_congr hin f]
  simp [Figure.ofEvents]

/-- What a task answers once its batch is in the queue is not an input. -/
private theorem intake?_of_answer (hp : Provenance jobs w) {i : Nat} {p : SendPhase} {b : Batch} {r : TaskResult}
    (hi : w.tasks[i]? = some (.sending p b (.answer r))) : (TaskPhase.finished r).intake? = none := by
  obtain ⟨j, -, hserves⟩ := hp.job hi
  cases j <;> simp only [Job.Serves] at hserves
  · obtain ⟨-, hr, -⟩ := hserves
    cases hr
    rfl
  · obtain ⟨-, hr, -⟩ := hserves
    cases hr
    rfl
  · obtain ⟨-, i, hi⟩ := hserves
    cases hi

/-- A task that reads on once its batch is in the queue was begun to read. -/
private theorem isRead_of_readOn (hp : Provenance jobs w) {i : Nat} {p : SendPhase} {b : Batch} {intake : Intake}
    (hi : w.tasks[i]? = some (.sending p b (.readOn intake))) : ∃ j, jobs[i]? = some j ∧ j.isRead = true := by
  obtain ⟨j, hj, hserves⟩ := hp.job hi
  refine ⟨j, hj, ?_⟩
  cases j <;> simp only [Job.Serves] at hserves
  · simp [Job.Sends] at hserves
  · simp [Job.Sends] at hserves
  · rfl

private theorem ofEvents_submitted (f : Figure) (b : Batch) (depth : Nat) :
    f.ofEvents [.batchSubmitted b.type b.size, .queueDepth depth] = b.figure f := by
  cases f <;> simp [Figure.ofEvents, Figure.ofEvent, Batch.figure]

/-- With the batch of a bad line in the queue, its input counts one more line that has failed. -/
private theorem figure_accepted (intake : Intake) (b : Batch) (f : Figure) :
    (TaskPhase.reading intake.accepted).figure f =
      (TaskPhase.sending .recording b (.readOn intake)).figure f + f.ofEvent (.lineRead .failed) := by
  cases f with
  | lines s => cases s <;> rfl
  | _ => rfl

private theorem figure_of_same_stats {intake intake' : Intake} (h : intake'.stats = intake.stats) (f : Figure) :
    (TaskPhase.reading intake').figure f = (TaskPhase.reading intake).figure f := by
  cases f <;> simp [TaskPhase.figure, TaskPhase.intake?, h]

private theorem figure_of_forwarded {intake intake' : Intake}
    (h : intake'.stats = { intake.stats with forwarded := intake.stats.forwarded + 1 }) (f : Figure) :
    (TaskPhase.reading intake').figure f = (TaskPhase.reading intake).figure f + f.ofEvent (.lineRead .decoded) := by
  cases f with
  | lines s => cases s <;> simp [TaskPhase.figure, TaskPhase.intake?, h, IntakeStats.count, Figure.ofEvent]
  | _ => rfl

/-- A batch is given up before it is in the queue.  An input is not, so that what it has counted stays in the
pipeline. -/
private theorem of_abandoned (hb : Booked depot ps w) (hp : Provenance jobs w) {i : Nat}
    (hkept : ∀ j, jobs[i]? = some j → j.isRead = true → w'.tasks[i]? ≠ some .abandoned) {q : SendPhase} {b : Batch}
    {rest : AfterSend} (hi : w.tasks[i]? = some (.sending q b rest)) (hq : q ≠ .recording)
    (ht : w'.tasks = w.tasks.set i .abandoned) (hw : w'.workplace = w.workplace)
    (ha : w'.queue.accepted = w.queue.accepted) : Booked depot ps w' := by
  cases rest with
  | answer r =>
    refine hb.of_quiet hi ht hw ha rfl fun f => ?_
    cases q with
    | recording => exact absurd rfl hq
    | _ => rfl
  | readOn intake =>
    obtain ⟨j, hj, hread⟩ := isRead_of_readOn hp hi
    refine absurd ?_ (hkept j hj hread)
    rw [ht, List.getElem?_set_self (List.getElem?_eq_some_iff.1 hi).1]

theorem taskMove (hb : Booked depot ps w) (hp : Provenance jobs w) {i : Nat} (h : TaskMove w i w')
    (hkept : ∀ j, jobs[i]? = some j → j.isRead = true → w'.tasks[i]? ≠ some .abandoned) : Booked depot ps w' := by
  have hworkplace := h.workplace
  cases h with
  | idle => exact hb
  | ask b rest h => exact hb.of_quiet h rfl rfl (Queue.ask_accepted ..) (by cases rest <;> rfl) fun _ => rfl
  | push b rest h hg =>
    -- The batch counts from here on, and is measured with the next step of the task.
    refine hb.of_task [] [b] h rfl hworkplace rfl rfl fun f => ?_
    have hsame : (TaskPhase.sending .recording b rest).figure f = (TaskPhase.sending .queued b rest).figure f :=
      TaskPhase.figure_congr (by cases rest <;> rfl) f
    simp [Figure.ofEvents, TaskPhase.unmeasured, hsame, Nat.add_comm]
  | answer b r h =>
    refine hb.of_task [.batchSubmitted b.type b.size, .queueDepth w.queue.size] [] h rfl hworkplace rfl
      (List.append_nil _).symm fun f => ?_
    rw [ofEvents_submitted, TaskPhase.figure_of_none (intake?_of_answer hp h), TaskPhase.figure_of_none rfl]
    simp [TaskPhase.unmeasured]
  | readOn b intake h =>
    refine hb.of_task ([.batchSubmitted b.type b.size, .queueDepth w.queue.size] ++ [.lineRead .failed]) [] h rfl
      hworkplace rfl (List.append_nil _).symm fun f => ?_
    rw [Figure.ofEvents_append, ofEvents_submitted, figure_accepted intake b]
    simp [TaskPhase.unmeasured, Figure.ofEvents]
    omega
  | read intake h hf hr hi =>
    rcases intake.step_stats w.surroundings.wall with hstats | hstats
    · rw [hstats, if_neg (Nat.lt_irrefl _)]
      refine hb.of_task [] [] h rfl ⟨_, rfl⟩ rfl (List.append_nil _).symm fun f => ?_
      simp [Figure.ofEvents, TaskPhase.unmeasured, figure_of_same_stats hstats]
    · rw [hstats, if_pos (Nat.lt_succ_self _)]
      refine hb.of_task [.lineRead .decoded] [] h rfl ⟨_, rfl⟩ rfl (List.append_nil _).symm fun f => ?_
      simp [Figure.ofEvents, TaskPhase.unmeasured, figure_of_forwarded hstats]
      omega
  | submit _ _ h | report _ _ h => exact hb.of_quiet h rfl rfl rfl rfl fun _ => rfl
  | call limit h => exact hb.of_quiet h rfl rfl (Queue.join_accepted ..) rfl fun _ => rfl
  | receive deadline b q h ht =>
    refine hb.of_task [.queueDepth q.size] [] h rfl hworkplace rfl ?_ fun f => ?_
    · rw [List.append_nil]
      exact (Queue.of_take ht).2.1
    · cases f <;> rfl
  | stop h =>
    refine hb.of_quiet h rfl rfl rfl ?_ fun f => ?_
    · split <;> rfl
    · split <;> rfl
  | join crashed h hc => cases crashed <;> exact hb.of_quiet h rfl rfl rfl rfl fun _ => rfl
  | abandonQueued b rest h => exact hb.of_abandoned hp hkept h (by simp) rfl rfl (Queue.withdraw_accepted ..)
  | abandonAsking b rest h => exact hb.of_abandoned hp hkept h (by simp) rfl rfl rfl
  | _ =>
    refine hb.of_quiet (by assumption) rfl rfl rfl ?_ fun f => ?_
    · rfl
    · rfl

private theorem spawn (hb : Booked depot ps w) {j : Job} (hj : ∀ i, j = .read i → i.stats = {}) :
    Booked depot ps (w.spawn j) := by
  obtain ⟨⟨es, hrecorder, hfigures⟩, hdepot⟩ := hb
  obtain ⟨-, -, -, hq, -, hw, ht⟩ := w.spawn_frame j
  refine ⟨⟨es, hw ▸ hrecorder, fun f => ?_⟩, hw ▸ hdepot⟩
  have hold := hfigures f
  have hnothing : (w.firstPhase j).2.figure f = 0 ∧ (w.firstPhase j).2.unmeasured f = 0 := by
    cases j with
    | read i =>
      refine ⟨?_, rfl⟩
      cases f with
      | lines s =>
        have hstats := hj i rfl
        cases s <;> simp [firstPhase, TaskPhase.figure, TaskPhase.intake?, hstats, IntakeStats.count]
      | _ => rfl
    | _ => exact ⟨TaskPhase.figure_of_none rfl f, rfl⟩
  obtain ⟨hfigure, hunmeasured⟩ := hnothing
  rw [figure_eq] at hold ⊢
  rw [ht, hq, hw, List.map_append, List.map_append, List.sum_append, List.sum_append]
  simp only [List.map_cons, List.map_nil, List.sum_cons, List.sum_nil, hfigure, hunmeasured]
  omega

/-- A step keeps the books, unless an input is given up with it. -/
theorem step (hb : Booked depot ps w) (hp : Provenance jobs w) (a : Action)
    (hfresh : ∀ i, a = .spawn (.read i) → i.stats = {})
    (hkept : ∀ (n : Nat) j, jobs[n]? = some j → j.isRead = true → (w.step a).tasks[n]? ≠ some .abandoned) :
    Booked depot (ps ++ (w.put? a).toList) (w.step a) := by
  have hoff : w.put? a = none → Booked depot ps (w.step a) → Booked depot (ps ++ (w.put? a).toList) (w.step a) := by
    intro hput hb
    rw [hput]
    exact (List.append_nil ps).symm ▸ hb
  have hstill : ∀ {v : World}, v.workplace = w.workplace → v.tasks = w.tasks →
      v.queue.accepted = w.queue.accepted → Booked depot ps v := by
    intro v hw ht hq
    have hnothing : w.workplace.Advances v.workplace [] [] := hw ▸ .of_same rfl (fun _ => rfl) rfl
    have hall := hb.of_advances hnothing ht hq
    rwa [List.append_nil] at hall
  cases a with
  | spawn j => exact hoff rfl (hb.spawn fun i hi => hfresh i (hi ▸ rfl))
  | task i => exact hoff rfl (hb.taskMove hp (stepTask_move w i) (hkept i))
  | abandon i => exact hoff rfl (hb.taskMove hp (abandonTask_move w i) (hkept i))
  | consumer =>
    obtain ⟨es, ha⟩ := w.stepConsumer_advances
    obtain ⟨ht, -, -, -, hq, -⟩ := (stepConsumer_move w).frame
    exact hb.of_advances ha ht hq
  | call i =>
    obtain ⟨es, ha⟩ := w.stepCall_advances i
    obtain ⟨ht, -, -, -, hq, -⟩ := (stepCall_move w i).frame
    exact hb.of_advances ha ht hq
  | crash =>
    obtain ⟨ht, -, -, -, hq, -⟩ := (crashConsumer_move w).frame
    refine hoff rfl (hstill ?_ ht hq)
    rw [World.step, crashConsumer]
    split <;> rfl
  | supply h =>
    refine hoff rfl ?_
    rw [World.step, supply]
    split
    · exact hb
    · exact hstill rfl rfl rfl
  | pass ms => exact hoff rfl (hstill rfl rfl rfl)
  | clock wall => exact hoff rfl (hstill rfl rfl rfl)
  | refuse reason => exact hoff rfl (hstill rfl rfl rfl)

end Booked

/-! ### Runs -/

/-- A pipeline in which nothing has been counted or measured. -/
structure Blank (w : World) : Prop where
  queue : ∃ capacity, Queue.create? capacity = some w.queue
  service : w.service = {}
  tasks : w.tasks = []
  recorder : w.workplace.recorder = {}
  stats : w.workplace.stats = {}
  sinks : ∀ k ∈ w.workplace.registry.sinks, k.stats = {}

/-- No input is given up in these tasks of a pipeline. -/
def KeepsInputs (jobs : List Job) (w : World) : Prop :=
  ∀ (n : Nat) j, jobs[n]? = some j → j.isRead = true → w.tasks[n]? ≠ some .abandoned

/-- No task is between the acceptance of its batch and its measurement. -/
def IsSettled (w : World) : Prop := ∀ b rest, .sending .recording b rest ∉ w.tasks

theorem Blank.booked {w₀ : World} (h : Blank w₀) : Booked w₀.workplace.depot [] w₀ := by
  refine ⟨⟨[], h.recorder, fun f => ?_⟩, rfl⟩
  obtain ⟨capacity, hq⟩ := h.queue
  have hempty : w₀.queue.accepted = [] := by rw [(Queue.eq_of_create? hq).2]
  have hkept : w₀.workplace.registry.kept = 0 := by
    refine sum_map_eq_zero fun k hk => ?_
    rw [h.sinks k hk]
    rfl
  rw [figure_eq, h.tasks, hempty]
  cases f <;> simp [Figure.ofEvents, Workplace.figure, h.stats, hkept]

theorem Blank.booked_run {w₀ : World} (h : Blank w₀) {actions : List Action}
    (hfresh : ∀ i, .read i ∈ Action.jobs actions → i.stats = {})
    (hkept : KeepsInputs (Action.jobs actions) (w₀.run actions)) :
    Booked w₀.workplace.depot (w₀.puts actions) (w₀.run actions) := by
  induction actions using List.reverseRecOn with
  | nil => exact h.booked
  | append_singleton as a ih =>
    have hp : Provenance (Action.jobs as) (w₀.run as) := (Provenance.fresh h.service h.tasks).run as
    have hjobs := Action.jobs_append as [a]
    have hearlier : ∀ (n : Nat) j, (Action.jobs as)[n]? = some j → (Action.jobs (as ++ [a]))[n]? = some j := by
      intro n j hj
      rw [hjobs, List.getElem?_append_left (List.getElem?_eq_some_iff.1 hj).1, hj]
    rw [run_concat] at hkept ⊢
    have hb := ih (fun i hi => hfresh i (hjobs ▸ List.mem_append_left _ hi)) fun n j hj hread hover =>
      hkept n j (hearlier n j hj) hread (step_over hover rfl a)
    rw [puts_concat]
    refine hb.step hp a (fun i ha => hfresh i ?_) fun n j hj => hkept n j (hearlier n j hj)
    rw [hjobs, ha]
    exact List.mem_append_right _ List.mem_cons_self

/-- The metrics, the statistics and the stores of a pipeline agree after a run. -/
structure Agree (w₀ : World) (actions : List Action) : Prop where
  /-- All counters of a figure together, if they do not exceed a word. -/
  totals : ∀ f : Figure, (w₀.run actions).figure (w₀.puts actions) f < Metrics.Recorder.wordSize →
    (w₀.run actions).workplace.recorder.total f.covers = (w₀.run actions).figure (w₀.puts actions) f
  /-- The counter of a figure that has one only. -/
  counters : ∀ (f : Figure) (k : Metrics.Key), f.counter? = some k →
    (w₀.run actions).figure (w₀.puts actions) f < Metrics.Recorder.wordSize →
      (w₀.run actions).workplace.recorder.count k = (w₀.run actions).figure (w₀.puts actions) f
  /-- The objects that are counted are those in the stores. -/
  depot : Put.all w₀.workplace.depot (w₀.puts actions) = .ok (w₀.run actions).workplace.depot

/-- Statistics and metrics agree whenever no task is about to measure a batch. -/
theorem statistics_agree_with_metrics {w₀ : World} (h : Blank w₀) (actions : List Action)
    (hfresh : ∀ i, .read i ∈ Action.jobs actions → i.stats = {})
    (hkept : KeepsInputs (Action.jobs actions) (w₀.run actions)) (hsettled : (w₀.run actions).IsSettled) :
    Agree w₀ actions := by
  obtain ⟨⟨es, hrecorder, hfigures⟩, hdepot⟩ := h.booked_run hfresh hkept
  have hevents : ∀ f : Figure, Metrics.amounts f.covers es = (w₀.run actions).figure (w₀.puts actions) f := by
    intro f
    have hnone : ((w₀.run actions).tasks.map (·.unmeasured f)).sum = 0 := by
      refine sum_map_eq_zero fun p hp => ?_
      unfold TaskPhase.unmeasured
      split
      · exact absurd hp (hsettled _ _)
      · rfl
    rw [f.amounts_covers, ← hfigures f, hnone, Nat.add_zero]
  refine ⟨fun f hf => ?_, fun f k hk hf => ?_, hdepot⟩
  · rw [← hevents f] at hf ⊢
    rw [hrecorder, Metrics.Recorder.total_emitAll hf]
  · rw [← hevents f, Figure.covers_of_counter? hk] at hf ⊢
    rw [hrecorder, Metrics.Recorder.count_emitAll hf]

/-- No handler takes failures of processing.  Those of the input go to a store in memory and to a remote one, and those
of indexing to a handler that never succeeds. -/
def mixedPipeline : World where
  config := { submitProcessingFailures := true, keepFailedMessageDuplicate := false }
  queue := { capacity := 2, free := 2 }
  workplace :=
    { registry :=
        { fallback := .deadLetter { provider := ⟨.memory 0, .root, "memory:///"⟩, types := [.indexing] }
          custom :=
            [{ name := "indexing", enabled := .ok true, supports := fun b => .ok (b.type == .indexing)
               work := .scripted 0 fun n => if n = 0 then .error (.failed "busy") else .panic .other },
              .deadLetter { provider := ⟨.memory 0, ⟨["kept"]⟩, "memory:///kept"⟩, types := [.input] },
              .deadLetter { provider := ⟨.remote "gs://@letters", .root, "gs://letters"⟩, types := [.input] }] }
      acknowledger := { outcome := fun n => if n = 0 then .error "unavailable" else .ok }
      depot := { memories := [.empty] } }

/-- Producers report three failures of indexing and three of two messages, and an input ends with a fault after three
lines, one of which is JSON. -/
def mixedJobs : List Job :=
  [.start, .submit (.indexing [⟨.unknown, ⟨"", "", ⟨0, 0⟩⟩, none, ""⟩, ⟨.unknown, ⟨"", "", ⟨0, 0⟩⟩, none, ""⟩]),
    .submit (.indexing [⟨.mappingError, ⟨"", "", ⟨0, 0⟩⟩, none, ""⟩]),
    .submit (.processing ⟨"a"⟩ [⟨.extractor, "", ""⟩, ⟨.unknown, "", ""⟩]), .submit (.unknown ⟨"b"⟩ ""),
    .read { inputId := "stdin", output := {},
            feed := { arrivals := [.read [0x31, 0x0A, 0x7B, 0x0A, 0x5B, 0x0A] false], sequel := .fault } }]

/-- The tasks, the consumer and two calls of handlers take turns. -/
def turns : List Action :=
  [.task 0, .task 1, .task 2, .task 3, .task 4, .task 5, .consumer, .call 0, .call 1]

/-- Stores refuse objects for two rounds of turns and take them for one. -/
def mixedTurns : List Action :=
  List.flatten (List.replicate 20 (.refuse (some (.store .other)) :: turns ++ turns ++ .refuse none :: turns))

def mixedOutcomes : List Action := mixedJobs.map .spawn ++ mixedTurns

/-- Both say the same of every figure, and each store has taken the object of one of the two lines and refused that of
the other. -/
theorem statistics_agree_with_metrics_in_mixedOutcomes :
    Blank mixedPipeline ∧ (∀ i, .read i ∈ Action.jobs mixedOutcomes → i.stats = {}) ∧
      KeepsInputs (Action.jobs mixedOutcomes) (mixedPipeline.run mixedOutcomes) ∧
      (mixedPipeline.run mixedOutcomes).IsSettled ∧ Agree mixedPipeline mixedOutcomes ∧
      [Figure.dropped, .handlerErrors, .acknowledged, .acknowledgeErrors, .batches .indexing, .failures .indexing,
        .records, .octets, .lines .decoded, .lines .failed].map
        ((mixedPipeline.run mixedOutcomes).figure (mixedPipeline.puts mixedOutcomes)) =
          [2, 4, 1, 1, 2, 3, 2, 482, 1, 2] ∧
      (mixedPipeline.puts mixedOutcomes).map (·.provider.url) = ["memory:///kept", "gs://letters"] := by
  have hblank : Blank mixedPipeline := ⟨⟨2, rfl⟩, rfl, rfl, rfl, rfl, by decide +kernel⟩
  have hjobs : Action.jobs mixedOutcomes = mixedJobs := by
    have hnone : (Action.jobs mixedTurns).isEmpty = true := by decide +kernel
    rw [mixedOutcomes, Action.jobs_append, List.isEmpty_iff.1 hnone]
    rfl
  have hfresh : ∀ i, .read i ∈ Action.jobs mixedOutcomes → i.stats = {} := by
    intro i hi
    rw [hjobs] at hi
    simp [mixedJobs] at hi
    rw [hi]
  have hfinished : ((mixedPipeline.run mixedOutcomes).tasks.all fun | .finished _ => true | _ => false) = true := by
    decide +kernel
  have hkept : KeepsInputs (Action.jobs mixedOutcomes) (mixedPipeline.run mixedOutcomes) := by
    intro n j _ _ hn
    have hover := List.all_eq_true.1 hfinished _ (List.mem_of_getElem? hn)
    simp at hover
  have hsettled : (mixedPipeline.run mixedOutcomes).IsSettled := by
    intro b rest hmem
    have hover := List.all_eq_true.1 hfinished _ hmem
    simp at hover
  exact ⟨hblank, hfresh, hkept, hsettled, statistics_agree_with_metrics hblank mixedOutcomes hfresh hkept hsettled,
    by decide +kernel, by decide +kernel⟩

end World

end FailurePipeline
