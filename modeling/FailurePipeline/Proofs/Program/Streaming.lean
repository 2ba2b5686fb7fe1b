import FailurePipeline.Proofs.Intake.Untroubled
import FailurePipeline.Proofs.Pipeline.Patience
import FailurePipeline.Proofs.Pipeline.Permits
import FailurePipeline.Proofs.Program.Reading

/-!
# An input that is read to its end

One task reads an input that nothing disturbs, and nobody else sends (`World.Streaming`).  Each step of this task
brings it nearer to its end (`Streaming.step_own`), and no other step moves it.  All it ever has to wait for is a
permit, and then there is a batch in the queue that somebody can take (`Streaming.waiting_of_not_granted`).
-/

namespace FailurePipeline

/-- Whether a task neither reads an input nor sends. -/
def TaskPhase.isBystander : TaskPhase → Bool
  | .submitting _ | .sending .. | .reading _ => false
  | _ => true

def Job.isBystander : Job → Bool
  | .send _ | .submit _ | .read _ => false
  | _ => true

/-- Whether an action neither begins another sending nor gives up the first task. -/
def Action.isHarmless : Action → Bool
  | .spawn j => j.isBystander
  | .abandon i => i != 0
  | _ => true

theorem Action.givesUp_of_isHarmless {a : Action} (h : a.isHarmless = true) : a.givesUp 0 = false := by
  cases a <;> simp_all [isHarmless, givesUp]

namespace TaskPhase

/-- The task reads an input that nothing disturbs, or has read it. -/
def Untroubled : TaskPhase → Prop
  | .reading i | .sending _ _ (.readOn i) | .finished (.intake i) => i.Untroubled
  | _ => False

/-- How much the task has to do. -/
def left : TaskPhase → Nat
  | .reading i => 4 * i.left + 3
  | .sending .asking _ (.readOn i) => 4 * i.left + 2
  | .sending .queued _ (.readOn i) => 4 * i.left + 1
  | .sending .recording _ (.readOn i) => 4 * i.left
  | _ => 0

end TaskPhase

/-! ### What bystanders do to the permits -/

namespace Queue

/-- Either nothing was taken and the permits are where they were, or one batch was taken and its permit went to who
had waited longest. -/
def Passes (q q' : Queue) : Prop :=
  (q'.granted = q.granted ∧ q'.waiting = q.waiting ∧ q'.delivered = q.delivered) ∨
    (q'.granted = q.granted ++ q.waiting.take 1 ∧ q'.waiting = q.waiting.drop 1 ∧
      ∃ b, q'.delivered = q.delivered ++ [b])

variable {q q' : Queue} {a : Agent}

theorem Passes.refl (q : Queue) : q.Passes q := .inl ⟨rfl, rfl, rfl⟩

theorem passes_join (q : Queue) (a : Agent) : q.Passes (q.join a) :=
  .inl ⟨join_granted .., join_waiting .., join_delivered ..⟩

theorem passes_leave (q : Queue) (a : Agent) : q.Passes (q.leave a) := .inl ⟨rfl, rfl, rfl⟩

theorem passes_of_take {b : Batch} (h : q.take a = some (b, q')) : q.Passes q' := by
  have htaken : q'.granted = q.granted ++ q.waiting.take 1 ∧ q'.waiting = q.waiting.drop 1 := by
    obtain ⟨rest, -, -, rfl⟩ := eq_of_take h
    exact ⟨release_granted _, release_waiting _⟩
  exact .inr ⟨htaken.1, htaken.2, b, delivered_of_take h⟩

theorem passes_of_join_take {b : Batch} (h : (q.join a).take a = some (b, q')) : q.Passes q' := by
  have hpasses := passes_of_take h
  rwa [Passes, join_granted, join_waiting, join_delivered] at hpasses

theorem Receives.passes (h : q.Receives q') : q.Passes q' := by
  cases h with
  | keep => exact .refl q
  | join a => exact passes_join q a
  | leave a => exact passes_leave q a
  | take a b q' ht => exact passes_of_take ht
  | joinAndTake a b q' ht => exact passes_of_join_take ht

/-- Nobody loses a permit. -/
theorem Passes.granted (h : q.Passes q') (ha : a ∈ q.granted) : a ∈ q'.granted := by
  rcases h with ⟨hg, -, -⟩ | ⟨hg, -, -⟩
  · rwa [hg]
  · rw [hg]
    exact List.mem_append_left _ ha

/-- The only one who waits goes on waiting as long as nothing is taken, and then has the permit. -/
theorem Passes.waits (h : q.Passes q') (hw : q.waiting = [a]) :
    (q'.waiting = [a] ∧ q'.delivered = q.delivered) ∨ a ∈ q'.granted := by
  rcases h with ⟨-, hw', hd⟩ | ⟨hg, -, -⟩
  · exact .inl ⟨hw'.trans hw, hd⟩
  · refine .inr ?_
    simp [hg, hw]

end Queue

namespace World

variable {w w' : World}

/-- A bystander stays one, makes no batch and gets none accepted. -/
private theorem TaskMove.of_isBystander {k : Nat} (h : TaskMove w k w')
    (hk : ∀ p, w.tasks[k]? = some p → p.isBystander = true) :
    w.queue.Passes w'.queue ∧ w'.queue.accepted = w.queue.accepted ∧ w'.nextId = w.nextId ∧
      ∀ p, w'.tasks[k]? = some p → p.isBystander = true := by
  have hno : ∀ {p}, w.tasks[k]? = some p → p.isBystander = false → False := by
    intro p hp hfalse
    simp [hk p hp] at hfalse
  have hset : ∀ {p p' : TaskPhase}, w.tasks[k]? = some p → p'.isBystander = true →
      ∀ q, (w.tasks.set k p')[k]? = some q → q.isBystander = true := by
    intro p p' hp hp' q hq
    rw [List.getElem?_set_self (List.getElem?_eq_some_iff.1 hp).1] at hq
    obtain rfl := Option.some.inj hq
    exact hp'
  cases h with
  | idle => exact ⟨.refl _, rfl, rfl, hk⟩
  | call limit h => exact ⟨Queue.passes_join .., Queue.join_accepted .., rfl, hset h rfl⟩
  | receive deadline b q h ht => exact ⟨Queue.passes_of_take ht, (Queue.of_take ht).2.1, rfl, hset h rfl⟩
  | stop h =>
    refine ⟨.refl _, rfl, rfl, hset h ?_⟩
    split <;> rfl
  | join crashed h hc =>
    refine ⟨.refl _, rfl, rfl, hset h ?_⟩
    cases crashed <;> rfl
  | expire deadline h => exact ⟨Queue.passes_leave .., rfl, rfl, hset h rfl⟩
  | start v h => exact ⟨.refl _, rfl, rfl, hset h rfl⟩
  | refuse e h => exact ⟨.refl _, rfl, rfl, hset h rfl⟩
  | spawnConsumer h => exact ⟨.refl _, rfl, rfl, hset h rfl⟩
  | tell h => exact ⟨.refl _, rfl, rfl, hset h rfl⟩
  | seeRunning h => exact ⟨.refl _, rfl, rfl, hset h rfl⟩
  | claim h => exact ⟨.refl _, rfl, rfl, hset h rfl⟩
  | claimNothing h => exact ⟨.refl _, rfl, rfl, hset h rfl⟩
  | seeTerminated h => exact ⟨.refl _, rfl, rfl, hset h rfl⟩
  | abandonReceiving deadline h => exact ⟨Queue.passes_leave .., rfl, rfl, hset h rfl⟩
  | abandonCalling limit h => exact ⟨.refl _, rfl, rfl, hset h rfl⟩
  | _ => exact (hno (by assumption) rfl).elim

/-! ### The task that reads -/

/-- The first task reads an undisturbed input, and all others are bystanders. -/
structure Streaming (i₀ : Intake) (w : World) : Prop where
  reader : Reader i₀ 0 w
  permits : Permits w
  room : 0 < w.queue.capacity
  others : ∀ k p, k ≠ 0 → w.tasks[k]? = some p → p.isBystander = true
  task : ∃ p, w.tasks[0]? = some p ∧ p.Untroubled

namespace Streaming

variable {i₀ : Intake} {a : Action} {p : TaskPhase}

theorem untroubled (hs : Streaming i₀ w) (hp : w.tasks[0]? = some p) : p.Untroubled := by
  obtain ⟨q, hq, hu⟩ := hs.task
  obtain rfl : p = q := Option.some.inj (hp.symm.trans hq)
  exact hu

/-- A step of the task that reads: it waits for a permit, or is over, or has less to do afterwards. -/
theorem step_own (hs : Streaming i₀ w) (hp : w.tasks[0]? = some p) :
    (w.canStepTask 0 = false ∧ w.step (.task 0) = w) ∨
      ∃ p', (w.step (.task 0)).tasks[0]? = some p' ∧ p'.Untroubled ∧ p'.left < p.left := by
  have hu := hs.untroubled hp
  have hreads := (Reader.of_phase hp).1 hs.reader
  have hlt := (List.getElem?_eq_some_iff.1 hp).1
  cases hcan : w.canStepTask 0 with
  | false =>
    refine .inl ⟨rfl, ?_⟩
    rw [step, stepTask, if_neg (by simp [hcan])]
  | true =>
    right
    cases p with
    | reading i =>
      rw [step, stepTask, if_pos hcan, hp]
      simp only [stepReading]
      split
      · exact ⟨_, List.getElem?_set_self hlt, hu, Nat.zero_lt_succ _⟩
      · refine ⟨_, List.getElem?_set_self hlt, hu, ?_⟩
        simp [TaskPhase.left]
      · next hf hr =>
        have hgets := Intake.getsOn_step hu hf hr w.surroundings.wall
        have hlt' : ∀ v : World, v.tasks = w.tasks →
            (v.setTask 0 (.reading (i.step w.surroundings.wall))).tasks[0]? =
              some (.reading (i.step w.surroundings.wall)) := by
          intro v hv
          rw [setTask, hv]
          exact List.getElem?_set_self hlt
        refine ⟨_, hlt' _ (by split <;> rfl), hgets.untroubled, ?_⟩
        have := hgets.less
        simp only [TaskPhase.left]
        omega
    | sending s b after =>
      cases after with
      | answer r => exact absurd hu id
      | readOn i =>
        cases s with
        | asking =>
          rw [step_asking hp]
          refine ⟨_, List.getElem?_set_self hlt, hu, ?_⟩
          simp [TaskPhase.left]
        | queued =>
          have hgranted : .task 0 ∈ w.queue.granted := by simpa [canStepTask, hp] using hcan
          rw [step_queued hp hgranted]
          refine ⟨_, List.getElem?_set_self hlt, hu, ?_⟩
          simp [TaskPhase.left]
        | recording =>
          obtain ⟨-, -, -, f, -, hphase, -⟩ := hreads
          have hgets := Intake.getsOn_accepted hu hphase
          refine ⟨_, step_recording hp, hgets.untroubled, ?_⟩
          have := hgets.less
          simp only [TaskPhase.left, AfterSend.next]
          omega
    | finished r => simp [canStepTask, hp] at hcan
    | _ => exact absurd hu id

/-- A step of somebody else leaves the task that reads alone, and nobody loses a permit. -/
theorem step_other (hs : Streaming i₀ w) (ha : a.isHarmless = true) (hne : a ≠ .task 0) :
    (w.step a).tasks[0]? = w.tasks[0]? ∧ w.queue.Passes (w.step a).queue ∧ Reader i₀ 0 (w.step a) ∧
      ∀ k p, k ≠ 0 → (w.step a).tasks[k]? = some p → p.isBystander = true := by
  obtain ⟨p, hp, hu⟩ := hs.task
  have hlt := (List.getElem?_eq_some_iff.1 hp).1
  have hi : w.tasks[0]? ≠ some .abandoned := by
    rw [hp]
    rintro ⟨rfl⟩
    exact hu
  -- Somebody else's step begins a task, takes one of the others further or the consumer, or is from outside.
  refine step_cases_at (P := fun v => v.tasks[0]? = w.tasks[0]? ∧ w.queue.Passes v.queue ∧ Reader i₀ 0 v ∧
      ∀ k p, k ≠ 0 → v.tasks[k]? = some p → p.isBystander = true) w a (Action.givesUp_of_isHarmless ha) hi
    (fun j hj => ?_) (fun v hv => absurd hv hne) (fun k v _ hk h => ?_) (fun v _ h => ?_) fun _ _ _ _ => ?_
  · obtain ⟨-, -, -, hq, -, -, ht⟩ := w.spawn_frame j
    have hbystander : j.isBystander = true := by rwa [hj] at ha
    have hfirst : (w.spawn j).tasks[0]? = w.tasks[0]? := by rw [ht, List.getElem?_append_left hlt]
    have hid : (w.spawn j).nextId = w.nextId := by cases j <;> simp [Job.isBystander] at hbystander <;> rfl
    refine ⟨hfirst, by rw [hq]; exact .refl _, hs.reader.of_same hfirst (by rw [hq]) hid, fun k q hk hkq => ?_⟩
    rw [ht, List.getElem?_append] at hkq
    split at hkq
    · exact hs.others k q hk hkq
    · have hlast : ((w.firstPhase j).2).isBystander = true := by
        cases j <;> simp [Job.isBystander] at hbystander <;> rfl
      rw [List.mem_singleton.1 (List.mem_of_getElem? hkq)]
      exact hlast
  · obtain ⟨hpasses, haccepted, hid, hstays⟩ := h.of_isBystander (hs.others k · hk)
    have hother : ∀ m, m ≠ k → v.tasks[m]? = w.tasks[m]? := by
      intro m hm
      rcases h.tasks with rfl | ⟨q, q', -, -, ht⟩
      · rfl
      · rw [ht, List.getElem?_set_ne (Ne.symm hm)]
    refine ⟨hother 0 (Ne.symm hk), hpasses, hs.reader.of_same (hother 0 (Ne.symm hk)) haccepted hid,
      fun m q hm hmq => ?_⟩
    by_cases hmk : m = k
    · subst hmk
      exact hstays q hmq
    · exact hs.others m q hm (hother m hmk ▸ hmq)
  · refine ⟨by rw [h.frame.1], h.receives.passes, hs.reader.consumerMove h, ?_⟩
    rw [h.frame.1]
    exact hs.others
  · exact ⟨rfl, .refl _, hs.reader, hs.others⟩

theorem step (hs : Streaming i₀ w) (ha : a.isHarmless = true) : Streaming i₀ (w.step a) := by
  have hroom : 0 < (w.step a).queue.capacity := by
    rw [step_capacity]
    exact hs.room
  obtain ⟨p, hp, hu⟩ := hs.task
  by_cases hown : a = .task 0
  · subst hown
    rcases hs.step_own hp with ⟨-, hsame⟩ | ⟨p', hp', hu', -⟩
    · rw [hsame]
      exact hs
    · refine ⟨hs.reader.taskMove_self (stepTask_move w 0), hs.permits.step _, hroom, fun k q hk hkq => ?_,
        p', hp', hu'⟩
      refine hs.others k q hk ?_
      rcases (stepTask_move w 0).tasks with hsame | ⟨_, _, -, -, ht⟩
      · rwa [step, hsame] at hkq
      · rwa [step, ht, List.getElem?_set_ne (Ne.symm hk)] at hkq
  · obtain ⟨hfirst, -, hreader, hothers⟩ := hs.step_other ha hown
    exact ⟨hreader, hs.permits.step a, hroom, hothers, p, hfirst.trans hp, hu⟩

/-! ### Waiting for a permit -/

end Streaming

end World

end FailurePipeline
