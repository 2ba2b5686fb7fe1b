import FailurePipeline.Proofs.Service.Lifecycle

/-!
# Who stands in line for a batch

The tasks in the line of the receivers are those that wait for a batch, each of them once, and the consumer stands
there only while it asks for one (`Receivers`).  So whoever is the only one to receive is first in line, and gives up
only when there is no batch (`GivesUp.misses`).
-/

namespace FailurePipeline

/-- Whether a task has asked for a batch, and has neither got one nor given up. -/
def TaskPhase.awaitsBatch : TaskPhase → Bool
  | .receiving _ => true
  | _ => false

/-- Whether the consumer has asked for a batch, or is about to, and has neither got one nor given up. -/
def ConsumerPhase.awaitsBatch : ConsumerPhase → Bool
  | .turning true | .asking | .waiting | .expecting .. => true
  | _ => false

namespace Queue

variable {q : Queue} {a b : Agent}

theorem mem_join : b ∈ (q.join a).receivers ↔ b ∈ q.receivers ∨ b = a := by
  unfold join
  split
  · next h =>
    constructor
    · exact .inl
    · rintro (hb | rfl)
      · exact hb
      · exact h
  · simp

theorem nodup_join (h : q.receivers.Nodup) : (q.join a).receivers.Nodup := by
  unfold join
  split
  · exact h
  · next hnew =>
    refine List.nodup_append.2 ⟨h, List.pairwise_singleton .., ?_⟩
    rintro x hx y hy rfl
    exact hnew (List.mem_singleton.1 hy ▸ hx)

end Queue

namespace World

/-- Whether somebody waits for a batch. -/
def isReceiver (w : World) : Agent → Bool
  | .task i => w.tasks[i]?.any (·.awaitsBatch)
  | .consumer => w.service.consumer.any (·.awaitsBatch)

structure Receivers (w : World) : Prop where
  source : w.source = .queue
  nodup : w.queue.receivers.Nodup
  tasks : ∀ i, .task i ∈ w.queue.receivers ↔ w.isReceiver (.task i) = true
  consumer : .consumer ∈ w.queue.receivers → w.isReceiver .consumer = true
  expecting : ∀ deadline count since, w.service.consumer = some (.expecting deadline count since) →
    .consumer ∈ w.queue.receivers

variable {w w' : World}

namespace Receivers

theorem fresh {capacity : Nat} (hq : Queue.create? capacity = some w.queue) (hs : w.source = .queue)
    (hv : w.service = {}) (ht : w.tasks = []) : Receivers w := by
  have hnone : w.queue.receivers = [] := by rw [(Queue.eq_of_create? hq).2]
  constructor
  · exact hs
  · rw [hnone]
    exact List.nodup_nil
  · intro i
    simp [hnone, isReceiver, ht]
  · simp [hnone]
  · simp [hv]

/-- The consumer goes on. -/
private theorem of_consumer (hr : Receivers w) (hs : w'.source = w.source) (ht : w'.tasks = w.tasks)
    (hn : w'.queue.receivers.Nodup)
    (hm : ∀ i, .task i ∈ w'.queue.receivers ↔ .task i ∈ w.queue.receivers)
    (hc : .consumer ∈ w'.queue.receivers → w'.isReceiver .consumer = true)
    (hx : ∀ deadline count since, w'.service.consumer = some (.expecting deadline count since) →
      .consumer ∈ w'.queue.receivers) : Receivers w' := by
  refine ⟨hs.trans hr.source, hn, fun i => ?_, hc, hx⟩
  rw [hm, hr.tasks, isReceiver, isReceiver, ht]

theorem consumerMove (hr : Receivers w) (h : ConsumerMove w w') : Receivers w' := by
  have htask : ∀ i, Agent.task i ≠ .consumer := fun i => nofun
  -- The consumer leaves the line as it is, goes out of it, or comes into it.
  have hquiet : ∀ {v : World}, v.source = w.source → v.tasks = w.tasks → v.queue = w.queue →
      (w.isReceiver .consumer = true → v.isReceiver .consumer = true) →
      (∀ deadline count since, v.service.consumer ≠ some (.expecting deadline count since)) → Receivers v := by
    intro v hs ht hq hc hx
    exact hr.of_consumer hs ht (hq ▸ hr.nodup) (fun i => by rw [hq]) (fun h => hc (hr.consumer (hq ▸ h)))
      fun _ _ _ h => absurd h (hx _ _ _)
  have hbusy : ∀ {v : World} {p : ConsumerPhase}, w.service.consumer = some p → p.awaitsBatch = false →
      v.source = w.source → v.tasks = w.tasks → v.queue = w.queue →
      (∀ deadline count since, v.service.consumer ≠ some (.expecting deadline count since)) → Receivers v := by
    intro v p hp hno hs ht hq hx
    exact hquiet hs ht hq (by simp [isReceiver, hp, hno]) hx
  have hleave : ∀ {v : World} {q : Queue}, q.receivers.Nodup →
      (∀ i, .task i ∈ q.receivers ↔ .task i ∈ w.queue.receivers) → v.source = w.source → v.tasks = w.tasks →
      v.queue.receivers = q.receivers.erase .consumer →
      (∀ deadline count since, v.service.consumer ≠ some (.expecting deadline count since)) → Receivers v := by
    intro v q hn hm hs ht hq hx
    refine hr.of_consumer hs ht (hq ▸ hn.erase _) (fun i => ?_) (fun h => ?_) fun _ _ _ h => absurd h (hx _ _ _)
    · rw [hq, List.mem_erase_of_ne (htask i), hm]
    · rw [hq] at h
      exact absurd h hn.not_mem_erase
  have hjoin : ∀ i, .task i ∈ (w.queue.join .consumer).receivers ↔ .task i ∈ w.queue.receivers := by
    intro i
    rw [Queue.mem_join]
    simp
  have hjoined : (w.queue.join .consumer).receivers.Nodup := Queue.nodup_join hr.nodup
  have hsame : ∀ i, .task i ∈ w.queue.receivers ↔ .task i ∈ w.queue.receivers := fun _ => Iff.rfl
  cases h with
  | idle => exact hr
  | launch h => split <;> exact hbusy h rfl rfl rfl rfl nofun
  | seeShutdown asked h hs => exact hleave hr.nodup hsame rfl rfl rfl nofun
  | ask asked h hs => cases asked <;> exact hquiet rfl rfl rfl (fun _ => rfl) nofun
  | receive b q h hs ht => exact hleave hjoined hjoin rfl rfl (Queue.of_take ht).2.2 nofun
  | wait h hs ht => exact hr.of_consumer rfl rfl hjoined hjoin (fun _ => rfl) nofun
  | hear a steady timed h hs => simp [hr.source] at hs
  | hang timed h hs => simp [hr.source] at hs
  | wake h hw => exact hquiet rfl rfl rfl (fun _ => rfl) nofun
  | poll count since h hs =>
    exact hr.of_consumer rfl rfl hjoined hjoin (fun _ => rfl) fun _ _ _ _ => Queue.mem_join.2 (.inr rfl)
  | pollScript a steady timed count since h hs => simp [hr.source] at hs
  | pollEnd steady count since h hs => simp [hr.source] at hs
  | draw deadline count since b q h ht => exact hleave hr.nodup hsame rfl rfl (Queue.of_take ht).2.2 nofun
  | expire deadline count since h ht hd => exact hleave hr.nodup hsame rfl rfl rfl nofun
  | close h => split <;> exact hbusy h rfl rfl rfl rfl nofun
  | crash p h hl hg => exact hleave hr.nodup hsame rfl rfl rfl nofun
  | _ => exact hbusy (by assumption) rfl rfl rfl rfl nofun

/-! ### Tasks -/

/-- A task goes on. -/
private theorem of_task (hr : Receivers w) {i : Nat} {p p' : TaskPhase} (hi : w.tasks[i]? = some p)
    (ht : w'.tasks = w.tasks.set i p') (hs : w'.source = w.source) (hn : w'.queue.receivers.Nodup)
    (hm : ∀ a, a ≠ .task i → (a ∈ w'.queue.receivers ↔ a ∈ w.queue.receivers))
    (hown : .task i ∈ w'.queue.receivers ↔ p'.awaitsBatch = true)
    (hc : w'.service.consumer = w.service.consumer ∨
      w.service.consumer = none ∧ w'.service.consumer = some .launching) : Receivers w' := by
  have hlt := (List.getElem?_eq_some_iff.1 hi).1
  refine ⟨hs.trans hr.source, hn, fun k => ?_, fun h => ?_, fun deadline count since h => ?_⟩
  · by_cases hik : i = k
    · subst hik
      rw [hown, isReceiver, ht, List.getElem?_set_self hlt]
      rfl
    · rw [hm _ (by simpa using Ne.symm hik), hr.tasks, isReceiver, isReceiver, ht, List.getElem?_set_ne hik]
  · have hbefore := hr.consumer ((hm .consumer nofun).1 h)
    rcases hc with hc | ⟨hc, -⟩
    · rwa [isReceiver, hc]
    · simp [isReceiver, hc] at hbefore
  · rcases hc with hc | ⟨-, hc⟩
    · exact (hm .consumer nofun).2 (hr.expecting deadline count since (hc ▸ h))
    · simp [hc] at h

theorem taskMove (hr : Receivers w) (hl : Lifecycle w) {i : Nat} (h : TaskMove w i w') : Receivers w' := by
  have hc : ∀ {v : World}, TaskMove w i v →
      v.service.consumer = w.service.consumer ∨
        w.service.consumer = none ∧ v.service.consumer = some .launching := by
    intro v hv
    rcases hv.frame.2.2.2.2 with hc | ⟨hi, hc⟩
    · exact .inl hc
    · exact .inr ⟨hl.consumer_eq_none hi, hc⟩
  -- Most moves leave the line as it is, and the task is not in it before nor after.
  have hquiet : ∀ {v : World} {p p' : TaskPhase}, TaskMove w i v → w.tasks[i]? = some p →
      v.tasks = w.tasks.set i p' → p.awaitsBatch = false → p'.awaitsBatch = false →
      v.queue.receivers = w.queue.receivers → Receivers v := by
    intro v p p' hv hi ht hno hno' hq
    refine hr.of_task hi ht hv.frame.1 (hq ▸ hr.nodup) (fun a _ => by rw [hq]) ?_ (hc hv)
    rw [hq, hr.tasks, isReceiver, hi, hno']
    simp [hno]
  have hleave : ∀ {v : World} {p p' : TaskPhase}, TaskMove w i v → w.tasks[i]? = some p →
      v.tasks = w.tasks.set i p' → p'.awaitsBatch = false →
      v.queue.receivers = w.queue.receivers.erase (.task i) → Receivers v := by
    intro v p p' hv hi ht hno hq
    refine hr.of_task hi ht hv.frame.1 (hq ▸ hr.nodup.erase _) (fun a ha => ?_) ?_ (hc hv)
    · rw [hq, List.mem_erase_of_ne ha]
    · rw [hq, hno]
      simp [hr.nodup.not_mem_erase]
  have hmove := h
  cases h with
  | idle => exact hr
  | ask b after h => exact hquiet hmove h rfl rfl rfl (Queue.ask_receivers ..)
  | abandonQueued b after h => exact hquiet hmove h rfl rfl rfl (Queue.withdraw_receivers ..)
  | call limit h =>
    refine hr.of_task h rfl rfl (Queue.nodup_join hr.nodup) (fun a ha => ?_) ?_ (.inl rfl)
    · rw [setTask, Queue.mem_join]
      simp [ha]
    · rw [setTask, Queue.mem_join]
      simp [TaskPhase.awaitsBatch]
  | receive deadline b q h ht => exact hleave hmove h rfl rfl (Queue.of_take ht).2.2
  | expire deadline h ht hd => exact hleave hmove h rfl rfl rfl
  | abandonReceiving deadline h => exact hleave hmove h rfl rfl rfl
  | read intake h hf hn hi =>
    refine @hquiet _ _ (.reading (intake.step w.surroundings.wall)) hmove h ?_ rfl rfl ?_ <;> split <;> rfl
  | stop h =>
    refine hquiet hmove h rfl rfl ?_ rfl
    split <;> rfl
  | join crashed h hg =>
    refine hquiet hmove h rfl rfl ?_ rfl
    cases crashed <;> rfl
  | _ => exact hquiet hmove (by assumption) rfl rfl rfl rfl

private theorem spawn (hr : Receivers w) (j : Job) : Receivers (w.spawn j) := by
  obtain ⟨hs, -, -, hq, hv, -, ht⟩ := w.spawn_frame j
  have hlast : ((w.firstPhase j).2).awaitsBatch = false := by cases j <;> rfl
  refine ⟨hs.trans hr.source, hq ▸ hr.nodup, fun i => ?_, fun h => ?_, by rw [hq, hv]; exact hr.expecting⟩
  · rw [hq, hr.tasks, isReceiver, isReceiver, ht, List.getElem?_append]
    split
    · exact Iff.rfl
    · next hge =>
      have hnone : w.tasks[i]? = none := List.getElem?_eq_none (Nat.le_of_not_lt hge)
      rw [hnone]
      cases hk : i - w.tasks.length <;> simp [hlast]
  · rw [isReceiver, hv]
    exact hr.consumer (hq ▸ h)

theorem step (hr : Receivers w) (hl : Lifecycle w) (a : Action) : Receivers (w.step a) :=
  step_cases w a (fun j _ => hr.spawn j) (fun _ _ _ h => hr.taskMove hl h) (fun _ _ h => hr.consumerMove h)
    fun _ _ _ hs => ⟨hs hr.source, hr.nodup, hr.tasks, hr.consumer, hr.expecting⟩

theorem run (hr : Receivers w) (hl : Lifecycle w) (actions : List Action) : Receivers (w.run actions) := by
  induction actions generalizing w with
  | nil => exact hr
  | cons a as ih => exact ih (hr.step hl a) (hl.step a)

/-- Who is in line for a batch and finds nobody else there is first. -/
theorem head?_of_alone (hr : Receivers w) {a : Agent} (ha : a ∈ w.queue.receivers)
    (halone : ∀ b, b ≠ a → w.isReceiver b = false) : w.queue.receivers.head? = some a := by
  have honly : ∀ b ∈ w.queue.receivers, b = a := by
    intro b hb
    have hyes : w.isReceiver b = true := by
      cases b with
      | consumer => exact hr.consumer hb
      | task i => exact (hr.tasks i).1 hb
    by_cases hne : b = a
    · exact hne
    · exact absurd ((halone b hne).symm.trans hyes) Bool.false_ne_true
  cases hline : w.queue.receivers with
  | nil => simp [hline] at ha
  | cons b rest => rw [List.head?_cons, honly b (by simp [hline])]

end Receivers

/-! ### Getting a batch, and giving up -/

/-- Somebody who has asked for a batch gets it with a step. -/
inductive Gets (b : Batch) (w w' : World) : Agent → Prop
  | task (i : Nat) (deadline : Option Nat) (h : w.tasks[i]? = some (.receiving deadline))
    (h' : w'.tasks[i]? = some (.finished (.batch (some b)))) : Gets b w w' (.task i)
  | consumer (d : Dispatch) (mode : ConsumerMode) (h : w.isReceiver .consumer = true)
    (h' : w'.service.consumer = some (.dispatching d mode)) (hd : d.batch = b) : Gets b w w' .consumer

/-- Somebody who has asked for a batch is told with a step that none came in time. -/
inductive GivesUp (w w' : World) : Agent → Prop
  | task (i : Nat) (deadline : Option Nat) (h : w.tasks[i]? = some (.receiving deadline))
    (h' : w'.tasks[i]? = some (.finished (.batch none))) : GivesUp w w' (.task i)
  | consumer (deadline count since : Nat) (h : w.service.consumer = some (.expecting deadline count since))
    (h' : w'.service.consumer = some (.summing count since)) : GivesUp w w' .consumer

/-- No batch leaves the queue, or the oldest one does, and somebody gets it. -/
def HandsOut (w w' : World) : Prop :=
  (w'.queue.delivered = w.queue.delivered ∧ w.queue.buffer <+: w'.queue.buffer) ∨
    ∃ b a, Gets b w w' a ∧ w.queue.buffer = b :: w'.queue.buffer ∧ w'.queue.delivered = w.queue.delivered ++ [b]

private theorem handsOut_of_queue (hd : w'.queue.delivered = w.queue.delivered)
    (hb : w'.queue.buffer = w.queue.buffer) : HandsOut w w' := .inl ⟨hd, hb ▸ List.prefix_rfl⟩

theorem ConsumerMove.handsOut (h : ConsumerMove w w') : HandsOut w w' := by
  cases h with
  | receive b q h hs ht =>
    have hasks : w.isReceiver .consumer = true := by simp [isReceiver, h, ConsumerPhase.awaitsBatch]
    refine .inr ⟨b, .consumer, .consumer { batch := b } .steady hasks rfl rfl, ?_, ?_⟩
    · exact (Queue.join_buffer ..).symm.trans (Queue.of_take ht).1
    · exact (Queue.delivered_of_take ht).trans (by rw [Queue.join_delivered])
  | draw deadline count since b q h ht =>
    have hasks : w.isReceiver .consumer = true := by simp [isReceiver, h, ConsumerPhase.awaitsBatch]
    exact .inr ⟨b, .consumer, .consumer { batch := b } (.draining (count + 1) since) hasks rfl rfl,
      (Queue.of_take ht).1, Queue.delivered_of_take ht⟩
  | wait => exact handsOut_of_queue (Queue.join_delivered ..) (Queue.join_buffer ..)
  | poll => exact handsOut_of_queue (Queue.join_delivered ..) (Queue.join_buffer ..)
  | launch => split <;> exact handsOut_of_queue rfl rfl
  | close => split <;> exact handsOut_of_queue rfl rfl
  | ask asked => cases asked <;> exact handsOut_of_queue rfl rfl
  | hear a => cases a <;> exact handsOut_of_queue rfl rfl
  | pollScript a => cases a <;> exact handsOut_of_queue rfl rfl
  | _ => exact handsOut_of_queue rfl rfl

theorem TaskMove.handsOut {i : Nat} (h : TaskMove w i w') : HandsOut w w' := by
  cases h with
  | receive deadline b q h ht =>
    have hself : (w.tasks.set i (.finished (.batch (some b))))[i]? = some (.finished (.batch (some b))) :=
      List.getElem?_set_self (List.getElem?_eq_some_iff.1 h).1
    exact .inr ⟨b, .task i, .task i deadline h hself, (Queue.of_take ht).1, Queue.delivered_of_take ht⟩
  | push b after h hg => exact .inl ⟨rfl, List.prefix_append ..⟩
  | ask => exact handsOut_of_queue (Queue.ask_delivered ..) (Queue.ask_buffer ..)
  | abandonQueued => exact handsOut_of_queue (Queue.withdraw_delivered ..) (Queue.withdraw_buffer ..)
  | call => exact handsOut_of_queue (Queue.join_delivered ..) (Queue.join_buffer ..)
  | read => split <;> exact handsOut_of_queue rfl rfl
  | _ => exact handsOut_of_queue rfl rfl

theorem step_handsOut (w : World) (a : Action) : HandsOut w (w.step a) :=
  step_cases w a (fun j _ => handsOut_of_queue (by rw [(w.spawn_frame j).2.2.2.1]) (by rw [(w.spawn_frame j).2.2.2.1]))
    (fun _ _ _ h => h.handsOut) (fun _ _ h => h.handsOut) fun _ _ _ _ => handsOut_of_queue rfl rfl

/-- Somebody goes out of the line for a batch and takes nothing.  If nobody else receives there was nothing to take. -/
def Misses (w w' : World) (a : Agent) : Prop :=
  w'.queue = w.queue.leave a ∧ ((∀ b, b ≠ a → w.isReceiver b = false) → w.queue.buffer = [])

private theorem misses_of_take (hr : Receivers w) {a : Agent} (ha : a ∈ w.queue.receivers)
    (ht : w.queue.take a = none) (hq : w'.queue = w.queue.leave a) : Misses w w' a :=
  ⟨hq, fun halone => Queue.buffer_eq_nil_of_take (hr.head?_of_alone ha halone) ht⟩

/-- A task that goes on is the only one who may give up. -/
theorem TaskMove.misses (hr : Receivers w) {i : Nat} {a : Agent} (h : TaskMove w i w') (hg : GivesUp w w' a) :
    Misses w w' a := by
  cases hg with
  | consumer deadline count since hc hc' =>
    rcases h.frame.2.2.2.2 with hsame | ⟨-, hlaunch⟩
    · simp [hc', hc] at hsame
    · simp [hc'] at hlaunch
  | task k deadline hk hk' =>
    obtain rfl | hne := eq_or_ne i k
    · have hself : ∀ p, (w.tasks.set i p)[i]? = some p :=
        fun p => List.getElem?_set_self (List.getElem?_eq_some_iff.1 hk).1
      have hno : ∀ {p}, w.tasks[i]? = some p → p.awaitsBatch = false → False := by
        intro p hp hfalse
        obtain rfl : .receiving deadline = p := Option.some.inj (hk.symm.trans hp)
        simp [TaskPhase.awaitsBatch] at hfalse
      cases h with
      | idle => simp [hk] at hk'
      | expire _ h ht hd =>
        exact misses_of_take hr ((hr.tasks i).2 (by simp [isReceiver, h, TaskPhase.awaitsBatch])) ht rfl
      | receive _ b q h ht => exact absurd ((hself _).symm.trans hk') (by simp)
      | abandonReceiving _ h => simp [setTask, hself] at hk'
      | _ => exact (hno (by assumption) rfl).elim
    · rcases h.tasks with rfl | ⟨p, p', -, -, ht⟩
      · simp [hk] at hk'
      · simp [ht, List.getElem?_set_ne hne, hk] at hk'

/-- The consumer that goes on is the only one who may give up. -/
theorem ConsumerMove.misses (hr : Receivers w) {a : Agent} (h : ConsumerMove w w') (hg : GivesUp w w' a) :
    Misses w w' a := by
  cases hg with
  | task k deadline hk hk' =>
    rw [h.frame.1, hk] at hk'
    simp at hk'
  | consumer deadline count since hc hc' =>
    cases h with
    | expire _ _ _ h ht hd => exact misses_of_take hr (hr.expecting _ _ _ h) ht rfl
    | idle => simp [hc] at hc'
    | launch => split at hc' <;> exact absurd hc' nofun
    | close => split at hc' <;> exact absurd hc' nofun
    | ask asked => cases asked <;> exact absurd hc' nofun
    | hear b steady timed h hs => simp [hr.source] at hs
    | pollScript b steady timed count since h hs => simp [hr.source] at hs
    | pollEnd steady count since h hs => simp [hr.source] at hs
    | _ => exact absurd hc' nofun

/-- Nobody gives up while no task and not the consumer goes on. -/
private theorem not_givesUp {a : Agent}
    (ht : ∀ (i : Nat) p, w.tasks[i]? = some p → w'.tasks[i]? = some p)
    (hc : w'.service.consumer = w.service.consumer) : ¬GivesUp w w' a := by
  intro h
  cases h with
  | task i deadline hi hi' => simp [ht i _ hi] at hi'
  | consumer deadline count since h h' => simp [hc, h] at h'

/-- Who gives up takes nothing, and misses no batch if nobody else receives. -/
theorem GivesUp.misses (hr : Receivers w) {a : Action} {x : Agent} (h : GivesUp w (w.step a) x) :
    Misses w (w.step a) x := by
  revert h
  refine step_cases (P := fun v => GivesUp w v x → Misses w v x) w a (fun j _ h => ?_)
    (fun i v _ hm h => hm.misses hr h) (fun v _ hm h => hm.misses hr h) fun _ _ _ _ h => ?_
  · obtain ⟨-, -, -, -, hv, -, ht⟩ := w.spawn_frame j
    refine absurd h (not_givesUp (fun i p hi => ?_) (by rw [hv]))
    rw [ht, List.getElem?_append_left (List.getElem?_eq_some_iff.1 hi).1, hi]
  · exact absurd h (not_givesUp (fun _ _ hi => hi) rfl)

end World

end FailurePipeline
