import FailurePipeline.Pipeline.Action
import FailurePipeline.Proofs.Queue.Moves

/-!
# What a step can be

Every step of the consumer is one of the `ConsumerMove`s and every step of a task one of the `TaskMove`s, each
with what it found and what it left behind.  An invariant of a pipeline is proved move by move and never opens
the step functions themselves.
-/

namespace FailurePipeline

/-- Whether a task does nothing more. -/
def TaskPhase.isOver : TaskPhase → Bool
  | .finished _ | .abandoned => true
  | _ => false

/-- The job that an action begins, if it begins one. -/
def Action.job? : Action → Option Job
  | .spawn j => some j
  | _ => none

/-- Whether stores begin to refuse objects with an action. -/
def Action.refuses : Action → Bool
  | .refuse (some _) => true
  | _ => false

namespace World

/-- A step on the consumer's side: of the consumer, of a call of a handler, or a panic. -/
inductive ConsumerMove (w : World) : World → Prop
  | idle : ConsumerMove w w
  | launch (h : w.service.consumer = some .launching) :
    ConsumerMove w
      ((if w.service.state = .starting then { w with service := w.service.publish .running } else w).enter
        (.turning false))
  | seeShutdown (asked : Bool) (h : w.service.consumer = some (.turning asked)) (hs : w.service.shutdown = true) :
    ConsumerMove w (({ w with queue := w.queue.leave .consumer }.log .sawShutdown).enter .closing)
  | ask (asked : Bool) (h : w.service.consumer = some (.turning asked)) (hs : w.service.shutdown = false) :
    ConsumerMove w ((if asked then w else w.log .asked).enter .asking)
  | receive (b : Batch) (q : Queue) (h : w.service.consumer = some .asking) (hs : w.source = .queue)
    (ht : (w.queue.join .consumer).take .consumer = some (b, q)) :
    ConsumerMove w (({ w with queue := q }.emitDepth.log (.received b)).dispatchNext b .steady)
  | wait (h : w.service.consumer = some .asking) (hs : w.source = .queue)
    (ht : (w.queue.join .consumer).take .consumer = none) :
    ConsumerMove w ({ w with queue := w.queue.join .consumer }.enter .waiting)
  | hear (a : Handout) (steady timed : List Handout) (h : w.service.consumer = some .asking)
    (hs : w.source = .scripted (a :: steady) timed) :
    ConsumerMove w
      (match a with
        | .batch b => ({ w with source := .scripted steady timed }.log (.received b)).dispatchNext b .steady
        | .nothing => ({ w with source := .scripted steady timed }.log .exhausted).enter .closing
        | .panic _ => { w with source := .scripted steady timed }.enter (.leaving true))
  | hang (timed : List Handout) (h : w.service.consumer = some .asking) (hs : w.source = .scripted [] timed) :
    ConsumerMove w (w.enter .waiting)
  | wake (h : w.service.consumer = some .waiting) (hw : w.service.shutdown = true ∨ w.hasAnswer = true) :
    ConsumerMove w (w.enter (.turning true))
  | dispatch (d : Dispatch) (mode : ConsumerMode) (h : w.service.consumer = some (.dispatching d mode)) :
    ConsumerMove w
      ({ w with workplace := (d.step w.surroundings w.workplace).1 }.enter
        (.dispatching (d.step w.surroundings w.workplace).2 mode))
  | call (i : Nat) (d : Dispatch) (mode : ConsumerMode) (h : w.service.consumer = some (.dispatching d mode)) :
    ConsumerMove w
      ({ w with workplace := (d.stepCall w.surroundings w.workplace i).1 }.enter
        (.dispatching (d.stepCall w.surroundings w.workplace i).2 mode))
  | goOn (d : Dispatch) (h : w.service.consumer = some (.dispatching d .steady)) (hd : d.phase = .finished) :
    ConsumerMove w (w.enter (.turning false))
  | drainOn (d : Dispatch) (count since : Nat)
    (h : w.service.consumer = some (.dispatching d (.draining count since))) (hd : d.phase = .finished) :
    ConsumerMove w (w.enter (.polling count since))
  | fall (d : Dispatch) (mode : ConsumerMode) (p : Panic) (h : w.service.consumer = some (.dispatching d mode))
    (hd : d.phase = .crashed p) : ConsumerMove w (w.enter (.leaving true))
  | close (h : w.service.consumer = some .closing) :
    ConsumerMove w
      ((if w.service.state < .stopping then { w with service := w.service.publish .stopping } else w).enter
        (.polling 0 w.surroundings.now))
  | poll (count since : Nat) (h : w.service.consumer = some (.polling count since)) (hs : w.source = .queue) :
    ConsumerMove w
      ({ w.log (.polled w.config.shutdownAwait) with queue := w.queue.join .consumer }.enter
        (.expecting (w.surroundings.now + w.config.shutdownAwait) count since))
  | pollScript (a : Handout) (steady timed : List Handout) (count since : Nat)
    (h : w.service.consumer = some (.polling count since)) (hs : w.source = .scripted steady (a :: timed)) :
    ConsumerMove w
      (match a with
        | .batch b =>
          (({ w.log (.polled w.config.shutdownAwait) with source := .scripted steady timed }.log
            (.drew b)).dispatchNext b (.draining (count + 1) since))
        | .nothing =>
          ({ w.log (.polled w.config.shutdownAwait) with source := .scripted steady timed }.log .expired).enter
            (.summing count since)
        | .panic _ =>
          { w.log (.polled w.config.shutdownAwait) with source := .scripted steady timed }.enter (.leaving true))
  | pollEnd (steady : List Handout) (count since : Nat) (h : w.service.consumer = some (.polling count since))
    (hs : w.source = .scripted steady []) :
    ConsumerMove w (((w.log (.polled w.config.shutdownAwait)).log .expired).enter (.summing count since))
  | draw (deadline count since : Nat) (b : Batch) (q : Queue)
    (h : w.service.consumer = some (.expecting deadline count since))
    (ht : w.queue.take .consumer = some (b, q)) :
    ConsumerMove w
      (({ w with queue := q }.emitDepth.log (.drew b)).dispatchNext b (.draining (count + 1) since))
  | expire (deadline count since : Nat) (h : w.service.consumer = some (.expecting deadline count since))
    (ht : w.queue.take .consumer = none) (hd : deadline ≤ w.surroundings.now) :
    ConsumerMove w (({ w with queue := w.queue.leave .consumer }.log .expired).enter (.summing count since))
  | sum (count since : Nat) (h : w.service.consumer = some (.summing count since)) :
    ConsumerMove w
      ((w.emit (.drained count (.ofMillis (w.surroundings.now - since)))).enter (.leaving false))
  | leave (crashed : Bool) (h : w.service.consumer = some (.leaving crashed)) :
    ConsumerMove w { w with service := (w.service.publish .terminated).enter (.gone crashed) }
  | crash (p : ConsumerPhase) (h : w.service.consumer = some p) (hl : ∀ c, p ≠ .leaving c) (hg : ∀ c, p ≠ .gone c) :
    ConsumerMove w ({ w with queue := w.queue.leave .consumer }.enter (.leaving true))

private theorem take_eq (w : World) (a : Agent) :
    w.take a = (w.queue.take a).map fun p => (p.1, { w with queue := p.2 }.emitDepth) := by
  rw [take]
  cases w.queue.take a <;> rfl

theorem eq_of_take {w v : World} {a : Agent} {b : Batch} (h : w.take a = some (b, v)) :
    ∃ q, w.queue.take a = some (b, q) ∧ v = { w with queue := q }.emitDepth := by
  rw [take_eq, Option.map_eq_some_iff] at h
  obtain ⟨⟨b, q⟩, ht, heq⟩ := h
  cases heq
  exact ⟨q, ht, rfl⟩

private theorem stepAsking_move {w : World} (h : w.service.consumer = some .asking) :
    ConsumerMove w w.stepAsking := by
  rw [stepAsking]
  split
  · next hs =>
    simp only [take_eq]
    cases ht : (w.queue.join .consumer).take .consumer with
    | none => exact .wait h hs ht
    | some p => exact .receive p.1 p.2 h hs ht
  · next timed hs => exact .hang timed h hs
  · next a steady timed hs => cases a <;> exact .hear _ steady timed h hs

private theorem stepPolling_move {w : World} {count since : Nat}
    (h : w.service.consumer = some (.polling count since)) : ConsumerMove w (w.stepPolling count since) := by
  unfold stepPolling
  simp only
  split
  · next hs => exact .poll count since h hs
  · next steady hs => exact .pollEnd steady count since h hs
  · next steady a timed hs => cases a <;> exact .pollScript _ steady timed count since h hs

private theorem stepDispatch_move {w : World} {d : Dispatch} {mode : ConsumerMode}
    (h : w.service.consumer = some (.dispatching d mode)) : ConsumerMove w (w.stepDispatch d mode) := by
  unfold stepDispatch
  split
  · next hd => exact .goOn d h hd
  · next count since hd => exact .drainOn d count since h hd
  · next p hd => exact .fall d _ p h hd
  · exact .dispatch d _ h

theorem stepConsumer_move (w : World) : ConsumerMove w w.stepConsumer := by
  rw [stepConsumer]
  split
  · next hcan =>
    split
    · exact .idle
    · exact .idle
    · next h => exact .launch h
    · next asked h =>
      split
      · next hs => exact .seeShutdown asked h hs
      · next hs => exact .ask asked h (by simpa using hs)
    · next h => exact stepAsking_move h
    · next h => exact .wake h (by simpa [canStepConsumer, h] using hcan)
    · next h => exact stepDispatch_move h
    · next h => exact .close h
    · next count since h => exact stepPolling_move h
    · next deadline count since h =>
      simp only [take_eq]
      cases ht : w.queue.take .consumer with
      | none =>
        refine .expire deadline count since h ht ?_
        simpa [canStepConsumer, h, Queue.canTake_eq_isSome_take, ht] using hcan
      | some p => exact .draw deadline count since p.1 p.2 h ht
    · next count since h => exact .sum count since h
    · next crashed h => exact .leave crashed h
  · exact .idle

theorem stepCall_move (w : World) (i : Nat) : ConsumerMove w (w.stepCall i) := by
  rw [stepCall]
  split
  · next d mode h => exact .call i d mode h
  · exact .idle

theorem crashConsumer_move (w : World) : ConsumerMove w w.crashConsumer := by
  rw [crashConsumer]
  split
  · exact .idle
  · exact .idle
  · exact .idle
  · next p hl hg h => exact .crash p h hl hg

/-! ### Tasks -/

/-- A step of the task with this number, or its being given up. -/
inductive TaskMove (w : World) (i : Nat) : World → Prop
  | idle : TaskMove w i w
  | submitNothing (s : Submission) (h : w.tasks[i]? = some (.submitting s))
    (hf : s.failures? w.config w.surroundings.wall = none) :
    TaskMove w i (w.setTask i (.finished (.reported none (s.goesOn? w.config))))
  | submit (s : Submission) (failures : Failures) (h : w.tasks[i]? = some (.submitting s))
    (hf : s.failures? w.config w.surroundings.wall = some failures) :
    TaskMove w i
      ({ w with nextId := w.nextId + 1 }.setTask i
        (.sending .asking ⟨w.nextId, failures⟩ (.answer (.reported (some w.nextId) (s.goesOn? w.config)))))
  | ask (b : Batch) (after : AfterSend) (h : w.tasks[i]? = some (.sending .asking b after)) :
    TaskMove w i ({ w with queue := w.queue.ask (.task i) }.setTask i (.sending .queued b after))
  | push (b : Batch) (after : AfterSend) (h : w.tasks[i]? = some (.sending .queued b after))
    (hg : .task i ∈ w.queue.granted) :
    TaskMove w i ({ w with queue := w.queue.push (.task i) b }.setTask i (.sending .recording b after))
  | answer (b : Batch) (r : TaskResult) (h : w.tasks[i]? = some (.sending .recording b (.answer r))) :
    TaskMove w i (((w.emit (.batchSubmitted b.type b.size)).emitDepth).setTask i (.finished r))
  | readOn (b : Batch) (intake : Intake) (h : w.tasks[i]? = some (.sending .recording b (.readOn intake))) :
    TaskMove w i
      ((((w.emit (.batchSubmitted b.type b.size)).emitDepth).emit (.lineRead .failed)).setTask i
        (.reading intake.accepted))
  | endReading (intake : Intake) (r : Except StreamFault IntakeStats) (h : w.tasks[i]? = some (.reading intake))
    (hp : intake.phase = .finished r) : TaskMove w i (w.setTask i (.finished (.intake intake)))
  | report (intake : Intake) (f : InputFailure) (h : w.tasks[i]? = some (.reading intake))
    (hp : intake.phase = .reporting f) :
    TaskMove w i
      ({ w with nextId := w.nextId + 1 }.setTask i
        (.sending .asking ⟨w.nextId, .input [f]⟩ (.readOn intake)))
  | read (intake : Intake) (h : w.tasks[i]? = some (.reading intake)) (hf : ∀ r, intake.phase ≠ .finished r)
    (hr : ∀ f, intake.phase ≠ .reporting f) (hi : intake.isIdle = false) :
    TaskMove w i
      ((if intake.stats.forwarded < (intake.step w.surroundings.wall).stats.forwarded
        then w.emit (.lineRead .decoded) else w).setTask i (.reading (intake.step w.surroundings.wall)))
  | call (limit : Option Nat) (h : w.tasks[i]? = some (.calling limit)) :
    TaskMove w i
      ({ w with queue := w.queue.join (.task i) }.setTask i (.receiving (limit.map (w.surroundings.now + ·))))
  | receive (deadline : Option Nat) (b : Batch) (q : Queue) (h : w.tasks[i]? = some (.receiving deadline))
    (ht : w.queue.take (.task i) = some (b, q)) :
    TaskMove w i ({ w with queue := q }.emitDepth.setTask i (.finished (.batch (some b))))
  | expire (deadline : Option Nat) (h : w.tasks[i]? = some (.receiving deadline))
    (ht : w.queue.take (.task i) = none) (hd : deadline.any (· ≤ w.surroundings.now) = true) :
    TaskMove w i ({ w with queue := w.queue.leave (.task i) }.setTask i (.finished (.batch none)))
  | start (v : Service) (h : w.tasks[i]? = some .starting) (hv : w.service.start = .ok v) :
    TaskMove w i ({ w with service := v }.setTask i .spawning)
  | refuse (e : ServiceError) (h : w.tasks[i]? = some .starting) (he : w.service.start = .error e) :
    TaskMove w i (w.setTask i (.finished (.service (.error e))))
  | spawnConsumer (h : w.tasks[i]? = some .spawning) :
    TaskMove w i ({ w with service := w.service.spawn }.setTask i (.finished (.service (.ok ()))))
  | stop (h : w.tasks[i]? = some .stopping) :
    TaskMove w i
      ({ w with service := w.service.stop.1 }.setTask i (if w.service.stop.2 then .telling else .finished .done))
  | tell (h : w.tasks[i]? = some .telling) :
    TaskMove w i ({ w with service := { w.service with shutdown := true } }.setTask i (.finished .done))
  | seeRunning (h : w.tasks[i]? = some .awaitingRunning) (hr : ServiceState.running ≤ w.service.state) :
    TaskMove w i
      (w.setTask i (.finished (.service
        (if w.service.state = .running then .ok () else .error (.notRunning w.service.state)))))
  | claim (h : w.tasks[i]? = some .claiming) (hh : w.service.handle = true) :
    TaskMove w i ({ w with service := { w.service with handle := false } }.setTask i .joining)
  | claimNothing (h : w.tasks[i]? = some .claiming) (hh : w.service.handle = false) :
    TaskMove w i (w.setTask i .awaitingTerminated)
  | join (crashed : Bool) (h : w.tasks[i]? = some .joining) (hc : w.service.consumer = some (.gone crashed)) :
    TaskMove w i
      (w.setTask i (if crashed then .finished (.service (.error .crashed)) else .awaitingTerminated))
  | seeTerminated (h : w.tasks[i]? = some .awaitingTerminated) (ht : w.service.state = .terminated) :
    TaskMove w i (w.setTask i (.finished (.service (.ok ()))))
  | abandonQueued (b : Batch) (after : AfterSend) (h : w.tasks[i]? = some (.sending .queued b after)) :
    TaskMove w i ({ w with queue := w.queue.withdraw (.task i) }.setTask i .abandoned)
  | abandonReceiving (deadline : Option Nat) (h : w.tasks[i]? = some (.receiving deadline)) :
    TaskMove w i ({ w with queue := w.queue.leave (.task i) }.setTask i .abandoned)
  | abandonAsking (b : Batch) (after : AfterSend) (h : w.tasks[i]? = some (.sending .asking b after)) :
    TaskMove w i (w.setTask i .abandoned)
  | abandonCalling (limit : Option Nat) (h : w.tasks[i]? = some (.calling limit)) :
    TaskMove w i (w.setTask i .abandoned)

private theorem stepSending_move {w : World} {i : Nat} {p : SendPhase} {b : Batch} {after : AfterSend}
    (h : w.tasks[i]? = some (.sending p b after)) (hcan : w.canStepTask i = true) :
    TaskMove w i (w.stepSending i p b after) := by
  cases p with
  | asking => exact .ask b after h
  | queued => exact .push b after h (by simpa [canStepTask, h] using hcan)
  | recording =>
    cases after with
    | answer r => exact .answer b r h
    | readOn intake => exact .readOn b intake h

private theorem stepReading_move {w : World} {i : Nat} {intake : Intake} (h : w.tasks[i]? = some (.reading intake))
    (hcan : w.canStepTask i = true) : TaskMove w i (w.stepReading i intake) := by
  rw [stepReading]
  split
  · next r hp => exact .endReading intake r h hp
  · next f hp => exact .report intake f h hp
  · next hf hr => exact .read intake h hf hr (by simpa [canStepTask, h] using hcan)

theorem stepTask_move (w : World) (i : Nat) : TaskMove w i (w.stepTask i) := by
  rw [stepTask]
  split
  · next hcan =>
    split
    · exact .idle
    · exact .idle
    · exact .idle
    · next s h =>
      split
      · next hf => exact .submitNothing s h hf
      · next failures hf => exact .submit s failures h hf
    · next p b after h => exact stepSending_move h hcan
    · next intake h => exact stepReading_move h hcan
    · next limit h => exact .call limit h
    · next deadline h =>
      simp only [take_eq]
      cases ht : w.queue.take (.task i) with
      | none =>
        refine .expire deadline h ht ?_
        simpa [canStepTask, h, Queue.canTake_eq_isSome_take, ht] using hcan
      | some p => exact .receive deadline p.1 p.2 h ht
    · next h =>
      split
      · next v hv => exact .start v h hv
      · next e he => exact .refuse e h he
    · next h => exact .spawnConsumer h
    · next h => exact .stop h
    · next h => exact .tell h
    · next h => exact .seeRunning h (by simpa [canStepTask, h] using hcan)
    · next h =>
      split
      · next hh => exact .claim h hh
      · next hh => exact .claimNothing h (by simpa using hh)
    · next h =>
      have hgone : ∃ crashed, w.service.consumer = some (.gone crashed) := by
        simp only [canStepTask, h] at hcan
        split at hcan
        · next crashed hc => exact ⟨crashed, hc⟩
        · simp at hcan
      obtain ⟨crashed, hc⟩ := hgone
      have hmove := TaskMove.join crashed h hc
      cases crashed <;> simpa [hc] using hmove
    · next h => exact .seeTerminated h (by simpa [canStepTask, h] using hcan)
  · exact .idle

theorem abandonTask_move (w : World) (i : Nat) : TaskMove w i (w.abandonTask i) := by
  rw [abandonTask]
  split
  · next b after h => exact .abandonQueued b after h
  · next deadline h => exact .abandonReceiving deadline h
  · next b after h => exact .abandonAsking b after h
  · next limit h => exact .abandonCalling limit h
  · exact .idle

/-! ### What moves leave alone -/

/-- The consumer does nothing to tasks, and accepts no batch. -/
theorem ConsumerMove.frame {w w' : World} (h : ConsumerMove w w') :
    w'.tasks = w.tasks ∧ w'.nextId = w.nextId ∧ w'.config = w.config ∧ w'.surroundings = w.surroundings ∧
      w'.queue.accepted = w.queue.accepted ∧ w'.service.shutdown = w.service.shutdown := by
  cases h with
  | launch => split <;> exact ⟨rfl, rfl, rfl, rfl, rfl, rfl⟩
  | close => split <;> exact ⟨rfl, rfl, rfl, rfl, rfl, rfl⟩
  | ask asked => cases asked <;> exact ⟨rfl, rfl, rfl, rfl, rfl, rfl⟩
  | hear a => cases a <;> exact ⟨rfl, rfl, rfl, rfl, rfl, rfl⟩
  | pollScript a => cases a <;> exact ⟨rfl, rfl, rfl, rfl, rfl, rfl⟩
  | receive b q h hs ht =>
    exact ⟨rfl, rfl, rfl, rfl, (Queue.of_take ht).2.1.trans (Queue.join_accepted ..), rfl⟩
  | draw deadline count since b q h ht => exact ⟨rfl, rfl, rfl, rfl, (Queue.of_take ht).2.1, rfl⟩
  | wait => exact ⟨rfl, rfl, rfl, rfl, Queue.join_accepted .., rfl⟩
  | poll => exact ⟨rfl, rfl, rfl, rfl, Queue.join_accepted .., rfl⟩
  | _ => exact ⟨rfl, rfl, rfl, rfl, rfl, rfl⟩

/-- Only a new service starts, and what it does is to publish that it does. -/
theorem eq_of_start {v v' : Service} (h : v.start = .ok v') : v.state = .new ∧ v' = v.publish .starting := by
  unfold Service.start at h
  split at h
  · next hn =>
    cases h
    exact ⟨hn, rfl⟩
  · simp at h

theorem start_frame {v v' : Service} (h : v.start = .ok v') :
    v'.events = v.events ∧ v'.consumer = v.consumer ∧ v'.shutdown = v.shutdown := by
  obtain ⟨-, rfl⟩ := eq_of_start h
  exact ⟨rfl, rfl, rfl⟩

theorem stop_frame (v : Service) :
    v.stop.1.events = v.events ∧ v.stop.1.consumer = v.consumer ∧ v.stop.1.shutdown = v.shutdown := by
  unfold Service.stop
  split <;> exact ⟨rfl, rfl, rfl⟩

/-- A task notes nothing for the consumer, and moves it only by spawning it. -/
theorem TaskMove.frame {w w' : World} {i : Nat} (h : TaskMove w i w') :
    w'.source = w.source ∧ w'.config = w.config ∧ w'.surroundings = w.surroundings ∧
      w'.service.events = w.service.events ∧
      (w'.service.consumer = w.service.consumer ∨
        w.tasks[i]? = some .spawning ∧ w'.service.consumer = some .launching) := by
  cases h with
  | read => split <;> exact ⟨rfl, rfl, rfl, rfl, .inl rfl⟩
  | start v h hv => exact ⟨rfl, rfl, rfl, (start_frame hv).1, .inl (start_frame hv).2.1⟩
  | stop h => exact ⟨rfl, rfl, rfl, (stop_frame w.service).1, .inl (stop_frame w.service).2.1⟩
  | spawnConsumer h => exact ⟨rfl, rfl, rfl, rfl, .inr ⟨h, rfl⟩⟩
  | join crashed => cases crashed <;> exact ⟨rfl, rfl, rfl, rfl, .inl rfl⟩
  | _ => exact ⟨rfl, rfl, rfl, rfl, .inl rfl⟩

/-- The consumer does nothing to the queue but receive. -/
theorem ConsumerMove.receives {w w' : World} (h : ConsumerMove w w') : w.queue.Receives w'.queue := by
  cases h with
  | receive b q h hs ht => exact .joinAndTake _ b q ht
  | draw deadline count since b q h ht => exact .take _ b q ht
  | wait => exact .join _
  | poll => exact .join _
  | seeShutdown => exact .leave _
  | expire => exact .leave _
  | crash => exact .leave _
  | launch => split <;> exact .keep
  | close => split <;> exact .keep
  | ask asked => cases asked <;> exact .keep
  | hear a => cases a <;> exact .keep
  | pollScript a => cases a <;> exact .keep
  | _ => exact .keep

theorem TaskMove.queue {w w' : World} {i : Nat} (h : TaskMove w i w') : w.queue.Move w'.queue := by
  cases h with
  | ask => exact .ask _
  | push b after h hg => exact .push _ b hg
  | abandonQueued => exact .withdraw _
  | call => exact .receive _ (.join _)
  | receive deadline b q h ht => exact .receive _ (.take _ b q ht)
  | expire => exact .receive _ (.leave _)
  | abandonReceiving => exact .receive _ (.leave _)
  | read => split <;> exact .receive _ .keep
  | _ => exact .receive _ .keep

/-- A task takes no request to stop back, and withdraws no batch. -/
theorem TaskMove.grows {w w' : World} {i : Nat} (h : TaskMove w i w') :
    (w.service.shutdown = true → w'.service.shutdown = true) ∧ w.queue.accepted <+: w'.queue.accepted ∧
      w'.tasks.length = w.tasks.length := by
  have hset : ∀ p, (w.tasks.set i p).length = w.tasks.length := fun _ => List.length_set
  have hsame := List.prefix_refl w.queue.accepted
  cases h with
  | idle => exact ⟨id, hsame, rfl⟩
  | submit => exact ⟨id, hsame, hset _⟩
  | report => exact ⟨id, hsame, hset _⟩
  | ask => exact ⟨id, (Queue.ask_accepted ..).symm ▸ hsame, hset _⟩
  | push => exact ⟨id, List.prefix_append .., hset _⟩
  | call => exact ⟨id, (Queue.join_accepted ..).symm ▸ hsame, hset _⟩
  | receive deadline b q h ht => exact ⟨id, (Queue.of_take ht).2.1.symm ▸ hsame, hset _⟩
  | abandonQueued => exact ⟨id, (Queue.withdraw_accepted ..).symm ▸ hsame, hset _⟩
  | start v h hv => exact ⟨(start_frame hv).2.2 ▸ id, hsame, hset _⟩
  | stop h => exact ⟨(stop_frame w.service).2.2 ▸ id, hsame, hset _⟩
  | tell => exact ⟨fun _ => rfl, hsame, hset _⟩
  | read => split <;> exact ⟨id, hsame, hset _⟩
  | _ => exact ⟨id, hsame, hset _⟩

/-- A task changes its own place only, and only if it is not over. -/
theorem TaskMove.tasks {w w' : World} {i : Nat} (h : TaskMove w i w') :
    w' = w ∨ ∃ p p', w.tasks[i]? = some p ∧ p.isOver = false ∧ w'.tasks = w.tasks.set i p' := by
  cases h with
  | idle => exact .inl rfl
  | read intake h => split <;> exact .inr ⟨_, _, h, rfl, rfl⟩
  | _ => exact .inr ⟨_, _, by assumption, rfl, rfl⟩

/-- A task does not work with handlers; it may measure. -/
theorem TaskMove.workplace {w w' : World} {i : Nat} (h : TaskMove w i w') :
    ∃ recorder, w'.workplace = { w.workplace with recorder := recorder } := by
  cases h with
  | read intake h => split <;> exact ⟨_, rfl⟩
  | _ => exact ⟨_, rfl⟩

/-- The beginning of a task leaves everything alone but the tasks and the number of the next batch. -/
theorem spawn_frame (w : World) (j : Job) :
    (w.spawn j).source = w.source ∧ (w.spawn j).config = w.config ∧ (w.spawn j).surroundings = w.surroundings ∧
      (w.spawn j).queue = w.queue ∧ (w.spawn j).service = w.service ∧ (w.spawn j).workplace = w.workplace ∧
      (w.spawn j).tasks = w.tasks ++ [(w.firstPhase j).2] := by
  cases j <;> exact ⟨rfl, rfl, rfl, rfl, rfl, rfl, rfl⟩

/-! ### Steps and runs -/

/-- The cases of a step, by what acts: a task begins, a task goes on or is given up, the consumer goes on, or
something happens outside. -/
theorem step_cases_of {P : World → Prop} (w : World) (a : Action) (spawn : ∀ j, a = .spawn j → P (w.spawn j))
    (task : ∀ i, a = .task i → P (w.stepTask i)) (abandon : ∀ i, a = .abandon i → P (w.abandonTask i))
    (consumer : ∀ w', a.job? = none → ConsumerMove w w' → P w')
    (outside : ∀ source surroundings, a.job? = none → (w.source = .queue → source = .queue) →
      P { w with source := source, surroundings := surroundings }) : P (w.step a) := by
  cases a with
  | spawn j => exact spawn j rfl
  | task i => exact task i rfl
  | abandon i => exact abandon i rfl
  | consumer => exact consumer _ rfl (stepConsumer_move w)
  | call i => exact consumer _ rfl (stepCall_move w i)
  | crash => exact consumer _ rfl (crashConsumer_move w)
  | supply h =>
    rw [step, supply]
    split
    · exact outside w.source w.surroundings rfl id
    · next steady timed hs => exact outside _ w.surroundings rfl fun hq => by simp [hs] at hq
  | pass ms => exact outside w.source _ rfl id
  | clock wall => exact outside w.source _ rfl id
  | refuse reason => exact outside w.source _ rfl id

/-- What holds after every kind of step holds after a step: a task begins, a task or the consumer goes on, or
something happens outside. -/
theorem step_cases {P : World → Prop} (w : World) (a : Action) (spawn : ∀ j, a = .spawn j → P (w.spawn j))
    (task : ∀ i w', a.job? = none → TaskMove w i w' → P w')
    (consumer : ∀ w', a.job? = none → ConsumerMove w w' → P w')
    (outside : ∀ source surroundings, a.job? = none → (w.source = .queue → source = .queue) →
      P { w with source := source, surroundings := surroundings }) : P (w.step a) := by
  refine step_cases_of w a spawn (fun i ha => ?_) (fun i ha => ?_) consumer outside
  · exact task i _ (ha ▸ rfl) (stepTask_move w i)
  · exact task i _ (ha ▸ rfl) (abandonTask_move w i)

theorem run_append (w : World) (as bs : List Action) : w.run (as ++ bs) = (w.run as).run bs :=
  List.foldl_append

theorem run_concat (w : World) (as : List Action) (a : Action) : w.run (as ++ [a]) = (w.run as).step a := by
  rw [run_append]
  rfl

/-- What holds at first and is kept by every step with one of the actions holds after every run of them. -/
theorem run_induction {P : World → Prop} {A : Action → Prop} {w : World} (start : P w)
    (step : ∀ w a, A a → P w → P (w.step a)) {actions : List Action} (ha : ∀ a ∈ actions, A a) :
    P (w.run actions) := by
  induction actions generalizing w with
  | nil => exact start
  | cons a as ih =>
    have hfirst := step w a (ha a List.mem_cons_self) start
    exact ih hfirst fun c hc => ha c (List.mem_cons_of_mem a hc)

/-- A task that is over stays as it is. -/
theorem step_over {w : World} {i : Nat} {p : TaskPhase} (hi : w.tasks[i]? = some p) (hp : p.isOver = true)
    (a : Action) : (w.step a).tasks[i]? = some p := by
  refine step_cases (P := fun v => v.tasks[i]? = some p) w a (fun j _ => ?_) (fun k v _ h => ?_)
    (fun v _ h => ?_) fun _ _ _ _ => hi
  · rw [(w.spawn_frame j).2.2.2.2.2.2, List.getElem?_append_left (List.getElem?_eq_some_iff.1 hi).1, hi]
  · rcases h.tasks with rfl | ⟨q, q', hk, hq, ht⟩
    · exact hi
    · have hne : k ≠ i := by
        rintro rfl
        obtain rfl : p = q := Option.some.inj (hi.symm.trans hk)
        simp [hp] at hq
      rw [ht, List.getElem?_set_ne hne, hi]
  · rw [h.frame.1, hi]

theorem run_over {w : World} {i : Nat} {p : TaskPhase} (hi : w.tasks[i]? = some p) (hp : p.isOver = true)
    (actions : List Action) : (w.run actions).tasks[i]? = some p := by
  induction actions generalizing w with
  | nil => exact hi
  | cons a as ih => exact ih (step_over hi hp a)

/-- A task that cannot be given up is left as it is by what others do. -/
theorem step_of_other {w : World} {i : Nat} {p : TaskPhase} (hi : w.tasks[i]? = some p) {a : Action}
    (ha : a ≠ .task i) (hk : w.abandonTask i = w) : (w.step a).tasks[i]? = some p := by
  have hother : ∀ {k : Nat} {v : World}, k ≠ i → TaskMove w k v → v.tasks[i]? = some p := by
    intro k v hki h
    rcases h.tasks with rfl | ⟨q, q', -, -, hset⟩
    · exact hi
    · rw [hset, List.getElem?_set_ne hki, hi]
  refine step_cases_of (P := fun v => v.tasks[i]? = some p) w a (fun j _ => ?_) (fun k hk' => ?_) (fun k _ => ?_)
    (fun v _ h => ?_) fun _ _ _ _ => hi
  · rw [(w.spawn_frame j).2.2.2.2.2.2, List.getElem?_append_left (List.getElem?_eq_some_iff.1 hi).1, hi]
  · exact hother (fun h => ha (h ▸ hk')) (stepTask_move w k)
  · by_cases hki : k = i
    · rw [hki, hk, hi]
    · exact hother hki (abandonTask_move w k)
  · rw [h.frame.1, hi]

/-- What a task has answered stays as it is. -/
theorem step_finished {w : World} {i : Nat} {r : TaskResult} (hi : w.tasks[i]? = some (.finished r)) (a : Action) :
    (w.step a).tasks[i]? = some (.finished r) := step_over hi rfl a

theorem run_finished {w : World} {i : Nat} {r : TaskResult} (hi : w.tasks[i]? = some (.finished r))
    (actions : List Action) : (w.run actions).tasks[i]? = some (.finished r) := run_over hi rfl actions

theorem step_queue (w : World) (a : Action) : w.queue.Move (w.step a).queue :=
  step_cases (P := fun v => w.queue.Move v.queue) w a (fun j _ => (w.spawn_frame j).2.2.2.1 ▸ .receive _ .keep)
    (fun _ _ _ h => h.queue) (fun _ _ h => .receive _ h.receives) fun _ _ _ _ => .receive _ .keep

theorem step_config (w : World) (a : Action) : (w.step a).config = w.config :=
  step_cases (P := fun v => v.config = w.config) w a (fun j _ => (w.spawn_frame j).2.1)
    (fun _ _ _ h => h.frame.2.1) (fun _ _ h => h.frame.2.2.1) fun _ _ _ _ => rfl

theorem run_config (w : World) (actions : List Action) : (w.run actions).config = w.config := by
  induction actions generalizing w with
  | nil => rfl
  | cons a as ih => exact (ih (w.step a)).trans (w.step_config a)

/-- No other action makes stores refuse objects. -/
theorem step_refusal {w : World} {a : Action} (h : w.surroundings.refusal = none) (ha : a.refuses = false) :
    (w.step a).surroundings.refusal = none := by
  cases a with
  | spawn j => rw [step, (w.spawn_frame j).2.2.1, h]
  | task i => rw [step, (stepTask_move w i).frame.2.2.1, h]
  | abandon i => rw [step, (abandonTask_move w i).frame.2.2.1, h]
  | consumer => rw [step, (stepConsumer_move w).frame.2.2.2.1, h]
  | call i => rw [step, (stepCall_move w i).frame.2.2.2.1, h]
  | crash => rw [step, (crashConsumer_move w).frame.2.2.2.1, h]
  | supply h' =>
    rw [step, supply]
    split <;> exact h
  | pass ms => exact h
  | clock wall => exact h
  | refuse reason =>
    cases reason with
    | none => rfl
    | some e => simp [Action.refuses] at ha

/-- A step accepts batches at the end only. -/
theorem step_grows (w : World) (a : Action) : w.queue.accepted <+: (w.step a).queue.accepted := by
  have hsame := List.prefix_refl w.queue.accepted
  refine step_cases (P := fun v => w.queue.accepted <+: v.queue.accepted) w a (fun j _ => ?_)
    (fun i v _ h => h.grows.2.1) (fun v _ h => ?_) fun _ _ _ _ => hsame
  · exact (w.spawn_frame j).2.2.2.1 ▸ hsame
  · exact h.frame.2.2.2.2.1 ▸ hsame

theorem run_grows (w : World) (actions : List Action) : w.queue.accepted <+: (w.run actions).queue.accepted := by
  induction actions generalizing w with
  | nil => exact List.prefix_refl _
  | cons a as ih => exact (w.step_grows a).trans (ih (w.step a))

end World

end FailurePipeline
