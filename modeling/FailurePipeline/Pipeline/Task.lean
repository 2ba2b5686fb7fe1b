import FailurePipeline.Pipeline.World

/-!
# The steps of tasks

A task sends a batch, reports failures, reads an input, takes a batch, or starts, stops or awaits the service.
Starting and stopping take two steps each: the state of the service changes first, and the consumer is spawned
or told after that.
-/

namespace FailurePipeline

namespace World

def setTask (w : World) (i : Nat) (p : TaskPhase) : World := { w with tasks := w.tasks.set i p }

/-- How a job begins.  The batch of a plain sending is numbered at once. -/
def firstPhase (w : World) : Job → World × TaskPhase
  | .send failures =>
    let (b, w) := w.newBatch failures
    (w, .sending .asking b (.answer (.reported (some b.id) none)))
  | .submit s => (w, .submitting s)
  | .read i => (w, .reading i)
  | .receive limit => (w, .calling limit)
  | .start => (w, .starting)
  | .stop => (w, .stopping)
  | .awaitRunning => (w, .awaitingRunning)
  | .awaitTerminated => (w, .claiming)

/-- Begins a task. -/
def spawn (w : World) (j : Job) : World :=
  let (w, p) := w.firstPhase j
  { w with tasks := w.tasks ++ [p] }

/-- Whether a task can go on. -/
def canStepTask (w : World) (i : Nat) : Bool :=
  match w.tasks[i]? with
  | none | some (.finished _) | some .abandoned => false
  | some (.sending .queued _ _) => w.queue.granted.contains (.task i)
  | some (.reading intake) => !intake.isIdle
  | some (.receiving deadline) => w.queue.canTake (.task i) || deadline.any (· ≤ w.surroundings.now)
  | some .awaitingRunning => ServiceState.running ≤ w.service.state
  | some .joining =>
    match w.service.consumer with
    | some (.gone _) => true
    | _ => false
  | some .awaitingTerminated => w.service.state == .terminated
  | some _ => true

/-- One step of a sending. -/
def stepSending (w : World) (i : Nat) (p : SendPhase) (b : Batch) (after : AfterSend) : World :=
  match p with
  | .asking => { w with queue := w.queue.ask (.task i) }.setTask i (.sending .queued b after)
  | .queued => { w with queue := w.queue.push (.task i) b }.setTask i (.sending .recording b after)
  | .recording =>
    let w := (w.emit (.batchSubmitted b.type b.size)).emitDepth
    match after with
    | .answer r => w.setTask i (.finished r)
    | .readOn intake => (w.emit (.lineRead .failed)).setTask i (.reading intake.accepted)

/-- One step of reading an input. -/
def stepReading (w : World) (i : Nat) (intake : Intake) : World :=
  match intake.phase with
  | .finished _ => w.setTask i (.finished (.intake intake))
  | .reporting f =>
    let (b, w) := w.newBatch (.input [f])
    w.setTask i (.sending .asking b (.readOn intake))
  | _ =>
    let next := intake.step w.surroundings.wall
    (if intake.stats.forwarded < next.stats.forwarded then w.emit (.lineRead .decoded) else w).setTask i
      (.reading next)

/-- One step of a task. -/
def stepTask (w : World) (i : Nat) : World :=
  if w.canStepTask i then
    match w.tasks[i]? with
    | none | some (.finished _) | some .abandoned => w
    | some (.submitting s) =>
      match s.failures? w.config w.surroundings.wall with
      | none => w.setTask i (.finished (.reported none (s.goesOn? w.config)))
      | some failures =>
        let (b, w) := w.newBatch failures
        w.setTask i (.sending .asking b (.answer (.reported (some b.id) (s.goesOn? w.config))))
    | some (.sending p b after) => w.stepSending i p b after
    | some (.reading intake) => w.stepReading i intake
    | some (.calling limit) =>
      { w with queue := w.queue.join (.task i) }.setTask i (.receiving (limit.map (w.surroundings.now + ·)))
    | some (.receiving _) =>
      match w.take (.task i) with
      | some (b, w) => w.setTask i (.finished (.batch (some b)))
      | none => { w with queue := w.queue.leave (.task i) }.setTask i (.finished (.batch none))
    | some .starting =>
      match w.service.start with
      | .ok service => { w with service := service }.setTask i .spawning
      | .error e => w.setTask i (.finished (.service (.error e)))
    | some .spawning => { w with service := w.service.spawn }.setTask i (.finished (.service (.ok ())))
    | some .stopping =>
      let (service, tell) := w.service.stop
      { w with service := service }.setTask i (if tell then .telling else .finished .done)
    | some .telling =>
      { w with service := { w.service with shutdown := true } }.setTask i (.finished .done)
    | some .awaitingRunning =>
      w.setTask i (.finished (.service
        (if w.service.state = .running then .ok () else .error (.notRunning w.service.state))))
    | some .claiming =>
      if w.service.handle then
        { w with service := { w.service with handle := false } }.setTask i .joining
      else w.setTask i .awaitingTerminated
    | some .joining =>
      match w.service.consumer with
      | some (.gone true) => w.setTask i (.finished (.service (.error .crashed)))
      | _ => w.setTask i .awaitingTerminated
    | some .awaitingTerminated => w.setTask i (.finished (.service (.ok ())))
  else w

/-- A task that waits for a permit or for a batch is given up. -/
def abandonTask (w : World) (i : Nat) : World :=
  match w.tasks[i]? with
  | some (.sending .queued _ _) => { w with queue := w.queue.withdraw (.task i) }.setTask i .abandoned
  | some (.receiving _) => { w with queue := w.queue.leave (.task i) }.setTask i .abandoned
  | some (.sending .asking _ _) | some (.calling _) => w.setTask i .abandoned
  | _ => w

end World

end FailurePipeline
