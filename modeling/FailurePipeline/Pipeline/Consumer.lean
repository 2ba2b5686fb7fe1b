import FailurePipeline.Pipeline.World

/-!
# The steps of the consumer

Between two batches the consumer looks for a shutdown first and for a batch then.  When it waits, either wakes
it.  After a shutdown it polls with the time limit of the configuration, counted anew for every batch, and a
batch that is there is taken even if the time is over.
-/

namespace FailurePipeline

namespace World

/-- A batch goes to dispatch. -/
def dispatchNext (w : World) (b : Batch) (mode : ConsumerMode) : World :=
  (w.log (.dispatched b)).enter (.dispatching { batch := b } mode)

/-- What the consumer does when it asks a source for a batch. -/
def stepAsking (w : World) : World :=
  match w.source with
  | .queue =>
    let w := { w with queue := w.queue.join .consumer }
    match w.take .consumer with
    | some (b, w) => (w.log (.received b)).dispatchNext b .steady
    | none => w.enter .waiting
  | .scripted [] _ => w.enter .waiting
  | .scripted (h :: steady) timed =>
    let w := { w with source := .scripted steady timed }
    match h with
    | .batch b => (w.log (.received b)).dispatchNext b .steady
    | .nothing => (w.log .exhausted).enter .closing
    | .panic _ => w.enter (.leaving true)

/-- What the consumer does when it begins a timed poll. -/
def stepPolling (w : World) (count since : Nat) : World :=
  let w := w.log (.polled w.config.shutdownAwait)
  let expire (w : World) : World := (w.log .expired).enter (.summing count since)
  match w.source with
  | .queue =>
    { w with queue := w.queue.join .consumer }.enter
      (.expecting (w.surroundings.now + w.config.shutdownAwait) count since)
  | .scripted _ [] => expire w
  | .scripted steady (h :: timed) =>
    let w := { w with source := .scripted steady timed }
    match h with
    | .batch b => (w.log (.drew b)).dispatchNext b (.draining (count + 1) since)
    | .nothing => expire w
    | .panic _ => w.enter (.leaving true)

/-- Whether the source has a batch for the consumer, or another answer. -/
def hasAnswer (w : World) : Bool :=
  match w.source with
  | .queue => w.queue.canTake .consumer
  | .scripted steady _ => !steady.isEmpty

/-- Whether the consumer can go on, apart from calls of handlers. -/
def canStepConsumer (w : World) : Bool :=
  match w.service.consumer with
  | none | some (.gone _) => false
  | some .waiting => w.service.shutdown || w.hasAnswer
  | some (.expecting deadline _ _) => w.queue.canTake .consumer || deadline ≤ w.surroundings.now
  | some (.dispatching d _) =>
    match d.phase with
    | .finished | .crashed _ => true
    | _ => d.canStep w.surroundings w.workplace
  | some _ => true

/-- Returns from a dispatch that has ended, or goes on with it. -/
def stepDispatch (w : World) (d : Dispatch) (mode : ConsumerMode) : World :=
  match d.phase, mode with
  | .finished, .steady => w.enter (.turning false)
  | .finished, .draining count since => w.enter (.polling count since)
  | .crashed _, _ => w.enter (.leaving true)
  | _, _ =>
    let (place, d) := d.step w.surroundings w.workplace
    { w with workplace := place }.enter (.dispatching d mode)

/-- One step of the consumer, apart from calls of handlers. -/
def stepConsumer (w : World) : World :=
  if w.canStepConsumer then
    match w.service.consumer with
    | none | some (.gone _) => w
    | some .launching =>
      (if w.service.state = .starting then { w with service := w.service.publish .running } else w).enter
        (.turning false)
    | some (.turning asked) =>
      if w.service.shutdown then
        ({ w with queue := w.queue.leave .consumer }.log .sawShutdown).enter .closing
      else (if asked then w else w.log .asked).enter .asking
    | some .asking => w.stepAsking
    | some .waiting => w.enter (.turning true)
    | some (.dispatching d mode) => w.stepDispatch d mode
    | some .closing =>
      (if w.service.state < .stopping then { w with service := w.service.publish .stopping } else w).enter
        (.polling 0 w.surroundings.now)
    | some (.polling count since) => w.stepPolling count since
    | some (.expecting _ count since) =>
      match w.take .consumer with
      | some (b, w) => (w.log (.drew b)).dispatchNext b (.draining (count + 1) since)
      | none => ({ w with queue := w.queue.leave .consumer }.log .expired).enter (.summing count since)
    | some (.summing count since) =>
      (w.emit (.drained count (.ofMillis (w.surroundings.now - since)))).enter (.leaving false)
    | some (.leaving crashed) =>
      { w with service := (w.service.publish .terminated).enter (.gone crashed) }
  else w

/-- The consumer panics, wherever it is. -/
def crashConsumer (w : World) : World :=
  match w.service.consumer with
  | none | some (.leaving _) | some (.gone _) => w
  | some _ => { w with queue := w.queue.leave .consumer }.enter (.leaving true)

/-- A scripted source has one more answer. -/
def supply (w : World) (h : Handout) : World :=
  match w.source with
  | .queue => w
  | .scripted steady timed => { w with source := .scripted (steady ++ [h]) timed }

/-- One step of a call of a handler, at its place among the calls under way. -/
def stepCall (w : World) (i : Nat) : World :=
  match w.service.consumer with
  | some (.dispatching d mode) =>
    let (place, d) := d.stepCall w.surroundings w.workplace i
    { w with workplace := place }.enter (.dispatching d mode)
  | _ => w

/-- The first call of a handler that can go on. -/
def nextCall? (w : World) : Option Nat :=
  match w.service.consumer with
  | some (.dispatching d _) => d.nextCall? w.surroundings w.workplace
  | _ => none

end World

end FailurePipeline
