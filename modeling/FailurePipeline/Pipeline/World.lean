import FailurePipeline.Intake.Machine
import FailurePipeline.Intake.Submission
import FailurePipeline.Queue.Basic
import FailurePipeline.Service.Consumer

/-!
# The pipeline at one moment

A `World` holds everything that a pipeline consists of: the queue, the service with its consumer, what
dispatches work with, and the tasks that producers, consumers and callers of the service have begun.
-/

namespace FailurePipeline

/-- How far a batch has come on its way into the queue. -/
inductive SendPhase where
  /-- About to ask for a permit. -/
  | asking
  /-- Holds a permit, or waits for one. -/
  | queued
  /-- In the queue; about to be measured. -/
  | recording
  deriving Repr, DecidableEq, Inhabited

inductive TaskResult where
  | done
  /-- Failures were reported, in the batch with this number if they made one.  Of a failed message it is told
  whether it goes on down the pipeline. -/
  | reported (batch : Option Nat) (goesOn : Option Bool)
  | batch (b : Option Batch)
  | intake (i : Intake)
  | service (r : Except ServiceError Unit)
  deriving Inhabited

/-- What follows once a batch has been sent. -/
inductive AfterSend where
  | answer (r : TaskResult)
  | readOn (i : Intake)
  deriving Inhabited

inductive TaskPhase where
  | submitting (s : Submission)
  | sending (p : SendPhase) (b : Batch) (after : AfterSend)
  | reading (i : Intake)
  /-- About to ask for a batch, perhaps with a time limit. -/
  | calling (limit : Option Nat)
  /-- Waits for a batch, perhaps until a time. -/
  | receiving (deadline : Option Nat)
  | starting
  /-- The service begins to start; about to spawn the consumer. -/
  | spawning
  | stopping
  /-- The service stops; about to tell the consumer. -/
  | telling
  | awaitingRunning
  /-- About to take the handle of the consumer. -/
  | claiming
  /-- Waits for the end of the consumer. -/
  | joining
  | awaitingTerminated
  | finished (r : TaskResult)
  | abandoned
  deriving Inhabited

/-- What a task is begun for. -/
inductive Job where
  | send (failures : Failures)
  | submit (s : Submission)
  | read (i : Intake)
  | receive (limit : Option Nat)
  | start
  | stop
  | awaitRunning
  | awaitTerminated
  deriving Inhabited

structure World where
  surroundings : Surroundings := {}
  config : HandlingConfig := {}
  /-- The number of the next batch. -/
  nextId : Nat := 1
  queue : Queue
  source : Source := .queue
  service : Service := {}
  workplace : Workplace
  tasks : List TaskPhase := []
  deriving Inhabited

namespace World

def emit (w : World) (e : Metrics.Event) : World := { w with workplace := w.workplace.emit e }

/-- Measures how full the queue is. -/
def emitDepth (w : World) : World := w.emit (.queueDepth w.queue.size)

/-- A new batch with the next number. -/
def newBatch (w : World) (failures : Failures) : Batch × World :=
  (⟨w.nextId, failures⟩, { w with nextId := w.nextId + 1 })

def log (w : World) (e : ConsumerEvent) : World := { w with service := w.service.log e }

def enter (w : World) (p : ConsumerPhase) : World := { w with service := w.service.enter p }

/-- A batch is taken from the queue, if the agent is first in line and there is one. -/
def take (w : World) (a : Agent) : Option (Batch × World) :=
  match w.queue.take a with
  | some (b, queue) => some (b, { w with queue := queue }.emitDepth)
  | none => none

end World

end FailurePipeline
