import FailurePipeline.Failure.Cause
import FailurePipeline.Intake.Machine

/-!
# What is measured

An `Event` is something that happens in the pipeline and is counted.  `Event.measurements` says which
instruments it moves and by how much: counters grow, a gauge is set, and a histogram records a duration.
-/

namespace FailurePipeline

/-- How a call of a handler ended. -/
inductive HandlerStatus where
  | success
  | error
  | panicked
  deriving Repr, DecidableEq, Inhabited

def HandlerStatus.name : HandlerStatus → String
  | .success => "success"
  | .error => "error"
  | .panicked => "panicked"

/-- A length of time. -/
structure Duration where
  seconds : Nat := 0
  nanos : Nat := 0
  deriving Repr, DecidableEq, Inhabited

namespace Metrics

inductive Event where
  | queueDepth (depth : Nat)
  | batchSubmitted (type : FailureType) (failures : Nat)
  | batchHandled (handler : String) (type : FailureType) (status : HandlerStatus) (duration : Duration)
  | batchDropped (type : FailureType)
  | acknowledged (count : Nat)
  | acknowledgeFailed
  | drained (batches : Nat) (duration : Duration)
  | recordsWritten (records octets : Nat)
  | lineRead (status : LineStatus)
  deriving Repr, DecidableEq, Inhabited

/-- The name of an instrument with its labels, in the order in which they are written. -/
structure Key where
  name : String
  labels : List (String × String) := []
  deriving Repr, DecidableEq, Inhabited

inductive Measurement where
  | increment (key : Key) (amount : Nat)
  | set (key : Key) (value : Nat)
  | record (key : Key) (duration : Duration)
  deriving Repr, DecidableEq, Inhabited

namespace Key

def queueDepth : Key := ⟨"snowdrift_failure_queue_depth", []⟩

def batchesSubmitted (t : FailureType) : Key :=
  ⟨"snowdrift_failure_batches_submitted_total", [("failure_type", t.name)]⟩

def failuresSubmitted (t : FailureType) : Key :=
  ⟨"snowdrift_failures_submitted_total", [("failure_type", t.name)]⟩

def batchesHandled (handler : String) (t : FailureType) (status : HandlerStatus) : Key :=
  ⟨"snowdrift_failure_batches_handled_total",
    [("handler", handler), ("failure_type", t.name), ("status", status.name)]⟩

def handlerDuration (handler : String) : Key :=
  ⟨"snowdrift_failure_handler_duration_seconds", [("handler", handler)]⟩

def batchesDropped (t : FailureType) : Key :=
  ⟨"snowdrift_failure_batches_dropped_total", [("failure_type", t.name)]⟩

def messagesAcknowledged : Key := ⟨"snowdrift_messages_acknowledged_total", []⟩

def acknowledgeErrors : Key := ⟨"snowdrift_acknowledge_errors_total", []⟩

def batchesDrained : Key := ⟨"snowdrift_failure_batches_drained_total", []⟩

def drainDuration : Key := ⟨"snowdrift_failure_drain_duration_seconds", []⟩

def deadLetterRecords : Key := ⟨"snowdrift_dead_letter_records_total", []⟩

def deadLetterOctets : Key := ⟨"snowdrift_dead_letter_bytes_total", []⟩

def inputLines (status : LineStatus) : Key := ⟨"snowdrift_input_lines_total", [("status", status.name)]⟩

end Key

def Event.measurements : Event → List Measurement
  | .queueDepth depth => [.set .queueDepth depth]
  | .batchSubmitted t failures =>
    [.increment (.batchesSubmitted t) 1, .increment (.failuresSubmitted t) failures]
  | .batchHandled handler t status duration =>
    [.increment (.batchesHandled handler t status) 1, .record (.handlerDuration handler) duration]
  | .batchDropped t => [.increment (.batchesDropped t) 1]
  | .acknowledged count => [.increment .messagesAcknowledged count]
  | .acknowledgeFailed => [.increment .acknowledgeErrors 1]
  | .drained batches duration => [.increment .batchesDrained batches, .record .drainDuration duration]
  | .recordsWritten records octets =>
    [.increment .deadLetterRecords records, .increment .deadLetterOctets octets]
  | .lineRead status => [.increment (.inputLines status) 1]

end Metrics

end FailurePipeline
