import FailurePipeline.Failure.Cause
import FailurePipeline.Text.Utf8
import FailurePipeline.Time.Instant

/-!
# Failures and batches

A failure is a cause with a report of what happened and the fields of its type.  Failures of one type travel
together in a `Batch`, whose number tells it from every other batch of the process.
-/

namespace FailurePipeline

/-- What every failure says: a message, details and the time. -/
structure Report where
  message : String
  details : String
  timestamp : Instant
  deriving Repr, DecidableEq, Inhabited

/-- A message that waits in a journal until it is acknowledged, with its number there if it has one. -/
structure Message where
  queueId : Option String
  deriving Repr, DecidableEq, Inhabited

structure IndexingFailure where
  cause : IndexingCause
  report : Report
  messageId : Option String
  targetIndex : String
  deriving Repr, DecidableEq, Inhabited

structure ProcessingFailure where
  cause : ProcessingCause
  report : Report
  failed : Message
  /-- Whether the failed message is acknowledged once the failure has been handled. -/
  acknowledge : Bool
  deriving Repr, DecidableEq, Inhabited

structure InputFailure where
  cause : InputCause
  report : Report
  raw : Bytes
  inputId : String
  deriving Repr, DecidableEq, Inhabited

/-- Failures of one type. -/
inductive Failures where
  | indexing (failures : List IndexingFailure)
  | processing (failures : List ProcessingFailure)
  | input (failures : List InputFailure)
  deriving Repr, DecidableEq, Inhabited

namespace Failures

def type : Failures → FailureType
  | .indexing _ => .indexing
  | .processing _ => .processing
  | .input _ => .input

def size : Failures → Nat
  | .indexing fs => fs.length
  | .processing fs => fs.length
  | .input fs => fs.length

/-- The cause's name and the report of each failure. -/
def reports : Failures → List (String × Report)
  | .indexing fs => fs.map fun f => (f.cause.name, f.report)
  | .processing fs => fs.map fun f => (f.cause.name, f.report)
  | .input fs => fs.map fun f => (f.cause.name, f.report)

/-- The messages to acknowledge, in the order of their failures. -/
def flagged : Failures → List Message
  | .processing fs => (fs.filter (·.acknowledge)).map (·.failed)
  | _ => []

end Failures

structure Batch where
  id : Nat
  failures : Failures
  deriving Repr, DecidableEq, Inhabited

namespace Batch

def type (b : Batch) : FailureType := b.failures.type

def size (b : Batch) : Nat := b.failures.size

def isEmpty (b : Batch) : Bool := b.size == 0

def flagged (b : Batch) : List Message := b.failures.flagged

/-- Batches are told apart by their numbers alone. -/
def same (a b : Batch) : Bool := a.id == b.id

/-- A one-line summary: number, type and size. -/
def summary (b : Batch) : String :=
  s!"FailureBatch \x7b id: {b.id}, failure_type: {b.type.title}, len: {b.size} \x7d"

end Batch

end FailurePipeline
