import FailurePipeline.Config.Basic
import FailurePipeline.Failure.Batch

/-!
# What producers report

Producers report failures of indexing, of processing and of the input.  Failures of processing are handed on
only if the configuration says so, and it also says whether the failed message goes on down the pipeline or is
left to the service, which then acknowledges it.
-/

namespace FailurePipeline

/-- What went wrong with a message. -/
structure ProcessingError where
  cause : ProcessingCause
  message : String
  details : String
  deriving Repr, DecidableEq, Inhabited

inductive Submission where
  | indexing (failures : List IndexingFailure)
  | processing (message : Message) (errors : List ProcessingError)
  | unknown (message : Message) (details : String)
  | input (failure : InputFailure)
  deriving Repr, DecidableEq, Inhabited

namespace Submission

/-- The failures of a message, one for each error. -/
def processingFailures (c : HandlingConfig) (now : Instant) (m : Message) (errors : List ProcessingError) :
    List ProcessingFailure :=
  errors.map fun e => ⟨e.cause, ⟨e.message, e.details, now⟩, m, !c.keepFailedMessageDuplicate⟩

/-- The errors that a report on a message consists of. -/
def errors : Submission → List ProcessingError
  | .processing _ errors => errors
  | .unknown _ details => [⟨.unknown, "Failed to process message", details⟩]
  | .indexing _ | .input _ => []

/-- The failures that are handed on, if there are any. -/
def failures? (s : Submission) (c : HandlingConfig) (now : Instant) : Option Failures :=
  match s with
  | .indexing failures => if failures.isEmpty then none else some (.indexing failures)
  | .input failure => some (.input [failure])
  | .processing m _ | .unknown m _ =>
    if !c.submitProcessingFailures || s.errors.isEmpty then none
    else some (.processing (processingFailures c now m s.errors))

/-- Whether the failed message goes on down the pipeline; says nothing on other failures. -/
def goesOn? (s : Submission) (c : HandlingConfig) : Option Bool :=
  match s with
  | .indexing _ | .input _ => none
  | .processing _ _ | .unknown _ _ =>
    some (!c.submitProcessingFailures || s.errors.isEmpty || c.keepFailedMessageDuplicate)

end Submission

end FailurePipeline
