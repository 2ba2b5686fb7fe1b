import FailurePipeline.Config.Basic
import FailurePipeline.DeadLetter.Sink
import FailurePipeline.Intake.Output
import FailurePipeline.Metrics.Endpoint
import FailurePipeline.Service.State

/-!
# Why the program fails
-/

namespace FailurePipeline

inductive ProgramError where
  | config (source : ConfigError)
  | metrics (source : Metrics.Error)
  /-- The address of the metrics endpoint is malformed. -/
  | address
  | deadLetter (source : DeadLetterError)
  | service (source : ServiceError)
  | stream (source : StreamFault)
  deriving Repr, DecidableEq, Inhabited

def ProgramError.message : ProgramError → String
  | .config source => s!"Configuration error: {source.message}"
  | .metrics source => s!"Metrics error: {source.message}"
  | .address => "Failed to parse metrics address: invalid socket address syntax"
  | .deadLetter source => s!"DLQ error: {source.message}"
  | .service source => s!"Service error: {source.message}"
  | .stream source => s!"Stream IO error: {source.message}"

end FailurePipeline
