import FailurePipeline.Failure.Cause
import FailurePipeline.Text.Blank

/-!
# Configuration

The settings of a pipeline with their defaults, and the errors of a configuration that is refused.
-/

namespace FailurePipeline

/-- How failures are taken in and handed to handlers. -/
structure HandlingConfig where
  /-- How many batches may wait. -/
  queueCapacity : Nat := 1000
  /-- How long the service waits for a further batch when it stops, in milliseconds. -/
  shutdownAwait : Nat := 3000
  /-- Whether failed messages are handed to handlers at all. -/
  submitProcessingFailures : Bool := false
  /-- Whether a failed message goes on down the pipeline although its failure was handed to handlers. -/
  keepFailedMessageDuplicate : Bool := true
  deriving Repr, DecidableEq, Inhabited

/-- Whether a handler stands in for missing ones or takes part beside others. -/
inductive HandlerRole where
  | fallback
  | custom
  deriving Repr, DecidableEq, Inhabited

namespace HandlerRole

def all : List HandlerRole := [.fallback, .custom]

def name : HandlerRole → String
  | .fallback => "fallback"
  | .custom => "custom"

/-- The capitalised name. -/
def title : HandlerRole → String
  | .fallback => "Fallback"
  | .custom => "Custom"

def ofName? (s : String) : Option HandlerRole := all.find? (·.name == s)

end HandlerRole

/-- Where handled batches are kept for later. -/
structure DeadLetterConfig where
  path : String
  storageOptions : List (String × String) := []
  /-- The types that are kept; none means all. -/
  failureTypes : List FailureType := []
  role : HandlerRole := .fallback
  deriving Repr, DecidableEq, Inhabited

structure MetricsConfig where
  enabled : Bool := true
  address : String := "0.0.0.0:9090"
  deriving Repr, DecidableEq, Inhabited

structure Config where
  failureHandling : HandlingConfig := {}
  deadLetter : Option DeadLetterConfig := none
  metrics : MetricsConfig := {}
  deriving Repr, DecidableEq, Inhabited

inductive ConfigError where
  /-- References to variables could not be resolved. -/
  | unresolved (errors : List String)
  /-- The text is no configuration; with the reason, where it is about a value. -/
  | malformed (reason : Option String)
  | unreadable (path reason : String)
  | unsupportedFormat (path : String)
  | invalidValue (field reason : String)
  deriving Repr, DecidableEq, Inhabited

def ConfigError.message : ConfigError → String
  | .unresolved errors => "Environment variable interpolation failed:\n" ++ String.intercalate "\n" errors
  | .malformed reason => "Failed to parse YAML: " ++ reason.getD "invalid document"
  | .unreadable path reason => s!"Failed to read configuration file {path}: {reason}"
  | .unsupportedFormat path => s!"Unsupported config format for {path}: only .yaml/.yml supported"
  | .invalidValue field reason => s!"Invalid value for '{field}': {reason}"

namespace Config

/-- Checks what the shape of a configuration leaves open: there is room for a batch, and a place for dead
letters. -/
def validate (c : Config) : Except ConfigError Unit :=
  if c.failureHandling.queueCapacity = 0 then
    .error (.invalidValue "failure_handling.queue_capacity" "must be greater than 0")
  else
    match c.deadLetter with
    | some d =>
      if Blank.isBlankText d.path then .error (.invalidValue "dead_letter.path" "must not be empty")
      else .ok ()
    | none => .ok ()

end Config

end FailurePipeline
