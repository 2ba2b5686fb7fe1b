import FailurePipeline.Config.Basic
import FailurePipeline.Interpolation.Resolve
import FailurePipeline.Yaml.Decoder

/-!
# Reading a configuration

`Config.parse` interpolates a text, decodes it as a document and validates the result.  Every field has a
default but the path of the dead letters; fields that are not known are refused.
-/

namespace FailurePipeline

namespace Config

open Yaml (Document Node Decoded)

def handlingFields : List String :=
  ["queue_capacity", "shutdown_await_ms", "submit_processing_failures", "keep_failed_message_duplicate"]

def setHandling (d : Document) (c : HandlingConfig) (field path : String) (n : Node) :
    Decoded HandlingConfig := do
  if field == "queue_capacity" then .ok { c with queueCapacity := ← d.word path n "usize" }
  else if field == "shutdown_await_ms" then .ok { c with shutdownAwait := ← d.word path n "u64" }
  else if field == "submit_processing_failures" then .ok { c with submitProcessingFailures := ← d.bool path n }
  else .ok { c with keepFailedMessageDuplicate := ← d.bool path n }

def decodeHandling (d : Document) (path : String) (n : Node) : Decoded HandlingConfig := do
  let (c, _) ← d.fields path "FailureHandlingConfig" handlingFields (setHandling d) {} n
  .ok c

def deadLetterFields : List String := ["path", "storage_options", "failure_types", "role"]

def decodeType (d : Document) (path : String) (n : Node) : Decoded FailureType := do
  let name ← d.name path (FailureType.all.map (·.name)) n
  .ok ((FailureType.ofName? name).getD .indexing)

def decodeRole (d : Document) (path : String) (n : Node) : Decoded HandlerRole := do
  let name ← d.name path (HandlerRole.all.map (·.name)) n
  .ok ((HandlerRole.ofName? name).getD .fallback)

def setDeadLetter (d : Document) (c : DeadLetterConfig) (field path : String) (n : Node) :
    Decoded DeadLetterConfig := do
  if field == "path" then .ok { c with path := ← d.text path n }
  else if field == "storage_options" then .ok { c with storageOptions := ← d.texts path n }
  else if field == "failure_types" then .ok { c with failureTypes := ← d.items path n (decodeType d) }
  else .ok { c with role := ← decodeRole d path n }

def decodeDeadLetter (d : Document) (path : String) (n : Node) : Decoded (Option DeadLetterConfig) := do
  if ← d.isNothing n then .ok none
  else
    let (c, seen, mark) ←
      d.fields path "DeadLetterConfig" deadLetterFields (setDeadLetter d) { path := "" } n
    if seen.contains "path" then .ok (some c) else .error (.placed path mark (.missingField "path"))

def metricsFields : List String := ["enabled", "address"]

def setMetrics (d : Document) (c : MetricsConfig) (field path : String) (n : Node) :
    Decoded MetricsConfig := do
  if field == "enabled" then .ok { c with enabled := ← d.bool path n }
  else .ok { c with address := ← d.text path n }

def decodeMetrics (d : Document) (path : String) (n : Node) : Decoded MetricsConfig := do
  let (c, _) ← d.fields path "MetricsConfig" metricsFields (setMetrics d) {} n
  .ok c

def configFields : List String := ["failure_handling", "dead_letter", "metrics"]

def setConfig (d : Document) (c : Config) (field path : String) (n : Node) : Decoded Config := do
  if field == "failure_handling" then .ok { c with failureHandling := ← decodeHandling d path n }
  else if field == "dead_letter" then .ok { c with deadLetter := ← decodeDeadLetter d path n }
  else .ok { c with metrics := ← decodeMetrics d path n }

def decodeRoot (d : Document) (n : Node) : Decoded Config := do
  let (c, _) ← d.fields "" "Config" configFields (setConfig d) {} n
  .ok c

/-- Reads a text whose references have been resolved. -/
def decode (text : String) : Except ConfigError Config :=
  match Document.decode text decodeRoot with
  | .ok c => .ok c
  | .error r => .error (.malformed r.message?)

/-- Reads a configuration from a text and the variables that are set. -/
def parse (env : Environment) (text : String) : Except ConfigError Config :=
  match interpolate env text with
  | .error errors => .error (.unresolved (errors.map (·.message)))
  | .ok text => do
    let c ← decode text
    c.validate
    .ok c

end Config

end FailurePipeline
