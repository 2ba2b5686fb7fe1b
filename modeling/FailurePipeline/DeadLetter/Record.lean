import FailurePipeline.Failure.Batch
import FailurePipeline.Json.Value
import FailurePipeline.Text.Base64

/-!
# Dead-letter documents

A batch is kept as one document of JSON lines, one for each failure, in the order of the batch.  A record
names the fields that its type of failure has and no others; raw octets are written in Base64.
-/

namespace FailurePipeline

namespace DeadLetter

open Json (Value)

/-- The fields that every failure has. -/
def commonFields (batchId : Nat) (type : FailureType) (cause : String) (r : Report) :
    List (String × Value) :=
  [("batch_id", .number (.ofNat batchId)), ("failure_type", .string type.name), ("cause", .string cause),
    ("message", .string r.message), ("details", .string r.details),
    ("timestamp", .string r.timestamp.rfc3339)]

/-- A field that may be missing. -/
def optionalField (name : String) (text : Option String) : List (String × Value) :=
  (text.map fun s => (name, Value.string s)).toList

def indexingRecord (batchId : Nat) (f : IndexingFailure) : Value :=
  .object (commonFields batchId .indexing f.cause.name f.report ++
    ("target_index", .string f.targetIndex) :: optionalField "message_id" f.messageId)

def processingRecord (batchId : Nat) (f : ProcessingFailure) : Value :=
  .object (commonFields batchId .processing f.cause.name f.report ++
    optionalField "message_id" f.failed.queueId ++ [("acknowledged", .bool f.acknowledge)])

def inputRecord (batchId : Nat) (f : InputFailure) : Value :=
  .object (commonFields batchId .input f.cause.name f.report ++
    [("input_id", .string f.inputId), ("raw_message", .string (String.ofList (Base64.encode f.raw)))])

def records (b : Batch) : List Value :=
  match b.failures with
  | .indexing fs => fs.map (indexingRecord b.id)
  | .processing fs => fs.map (processingRecord b.id)
  | .input fs => fs.map (inputRecord b.id)

/-- Each record on a line of its own. -/
def document (b : Batch) : List Char := (records b).flatMap fun r => r.chars ++ ['\n']

def octets (b : Batch) : Bytes := Utf8.encodeChars (document b)

end DeadLetter

end FailurePipeline
