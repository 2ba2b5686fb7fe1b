import FailurePipeline.Config.Basic
import FailurePipeline.DeadLetter.Record
import FailurePipeline.Metrics.Recorder
import FailurePipeline.Storage.Provider
import FailurePipeline.Surroundings

/-!
# Where dead letters go

A `Sink` keeps every batch it is given as one object of a store.  The object's name holds the type, the time
to the microsecond, the number of the process and the number of the batch; batches are numbered from one in
every process.
-/

namespace FailurePipeline

inductive DeadLetterError where
  | write (path : String) (source : StorageError)
  | create (url : String) (source : StorageError)
  deriving Repr, DecidableEq, Inhabited

def DeadLetterError.message : DeadLetterError → String
  | .write path source => s!"Failed to write dead-letter object {path}: {source.message}"
  | .create url source => s!"Failed to create dead-letter storage at {url}: {source.message}"

/-- How many failures of each type have been kept. -/
structure DeadLetterStats where
  indexing : Nat := 0
  processing : Nat := 0
  input : Nat := 0
  deriving Repr, DecidableEq, Inhabited

namespace DeadLetterStats

def add (s : DeadLetterStats) (type : FailureType) (count : Nat) : DeadLetterStats :=
  match type with
  | .indexing => { s with indexing := s.indexing + count }
  | .processing => { s with processing := s.processing + count }
  | .input => { s with input := s.input + count }

def total (s : DeadLetterStats) : Nat := s.indexing + s.processing + s.input

/-- The line that sums up at the end. -/
def summary (s : DeadLetterStats) : String :=
  s!"Dead-letter handler finalized: {s.total} total failures (indexing={s.indexing}, " ++
    s!"processing={s.processing}, input={s.input})"

end DeadLetterStats

structure Sink where
  provider : Provider
  /-- The types that are kept; none means all. -/
  types : List FailureType := []
  stats : DeadLetterStats := {}
  deriving Repr, DecidableEq, Inhabited

namespace Sink

/-- The characters of an object's name. -/
def objectName (s : Surroundings) (b : Batch) : List Char :=
  b.type.name.toList ++ '/' :: s.wall.stamp ++ '-' :: Digits.decimal s.processId ++
    '-' :: Digits.padded 8 b.id ++ ".ndjson".toList

def objectPath (s : Surroundings) (b : Batch) : ObjectPath := .ofText (String.ofList (objectName s b))

/-- Opens the store of a configured sink. -/
def ofConfig (d : Depot) (c : DeadLetterConfig) : Except DeadLetterError (Sink × Depot) :=
  match d.openStore c.path c.storageOptions with
  | .ok (provider, d) => .ok ({ provider := provider, types := c.failureTypes }, d)
  | .error e => .error (.create c.path e)

/-- The line that tells where a configured sink keeps its objects. -/
def announcement (k : Sink) (role : HandlerRole) : String :=
  s!"Dead-letter handler enabled: {k.provider.url} ({role.title})"

def supports (k : Sink) (type : FailureType) : Bool := k.types.isEmpty || k.types.contains type

/-- Puts the object of a batch into the store, unless the store refuses it. -/
def store (k : Sink) (s : Surroundings) (d : Depot) (b : Batch) : Except DeadLetterError Depot :=
  match k.provider.offer s.refusal d (objectPath s b) (DeadLetter.octets b) with
  | .ok d => .ok d
  | .error e => .error (.write (objectPath s b).text e)

/-- What is measured once the object of a batch is in the store. -/
def written (b : Batch) : Metrics.Event := .recordsWritten b.size (DeadLetter.octets b).length

/-- Counts the failures of a batch that has been kept. -/
def count (k : Sink) (b : Batch) : Sink := { k with stats := k.stats.add b.type b.size }

/-- Keeps a batch: puts its object, measures, and counts. -/
def write (k : Sink) (s : Surroundings) (d : Depot) (r : Metrics.Recorder) (b : Batch) :
    Except DeadLetterError (Sink × Depot × Metrics.Recorder) :=
  match k.store s d b with
  | .ok d => .ok (k.count b, d, r.emit (written b))
  | .error e => .error e

end Sink

end FailurePipeline
