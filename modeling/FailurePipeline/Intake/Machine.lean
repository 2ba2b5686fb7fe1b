import FailurePipeline.Failure.Batch
import FailurePipeline.Intake.Feed
import FailurePipeline.Intake.Output
import FailurePipeline.Json.Reader
import FailurePipeline.Text.Blank

/-!
# Reading lines

The `Intake` takes lines from a feed.  A line that is JSON goes to the output; any other line that is not
blank becomes an input failure, and the intake waits until it has been accepted.  A shutdown is noticed
between lines, or while a line is awaited and nothing arrives; the part of a line that has been read is then
dropped.
-/

namespace FailurePipeline

namespace Lines

/-- A list without its last element, if that is `b`. -/
def stripLast (b : UInt8) (s : Bytes) : Bytes := if s.getLast? = some b then s.dropLast else s

/-- A line without its line feed and then without one carriage return. -/
def trimEnd (line : Bytes) : Bytes := stripLast 0x0D (stripLast 0x0A line)

/-- The octets up to the first line feed and with it, and those after it. -/
def split? (s : Bytes) : Option (Bytes × Bytes) :=
  match s.dropWhile (· != 0x0A) with
  | [] => none
  | b :: rest => some (s.takeWhile (· != 0x0A) ++ [b], rest)

end Lines

/-- How many lines went on and how many failed. -/
structure IntakeStats where
  forwarded : Nat := 0
  failed : Nat := 0
  deriving Repr, DecidableEq, Inhabited

/-- What became of a line. -/
inductive LineStatus where
  | decoded
  | failed
  deriving Repr, DecidableEq, Inhabited

def LineStatus.name : LineStatus → String
  | .decoded => "decoded"
  | .failed => "failed"

inductive IntakePhase where
  /-- Between two lines. -/
  | turn
  /-- In the middle of a line; what has been read of it, the last piece first. -/
  | reading (pieces : List Bytes)
  /-- A line has been read. -/
  | judging (line : Bytes)
  /-- A failure waits to be accepted. -/
  | reporting (failure : InputFailure)
  | flushing
  | finished (result : Except StreamFault IntakeStats)
  deriving Inhabited

structure Intake where
  inputId : String
  feed : Feed
  output : Output
  /-- Octets that have been read but not looked at. -/
  buffered : Bytes := []
  shutdown : Bool := false
  stats : IntakeStats := {}
  phase : IntakePhase := .turn
  deriving Inhabited

namespace Intake

/-- The failure that reports a line. -/
def failureOf (inputId : String) (now : Instant) (line : Bytes) (fault : Json.Fault) : InputFailure :=
  { cause := .parse
    report := ⟨"Failed to decode input line as JSON", fault.message line, now⟩
    raw := line
    inputId := inputId }

/-- The input is at its end: what has been read of a line counts as one. -/
def atEnd (i : Intake) (pieces : List Bytes) : Intake :=
  if pieces.isEmpty then { i with phase := .flushing }
  else { i with phase := .judging pieces.reverse.flatten }

/-- Goes on with a line of which nothing more is buffered. -/
def await (i : Intake) (pieces : List Bytes) : Intake :=
  match i.feed.arrivals with
  | .read octets shutdown :: rest =>
    let i := { i with feed.arrivals := rest, shutdown := i.shutdown || shutdown }
    if octets.isEmpty then i.atEnd pieces else { i with buffered := octets, phase := .reading pieces }
  | .silence shutdown :: rest =>
    let i := { i with feed.arrivals := rest, shutdown := i.shutdown || shutdown }
    if i.shutdown then { i with phase := .flushing } else { i with phase := .reading pieces }
  | [] =>
    match i.feed.sequel with
    | .endOfInput => i.atEnd pieces
    | .fault => { i with phase := .finished (.error .read) }
    | .unknown => i

/-- Sends a line on. -/
def forward (i : Intake) (line : Bytes) : Intake :=
  let (output, fault) := i.output.putLine line
  match fault with
  | some fault => { i with output := output, phase := .finished (.error fault) }
  | none =>
    { i with output := output, stats.forwarded := i.stats.forwarded + 1, phase := .turn }

/-- Decides what becomes of a line. -/
def judge (i : Intake) (now : Instant) (line : Bytes) : Intake :=
  let line := Lines.trimEnd line
  if Blank.isBlankLine line then { i with phase := .turn }
  else
    match Json.read line with
    | .ok _ => i.forward line
    | .error fault => { i with phase := .reporting (failureOf i.inputId now line fault) }

/-- Whether nothing can be done before more arrives. -/
def isIdle (i : Intake) : Bool :=
  match i.phase with
  | .reading _ => i.buffered.isEmpty && i.feed.arrivals.isEmpty && i.feed.sequel == .unknown
  | _ => false

/-- One step.  Nothing happens while a failure waits to be accepted, or at the end. -/
def step (now : Instant) (i : Intake) : Intake :=
  match i.phase with
  | .turn => if i.shutdown then { i with phase := .flushing } else { i with phase := .reading [] }
  | .reading pieces =>
    if i.buffered.isEmpty then i.await pieces
    else
      match Lines.split? i.buffered with
      | some (head, rest) => { i with buffered := rest, phase := .judging (head :: pieces).reverse.flatten }
      | none => { i with buffered := [], phase := .reading (i.buffered :: pieces) }
  | .judging line => i.judge now line
  | .reporting _ => i
  | .flushing =>
    { i with phase := .finished (if i.output.flushFails then .error .flush else .ok i.stats) }
  | .finished _ => i

/-- The failure that waits has been accepted. -/
def accepted (i : Intake) : Intake := { i with stats.failed := i.stats.failed + 1, phase := .turn }

/-- What became of the line that a step dealt with. -/
def lineStatus? (before after : Intake) : Option LineStatus :=
  if before.stats.forwarded < after.stats.forwarded then some .decoded
  else if before.stats.failed < after.stats.failed then some .failed
  else none

/-- A bound for the steps that are left. -/
def patience (i : Intake) : Nat :=
  4 * (i.buffered.length + (i.feed.arrivals.map fun
    | .read octets _ => octets.length + 1
    | .silence _ => 1).foldr (· + ·) 0) + 16

/-- Runs an intake whose failures are accepted at once; also those failures. -/
def runFor (now : Instant) : (steps : Nat) → Intake → Intake × List InputFailure
  | 0, i => (i, [])
  | steps + 1, i =>
    match i.phase with
    | .finished _ => (i, [])
    | .reporting f =>
      let (i, fs) := runFor now steps i.accepted
      (i, f :: fs)
    | _ => runFor now steps (i.step now)

def run (now : Instant) (i : Intake) : Intake × List InputFailure := runFor now i.patience i

/-- The result of an intake that has finished. -/
def result? (i : Intake) : Option (Except StreamFault IntakeStats) :=
  match i.phase with
  | .finished r => some r
  | _ => none

end Intake

end FailurePipeline
