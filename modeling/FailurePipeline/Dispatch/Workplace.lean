import FailurePipeline.Dispatch.Acknowledger
import FailurePipeline.Handler.Registry
import FailurePipeline.Log

/-!
# What a dispatch works with

A `Workplace` holds the handlers, the acknowledger, the counters, the recorder and the stores that dispatches
use one after the other, and a journal of what they did.
-/

namespace FailurePipeline

/-- What the dispatches have done so far. -/
structure DispatchStats where
  /-- Batches that went through dispatch; empty ones do not count. -/
  processed : Nat := 0
  /-- Batches that no handler took. -/
  dropped : Nat := 0
  /-- Calls of handlers that failed or panicked. -/
  handlerErrors : Nat := 0
  /-- Messages that were acknowledged. -/
  acknowledged : Nat := 0
  /-- Calls of the acknowledger that failed or panicked. -/
  acknowledgeErrors : Nat := 0
  deriving Repr, DecidableEq, Inhabited

/-- A failure in the log. -/
structure FailureLine where
  batch : Nat
  type : FailureType
  cause : String
  report : Report
  deriving Repr, DecidableEq, Inhabited

/-- A mishap of dispatching in the log. -/
inductive MishapLine where
  | handlerFailed (batch : Nat) (handler : String) (error : HandlerError)
  | handlerPanicked (batch : Nat) (handler : String) (panic : Panic)
  | acknowledgeFailed (batch count : Nat) (error : AcknowledgeError)
  | acknowledgerPanicked (batch count : Nat) (panic : Panic)
  deriving Repr, DecidableEq, Inhabited

/-- The line of the log for a failure. -/
def FailureLine.line (l : FailureLine) : LogLine :=
  { level := .warning
    message := l.report.message
    fields := [("batch_id", .number (.ofNat l.batch)), ("failure_type", .string l.type.name),
      ("cause", .string l.cause), ("details", .string l.report.details),
      ("timestamp", .string l.report.timestamp.display)] }

/-- The line of the log for a mishap. -/
def MishapLine.line : MishapLine → LogLine
  | .handlerFailed batch handler error =>
    { level := .error, message := "Failure handler returned an error"
      fields := [("batch_id", .number (.ofNat batch)), ("error", .string error.message),
        ("handler", .string handler)] }
  | .handlerPanicked batch handler panic =>
    { level := .error, message := "Failure handler panicked"
      fields := [("batch_id", .number (.ofNat batch)), ("handler", .string handler),
        ("panic", .string panic.message)] }
  | .acknowledgeFailed batch count error =>
    { level := .error, message := "Failed to acknowledge messages"
      fields := [("batch_id", .number (.ofNat batch)), ("count", .number (.ofNat count)),
        ("error", .string error.message)] }
  | .acknowledgerPanicked batch count panic =>
    { level := .error, message := "Acknowledger panicked"
      fields := [("batch_id", .number (.ofNat batch)), ("count", .number (.ofNat count)),
        ("panic", .string panic.message)] }

/-- An entry of the journal. -/
inductive Note where
  | began (seat : Seat) (batch : Nat)
  | ended (seat : Seat) (batch : Nat)
  | acknowledging (batch : Nat) (messages : List Message)
  | failure (line : FailureLine)
  | mishap (line : MishapLine)
  deriving Repr, DecidableEq, Inhabited

structure Workplace where
  registry : Registry
  acknowledger : Acknowledger := {}
  stats : DispatchStats := {}
  recorder : Metrics.Recorder := {}
  depot : Depot := {}
  /-- What has been done, in order. -/
  journal : List Note := []
  deriving Inhabited

/-- The line of the log for an entry of the journal, if there is one. -/
def Note.line? : Note → Option LogLine
  | .failure l => some l.line
  | .mishap l => some l.line
  | .began .. | .ended .. | .acknowledging .. => none

namespace Duration

def ofMillis (ms : Nat) : Duration := ⟨ms / 1000, ms % 1000 * 1000000⟩

end Duration

namespace Workplace

def note (w : Workplace) (n : Note) : Workplace := { w with journal := w.journal ++ [n] }

def emit (w : Workplace) (e : Metrics.Event) : Workplace := { w with recorder := w.recorder.emit e }

/-- The lines that the log handler writes for a batch. -/
def failureLines (b : Batch) : List FailureLine :=
  b.failures.reports.map fun (cause, report) => ⟨b.id, b.type, cause, report⟩

/-- A call of a handler begins; also its number among the calls of this handler. -/
def beginCall (w : Workplace) (seat : Seat) (b : Batch) : Workplace × Nat :=
  match w.registry.get? seat with
  | none => (w, 0)
  | some h =>
    let registry := w.registry.set { h with calls := h.calls + 1 } seat
    let w := { w.note (.began seat b.id) with registry := registry }
    match h.work with
    | .log => ((failureLines b).foldl (fun w line => w.note (.failure line)) w, h.calls)
    | _ => (w, h.calls)

/-- A handler does its work, or what is left of it when its time is over. -/
def perform (w : Workplace) (s : Surroundings) (seat : Seat) (call : Nat) (b : Batch) :
    Workplace × Outcome HandlerError :=
  match w.registry.get? seat with
  | none => (w, .ok)
  | some h =>
    match h.work with
    | .scripted _ outcome => (w, outcome call)
    | .log => (w, .ok)
    | .deadLetter k =>
      match k.write s w.depot w.recorder b with
      | .ok (k, depot, recorder) =>
        ({ w with registry := w.registry.set { h with work := .deadLetter k } seat, depot := depot,
                  recorder := recorder }, .ok)
      | .error e => (w, .error (.deadLetter e))

/-- A handler that did not succeed is counted and logged. -/
def judge (w : Workplace) (name : String) (b : Batch) : Outcome HandlerError → Workplace × HandlerStatus
  | .ok => (w, .success)
  | .error e =>
    ({ w.note (.mishap (.handlerFailed b.id name e)) with
        stats := { w.stats with handlerErrors := w.stats.handlerErrors + 1 } }, .error)
  | .panic p =>
    ({ w.note (.mishap (.handlerPanicked b.id name p)) with
        stats := { w.stats with handlerErrors := w.stats.handlerErrors + 1 } }, .panicked)

/-- A call of a handler ends. -/
def endCall (w : Workplace) (s : Surroundings) (seat : Seat) (began call : Nat) (b : Batch) : Workplace :=
  let name := ((w.registry.get? seat).map (·.name)).getD ""
  let (w, outcome) := (w.note (.ended seat b.id)).perform s seat call b
  let (w, status) := w.judge name b outcome
  w.emit (.batchHandled name b.type status (.ofMillis (s.now - began)))

/-- A call of the acknowledger begins; also its number. -/
def beginAcknowledge (w : Workplace) (b : Batch) : Workplace × Nat :=
  ({ w.note (.acknowledging b.id b.flagged) with
      acknowledger := { w.acknowledger with calls := w.acknowledger.calls + 1 } }, w.acknowledger.calls)

/-- A call of the acknowledger ends. -/
def endAcknowledge (w : Workplace) (call : Nat) (b : Batch) : Workplace :=
  let count := b.flagged.length
  let failed (w : Workplace) : Workplace :=
    { w with
        stats := { w.stats with acknowledgeErrors := w.stats.acknowledgeErrors + 1 } }.emit .acknowledgeFailed
  match w.acknowledger.outcome call with
  | .ok =>
    { w with
        stats := { w.stats with acknowledged := w.stats.acknowledged + count } }.emit (.acknowledged count)
  | .error reason => failed (w.note (.mishap (.acknowledgeFailed b.id count (.rejected count reason))))
  | .panic p => failed (w.note (.mishap (.acknowledgerPanicked b.id count p)))

/-- A batch that no handler takes is counted. -/
def drop (w : Workplace) (b : Batch) : Workplace :=
  { w with stats := { w.stats with dropped := w.stats.dropped + 1 } }.emit (.batchDropped b.type)

/-- A batch has gone through. -/
def countProcessed (w : Workplace) : Workplace :=
  { w with stats := { w.stats with processed := w.stats.processed + 1 } }

end Workplace

end FailurePipeline
