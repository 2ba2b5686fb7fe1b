import FailurePipeline.DeadLetter.Sink

/-!
# Keeping batches side by side

Several calls may keep batches at the same time, in one sink or in several over the same stores.  A call names its
object by the clock first, puts it then, is measured after that and counted last, and other calls may come in
between.  A store may refuse a put, whatever it holds.
-/

namespace FailurePipeline

inductive KeepPhase where
  /-- About to name the object. -/
  | naming
  /-- About to put the object. -/
  | putting (path : ObjectPath)
  /-- The object is in the store; about to be measured. -/
  | measuring (path : ObjectPath)
  /-- About to be counted. -/
  | counting (path : ObjectPath)
  | finished (path : ObjectPath) (result : Except DeadLetterError Unit)
  deriving Inhabited

/-- A call that keeps a batch in the sink with a number. -/
structure Keep where
  sink : Nat
  batch : Batch
  phase : KeepPhase := .naming
  deriving Inhabited

/-- A step of the call with a number, in its surroundings. -/
structure KeepMove where
  call : Nat
  surroundings : Surroundings := {}
  deriving Inhabited

structure Archive where
  sinks : List Sink
  depot : Depot
  recorder : Metrics.Recorder := {}
  calls : List Keep
  deriving Inhabited

namespace Archive

def setCall (a : Archive) (i : Nat) (c : Keep) (p : KeepPhase) : Archive :=
  { a with calls := a.calls.set i { c with phase := p } }

/-- One step of a call. -/
def step (a : Archive) (m : KeepMove) : Archive :=
  match a.calls[m.call]? with
  | none => a
  | some c =>
    match a.sinks[c.sink]? with
    | none => a
    | some k =>
      match c.phase with
      | .naming => a.setCall m.call c (.putting (Sink.objectPath m.surroundings c.batch))
      | .putting path =>
        match k.provider.offer m.surroundings.refusal a.depot path (DeadLetter.octets c.batch) with
        | .ok depot => { a with depot := depot }.setCall m.call c (.measuring path)
        | .error e => a.setCall m.call c (.finished path (.error (.write path.text e)))
      | .measuring path =>
        { a with recorder := a.recorder.emit (Sink.written c.batch) }.setCall m.call c (.counting path)
      | .counting path =>
        { a with sinks := a.sinks.set c.sink (k.count c.batch) }.setCall m.call c (.finished path (.ok ()))
      | .finished .. => a

/-- Steps in any order. -/
def run (a : Archive) (moves : List KeepMove) : Archive := moves.foldl step a

end Archive

end FailurePipeline
