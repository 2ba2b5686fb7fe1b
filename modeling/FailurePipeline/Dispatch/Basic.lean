import FailurePipeline.Dispatch.Workplace

/-!
# Dispatching a batch

A batch that is not empty goes to the handlers on its route.  They are called side by side, and a call that
fails or panics leaves the others alone.  When all calls have ended, the flagged messages of the batch are
acknowledged, also if no handler took it, and the batch counts as processed.  Only a panic while the route is
being found ends a dispatch before its time.
-/

namespace FailurePipeline

inductive CallPhase where
  | ready
  /-- Under way since a time, as the call of its handler with this number. -/
  | running (began call : Nat)
  | ended
  deriving Repr, DecidableEq, Inhabited

structure Call where
  seat : Seat
  phase : CallPhase := .ready
  deriving Repr, DecidableEq, Inhabited

inductive DispatchPhase where
  | routing
  | calling (calls : List Call)
  | acknowledging
  /-- The acknowledger is at work since a time, at its call with this number. -/
  | awaiting (began call : Nat)
  | counting
  | finished
  | crashed (panic : Panic)
  deriving Repr, DecidableEq, Inhabited

structure Dispatch where
  batch : Batch
  phase : DispatchPhase := .routing
  deriving Repr, DecidableEq, Inhabited

namespace Call

/-- Whether a call can go on. -/
def canStep (c : Call) (s : Surroundings) (w : Workplace) : Bool :=
  match c.phase with
  | .ready => true
  | .running began _ => began + ((w.registry.get? c.seat).map (·.delay)).getD 0 ≤ s.now
  | .ended => false

/-- A call begins, or ends. -/
def step (c : Call) (s : Surroundings) (w : Workplace) (b : Batch) : Workplace × Call :=
  match c.phase with
  | .ready =>
    let (w, call) := w.beginCall c.seat b
    (w, { c with phase := .running s.now call })
  | .running began call => (w.endCall s c.seat began call b, { c with phase := .ended })
  | .ended => (w, c)

end Call

namespace Dispatch

/-- Whether the call at a place can go on. -/
def canStepCall (d : Dispatch) (s : Surroundings) (w : Workplace) (i : Nat) : Bool :=
  match d.phase with
  | .calling calls => (calls[i]?).any (·.canStep s w)
  | _ => false

/-- One step of the call at a place. -/
def stepCall (d : Dispatch) (s : Surroundings) (w : Workplace) (i : Nat) : Workplace × Dispatch :=
  match d.phase with
  | .calling calls =>
    match calls[i]? with
    | some c =>
      if c.canStep s w then
        let (w, c) := c.step s w d.batch
        (w, { d with phase := .calling (calls.set i c) })
      else (w, d)
    | none => (w, d)
  | _ => (w, d)

/-- Whether the dispatch can go on otherwise than by a call. -/
def canStep (d : Dispatch) (s : Surroundings) (w : Workplace) : Bool :=
  match d.phase with
  | .routing | .acknowledging | .counting => true
  | .calling calls => calls.all (·.phase == .ended)
  | .awaiting began _ => began + w.acknowledger.delay ≤ s.now
  | .finished | .crashed _ => false

/-- Finds the handlers of the batch. -/
def route (d : Dispatch) (w : Workplace) : Workplace × Dispatch :=
  if d.batch.isEmpty then (w, { d with phase := .finished })
  else
    match w.registry.resolve d.batch with
    | .error p => (w, { d with phase := .crashed p })
    | .ok .unroutable => (w.drop d.batch, { d with phase := .acknowledging })
    | .ok r => (w, { d with phase := .calling (r.seats.map ({ seat := · })) })

/-- One step other than that of a call. -/
def step (d : Dispatch) (s : Surroundings) (w : Workplace) : Workplace × Dispatch :=
  if d.canStep s w then
    match d.phase with
    | .routing => d.route w
    | .calling _ => (w, { d with phase := .acknowledging })
    | .acknowledging =>
      if d.batch.flagged.isEmpty then (w, { d with phase := .counting })
      else
        let (w, call) := w.beginAcknowledge d.batch
        (w, { d with phase := .awaiting s.now call })
    | .awaiting _ call => (w.endAcknowledge call d.batch, { d with phase := .counting })
    | .counting => (w.countProcessed, { d with phase := .finished })
    | .finished | .crashed _ => (w, d)
  else (w, d)

/-- The first call that can go on. -/
def nextCall? (d : Dispatch) (s : Surroundings) (w : Workplace) : Option Nat :=
  match d.phase with
  | .calling calls => calls.findIdx? (·.canStep s w)
  | _ => none

end Dispatch

end FailurePipeline
