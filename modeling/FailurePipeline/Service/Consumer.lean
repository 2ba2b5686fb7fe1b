import FailurePipeline.Dispatch.Basic
import FailurePipeline.Service.State

/-!
# The service and its consumer

The consumer of a service takes one batch after another from a source and dispatches it.  Once a shutdown is
requested, or nothing more can come, it drains the source: it goes on as long as a batch comes within a time
limit.
-/

namespace FailurePipeline

/-- One answer of a scripted source. -/
inductive Handout where
  | batch (b : Batch)
  | nothing
  | panic (p : Panic)
  deriving Repr, DecidableEq, Inhabited

/-- Where the consumer takes batches from. -/
inductive Source where
  | queue
  /-- Answers in order, without and with a time limit.  Without, nothing comes after the last answer; with,
  the time limit then passes at once. -/
  | scripted (steady timed : List Handout)
  deriving Repr, DecidableEq, Inhabited

/-- What the consumer returns to after a dispatch. -/
inductive ConsumerMode where
  | steady
  /-- It drains: so many batches so far, since a time. -/
  | draining (count since : Nat)
  deriving Repr, DecidableEq, Inhabited

inductive ConsumerPhase where
  /-- About to say that it runs. -/
  | launching
  /-- About to look for a shutdown, perhaps with a batch asked for already. -/
  | turning (asked : Bool)
  /-- About to take a batch. -/
  | asking
  /-- Waits for a batch or a shutdown. -/
  | waiting
  | dispatching (d : Dispatch) (mode : ConsumerMode)
  /-- About to say that it stops. -/
  | closing
  /-- About to take a batch within the time limit. -/
  | polling (count since : Nat)
  /-- Waits for a batch until a time. -/
  | expecting (deadline count since : Nat)
  /-- About to measure the drain. -/
  | summing (count since : Nat)
  /-- About to say that it has ended. -/
  | leaving (crashed : Bool)
  | gone (crashed : Bool)
  deriving Repr, DecidableEq, Inhabited

/-- What the consumer does with its source, and what it dispatches. -/
inductive ConsumerEvent where
  /-- A batch is asked for without a time limit. -/
  | asked
  /-- A batch came without a time limit. -/
  | received (b : Batch)
  /-- The source says that nothing more can come. -/
  | exhausted
  /-- A shutdown is seen. -/
  | sawShutdown
  /-- A batch is asked for within a time limit. -/
  | polled (limit : Nat)
  /-- A batch came within the time limit. -/
  | drew (b : Batch)
  /-- No batch came within the time limit. -/
  | expired
  | dispatched (b : Batch)
  deriving Repr, DecidableEq, Inhabited

structure Service where
  state : ServiceState := .new
  /-- Whether a shutdown has been requested. -/
  shutdown : Bool := false
  consumer : Option ConsumerPhase := none
  /-- Whether the end of the consumer can still be waited for by whoever comes first. -/
  handle : Bool := false
  /-- How many consumers have been spawned. -/
  spawned : Nat := 0
  /-- The states that have been published, in order. -/
  published : List ServiceState := []
  /-- What the consumer has done, in order. -/
  events : List ConsumerEvent := []
  deriving Repr, DecidableEq, Inhabited

namespace Service

def publish (v : Service) (s : ServiceState) : Service :=
  { v with state := s, published := v.published ++ [s] }

def log (v : Service) (e : ConsumerEvent) : Service := { v with events := v.events ++ [e] }

def enter (v : Service) (p : ConsumerPhase) : Service := { v with consumer := some p }

/-- Starts: a new service begins to start, any other refuses. -/
def start (v : Service) : Except ServiceError Service :=
  if v.state = .new then .ok (v.publish .starting) else .error (.invalidState .start v.state)

/-- Spawns the consumer. -/
def spawn (v : Service) : Service :=
  { v with consumer := some .launching, handle := true, spawned := v.spawned + 1 }

/-- Stops: also whether the consumer has to be told. -/
def stop (v : Service) : Service × Bool :=
  match v.state with
  | .new => (v.publish .terminated, false)
  | .starting | .running => (v.publish .stopping, true)
  | .stopping | .terminated => (v, false)

end Service

end FailurePipeline
