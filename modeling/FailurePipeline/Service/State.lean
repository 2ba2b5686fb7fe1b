/-!
# The states of the service

A service is new, starts, runs, stops and is terminated, in this order; it may skip states but never goes
back.
-/

namespace FailurePipeline

inductive ServiceState where
  | new
  | starting
  | running
  | stopping
  | terminated
  deriving Repr, DecidableEq, Inhabited

namespace ServiceState

def all : List ServiceState := [.new, .starting, .running, .stopping, .terminated]

/-- The place of a state in the life of a service. -/
def rank : ServiceState → Nat
  | .new => 0
  | .starting => 1
  | .running => 2
  | .stopping => 3
  | .terminated => 4

instance : LE ServiceState := ⟨fun a b => a.rank ≤ b.rank⟩

instance : LT ServiceState := ⟨fun a b => a.rank < b.rank⟩

instance (a b : ServiceState) : Decidable (a ≤ b) := inferInstanceAs (Decidable (a.rank ≤ b.rank))

instance (a b : ServiceState) : Decidable (a < b) := inferInstanceAs (Decidable (a.rank < b.rank))

def compare (a b : ServiceState) : Ordering := Ord.compare a.rank b.rank

def isShuttingDown (s : ServiceState) : Bool := ServiceState.stopping ≤ s

def name : ServiceState → String
  | .new => "new"
  | .starting => "starting"
  | .running => "running"
  | .stopping => "stopping"
  | .terminated => "terminated"

/-- The capitalised name. -/
def title : ServiceState → String
  | .new => "New"
  | .starting => "Starting"
  | .running => "Running"
  | .stopping => "Stopping"
  | .terminated => "Terminated"

def ofName? (s : String) : Option ServiceState := all.find? (·.name == s)

end ServiceState

/-- What is asked of a service. -/
inductive ServiceOperation where
  | start
  | stop
  deriving Repr, DecidableEq, Inhabited

def ServiceOperation.name : ServiceOperation → String
  | .start => "start"
  | .stop => "stop"

inductive ServiceError where
  | invalidState (operation : ServiceOperation) (state : ServiceState)
  /-- The service came to a later state without being seen running. -/
  | notRunning (state : ServiceState)
  /-- The consumer ended by a panic. -/
  | crashed
  deriving Repr, DecidableEq, Inhabited

def ServiceError.message : ServiceError → String
  | .invalidState operation state => s!"Cannot {operation.name} service in state {state.name}"
  | .notRunning state => s!"Service reached {state.name} before it was running"
  | .crashed => "Failure consumer task failed: the task panicked"

end FailurePipeline
