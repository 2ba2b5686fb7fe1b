import FailurePipeline.Metrics.Exposition

/-!
# The metrics endpoint

The recorder of a process is installed once.  The endpoint answers requests for `/metrics` with the exposition
and for `/health` with `ok`; other paths are not found, and other methods than `GET` and `HEAD` are not
allowed.
-/

namespace FailurePipeline

namespace Metrics

inductive Error where
  /-- Another recorder has been installed before. -/
  | recorderInstalled
  | alreadyInitialized
  | notInitialized
  deriving Repr, DecidableEq, Inhabited

def Error.message : Error → String
  | .recorderInstalled => "Failed to initialize Prometheus recorder"
  | .alreadyInitialized => "Metrics server already initialized"
  | .notInitialized => "Metrics server not initialized"

/-- The recorder of the process, once it is installed. -/
structure Controller where
  recorder : Option Recorder := none
  deriving Inhabited

namespace Controller

def get (c : Controller) : Except Error Recorder :=
  match c.recorder with
  | some r => .ok r
  | none => .error .notInitialized

def install (c : Controller) : Except Error Controller :=
  match c.recorder with
  | some _ => .error .recorderInstalled
  | none => .ok ⟨some {}⟩

/-- Records an event; without a recorder nothing happens. -/
def emit (c : Controller) (e : Event) : Controller := ⟨c.recorder.map (·.emit e)⟩

end Controller

structure Response where
  status : Nat
  body : String
  deriving Repr, DecidableEq, Inhabited

/-- The path of a request's target, without its query. -/
def targetPath (target : String) : String := String.ofList (target.toList.takeWhile (· != '?'))

def page? (r : Recorder) (path : String) : Option String :=
  if path = "/metrics" then some (String.join (r.exposition.map (· ++ "\n")))
  else if path = "/health" then some "ok\n"
  else none

/-- The answer to a request. -/
def respond (r : Recorder) (method target : String) : Response :=
  match page? r (targetPath target) with
  | none => ⟨404, ""⟩
  | some body => if method = "GET" then ⟨200, body⟩ else if method = "HEAD" then ⟨200, ""⟩ else ⟨405, ""⟩

end Metrics

end FailurePipeline
