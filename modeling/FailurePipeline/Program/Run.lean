import FailurePipeline.Config.File
import FailurePipeline.Network.Address
import FailurePipeline.Pipeline.Schedule
import FailurePipeline.Program.Error

/-!
# The program from beginning to end

The program reads its configuration, opens the stores, and then does one thing after another: it starts the
service and waits until it runs, reads its input to the end, stops the service and waits until it has
terminated.  A fault of the input is told only after that.
-/

namespace FailurePipeline

structure Program where
  world : World
  /-- What is still to be begun, in order. -/
  agenda : List Job
  deriving Inhabited

/-- How the program comes to its start. -/
inductive Setup where
  | ready (p : Program)
  | failed (e : ProgramError)
  /-- There can be no queue of the configured capacity. -/
  | crashed
  deriving Inhabited

namespace Program

/-- What is done in order. -/
def jobs (intake : Intake) : List Job := [.start, .awaitRunning, .read intake, .stop, .awaitTerminated]

/-- Opens the metrics endpoint, if it is enabled. -/
def openMetrics (c : MetricsConfig) (m : Metrics.Controller) : Except ProgramError Metrics.Controller :=
  if !c.enabled then .ok m
  else if !Network.isSocketAddress c.address then .error .address
  else
    match m.install with
    | .ok m => .ok m
    | .error e => .error (.metrics e)

/-- Sets up a program by its configuration. -/
def setUp (c : Config) (m : Metrics.Controller) (s : Surroundings) (d : Depot) (intake : Intake) : Setup :=
  match openMetrics c.metrics m with
  | .error e => .failed e
  | .ok _ =>
    match Queue.create? c.failureHandling.queueCapacity with
    | none => .crashed
    | some queue =>
      match Registry.ofConfig d c with
      | .error e => .failed (.deadLetter e)
      | .ok (registry, d) =>
        .ready
          { world := { surroundings := s, config := c.failureHandling, queue := queue,
                       workplace := { registry := registry, depot := d } }
            agenda := jobs intake }

/-- Sets up a program by its configuration file, given how to read files. -/
def load (env : Environment) (readFile : String → Except String Bytes) (path : String) (m : Metrics.Controller)
    (s : Surroundings) (d : Depot) (intake : Intake) : Setup :=
  match Config.ofFile env readFile path with
  | .error e => .failed (.config e)
  | .ok c => setUp c m s d intake

/-- The input, once it has been read to its end. -/
def intake? (p : Program) : Option Intake :=
  p.world.tasks.findSome? fun
    | .finished (.intake i) => some i
    | _ => none

/-- The input as far as it has been read. -/
def reading? (p : Program) : Option Intake :=
  p.world.tasks.findSome? fun
    | .reading i | .sending _ _ (.readOn i) | .finished (.intake i) => some i
    | _ => none

/-- Whether the program waits for more input. -/
def awaitsInput (p : Program) : Bool :=
  p.world.tasks.any fun
    | .reading i => i.isIdle
    | _ => false

/-- Octets arrive; none means that the input is at its end. -/
def feed (p : Program) (octets : Bytes) : Program :=
  let tasks := p.world.tasks.map fun
    | .reading i =>
      let sequel := if octets.isEmpty then .endOfInput else i.feed.sequel
      .reading { i with feed := { arrivals := i.feed.arrivals ++ [.read octets false], sequel := sequel } }
    | other => other
  { p with world := { p.world with tasks := tasks } }

/-- Whether the last thing that was begun is done. -/
def isBetween (p : Program) : Bool :=
  match p.world.tasks.getLast? with
  | none | some (.finished _) => true
  | some _ => false

/-- How the program has ended. -/
def result? (p : Program) : Option (Except ProgramError Unit) :=
  match p.world.tasks.getLast? with
  | some (.finished (.service (.error e))) => some (.error (.service e))
  | some (.finished _) =>
    if p.agenda.isEmpty then
      match (p.intake?).bind (·.result?) with
      | some (.error f) => some (.error (.stream f))
      | _ => some (.ok ())
    else none
  | _ => none

/-- Begins the next thing on the agenda, if the last one is done. -/
def proceed (p : Program) : Program :=
  match p.agenda with
  | j :: rest => if p.isBetween && p.result?.isNone then ⟨p.world.spawn j, rest⟩ else p
  | [] => p

/-- What happens to a program: it begins the next thing, or something happens in its pipeline. -/
inductive Move where
  | proceed
  | act (a : Action)
  deriving Inhabited

def step (p : Program) : Move → Program
  | .proceed => p.proceed
  | .act a => { p with world := p.world.step a }

def run (p : Program) (moves : List Move) : Program := moves.foldl step p

/-- The pipeline goes on until everybody waits, on the fair schedule. -/
def settleOnce (p : Program) : Program :=
  { p.proceed with world := ({ world := p.proceed.world } : Schedule).wake.settle.world }

def settleFor : (turns : Nat) → Program → Program
  | 0, p => p
  | turns + 1, p => settleFor turns p.settleOnce

/-- Begins one thing after another until one has to wait. -/
def settle (p : Program) : Program := settleFor (p.agenda.length + 1) p

/-- Milliseconds pass. -/
def pass (p : Program) (ms : Nat) : Program :=
  { p with world := (({ world := p.world } : Schedule).pass ms).world }.settle

/-- Runs on the fair schedule to the end of the input and of the service. -/
def runFair (p : Program) : Program :=
  let p := p.settle
  if p.result?.isSome then p else p.pass p.world.config.shutdownAwait

/-- The line of the log at the beginning. -/
def startLine (p : Program) : LogLine :=
  { level := .info, message := "Starting snowdrift"
    fields := [("capacity", .number (.ofNat p.world.queue.capacity)),
      ("custom_handlers", .number (.ofNat p.world.workplace.registry.custom.length)),
      ("fallback", .string p.world.workplace.registry.fallback.name)] }

/-- The sums of the sink, once the program has ended. -/
def sinkSummary? (p : Program) : Option String :=
  p.world.workplace.registry.sinks.head?.map (·.stats.summary)

/-- The line of the log at the end, unless the program failed. -/
def finishLine? (p : Program) : Option LogLine :=
  match p.result?, (p.intake?).map (·.stats) with
  | some (.ok ()), some read =>
    let done := p.world.workplace.stats
    some
      { level := .info, message := "snowdrift finished"
        fields := [("forwarded", .number (.ofNat read.forwarded)), ("failed", .number (.ofNat read.failed)),
          ("dispatched", .number (.ofNat done.processed)), ("dropped", .number (.ofNat done.dropped)),
          ("handler_errors", .number (.ofNat done.handlerErrors))] }
  | _, _ => none

end Program

end FailurePipeline
