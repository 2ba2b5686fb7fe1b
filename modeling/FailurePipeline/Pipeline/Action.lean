import FailurePipeline.Pipeline.Consumer
import FailurePipeline.Pipeline.Task

/-!
# Runs of a pipeline

Whatever happens to a pipeline is a sequence of actions: a task begins, somebody goes one step on, time
passes.  An action of somebody who cannot go on changes nothing, so that every sequence of actions is a run.
-/

namespace FailurePipeline

inductive Action where
  | spawn (j : Job)
  | task (index : Nat)
  | consumer
  /-- A step of a call of a handler, at its place among the calls under way. -/
  | call (index : Nat)
  | abandon (index : Nat)
  /-- The consumer panics. -/
  | crash
  /-- A scripted source can answer once more. -/
  | supply (h : Handout)
  /-- Milliseconds pass. -/
  | pass (ms : Nat)
  /-- The wall clock shows another time. -/
  | clock (wall : Instant)
  /-- Stores begin to refuse objects, for a reason, or to take them. -/
  | refuse (reason : Option StorageError)
  deriving Inhabited

namespace World

def step (w : World) : Action → World
  | .spawn j => w.spawn j
  | .task i => w.stepTask i
  | .consumer => w.stepConsumer
  | .call i => w.stepCall i
  | .abandon i => w.abandonTask i
  | .crash => w.crashConsumer
  | .supply h => w.supply h
  | .pass ms => { w with surroundings := { w.surroundings with now := w.surroundings.now + ms } }
  | .clock wall => { w with surroundings := { w.surroundings with wall := wall } }
  | .refuse reason => { w with surroundings := { w.surroundings with refusal := reason } }

def run (w : World) (actions : List Action) : World := actions.foldl step w

end World

end FailurePipeline
