import FailurePipeline.Pipeline.Action

/-!
# A fair schedule

One way to run a pipeline: agents take turns, each goes on until it has to wait, and those that its steps have
woken line up behind the others.  Senders that were given a permit come first, in the order of their permits,
then the consumer, then the other tasks by their numbers.
-/

namespace FailurePipeline

namespace World

def canStep (w : World) : Agent → Bool
  | .consumer => w.nextCall?.isSome || w.canStepConsumer
  | .task i => w.canStepTask i

/-- What an agent does next; the consumer goes on with the calls of handlers first. -/
def nextAction (w : World) : Agent → Action
  | .consumer => (w.nextCall?).elim Action.consumer Action.call
  | .task i => .task i

/-- An agent goes on until it cannot, or until its steps are used up. -/
def runAgent (a : Agent) : (steps : Nat) → World → World
  | 0, w => w
  | steps + 1, w => if w.canStep a then runAgent a steps (w.step (w.nextAction a)) else w

/-- A bound for the lines that are still read by tasks. -/
def pendingLines (w : World) : Nat :=
  (w.tasks.map fun
    | .reading i | .sending _ _ (.readOn i) => i.patience
    | _ => 0).foldr (· + ·) 0

/-- A bound for the batches that may still be dispatched. -/
def pendingBatches (w : World) : Nat :=
  let scripted := match w.source with
    | .queue => 0
    | .scripted steady timed => steady.length + timed.length
  w.queue.buffer.length + w.tasks.length + w.pendingLines + scripted + 1

/-- A bound for the steps that can follow one another while no time passes and no task begins. -/
def patience (w : World) : Nat :=
  w.pendingBatches * (2 * w.workplace.registry.custom.length + 32) + 8 * w.tasks.length +
    8 * w.pendingLines + 32

/-- The agents that can go on, in the order in which they line up. -/
def awake (w : World) : List Agent :=
  let tasks := (List.range w.tasks.length).map Agent.task
  ((w.queue.granted ++ Agent.consumer :: tasks).filter w.canStep).eraseDups

end World

structure Schedule where
  world : World
  /-- The agents whose turn comes, in order. -/
  line : List Agent := []
  deriving Inhabited

namespace Schedule

/-- Lines up the agents that have been woken. -/
def wake (s : Schedule) : Schedule :=
  { s with line := s.line ++ s.world.awake.filter (!s.line.contains ·) }

/-- An agent has its turn. -/
def poll (s : Schedule) (a : Agent) : Schedule :=
  ({ s with world := s.world.runAgent a s.world.patience }).wake

/-- Agents have their turns, a limited number of times. -/
def settleFor : (turns : Nat) → Schedule → Schedule
  | 0, s => s
  | turns + 1, s =>
    match s.line with
    | [] => s
    | a :: rest => settleFor turns ({ s with line := rest }.poll a)

/-- Everybody goes on until all wait. -/
def settle (s : Schedule) : Schedule := settleFor s.world.patience s

/-- Begins a task, whose turn will come. -/
def spawn (s : Schedule) (j : Job) : Schedule :=
  { world := s.world.spawn j, line := s.line ++ [.task s.world.tasks.length] }

/-- Begins a task and has it go on at once. -/
def call (s : Schedule) (j : Job) : Schedule :=
  { s with world := s.world.spawn j }.poll (.task s.world.tasks.length)

/-- Milliseconds pass; then everybody goes on until all wait. -/
def pass (s : Schedule) (ms : Nat) : Schedule := ({ s with world := s.world.step (.pass ms) }.wake).settle

end Schedule

end FailurePipeline
