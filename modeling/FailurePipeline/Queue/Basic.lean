import FailurePipeline.Failure.Batch

/-!
# The failure queue

A `Queue` passes batches on in the order in which they are accepted, and has room for a limited number.  A
sender first needs a permit; when none is free it waits, and permits go to waiting senders in the order in
which they came.  Receivers stand in line too: only the first of them may take a batch.  A batch that is taken
frees its permit.
-/

namespace FailurePipeline

inductive QueueError where
  /-- No receiver is left. -/
  | closed (type : FailureType) (failures : Nat)
  deriving Repr, DecidableEq, Inhabited

def QueueError.message : QueueError → String
  | .closed type failures => s!"Failure queue is closed, dropped batch of {failures} {type.name} failures"

/-- Who may stand in line: the consumer of the service, or a task. -/
inductive Agent where
  | consumer
  | task (index : Nat)
  deriving Repr, DecidableEq, Inhabited

structure Queue where
  capacity : Nat
  /-- Permits that nobody holds. -/
  free : Nat
  /-- Batches that can be taken, the oldest first. -/
  buffer : List Batch := []
  /-- Senders without a permit, in the order in which they came. -/
  waiting : List Agent := []
  /-- Senders that hold a permit. -/
  granted : List Agent := []
  /-- Receivers in line. -/
  receivers : List Agent := []
  /-- All batches accepted so far. -/
  accepted : List Batch := []
  /-- All batches taken so far. -/
  delivered : List Batch := []
  deriving Repr, DecidableEq, Inhabited

namespace Queue

/-- The largest capacity for which a queue can be made. -/
def maxCapacity : Nat := 2305843009213693951

/-- An empty queue, if there can be one of this capacity. -/
def create? (capacity : Nat) : Option Queue :=
  if 0 < capacity ∧ capacity ≤ maxCapacity then some { capacity := capacity, free := capacity } else none

/-- How much room is taken up, by batches and by permits that are held. -/
def size (q : Queue) : Nat := q.capacity - q.free

/-- A sender asks for a permit, and waits if none is free. -/
def ask (q : Queue) (a : Agent) : Queue :=
  if 0 < q.free then { q with free := q.free - 1, granted := q.granted ++ [a] }
  else { q with waiting := q.waiting ++ [a] }

/-- Gives a permit back: to the sender that has waited longest, if there is one. -/
def release (q : Queue) : Queue :=
  match q.waiting with
  | a :: rest => { q with waiting := rest, granted := q.granted ++ [a] }
  | [] => { q with free := q.free + 1 }

/-- A sender that holds a permit hands over its batch. -/
def push (q : Queue) (a : Agent) (b : Batch) : Queue :=
  { q with granted := q.granted.erase a, buffer := q.buffer ++ [b], accepted := q.accepted ++ [b] }

/-- A sender goes away before it has handed over its batch. -/
def withdraw (q : Queue) (a : Agent) : Queue :=
  if a ∈ q.granted then { q with granted := q.granted.erase a }.release
  else { q with waiting := q.waiting.erase a }

/-- A receiver joins the line, unless it stands there already. -/
def join (q : Queue) (a : Agent) : Queue :=
  if a ∈ q.receivers then q else { q with receivers := q.receivers ++ [a] }

/-- A receiver leaves the line. -/
def leave (q : Queue) (a : Agent) : Queue := { q with receivers := q.receivers.erase a }

/-- Whether a receiver is first in line and finds a batch. -/
def canTake (q : Queue) (a : Agent) : Bool := q.receivers.head? == some a && !q.buffer.isEmpty

/-- The first receiver in line takes the oldest batch and leaves the line. -/
def take (q : Queue) (a : Agent) : Option (Batch × Queue) :=
  match q.buffer with
  | b :: rest =>
    if q.receivers.head? = some a then
      some (b, ({ q with buffer := rest, delivered := q.delivered ++ [b] }.release).leave a)
    else none
  | [] => none

end Queue

end FailurePipeline
