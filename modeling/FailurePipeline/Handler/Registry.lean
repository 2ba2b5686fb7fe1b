import FailurePipeline.Handler.Basic

/-!
# Which handlers take a batch

Every custom handler that is enabled and supports the batch takes it.  If there is none, the fallback does,
unless it is disabled or does not support the batch either.
-/

namespace FailurePipeline

structure Registry where
  fallback : Handler
  custom : List Handler := []
  deriving Inhabited

/-- The place of a handler in a registry. -/
inductive Seat where
  | fallback
  | custom (index : Nat)
  deriving Repr, DecidableEq, Inhabited

inductive Route where
  /-- The custom handlers that take the batch; there is at least one. -/
  | custom (indices : List Nat)
  | fallback
  | unroutable
  deriving Repr, DecidableEq, Inhabited

namespace Route

def name : Route → String
  | .custom _ => "custom"
  | .fallback => "fallback"
  | .unroutable => "unroutable"

def seats : Route → List Seat
  | .custom indices => indices.map .custom
  | .fallback => [.fallback]
  | .unroutable => []

end Route

namespace Registry

def get? (r : Registry) : Seat → Option Handler
  | .fallback => some r.fallback
  | .custom i => r.custom[i]?

def set (r : Registry) (h : Handler) : Seat → Registry
  | .fallback => { r with fallback := h }
  | .custom i => { r with custom := r.custom.set i h }

/-- All places, the fallback first. -/
def seats (r : Registry) : List Seat := .fallback :: (List.range r.custom.length).map .custom

/-- Asks handlers in order for those that take a batch; they are numbered from `index`. -/
def select (b : Batch) : (index : Nat) → List Handler → Except Panic (List Nat)
  | _, [] => .ok []
  | index, h :: hs => do
    let taken ← h.takes b
    let rest ← select b (index + 1) hs
    .ok (if taken then index :: rest else rest)

/-- Where a batch goes. -/
def resolve (r : Registry) (b : Batch) : Except Panic Route := do
  let indices ← select b 0 r.custom
  if indices.isEmpty then
    let taken ← r.fallback.takes b
    .ok (if taken then .fallback else .unroutable)
  else .ok (.custom indices)

/-- The names of the handlers at some places. -/
def names (r : Registry) (seats : List Seat) : List String :=
  seats.filterMap fun s => (r.get? s).map (·.name)

/-- The registry that a configuration describes, with the depot in which its store has been opened. -/
def ofConfig (d : Depot) (c : Config) : Except DeadLetterError (Registry × Depot) :=
  match c.deadLetter with
  | none => .ok ({ fallback := .log }, d)
  | some dl =>
    match Sink.ofConfig d dl with
    | .error e => .error e
    | .ok (k, d) =>
      match dl.role with
      | .fallback => .ok ({ fallback := .deadLetter k }, d)
      | .custom => .ok ({ fallback := .log, custom := [.deadLetter k] }, d)

/-- The sinks among the handlers, the fallback's first. -/
def sinks (r : Registry) : List Sink := (r.fallback :: r.custom).filterMap (·.sink?)

end Registry

end FailurePipeline
