import FailurePipeline.DeadLetter.Sink

/-!
# Handlers

A handler is asked whether it is enabled and whether it supports a batch, and may then be handed the batch.
At any of these it may panic instead of answering; handling may fail as well.
-/

namespace FailurePipeline

/-- What a panic carries. -/
inductive Panic where
  | text (message : String)
  | other
  deriving Repr, DecidableEq, Inhabited

def Panic.message : Panic → String
  | .text message => message
  | .other => "unknown panic payload"

/-- How a call ends that gives nothing back. -/
inductive Outcome (ε : Type) where
  | ok
  | error (e : ε)
  | panic (p : Panic)
  deriving Repr, DecidableEq, Inhabited

inductive HandlerError where
  | deadLetter (source : DeadLetterError)
  | failed (message : String)
  deriving Repr, DecidableEq, Inhabited

def HandlerError.message : HandlerError → String
  | .deadLetter source => s!"Dead-letter write failed: {source.message}"
  | .failed message => message

/-- What a handler does with a batch. -/
inductive HandlerWork where
  /-- Lets a time pass and ends as told for each of its calls, counted from zero. -/
  | scripted (delay : Nat) (outcome : Nat → Outcome HandlerError)
  /-- Writes every failure to the log. -/
  | log
  /-- Keeps the batch. -/
  | deadLetter (sink : Sink)

instance : Inhabited HandlerWork := ⟨.log⟩

structure Handler where
  name : String
  enabled : Except Panic Bool
  supports : Batch → Except Panic Bool
  work : HandlerWork
  /-- How many calls have begun. -/
  calls : Nat := 0
  deriving Inhabited

namespace Handler

/-- The handler that writes failures to the log. -/
def log : Handler := { name := "log", enabled := .ok true, supports := fun _ => .ok true, work := .log }

/-- The handler that keeps batches in a sink. -/
def deadLetter (k : Sink) : Handler :=
  { name := "dead_letter", enabled := .ok true, supports := fun b => .ok (k.supports b.type)
    work := .deadLetter k }

/-- Whether a handler takes a batch: it is enabled and supports it. -/
def takes (h : Handler) (b : Batch) : Except Panic Bool :=
  match h.enabled with
  | .ok true => h.supports b
  | other => other

/-- How long a call lasts, in milliseconds. -/
def delay (h : Handler) : Nat :=
  match h.work with
  | .scripted delay _ => delay
  | _ => 0

def sink? (h : Handler) : Option Sink :=
  match h.work with
  | .deadLetter k => some k
  | _ => none

end Handler

end FailurePipeline
