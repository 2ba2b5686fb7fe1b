import FailurePipeline.Handler.Basic

/-!
# Acknowledging messages

An acknowledger tells a journal that messages are done with.
-/

namespace FailurePipeline

inductive AcknowledgeError where
  | rejected (count : Nat) (message : String)
  deriving Repr, DecidableEq, Inhabited

def AcknowledgeError.message : AcknowledgeError → String
  | .rejected count message => s!"Failed to acknowledge {count} messages: {message}"

/-- Lets a time pass at each call and ends as told, counting calls from zero; an error says why messages are
rejected. -/
structure Acknowledger where
  delay : Nat := 0
  outcome : Nat → Outcome String := fun _ => .ok
  /-- How many calls have begun. -/
  calls : Nat := 0

instance : Inhabited Acknowledger := ⟨{}⟩

end FailurePipeline
