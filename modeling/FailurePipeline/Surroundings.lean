import FailurePipeline.Storage.Error
import FailurePipeline.Time.Instant

/-!
# What comes from outside

A step may read a clock that counts milliseconds, the wall clock, and the number of the process; and what it asks of
a store may be refused.
-/

namespace FailurePipeline

structure Surroundings where
  /-- Milliseconds since the beginning. -/
  now : Nat := 0
  wall : Instant := ⟨0, 0⟩
  processId : Nat := 1
  /-- Why stores refuse to keep objects at this time, if they do. -/
  refusal : Option StorageError := none
  deriving Repr, DecidableEq, Inhabited

end FailurePipeline
