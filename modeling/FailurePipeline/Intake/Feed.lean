import FailurePipeline.Text.Utf8

/-!
# How input arrives

Octets arrive in reads.  A shutdown may be requested while a read is under way or while the input is silent.
A `Feed` lists what arrives; after its last entry the input is at its end, or broken.
-/

namespace FailurePipeline

/-- One thing that happens while input is awaited. -/
inductive Arrival where
  /-- A read delivers octets; one that delivers none tells that the input is at its end for now. -/
  | read (octets : Bytes) (shutdown : Bool)
  /-- Nothing arrives for a while. -/
  | silence (shutdown : Bool)
  deriving Repr, DecidableEq, Inhabited

/-- What follows the arrivals that are known. -/
inductive Sequel where
  | endOfInput
  | fault
  /-- More may arrive. -/
  | unknown
  deriving Repr, DecidableEq, Inhabited

structure Feed where
  arrivals : List Arrival
  sequel : Sequel := .endOfInput
  deriving Repr, DecidableEq, Inhabited

/-- What follows the octets of a source. -/
inductive Ending where
  | endOfInput
  | failure
  /-- The source falls silent, and a shutdown is requested. -/
  | shutdown
  deriving Repr, DecidableEq, Inhabited

namespace Feed

/-- Cuts octets into pieces of a positive size. -/
def pieces (size : Nat) : (bound : Nat) → Bytes → List Bytes
  | 0, _ => []
  | bound + 1, s => if s.isEmpty then [] else s.take size :: pieces size bound (s.drop size)

/-- Marks the first piece that starts at or after an offset. -/
def mark : (cancelAt : Option Nat) → (offset : Nat) → List Bytes → List Arrival × Option Nat
  | c, _, [] => ([], c)
  | c, offset, p :: ps =>
    match c with
    | some n =>
      if n ≤ offset then
        (.read p true :: (mark none (offset + p.length) ps).1, none)
      else
        let (rest, c) := mark (some n) (offset + p.length) ps
        (.read p false :: rest, c)
    | none => (.read p false :: (mark none (offset + p.length) ps).1, none)

/-- A source that hands out at most `size` octets a read.  With `cancelAt`, a shutdown is requested in the
first read that starts at or after that offset, the one at the end included.  Without room for octets every
read is empty. -/
def ofBytes (data : Bytes) (size : Nat) (cancelAt : Option Nat) (ending : Ending) : Feed :=
  if size = 0 ∧ !data.isEmpty then { arrivals := [.read [] (cancelAt == some 0)] }
  else
    let (reads, cancelAt) := mark cancelAt 0 (pieces size data.length data)
    let due := cancelAt.any (· ≤ data.length)
    match ending with
    | .endOfInput => { arrivals := reads ++ [.read [] due] }
    | .failure => { arrivals := reads, sequel := .fault }
    | .shutdown => { arrivals := reads ++ [.silence true] }

/-- The octets of all reads. -/
def data (f : Feed) : Bytes := f.arrivals.flatMap fun
  | .read octets _ => octets
  | .silence _ => []

end Feed

end FailurePipeline
