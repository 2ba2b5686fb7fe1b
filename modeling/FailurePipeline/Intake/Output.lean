import FailurePipeline.Text.Utf8

/-!
# Where accepted lines go

An `Output` may have room for a limited number of octets only.  Once the room is used up a write fails, or
accepts nothing, which counts as a failure too; a write that does not fit fills the room first.
-/

namespace FailurePipeline

/-- Why a stream failed. -/
inductive StreamFault where
  | read
  | write
  | writeZero
  | flush
  /-- A fault of the system, in its own words. -/
  | other (message : String)
  deriving Repr, DecidableEq, Inhabited

def StreamFault.message : StreamFault → String
  | .read => "read broke"
  | .write => "write broke"
  | .writeZero => "write zero"
  | .flush => "flush broke"
  | .other message => message

structure Output where
  /-- What has been written, the last piece first. -/
  pieces : List Bytes := []
  /-- Room that is left, if it is limited. -/
  room : Option Nat := none
  /-- What a write meets when no room is left. -/
  whenFull : StreamFault := .write
  flushFails : Bool := false
  deriving Repr, DecidableEq, Inhabited

namespace Output

def written (o : Output) : Bytes := o.pieces.reverse.flatten

/-- Writes octets, as many as fit. -/
def put (o : Output) (octets : Bytes) : Output × Option StreamFault :=
  match o.room with
  | none => ({ o with pieces := octets :: o.pieces }, none)
  | some room =>
    if octets.length ≤ room then
      ({ o with pieces := octets :: o.pieces, room := some (room - octets.length) }, none)
    else ({ o with pieces := octets.take room :: o.pieces, room := some 0 }, some o.whenFull)

/-- Writes a line and its line feed. -/
def putLine (o : Output) (line : Bytes) : Output × Option StreamFault :=
  match o.put line with
  | (o, none) => o.put [0x0A]
  | failed => failed

end Output

end FailurePipeline
