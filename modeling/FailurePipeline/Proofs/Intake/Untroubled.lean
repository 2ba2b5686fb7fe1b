import FailurePipeline.Proofs.Intake.Lines
import Mathlib.Algebra.GroupWithZero.Nat

/-!
# An intake that nothing disturbs

Where no shutdown is requested, the input comes to its end and the output takes everything, an intake gets on with
every step (`Intake.GetsOn`): what is left to be done becomes less (`Intake.left`), until it has finished without
an error.
-/

namespace FailurePipeline

/-- Whether a shutdown is requested while the input is awaited. -/
def Arrival.stops : Arrival → Bool
  | .read _ shutdown | .silence shutdown => shutdown

/-- How much there is to do with an arrival: to take it, and to look at each octet. -/
def Arrival.size : Arrival → Nat
  | .read octets _ => octets.length + 1
  | .silence _ => 1

/-- How far a phase is from the end, if nothing arrives any more. -/
def IntakePhase.rank : IntakePhase → Nat
  | .finished _ => 0
  | .flushing => 1
  | .reading [] => 2
  | .turn => 3
  | .reporting _ => 4
  | .judging _ => 5
  | .reading (_ :: _) => 6

namespace Intake

/-- No shutdown, neither so far nor to come, an input with an end, and an output that does not fail. -/
structure Untroubled (i : Intake) : Prop where
  shutdown : i.shutdown = false
  arrivals : ∀ a ∈ i.feed.arrivals, a.stops = false
  sequel : i.feed.sequel = .endOfInput
  room : i.output.room = none
  flush : i.output.flushFails = false
  phase : ∀ f, i.phase ≠ .finished (.error f)

/-- How much an intake has to do.  What is still to be looked at counts for more than any phase. -/
def left (i : Intake) : Nat :=
  8 * (i.buffered.length + (i.feed.arrivals.map Arrival.size).sum) + i.phase.rank

/-- The intake goes on undisturbed, and has less to do. -/
structure GetsOn (i i' : Intake) : Prop where
  untroubled : i'.Untroubled
  less : i'.left < i.left

variable {i : Intake}

/-- Another phase is reached, with nothing read. -/
private theorem getsOn_of_phase (hu : i.Untroubled) {p : IntakePhase} (hp : ∀ f, p ≠ .finished (.error f))
    (hr : p.rank < i.phase.rank) : GetsOn i { i with phase := p } := by
  refine ⟨⟨hu.shutdown, hu.arrivals, hu.sequel, hu.room, hu.flush, hp⟩, ?_⟩
  unfold left
  exact Nat.add_lt_add_left hr _

/-- Something has been read or looked at. -/
private theorem less_of_amount {i' : Intake}
    (h : i'.buffered.length + (i'.feed.arrivals.map Arrival.size).sum <
      i.buffered.length + (i.feed.arrivals.map Arrival.size).sum) : i'.left < i.left := by
  have hrank : i'.phase.rank ≤ 6 := by
    cases i'.phase with
    | reading pieces => cases pieces <;> simp [IntakePhase.rank]
    | _ => simp [IntakePhase.rank]
  unfold left
  omega

private theorem untroubled_atEnd (hu : i.Untroubled) (pieces : List Bytes) : (i.atEnd pieces).Untroubled := by
  unfold Intake.atEnd
  split <;> exact ⟨hu.shutdown, hu.arrivals, hu.sequel, hu.room, hu.flush, nofun⟩

private theorem getsOn_await (hu : i.Untroubled) {pieces : List Bytes} (hp : i.phase = .reading pieces)
    (hb : i.buffered = []) : GetsOn i (i.await pieces) := by
  unfold Intake.await
  cases harr : i.feed.arrivals with
  | nil =>
    -- At the end of the input the phase alone shows that the intake gets on.
    rw [hu.sequel]
    simp only [Intake.atEnd]
    cases pieces with
    | nil =>
      apply getsOn_of_phase hu
      · exact nofun
      · simp [hp, IntakePhase.rank]
    | cons piece pieces =>
      apply getsOn_of_phase hu
      · exact nofun
      · simp [hp, IntakePhase.rank]
  | cons a rest =>
    have hstop : a.stops = false := hu.arrivals a (by simp [harr])
    have hrest : ∀ a ∈ rest, a.stops = false := fun a ha => hu.arrivals a (by simp [harr, ha])
    cases a with
    | read octets shutdown =>
      have hshutdown : (i.shutdown || shutdown) = false := by
        rw [hu.shutdown]
        exact hstop
      simp only
      split
      · have hread : Untroubled { i with feed.arrivals := rest, shutdown := i.shutdown || shutdown } :=
          ⟨hshutdown, hrest, hu.sequel, hu.room, hu.flush, hu.phase⟩
        refine ⟨untroubled_atEnd hread pieces, ?_⟩
        apply less_of_amount
        unfold Intake.atEnd
        split <;> simp [harr, hb, Arrival.size]
      · refine ⟨⟨hshutdown, hrest, hu.sequel, hu.room, hu.flush, nofun⟩, ?_⟩
        apply less_of_amount
        simp only [harr, hb, List.map_cons, List.sum_cons, Arrival.size, List.length_nil]
        omega
    | silence shutdown =>
      have hshutdown : (i.shutdown || shutdown) = false := by
        rw [hu.shutdown]
        exact hstop
      simp only [hshutdown, Bool.false_eq_true, if_false]
      refine ⟨⟨rfl, hrest, hu.sequel, hu.room, hu.flush, nofun⟩, ?_⟩
      apply less_of_amount
      simp [harr, Arrival.size]

private theorem getsOn_forward (hu : i.Untroubled) {line : Bytes} (hp : i.phase = .judging line) (s : Bytes) :
    GetsOn i (i.forward s) := by
  have hput : i.output.putLine s = ({ i.output with pieces := [0x0A] :: s :: i.output.pieces }, none) := by
    simp [Output.putLine, Output.put, hu.room]
  unfold Intake.forward
  rw [hput]
  refine ⟨⟨hu.shutdown, hu.arrivals, hu.sequel, hu.room, hu.flush, nofun⟩, ?_⟩
  simp [left, hp, IntakePhase.rank]

private theorem getsOn_judge (hu : i.Untroubled) {line : Bytes} (hp : i.phase = .judging line) (now : Instant) :
    GetsOn i (i.judge now line) := by
  simp only [Intake.judge]
  split
  · apply getsOn_of_phase hu
    · exact nofun
    · simp [hp, IntakePhase.rank]
  · split
    · exact getsOn_forward hu hp _
    · apply getsOn_of_phase hu
      · exact nofun
      · simp [hp, IntakePhase.rank]

/-- Every step gets on, as long as no failure waits and the end is not reached. -/
theorem getsOn_step (hu : i.Untroubled) (hf : ∀ r, i.phase ≠ .finished r) (hr : ∀ f, i.phase ≠ .reporting f)
    (now : Instant) : GetsOn i (i.step now) := by
  cases hp : i.phase with
  | turn =>
    simp only [Intake.step, hp]
    rw [if_neg (by simp [hu.shutdown])]
    apply getsOn_of_phase hu
    · exact nofun
    · simp [hp, IntakePhase.rank]
  | reading pieces =>
    simp only [Intake.step, hp]
    split
    · next hb => exact getsOn_await hu hp (List.isEmpty_iff.1 hb)
    · next hb =>
      split
      · next head rest hsplit =>
        obtain ⟨line, -, -, hall⟩ := Lines.split?_eq_some hsplit
        refine ⟨⟨hu.shutdown, hu.arrivals, hu.sequel, hu.room, hu.flush, nofun⟩, ?_⟩
        apply less_of_amount
        simp only [hall, List.length_append, List.length_cons]
        omega
      · refine ⟨⟨hu.shutdown, hu.arrivals, hu.sequel, hu.room, hu.flush, nofun⟩, ?_⟩
        apply less_of_amount
        have hpos : 0 < i.buffered.length := List.length_pos_iff.2 (by simpa using hb)
        simp only [List.length_nil]
        omega
  | judging line =>
    simp only [Intake.step, hp]
    exact getsOn_judge hu hp now
  | reporting f => exact absurd hp (hr f)
  | flushing =>
    simp only [Intake.step, hp]
    rw [if_neg (by simp [hu.flush])]
    apply getsOn_of_phase hu
    · exact nofun
    · simp [hp, IntakePhase.rank]
  | finished r => exact absurd hp (hf r)

/-- The acceptance of a failure gets on. -/
theorem getsOn_accepted (hu : i.Untroubled) {f : InputFailure} (hp : i.phase = .reporting f) :
    GetsOn i i.accepted := by
  refine ⟨⟨hu.shutdown, hu.arrivals, hu.sequel, hu.room, hu.flush, nofun⟩, ?_⟩
  simp [left, Intake.accepted, hp, IntakePhase.rank]

end Intake

end FailurePipeline
