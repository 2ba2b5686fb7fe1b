import FailurePipeline.Proofs.Intake.Course

/-!
# Faults cut a run short

The source of an intake may break, its output may take a limited number of octets only, and a flush may fail.  A run
with such faults is compared with the run without them on what the source delivers up to its last line feed
(`faults_cut_short`): it writes the first octets that the other run writes, as many as there is room for, and reports
the lines that come before the one at which the room is used up.
-/

namespace FailurePipeline

namespace Intake

/-- An intake before its run, of which nobody asks to stop, and whose source breaks after all its octets if at all. -/
structure Undisturbed (i : Intake) : Prop where
  fresh : i.Fresh
  blank : i.output.written = []
  shutdown : i.shutdown = false
  arrivals : ∀ a ∈ i.feed.arrivals, a.stops = false
  known : i.feed.sequel ≠ .unknown
  late : i.feed.sequel = .fault → ∀ shutdown, .read [] shutdown ∉ i.feed.arrivals

/-- An intake without faults. -/
structure Faultless (i : Intake) : Prop extends i.Undisturbed where
  sequel : i.feed.sequel = .endOfInput
  room : i.output.room = none
  flush : i.output.flushFails = false

/-- What the source of an intake delivers, up to its last line feed if it breaks. -/
def usable (i : Intake) : Bytes := if i.feed.sequel = .fault then Lines.closed i.unread else i.unread

/-- An intake that is given these reads and then the end of its input. -/
def ofReads (inputId : String) (reads : List Bytes) : Intake where
  inputId := inputId
  feed := ⟨reads.map (.read · false), .endOfInput⟩
  output := {}

theorem faultless_ofReads (inputId : String) {reads : List Bytes} (h : [] ∉ reads) :
    (ofReads inputId reads).Faultless := by
  have hends : (ofReads inputId reads).feed.EndsOnce := by
    refine Feed.endsOnce_of_not_mem fun shutdown hmem => ?_
    obtain ⟨octets, hoctets, heq⟩ := List.mem_map.1 (List.dropLast_subset _ hmem)
    cases heq
    exact h hoctets
  refine ⟨⟨⟨rfl, rfl, hends⟩, rfl, rfl, ?_, nofun, nofun⟩, rfl, rfl, rfl⟩
  intro a ha
  obtain ⟨octets, -, rfl⟩ := List.mem_map.1 ha
  rfl

variable {i j : Intake}

theorem usable_eq_unread (h : i.feed.sequel = .endOfInput) : i.usable = i.unread := by simp [usable, h]

/-- The lines that an undisturbed intake reads. -/
theorem Undisturbed.next_eq (h : i.Undisturbed) :
    i.next = { lines := Lines.ofBytes i.usable, broken := i.feed.sequel == .fault } := by
  have hno := unasked_signals h.shutdown h.arrivals
  rw [next_eq_onwards h.shutdown, onwards, usable]
  by_cases hf : i.feed.sequel = .fault
  · have hend : ∀ s ∈ i.signals, s.news ≠ .ending := by
      intro s hs he
      obtain ⟨shutdown, hmem⟩ := ending_mem_signals hs he
      exact h.late hf shutdown hmem
    rw [hf, if_pos rfl]
    exact octets_signals i ▸ Harvest.of_broken List.not_mem_nil hno hend
  · have hfaulty : (i.feed.sequel == .fault) = false := by simpa using hf
    rw [hfaulty, if_neg hf]
    exact octets_signals i ▸ Harvest.of_unasked List.not_mem_nil (endsOnce_signals h.fresh.ends) hno

/-- What an undisturbed intake comes to. -/
theorem Undisturbed.comesTo_eq (h : i.Undisturbed) (now : Instant) :
    i.comesTo now =
      .of i.inputId now (i.feed.sequel == .fault) i.output {} (Lines.ofBytes i.usable) := by
  rw [comesTo, h.fresh.phase]
  simp only
  rw [h.next_eq, h.fresh.stats]
  rfl

/-- A run without faults writes every line that is JSON and reports every other that is not blank. -/
theorem Faultless.outcome_eq (h : i.Faultless) (now : Instant) :
    i.outcome? now = some ⟨Lines.output (Lines.ofBytes i.unread),
      Lines.reports i.inputId now (Lines.ofBytes i.unread),
      .ok ⟨(Lines.decoded (Lines.ofBytes i.unread)).length, (Lines.undecodable (Lines.ofBytes i.unread)).length⟩⟩ := by
  rw [Intake.outcome_eq (h.fresh.tidy h.known), h.comesTo_eq, usable_eq_unread h.sequel,
    Outcome.of_room (by simp [h.room]), h.blank, h.flush, h.sequel]
  simp

/-- A run that is cut short, compared with the whole run without faults. -/
structure CutShort (now : Instant) (i : Intake) (whole cut : Outcome) : Prop where
  /-- The whole run does not fail. -/
  stats : whole.result =
    .ok ⟨(Lines.decoded (Lines.ofBytes i.usable)).length, (Lines.undecodable (Lines.ofBytes i.usable)).length⟩
  /-- It reports every line that is not JSON. -/
  reports : whole.failures = Lines.reports i.inputId now (Lines.ofBytes i.usable)
  /-- What is written are the first octets of the whole run, as many as there is room for. -/
  written : cut.written = i.output.room.elim whole.written whole.written.take
  /-- The run fails if there is not enough room, or the source breaks, or the flush fails, and else does not. -/
  result : cut.result =
    if i.output.room.any (· < whole.written.length) then .error i.output.whenFull
    else if i.feed.sequel = .fault then .error .read
    else if i.output.flushFails then .error .flush
    else whole.result
  /-- With enough room everything is reported. -/
  complete : i.output.room.any (· < whole.written.length) = false → cut.failures = whole.failures
  /-- Else is reported what comes before the line that is not written completely. -/
  before : ∀ r, i.output.room = some r → r < whole.written.length →
    ∃ before line after, Lines.ofBytes i.usable = before ++ line :: after ∧ (Lines.output before).length ≤ r ∧
      r < (Lines.output (before ++ [line])).length ∧ cut.failures = Lines.reports i.inputId now before

/-- A run with faults always finishes, and is the run without them cut short. -/
theorem faults_cut_short (hi : i.Undisturbed) (hj : j.Faultless) (hid : j.inputId = i.inputId)
    (hdata : j.unread = i.usable) (now : Instant) :
    ∃ cut whole, i.outcome? now = some cut ∧ j.outcome? now = some whole ∧ CutShort now i whole cut := by
  refine ⟨_, _, outcome_eq (hi.fresh.tidy hi.known) now, hj.outcome_eq now, ?_⟩
  rw [hid, hdata]
  -- Either the output is full before all is written, or only the source or the flush can fail.
  by_cases hfull : ∃ r, i.output.room = some r ∧ r < (Lines.output (Lines.ofBytes i.usable)).length
  · obtain ⟨r, hroom, hless⟩ := hfull
    obtain ⟨before, line, after, hlines, hle, hlt, hof⟩ := Outcome.of_full hroom hless
    have hover : i.output.room.any (· < (Lines.output (Lines.ofBytes i.usable)).length) = true := by
      simp [hroom, hless]
    rw [hi.comesTo_eq, hof]
    constructor
    · rfl
    · rfl
    · rw [hroom, hi.blank]
      rfl
    · rw [if_pos hover]
    · intro hno
      exact absurd (hno.symm.trans hover) Bool.false_ne_true
    · intro r' hr' _
      obtain rfl : r = r' := Option.some.inj (hroom.symm.trans hr')
      exact ⟨before, line, after, hlines, hle, hlt, rfl⟩
  · have hfits : ∀ r, i.output.room = some r → (Lines.output (Lines.ofBytes i.usable)).length ≤ r :=
      fun r hr => Nat.le_of_not_lt fun hlt => hfull ⟨r, hr, hlt⟩
    have hunder : i.output.room.any (· < (Lines.output (Lines.ofBytes i.usable)).length) = false := by
      cases hroom : i.output.room with
      | none => rfl
      | some r => simpa using hfits r hroom
    rw [hi.comesTo_eq, Outcome.of_room hfits]
    constructor
    · rfl
    · rfl
    · rw [hi.blank]
      cases hroom : i.output.room with
      | none => rfl
      | some r => exact (List.take_of_length_le (hfits r hroom)).symm
    · simp [hunder]
    · intro _
      rfl
    · intro r hr hlt
      exact absurd hlt (Nat.not_lt.2 (hfits r hr))

/-- Two numbers, a line between them that is not JSON, and an open line at which the source breaks; there is no room
for the second number. -/
def brokenSource : Intake where
  inputId := "stdin"
  feed := ⟨[.read (Utf8.encode "1\nx") false, .silence false, .read (Utf8.encode "\n[2]\ny") false], .fault⟩
  output := { room := some 3 }

/-- The same lines from a source that does not break, but for the open one. -/
def wholeSource : Intake where
  inputId := "stdin"
  feed := ⟨[.read (Utf8.encode "1\nx\n[2]\n") false], .endOfInput⟩
  output := {}

/-- Of the second number only the bracket is written. -/
theorem faults_cut_short_at_the_bracket :
    brokenSource.Undisturbed ∧ wholeSource.Faultless ∧ wholeSource.unread = brokenSource.usable ∧
      ∃ cut whole, brokenSource.outcome? ⟨0, 0⟩ = some cut ∧ wholeSource.outcome? ⟨0, 0⟩ = some whole ∧
        CutShort ⟨0, 0⟩ brokenSource whole cut ∧ whole.written = Utf8.encode "1\n[2]\n" ∧
        cut.written = Utf8.encode "1\n[" := by
  have hbroken : brokenSource.Undisturbed := by
    refine ⟨⟨rfl, rfl, Feed.endsOnce_of_not_mem (by decide)⟩, rfl, rfl, by decide, nofun, fun _ => by decide⟩
  have hwhole : wholeSource.Faultless := by
    refine ⟨⟨⟨rfl, rfl, Feed.endsOnce_of_not_mem (by decide)⟩, rfl, rfl, by decide, nofun, nofun⟩, rfl, rfl, rfl⟩
  have hdata : wholeSource.unread = brokenSource.usable := by decide +kernel
  obtain ⟨cut, whole, hcut, hall, hshort⟩ := faults_cut_short hbroken hwhole rfl hdata ⟨0, 0⟩
  have hw : (wholeSource.outcome? ⟨0, 0⟩).map (·.written) = some (Utf8.encode "1\n[2]\n") := by decide +kernel
  have hc : (brokenSource.outcome? ⟨0, 0⟩).map (·.written) = some (Utf8.encode "1\n[") := by decide +kernel
  rw [hall] at hw
  rw [hcut] at hc
  exact ⟨hbroken, hwhole, hdata, cut, whole, hcut, hall, hshort, Option.some.inj hw, Option.some.inj hc⟩

end Intake

end FailurePipeline
