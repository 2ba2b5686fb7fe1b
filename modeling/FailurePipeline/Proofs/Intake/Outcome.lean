import FailurePipeline.Proofs.Intake.Lines

/-!
# What becomes of lines at an output

Lines are taken one after another: one that is JSON is written, any other that is not blank is reported.
`Intake.Outcome.of` says what comes of it.  An output with room for all takes all (`of_room`).  Any other is filled
up to its room, and nothing is done after the line at which this happens (`of_full`).
-/

namespace FailurePipeline

namespace Lines

/-- The failure that reports a line, if it is not JSON. -/
def report? (inputId : String) (now : Instant) (line : Bytes) : Option InputFailure :=
  match Json.read line with
  | .ok _ => none
  | .error fault => some (Intake.failureOf inputId now line fault)

/-- The failures that report lines. -/
def reports (inputId : String) (now : Instant) (lines : List Bytes) : List InputFailure :=
  (contents lines).filterMap (report? inputId now)

variable (line : Bytes) (lines lines' : List Bytes)

private theorem contents_append : contents (lines ++ lines') = contents lines ++ contents lines' := by
  rw [contents, contents, contents, ← List.filter_append, ← List.map_append]

theorem decoded_append : decoded (lines ++ lines') = decoded lines ++ decoded lines' := by
  rw [decoded, contents_append, List.filter_append]
  rfl

theorem output_append : output (lines ++ lines') = output lines ++ output lines' := by
  rw [output, decoded_append, List.flatMap_append]
  rfl

theorem reports_append (inputId : String) (now : Instant) :
    reports inputId now (lines ++ lines') = reports inputId now lines ++ reports inputId now lines' := by
  rw [reports, contents_append, List.filterMap_append]
  rfl

theorem decoded_cons : decoded (line :: lines) = decoded [line] ++ decoded lines := decoded_append [line] lines

theorem undecodable_cons : undecodable (line :: lines) = undecodable [line] ++ undecodable lines := by
  rw [undecodable, ← List.singleton_append, contents_append, List.filter_append]
  rfl

theorem output_cons : output (line :: lines) = output [line] ++ output lines := output_append [line] lines

theorem reports_cons (inputId : String) (now : Instant) :
    reports inputId now (line :: lines) = reports inputId now [line] ++ reports inputId now lines :=
  reports_append [line] lines inputId now

end Lines

namespace Output

variable {o : Output} {line : Bytes}

/-- A line for which there is room is written. -/
theorem putLine_of_room (h : ∀ r, o.room = some r → line.length + 1 ≤ r) :
    ∃ o', o.putLine line = (o', none) ∧ o'.written = o.written ++ (line ++ [0x0A]) ∧
      o'.room = o.room.map (· - (line.length + 1)) ∧ o'.whenFull = o.whenFull ∧ o'.flushFails = o.flushFails := by
  cases hroom : o.room with
  | none =>
    exact ⟨{ o with pieces := [0x0A] :: line :: o.pieces }, by simp [putLine, put, hroom], by simp [written], hroom,
      rfl, rfl⟩
  | some r =>
    have hfits := h r hroom
    refine ⟨{ o with pieces := [0x0A] :: line :: o.pieces, room := some (r - (line.length + 1)) }, ?_,
      by simp [written], rfl, rfl, rfl⟩
    have hline : line.length ≤ r := by omega
    have hfeed : 1 ≤ r - line.length := by omega
    simp [putLine, put, hroom, hline, hfeed, Nat.sub_sub]

/-- Of a line for which there is not enough room, as much is written as there is room for. -/
theorem putLine_of_full {r : Nat} (hroom : o.room = some r) (h : r < line.length + 1) :
    ∃ o', o.putLine line = (o', some o.whenFull) ∧ o'.written = o.written ++ (line ++ [0x0A]).take r := by
  by_cases hline : line.length ≤ r
  · -- The line itself fits, but not its line feed.
    obtain rfl : r = line.length := by omega
    exact ⟨{ o with pieces := [] :: line :: o.pieces, room := some 0 }, by simp [putLine, put, hroom],
      by simp [written]⟩
  · refine ⟨{ o with pieces := line.take r :: o.pieces, room := some 0 }, by simp [putLine, put, hroom, hline], ?_⟩
    have htake : (line ++ [0x0A]).take r = line.take r := List.take_append_of_le_length (by omega)
    simp [written, htake]

end Output

/-- What has been written and reported by the end of a run, and its result. -/
structure Intake.Outcome where
  written : Bytes
  failures : List InputFailure
  result : Except StreamFault IntakeStats

namespace Intake.Outcome

/-- First another failure. -/
def cons (f : InputFailure) (o : Outcome) : Outcome := { o with failures := f :: o.failures }

/-- What becomes of lines, after which reading breaks or the input is closed. -/
def of (inputId : String) (now : Instant) (broken : Bool) : Output → IntakeStats → List Bytes → Outcome
  | output, stats, [] =>
    ⟨output.written, [], if broken then .error .read else if output.flushFails then .error .flush else .ok stats⟩
  | output, stats, line :: lines =>
    if Blank.isBlankLine (Lines.trimEnd line) then of inputId now broken output stats lines
    else
      match Json.read (Lines.trimEnd line) with
      | .ok _ =>
        match output.putLine (Lines.trimEnd line) with
        | (output, none) =>
          of inputId now broken output { stats with forwarded := stats.forwarded + 1 } lines
        | (output, some fault) => ⟨output.written, [], .error fault⟩
      | .error fault =>
        (of inputId now broken output { stats with failed := stats.failed + 1 } lines).cons
          (Intake.failureOf inputId now (Lines.trimEnd line) fault)

variable {inputId : String} {now : Instant} {broken : Bool} {output : Output} {stats : IntakeStats}
  {line : Bytes} {lines : List Bytes}

theorem of_blank (h : Blank.isBlankLine (Lines.trimEnd line) = true) :
    of inputId now broken output stats (line :: lines) = of inputId now broken output stats lines := by
  rw [of, if_pos h]

theorem of_decoded (h : Blank.isBlankLine (Lines.trimEnd line) = false)
    (hok : Lines.decodes (Lines.trimEnd line) = true) :
    of inputId now broken output stats (line :: lines) =
      match output.putLine (Lines.trimEnd line) with
      | (output, none) => of inputId now broken output { stats with forwarded := stats.forwarded + 1 } lines
      | (output, some fault) => ⟨output.written, [], .error fault⟩ := by
  cases hread : Json.read (Lines.trimEnd line) with
  | ok v => rw [of, if_neg (by simp [h]), hread]
  | error fault => simp [Lines.decodes, hread] at hok

theorem of_undecodable {fault : Json.Fault} (h : Blank.isBlankLine (Lines.trimEnd line) = false)
    (hf : Json.read (Lines.trimEnd line) = .error fault) :
    of inputId now broken output stats (line :: lines) =
      (of inputId now broken output { stats with failed := stats.failed + 1 } lines).cons
        (Intake.failureOf inputId now (Lines.trimEnd line) fault) := by
  rw [of, if_neg (by simp [h]), hf]

/-- What can become of a line, and with what it then adds to what is written and reported. -/
inductive Fate (inputId : String) (now : Instant) (line : Bytes) : Prop
  | blank (h : Blank.isBlankLine (Lines.trimEnd line) = true) (hdecoded : Lines.decoded [line] = [])
    (hundecodable : Lines.undecodable [line] = []) (houtput : Lines.output [line] = [])
    (hreports : Lines.reports inputId now [line] = [])
  | decoded (h : Blank.isBlankLine (Lines.trimEnd line) = false) (hok : Lines.decodes (Lines.trimEnd line) = true)
    (hdecoded : Lines.decoded [line] = [Lines.trimEnd line]) (hundecodable : Lines.undecodable [line] = [])
    (houtput : Lines.output [line] = Lines.trimEnd line ++ [0x0A]) (hreports : Lines.reports inputId now [line] = [])
  | undecodable (fault : Json.Fault) (h : Blank.isBlankLine (Lines.trimEnd line) = false)
    (hf : Json.read (Lines.trimEnd line) = .error fault) (hdecoded : Lines.decoded [line] = [])
    (hundecodable : Lines.undecodable [line] = [Lines.trimEnd line]) (houtput : Lines.output [line] = [])
    (hreports : Lines.reports inputId now [line] = [Intake.failureOf inputId now (Lines.trimEnd line) fault])

theorem fate (inputId : String) (now : Instant) (line : Bytes) : Fate inputId now line := by
  cases hblank : Blank.isBlankLine (Lines.trimEnd line) with
  | true =>
    have hnone : Lines.contents [line] = [] := by simp [Lines.contents, hblank]
    apply Fate.blank hblank <;> simp [Lines.output, Lines.decoded, Lines.undecodable, Lines.reports, hnone]
  | false =>
    have hone : Lines.contents [line] = [Lines.trimEnd line] := by simp [Lines.contents, hblank]
    cases hread : Json.read (Lines.trimEnd line) with
    | ok v =>
      have hok : Lines.decodes (Lines.trimEnd line) = true := by simp [Lines.decodes, hread]
      apply Fate.decoded hblank hok <;>
        simp [Lines.output, Lines.decoded, Lines.undecodable, Lines.reports, Lines.report?, hone, hok, hread]
    | error fault =>
      have hno : Lines.decodes (Lines.trimEnd line) = false := by simp [Lines.decodes, hread]
      apply Fate.undecodable fault hblank hread <;>
        simp [Lines.output, Lines.decoded, Lines.undecodable, Lines.reports, Lines.report?, hone, hno, hread]

/-- Where there is room for all, all that is JSON is written, and everything else is reported. -/
theorem of_room (h : ∀ r, output.room = some r → (Lines.output lines).length ≤ r) :
    of inputId now broken output stats lines =
      ⟨output.written ++ Lines.output lines, Lines.reports inputId now lines,
        if broken then .error .read else if output.flushFails then .error .flush
        else
          .ok ⟨stats.forwarded + (Lines.decoded lines).length, stats.failed + (Lines.undecodable lines).length⟩⟩ := by
  induction lines generalizing output stats with
  | nil => simp [of, Lines.output, Lines.reports, Lines.decoded, Lines.undecodable, Lines.contents]
  | cons line lines ih =>
    rw [Lines.output_cons] at h ⊢
    rw [Lines.reports_cons, Lines.decoded_cons, Lines.undecodable_cons]
    cases fate inputId now line with
    | blank hblank hd hu ho hr =>
      rw [ho] at h ⊢
      rw [of_blank hblank, ih h, hd, hu, hr]
      rfl
    | decoded hblank hok hd hu ho hr =>
      rw [ho] at h ⊢
      have hboth : ∀ r, output.room = some r →
          (Lines.trimEnd line).length + 1 + (Lines.output lines).length ≤ r := by
        intro r hroom
        simpa only [List.length_append, List.length_singleton] using h r hroom
      have hone : ∀ r, output.room = some r → (Lines.trimEnd line).length + 1 ≤ r :=
        fun r hroom => Nat.le_of_add_right_le (hboth r hroom)
      obtain ⟨output', hput, hwritten, hroom, -, hflush⟩ := Output.putLine_of_room hone
      have hnext : ∀ r, output'.room = some r → (Lines.output lines).length ≤ r := by
        intro r' hr'
        rw [hroom, Option.map_eq_some_iff] at hr'
        obtain ⟨r, hr, rfl⟩ := hr'
        have := hboth r hr
        omega
      rw [of_decoded hblank hok, hput]
      simp only
      rw [ih hnext, hwritten, hflush, hd, hu, hr]
      simp [Nat.add_assoc, Nat.add_comm 1]
    | undecodable fault hblank hf hd hu ho hr =>
      rw [ho] at h ⊢
      rw [of_undecodable hblank hf, ih h, hd, hu, hr]
      simp [cons, Nat.add_assoc, Nat.add_comm 1]

/-- Where there is not, as much is written as there is room for, and what comes before the line at which the room is
used up is reported. -/
theorem of_full {r : Nat} (hroom : output.room = some r) (h : r < (Lines.output lines).length) :
    ∃ before line after, lines = before ++ line :: after ∧ (Lines.output before).length ≤ r ∧
      r < (Lines.output (before ++ [line])).length ∧
      of inputId now broken output stats lines =
        ⟨output.written ++ (Lines.output lines).take r, Lines.reports inputId now before, .error output.whenFull⟩ := by
  -- A line that is written takes its part of the room, up to the one for which too little is left.
  induction lines generalizing output stats r with
  | nil => exact absurd h (Nat.not_lt_zero r)
  | cons line lines ih =>
    rw [Lines.output_cons] at h ⊢
    cases fate inputId now line with
    | blank hblank hd hu ho hr =>
      rw [ho] at h ⊢
      obtain ⟨before, next, after, hlines, hle, hlt, hof⟩ := @ih output stats r hroom h
      refine ⟨line :: before, next, after, by rw [hlines]; rfl, ?_, ?_, ?_⟩
      · rwa [Lines.output_cons, ho]
      · rwa [List.cons_append, Lines.output_cons, ho]
      · rw [of_blank hblank, hof, Lines.reports_cons, hr]
        rfl
    | decoded hblank hok hd hu ho hr =>
      have hlen : (Lines.output [line]).length = (Lines.trimEnd line).length + 1 := by simp [ho]
      by_cases hone : (Lines.trimEnd line).length + 1 ≤ r
      · have hall : ∀ k, output.room = some k → (Lines.trimEnd line).length + 1 ≤ k := by
          intro k hk
          rw [hroom] at hk
          exact Option.some.inj hk ▸ hone
        obtain ⟨output', hput, hwritten, hroom', hfull, -⟩ := Output.putLine_of_room hall
        have hrest : output'.room = some (r - ((Lines.trimEnd line).length + 1)) := by
          rw [hroom', hroom]
          rfl
        rw [List.length_append, hlen] at h
        obtain ⟨before, next, after, hlines, hle, hlt, hof⟩ :=
          @ih output' { stats with forwarded := stats.forwarded + 1 } _ hrest (by omega)
        refine ⟨line :: before, next, after, by rw [hlines]; rfl, ?_, ?_, ?_⟩
        · rw [Lines.output_cons, List.length_append, hlen]
          omega
        · rw [List.cons_append, Lines.output_cons, List.length_append, hlen]
          omega
        · have htake : (Lines.output [line] ++ Lines.output lines).take r =
              Lines.output [line] ++ (Lines.output lines).take (r - ((Lines.trimEnd line).length + 1)) := by
            rw [List.take_append, List.take_of_length_le (by omega), hlen]
          rw [of_decoded hblank hok, hput]
          simp only
          rw [hof, Lines.reports_cons, hr, htake, hwritten, hfull, ho, List.append_assoc]
          rfl
      · obtain ⟨output', hput, hwritten⟩ := Output.putLine_of_full hroom (Nat.lt_of_not_le hone)
        refine ⟨[], line, lines, rfl, Nat.zero_le r, by rw [List.nil_append, hlen]; omega, ?_⟩
        rw [of_decoded hblank hok, hput, List.take_append_of_le_length (by omega), ho, ← hwritten]
        rfl
    | undecodable fault hblank hf hd hu ho hr =>
      rw [ho] at h ⊢
      obtain ⟨before, next, after, hlines, hle, hlt, hof⟩ :=
        @ih output { stats with failed := stats.failed + 1 } r hroom h
      refine ⟨line :: before, next, after, by rw [hlines]; rfl, ?_, ?_, ?_⟩
      · rwa [Lines.output_cons, ho]
      · rwa [List.cons_append, Lines.output_cons, ho]
      · rw [of_undecodable hblank hf, hof, Lines.reports_cons, hr]
        rfl

end Intake.Outcome

end FailurePipeline
