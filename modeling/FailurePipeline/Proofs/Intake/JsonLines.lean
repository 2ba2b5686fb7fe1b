import FailurePipeline.Proofs.Intake.Faults
import FailurePipeline.Proofs.Json.Grammar.Derivations

/-!
# Only JSON is written

A line goes on only if it is a document of the grammar within the limits of the reader (`Lines.decodes_iff`).  So
whatever arrives and in whatever course, an intake writes documents, each on a line of its own, and a part of one more
only where its output failed (`Intake.only_json_is_written`).
-/

namespace FailurePipeline

namespace Json.Document

variable {t : Document}

theorem withinLimits_iff : t.WithinLimits ↔ (t.value.value? maxDepth).isSome = true := by
  rw [t.value.isSome_value? maxDepth]
  exact ⟨fun h => ⟨h.depth, h.numerals, h.strings⟩, fun h => ⟨h.1, h.2.1, h.2.2⟩⟩

/-- A document can be read exactly if it keeps to the limits. -/
theorem decodes_octets (t : Document) : Lines.decodes t.octets = true ↔ t.WithinLimits := by
  have hread := read_document t
  rw [withinLimits_iff, ← hread, Lines.decodes]
  cases read t.octets <;> simp [Except.toOption]

end Json.Document

namespace Lines

/-- The lines that go on are the documents within the limits. -/
theorem decodes_iff {line : Bytes} :
    decodes line = true ↔ ∃ t : Json.Document, line = t.octets ∧ t.WithinLimits := by
  constructor
  · intro h
    cases hread : Json.read line with
    | ok v =>
      obtain ⟨t, rfl, -⟩ := Json.document_of_read hread
      exact ⟨t, rfl, t.decodes_octets.1 h⟩
    | error fault => simp [decodes, hread] at h
  · rintro ⟨t, rfl, ht⟩
    exact t.decodes_octets.2 ht

/-- One JSON value with blanks around it, on one line. -/
structure IsJson (line : Bytes) : Prop where
  /-- The line is text. -/
  text : (Utf8.decode? line).isSome = true
  oneLine : 0x0A ∉ line
  /-- It is a document of the grammar, in which every surrogate has its other half. -/
  document : ∃ t : Json.Document, line = t.octets ∧ ∀ ps ∈ t.value.strings, ps.Paired

theorem isJson_of_decodes {line : Bytes} (h : decodes line = true) (hline : 0x0A ∉ line) : IsJson line := by
  obtain ⟨t, rfl, ht⟩ := decodes_iff.1 h
  refine ⟨?_, hline, t, rfl, ht.strings⟩
  rw [Json.Document.octets, Utf8.decode?_encodeChars]
  rfl

theorem mem_of_mem_stripLast {b o : UInt8} {s : Bytes} (h : o ∈ stripLast b s) : o ∈ s := by
  obtain ⟨ending, -, hs⟩ := exists_eq_stripLast_append b s
  exact hs ▸ List.mem_append_left ending h

theorem not_mem_trimEnd {line : Bytes} (h : 0x0A ∉ line) :
    0x0A ∉ trimEnd line ∧ 0x0A ∉ trimEnd (line ++ [0x0A]) := by
  refine ⟨fun hmem => h (mem_of_mem_stripLast (mem_of_mem_stripLast hmem)), fun hmem => h ?_⟩
  rw [trimEnd_line] at hmem
  exact mem_of_mem_stripLast hmem

end Lines

namespace Intake

/-- What an intake can become: it takes its steps, whatever the time, and the failures for which it waits are
accepted. -/
inductive Becomes (i : Intake) : Intake → Prop
  | refl : Becomes i i
  | step {j : Intake} (h : Becomes i j) (now : Instant) : Becomes i (j.step now)
  | accepted {j : Intake} (h : Becomes i j) {f : InputFailure} (hp : j.phase = .reporting f) : Becomes i j.accepted

/-- What an intake has in hand has no line feed but at the end of a line. -/
def OneLine : IntakePhase → Prop
  | .reading pieces => 0x0A ∉ pieces.flatten
  | .judging line => 0x0A ∉ Lines.trimEnd line
  | _ => True

/-- What an intake `i` that began as `i₀` has written: these lines, and of one more line only `cut`, if the output has
failed at it. -/
structure Written (i₀ : Intake) (lines : List Bytes) (cut : Bytes) (i : Intake) : Prop where
  written : i.output.written = i₀.output.written ++ lines.flatMap (· ++ [0x0A]) ++ cut
  /-- The lines are those that have been counted. -/
  forwarded : i.stats.forwarded = i₀.stats.forwarded + lines.length
  json : ∀ line ∈ lines, Lines.IsJson line
  cut : cut = [] ∨
    i.phase = .finished (.error i.output.whenFull) ∧
      ∃ line, Lines.IsJson line ∧ cut <+: line ++ [0x0A] ∧ cut ≠ line ++ [0x0A]

variable {i₀ i i' : Intake} {lines : List Bytes} {cut : Bytes} {now : Instant}

theorem Becomes.runFor (h : i₀.Becomes i) (now : Instant) (steps : Nat) : i₀.Becomes (runFor now steps i).1 := by
  induction steps generalizing i with
  | zero => exact h
  | succ steps ih =>
    rw [Intake.runFor]
    split
    · exact h
    · next f hp => exact ih (h.accepted hp)
    · exact ih (h.step now)

/-- An intake becomes what a run of it leaves. -/
theorem becomes_run (now : Instant) (i : Intake) : i.Becomes (i.run now).1 := .runFor .refl now _

namespace Written

theorem cut_eq_nil (h : Written i₀ lines cut i) (hp : ∀ r, i.phase ≠ .finished r) : cut = [] :=
  h.cut.resolve_right fun hfull => hp _ hfull.1

/-- Nothing is written where a move keeps the output. -/
private theorem of_quiet (h : Written i₀ lines [] i) (ho : i'.output = i.output)
    (hs : i'.stats.forwarded = i.stats.forwarded) : Written i₀ lines [] i' where
  written := ho ▸ h.written
  forwarded := hs.trans h.forwarded
  json := h.json
  cut := .inl rfl

/-- A line that goes on is written with its line feed, or in part where the output fails. -/
private theorem forward (h : Written i₀ lines [] i) {line : Bytes} (hline : Lines.IsJson line) :
    ∃ lines' cut', Written i₀ lines' cut' (i.forward line) ∧ OneLine (i.forward line).phase := by
  unfold Intake.forward
  cases hput : i.output.putLine line with
  | mk output fault =>
    obtain ⟨hfull, ⟨rfl, hw⟩ | ⟨rfl, cut, hcut, hne, hw⟩⟩ := Output.written_putLine hput
    · refine ⟨lines ++ [line], [], ⟨?_, ?_, ?_, .inl rfl⟩, trivial⟩
      · simp only [hw, h.written, List.flatMap_append, List.flatMap_singleton, List.append_nil, List.append_assoc]
      · simp only [h.forwarded, List.length_append, List.length_singleton, Nat.add_assoc]
      · intro l hl
        rcases List.mem_append.1 hl with hl | hl
        · exact h.json l hl
        · exact List.mem_singleton.1 hl ▸ hline
    · refine ⟨lines, cut, ⟨?_, h.forwarded, h.json, .inr ⟨?_, line, hline, hcut, hne⟩⟩, trivial⟩
      · simp only [hw, h.written, List.append_nil]
      · simp only [hfull]

/-- What has been read of a line at the end of the input has no line feed. -/
private theorem atEnd (h : Written i₀ lines [] i) {pieces : List Bytes} (hone : 0x0A ∉ pieces.flatten) :
    Written i₀ lines [] (i.atEnd pieces) ∧ OneLine (i.atEnd pieces).phase := by
  have hno : 0x0A ∉ pieces.reverse.flatten := by simpa using hone
  unfold Intake.atEnd
  split
  · exact ⟨h.of_quiet rfl rfl, trivial⟩
  · exact ⟨h.of_quiet rfl rfl, (Lines.not_mem_trimEnd hno).1⟩

/-- A move writes one line at most, and that one is JSON. -/
private theorem move (h : Written i₀ lines [] i) (hone : OneLine i.phase) (hm : Move now i i') :
    ∃ lines' cut', Written i₀ lines' cut' i' ∧ OneLine i'.phase := by
  cases hm with
  | close hp hs => exact ⟨lines, [], h.of_quiet rfl rfl, trivial⟩
  | begin hp hs => exact ⟨lines, [], h.of_quiet rfl rfl, nofun⟩
  | complete pieces line rest hp hb hl =>
    rw [hp] at hone
    have hno : 0x0A ∉ pieces.reverse.flatten ++ line := by
      rw [List.mem_append]
      rintro (hmem | hmem)
      · exact hone (by simpa using hmem)
      · exact hl hmem
    refine ⟨lines, [], h.of_quiet rfl rfl, ?_⟩
    rw [← List.append_assoc]
    exact (Lines.not_mem_trimEnd hno).2
  | look pieces hp hb hl =>
    rw [hp] at hone
    refine ⟨lines, [], h.of_quiet rfl rfl, ?_⟩
    simpa [OneLine, hl] using hone
  | arrive pieces octets shutdown rest hp hb ha hne =>
    rw [hp] at hone
    exact ⟨lines, [], h.of_quiet rfl rfl, hone⟩
  | findEnd pieces shutdown rest hp hb ha =>
    rw [hp] at hone
    have hread : Written i₀ lines [] { i with feed.arrivals := rest, shutdown := i.shutdown || shutdown } :=
      h.of_quiet rfl rfl
    exact ⟨lines, [], hread.atEnd hone⟩
  | wait pieces shutdown rest hp hb ha hs =>
    rw [hp] at hone
    exact ⟨lines, [], h.of_quiet rfl rfl, hone⟩
  | abandon pieces shutdown rest hp hb ha hs => exact ⟨lines, [], h.of_quiet rfl rfl, trivial⟩
  | exhaust pieces hp hb ha hq =>
    rw [hp] at hone
    exact ⟨lines, [], h.atEnd hone⟩
  | «break» pieces hp hb ha hq => exact ⟨lines, [], h.of_quiet rfl rfl, trivial⟩
  | skip line hp hblank => exact ⟨lines, [], h.of_quiet rfl rfl, trivial⟩
  | forward line hp hblank hok =>
    rw [hp] at hone
    exact h.forward (Lines.isJson_of_decodes hok hone)
  | report line fault hp hblank hf => exact ⟨lines, [], h.of_quiet rfl rfl, trivial⟩
  | flush hp => exact ⟨lines, [], h.of_quiet rfl rfl, trivial⟩
  | rest hr => exact ⟨lines, [], h, hone⟩

theorem step (h : Written i₀ lines cut i) (hone : OneLine i.phase) (now : Instant) :
    ∃ lines' cut', Written i₀ lines' cut' (i.step now) ∧ OneLine (i.step now).phase := by
  by_cases hf : ∃ r, i.phase = .finished r
  · obtain ⟨r, hp⟩ := hf
    have hstays : i.step now = i := by simp [Intake.step, hp]
    rw [hstays]
    exact ⟨lines, cut, h, hone⟩
  · obtain rfl := h.cut_eq_nil (not_exists.1 hf)
    exact h.move hone (step_move now i)

theorem accepted (h : Written i₀ lines cut i) {f : InputFailure} (hp : i.phase = .reporting f) :
    Written i₀ lines cut i.accepted := by
  obtain rfl := h.cut_eq_nil (by simp [hp])
  exact h.of_quiet rfl rfl

end Written

/-- Whatever an intake becomes, all that it has written are lines of JSON, and of one more line a part if its output
failed at it. -/
theorem only_json_is_written (h : i₀.phase = .turn) (hi : i₀.Becomes i) : ∃ lines cut, Written i₀ lines cut i := by
  have hinv : ∃ lines cut, Written i₀ lines cut i ∧ OneLine i.phase := by
    induction hi with
    | refl =>
      refine ⟨[], [], ⟨by simp, rfl, nofun, .inl rfl⟩, ?_⟩
      rw [h]
      trivial
    | step _ now ih =>
      obtain ⟨lines, cut, hw, hone⟩ := ih
      exact hw.step hone now
    | accepted _ hp ih =>
      obtain ⟨lines, cut, hw, -⟩ := ih
      exact ⟨lines, cut, hw.accepted hp, trivial⟩
  obtain ⟨lines, cut, hw, -⟩ := hinv
  exact ⟨lines, cut, hw⟩

/-- Where there is no room for the second number, its bracket is the part of a line. -/
theorem only_json_is_written_to_the_bracket :
    brokenSource.phase = .turn ∧ brokenSource.Becomes (brokenSource.run ⟨0, 0⟩).1 ∧
      (brokenSource.run ⟨0, 0⟩).1.output.written = Utf8.encode "1\n[" ∧
      ∃ lines cut, Written brokenSource lines cut (brokenSource.run ⟨0, 0⟩).1 :=
  ⟨rfl, becomes_run _ _, by decide +kernel, only_json_is_written rfl (becomes_run _ _)⟩

end Intake

end FailurePipeline
