import FailurePipeline.Proofs.Intake.Lines

/-!
# What a step of an intake can be

Every step of an intake is one of the `Intake.Move`s, each with what it found.  What holds of all steps is proved
move by move and never opens the step function itself.
-/

namespace FailurePipeline

namespace Intake

/-- A step of an intake. -/
inductive Move (now : Instant) (i : Intake) : Intake → Prop
  | close (h : i.phase = .turn) (hs : i.shutdown = true) : Move now i { i with phase := .flushing }
  | begin (h : i.phase = .turn) (hs : i.shutdown = false) : Move now i { i with phase := .reading [] }
  | complete (pieces : List Bytes) (line rest : Bytes) (h : i.phase = .reading pieces)
    (hb : i.buffered = line ++ 0x0A :: rest) (hl : 0x0A ∉ line) :
    Move now i { i with buffered := rest, phase := .judging (pieces.reverse.flatten ++ (line ++ [0x0A])) }
  | look (pieces : List Bytes) (h : i.phase = .reading pieces) (hb : i.buffered ≠ []) (hl : 0x0A ∉ i.buffered) :
    Move now i { i with buffered := [], phase := .reading (i.buffered :: pieces) }
  | arrive (pieces : List Bytes) (octets : Bytes) (shutdown : Bool) (rest : List Arrival)
    (h : i.phase = .reading pieces) (hb : i.buffered = []) (ha : i.feed.arrivals = .read octets shutdown :: rest)
    (hne : octets ≠ []) :
    Move now i
      { i with
        feed.arrivals := rest
        shutdown := i.shutdown || shutdown
        buffered := octets
        phase := .reading pieces }
  | findEnd (pieces : List Bytes) (shutdown : Bool) (rest : List Arrival) (h : i.phase = .reading pieces)
    (hb : i.buffered = []) (ha : i.feed.arrivals = .read [] shutdown :: rest) :
    Move now i ({ i with feed.arrivals := rest, shutdown := i.shutdown || shutdown }.atEnd pieces)
  | wait (pieces : List Bytes) (shutdown : Bool) (rest : List Arrival) (h : i.phase = .reading pieces)
    (hb : i.buffered = []) (ha : i.feed.arrivals = .silence shutdown :: rest) (hs : (i.shutdown || shutdown) = false) :
    Move now i { i with feed.arrivals := rest, shutdown := false, phase := .reading pieces }
  | abandon (pieces : List Bytes) (shutdown : Bool) (rest : List Arrival) (h : i.phase = .reading pieces)
    (hb : i.buffered = []) (ha : i.feed.arrivals = .silence shutdown :: rest) (hs : (i.shutdown || shutdown) = true) :
    Move now i { i with feed.arrivals := rest, shutdown := true, phase := .flushing }
  | exhaust (pieces : List Bytes) (h : i.phase = .reading pieces) (hb : i.buffered = [])
    (ha : i.feed.arrivals = []) (hq : i.feed.sequel = .endOfInput) : Move now i (i.atEnd pieces)
  | break (pieces : List Bytes) (h : i.phase = .reading pieces) (hb : i.buffered = [])
    (ha : i.feed.arrivals = []) (hq : i.feed.sequel = .fault) :
    Move now i { i with phase := .finished (.error .read) }
  | skip (line : Bytes) (h : i.phase = .judging line) (hblank : Blank.isBlankLine (Lines.trimEnd line) = true) :
    Move now i { i with phase := .turn }
  | forward (line : Bytes) (h : i.phase = .judging line) (hblank : Blank.isBlankLine (Lines.trimEnd line) = false)
    (hok : Lines.decodes (Lines.trimEnd line) = true) : Move now i (i.forward (Lines.trimEnd line))
  | report (line : Bytes) (fault : Json.Fault) (h : i.phase = .judging line)
    (hblank : Blank.isBlankLine (Lines.trimEnd line) = false)
    (hf : Json.read (Lines.trimEnd line) = .error fault) :
    Move now i { i with phase := .reporting (failureOf i.inputId now (Lines.trimEnd line) fault) }
  | flush (h : i.phase = .flushing) :
    Move now i { i with phase := .finished (if i.output.flushFails then .error .flush else .ok i.stats) }
  | rest (h : (∃ f, i.phase = .reporting f) ∨ (∃ r, i.phase = .finished r) ∨ i.feed.sequel = .unknown) : Move now i i

variable {now : Instant} {i : Intake}

private theorem await_move {pieces : List Bytes} (h : i.phase = .reading pieces) (hb : i.buffered = []) :
    Move now i (i.await pieces) := by
  unfold await
  split
  · next octets shutdown rest ha =>
    simp only
    split
    · next hempty =>
      rw [List.isEmpty_iff.1 hempty] at ha
      exact .findEnd pieces shutdown rest h hb ha
    · next hne => exact .arrive pieces octets shutdown rest h hb ha (by simpa using hne)
  · next shutdown rest ha =>
    simp only
    split
    · next hs =>
      have hmove := @Move.abandon now i pieces shutdown rest h hb ha hs
      rwa [hs]
    · next hs =>
      have hno : (i.shutdown || shutdown) = false := by simpa using hs
      have hmove := @Move.wait now i pieces shutdown rest h hb ha hno
      rwa [hno]
  · next ha =>
    split
    · next hq => exact .exhaust pieces h hb ha hq
    · next hq => exact .break pieces h hb ha hq
    · next hq => exact .rest (.inr (.inr hq))

private theorem judge_move {line : Bytes} (h : i.phase = .judging line) : Move now i (i.judge now line) := by
  simp only [judge]
  split
  · next hblank => exact .skip line h hblank
  · next hblank =>
    have hno : Blank.isBlankLine (Lines.trimEnd line) = false := by simpa using hblank
    split
    · next v hv => exact .forward line h hno (by simp [Lines.decodes, hv])
    · next fault hf => exact .report line fault h hno hf

theorem step_move (now : Instant) (i : Intake) : Move now i (i.step now) := by
  unfold step
  split
  · next h =>
    split
    · next hs => exact .close h hs
    · next hs => exact .begin h (by simpa using hs)
  · next pieces h =>
    split
    · next hb => exact await_move h (List.isEmpty_iff.1 hb)
    · next hb =>
      split
      · next head rest hsplit =>
        obtain ⟨line, hl, rfl, hbuffered⟩ := Lines.split?_eq_some hsplit
        have hmove := @Move.complete now i pieces line rest h hbuffered hl
        simpa using hmove
      · next hsplit => exact .look pieces h (by simpa using hb) (Lines.split?_eq_none hsplit)
  · next line h => exact judge_move h
  · next f h => exact .rest (.inl ⟨f, h⟩)
  · next h => exact .flush h
  · next r h => exact .rest (.inr (.inl ⟨r, h⟩))

end Intake

end FailurePipeline
