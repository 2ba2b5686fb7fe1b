import FailurePipeline.Proofs.Intake.JsonLines
import FailurePipeline.Proofs.Json.Grammar.Range

/-!
# Which documents are diverted

A line that is a document goes on as it is if the document keeps to the limits of the reader, whatever stands around
it.  Any other document is taken for a line that is not JSON: it is reported and not written
(`Intake.diverted_beyond_limits`).  A document that keeps to the limits is not reported in any course
(`Intake.Becomes.reporting`).
-/

namespace FailurePipeline

namespace Json.Document

variable {t : Document}

/-- A document is more than blanks. -/
theorem isBlankLine_octets (t : Document) : Blank.isBlankLine t.octets = false := by
  obtain ⟨b, s, hs, hb⟩ := t.value.exists_visible
  have hmem : b ∈ t.octets := by
    rw [octets, chars, Utf8.encodeChars_append, Utf8.encodeChars_append, hs]
    simp
  have hvisible : Blank.isAsciiSpace b = false := by
    simp only [Blank.isAsciiSpace, Bool.or_eq_false_iff, beq_eq_false_iff_ne, ne_eq, ← UInt8.toNat_inj,
      UInt8.reduceToNat]
    omega
  rw [Blank.isBlankLine, List.all_eq_false]
  exact ⟨b, hmem, by simp [hvisible]⟩

end Json.Document

namespace Lines

variable {line : Bytes} {t : Json.Document} (inputId : String) (now : Instant)

/-- A document within the limits is written as it is. -/
theorem fate_of_withinLimits (hline : trimEnd line = t.octets) (ht : t.WithinLimits) :
    output [line] = t.octets ++ [0x0A] ∧ reports inputId now [line] = [] := by
  cases Intake.Outcome.fate inputId now line with
  | blank hblank =>
    rw [hline, t.isBlankLine_octets] at hblank
    exact absurd hblank Bool.false_ne_true
  | decoded hblank hok hdecoded hundecodable houtput hreports => exact ⟨hline ▸ houtput, hreports⟩
  | undecodable fault hblank hf =>
    have hok := t.decodes_octets.2 ht
    rw [← hline, decodes, hf] at hok
    exact absurd hok Bool.false_ne_true

/-- Any other document is reported. -/
theorem fate_of_not_withinLimits (hline : trimEnd line = t.octets) (ht : ¬t.WithinLimits) :
    output [line] = [] ∧
      ∃ fault, reports inputId now [line] = [Intake.failureOf inputId now t.octets fault] := by
  cases Intake.Outcome.fate inputId now line with
  | blank hblank =>
    rw [hline, t.isBlankLine_octets] at hblank
    exact absurd hblank Bool.false_ne_true
  | decoded hblank hok => exact absurd (t.decodes_octets.1 (hline ▸ hok)) ht
  | undecodable fault hblank hf hdecoded hundecodable houtput hreports => exact ⟨houtput, fault, hline ▸ hreports⟩

end Lines

namespace Intake

variable {i₀ i i' : Intake} {now : Instant} {f : InputFailure}

/-- A line that begins to be reported cannot be read. -/
private theorem reporting_of_move (hm : Move now i i') (hp : i'.phase = .reporting f) :
    i.phase = .reporting f ∨ Lines.decodes f.raw = false := by
  cases hm with
  | report line fault h hblank hf =>
    cases hp
    exact .inr (by simp [failureOf, Lines.decodes, hf])
  | rest h => exact .inl hp
  | findEnd | exhaust =>
    unfold atEnd at hp
    split at hp <;> cases hp
  | forward line h hblank hok =>
    unfold forward at hp
    split at hp
    split at hp <;> cases hp
  | _ => cases hp

/-- Whatever an intake becomes, what it reports is not a document within the limits. -/
theorem Becomes.reporting (h : i₀.Becomes i) (h₀ : i₀.phase = .turn) (hp : i.phase = .reporting f)
    (t : Json.Document) (hraw : f.raw = t.octets) : ¬t.WithinLimits := by
  have hno : Lines.decodes f.raw = false := by
    induction h with
    | refl => cases h₀.symm.trans hp
    | @step j hj now ih =>
      rcases reporting_of_move (step_move now j) hp with hq | hno
      · exact ih hq
      · exact hno
    | accepted => cases hp
  intro ht
  rw [hraw, t.decodes_octets.2 ht] at hno
  exact Bool.false_ne_true hno.symm

/-- In a run without faults a line that is a document is written as it is, if it keeps to the limits of the reader,
and else is reported and left out. -/
theorem diverted_beyond_limits (h : i.Faultless) (now : Instant) :
    ∃ o, i.outcome? now = some o ∧
      ∀ (before after : List Bytes) (line : Bytes) (t : Json.Document),
        Lines.ofBytes i.unread = before ++ line :: after → Lines.trimEnd line = t.octets →
          (t.WithinLimits →
            o.written = Lines.output before ++ (t.octets ++ [0x0A]) ++ Lines.output after ∧
              o.failures = Lines.reports i.inputId now before ++ Lines.reports i.inputId now after) ∧
          (¬t.WithinLimits →
            o.written = Lines.output before ++ Lines.output after ∧
              ∃ fault, o.failures = Lines.reports i.inputId now before ++
                failureOf i.inputId now t.octets fault :: Lines.reports i.inputId now after) := by
  refine ⟨_, h.outcome_eq now, fun before after line t hlines hline => ?_⟩
  rw [hlines, Lines.output_append, Lines.reports_append, Lines.output_cons, Lines.reports_cons]
  constructor
  · intro ht
    obtain ⟨hw, hr⟩ := Lines.fate_of_withinLimits i.inputId now hline ht
    simp [hw, hr]
  · intro ht
    obtain ⟨hw, fault, hr⟩ := Lines.fate_of_not_withinLimits i.inputId now hline ht
    exact ⟨by rw [hw, List.nil_append], fault, by rw [hr, List.singleton_append]⟩

/-- The document ` 1e400`. -/
def largeDocument : Json.Document where
  before := [.space]
  value := .number
    { negative := false
      whole := .single ⟨1, by decide⟩
      fraction := none
      exponent := some ⟨false, none, ⟨⟨4, by decide⟩, [⟨0, by decide⟩, ⟨0, by decide⟩]⟩⟩ }
  after := []

theorem not_withinLimits_largeDocument : ¬largeDocument.WithinLimits := by
  refine Json.Document.not_withinLimits_of_le (.inr (.inl ⟨_, List.mem_cons_self, ?_, ?_⟩))
  · rintro e ⟨⟩
    decide
  · have hsize : (18 * 10 ^ 307 : ℚ) ≤ (1 : Nat) * 10 ^ (400 : Int) := by
      rw [zpow_ofNat]
      exact_mod_cast (by decide +kernel : 18 * 10 ^ 307 ≤ 1 * 10 ^ 400)
    exact hsize

/-- That document between two others. -/
def largeNumber : Intake := ofReads "stdin" [Utf8.encode "[1]\n 1e400\n[2]"]

/-- Only the large number is missing from the output. -/
theorem diverted_beyond_limits_in_largeNumber :
    largeNumber.Faultless ∧ ¬largeDocument.WithinLimits ∧ ∃ o, largeNumber.outcome? ⟨0, 0⟩ = some o ∧
      o.written = Utf8.encode "[1]\n[2]\n" ∧ o.failures.map (·.raw) = [largeDocument.octets] := by
  have hfaultless : largeNumber.Faultless := faultless_ofReads "stdin" (by decide +kernel)
  have hlines : Lines.ofBytes largeNumber.unread =
      [Utf8.encode "[1]\n"] ++ Utf8.encode " 1e400\n" :: [Utf8.encode "[2]"] := by decide +kernel
  have hline : Lines.trimEnd (Utf8.encode " 1e400\n") = largeDocument.octets := by decide +kernel
  obtain ⟨o, ho, hall⟩ := diverted_beyond_limits hfaultless ⟨0, 0⟩
  obtain ⟨hwritten, fault, hfailures⟩ := (hall _ _ _ _ hlines hline).2 not_withinLimits_largeDocument
  refine ⟨hfaultless, not_withinLimits_largeDocument, o, ho, ?_, ?_⟩
  · rw [hwritten]
    decide +kernel
  · have hbefore : Lines.reports largeNumber.inputId ⟨0, 0⟩ [Utf8.encode "[1]\n"] = [] := by decide +kernel
    have hafter : Lines.reports largeNumber.inputId ⟨0, 0⟩ [Utf8.encode "[2]"] = [] := by decide +kernel
    rw [hfailures, hbefore, hafter]
    rfl

/-- Arrays within arrays. -/
def nested : Nat → Json.Tree
  | 0 => .emptyArray []
  | n + 1 => .array (.last [] (nested n) [])

/-- One document beyond each limit: 128 arrays, a large number, and half a surrogate pair. -/
def beyondLimits : List Json.Document :=
  [⟨[], nested 127, []⟩, largeDocument,
    ⟨[], .string [.unicode ⟨⟨13, false⟩, ⟨8, false⟩, ⟨0, false⟩, ⟨0, false⟩⟩], []⟩]

/-- These documents, each on its line. -/
def onlyDocuments : Intake := ofReads "stdin" [beyondLimits.flatMap (·.octets ++ [0x0A])]

/-- Each of them is diverted, although it is a document. -/
theorem documents_are_diverted :
    onlyDocuments.Faultless ∧ onlyDocuments.unread = beyondLimits.flatMap (·.octets ++ [0x0A]) ∧
      ∃ o, onlyDocuments.outcome? ⟨0, 0⟩ = some o ∧ o.written = [] ∧
        o.failures.map (·.raw) = beyondLimits.map (·.octets) := by
  have hfaultless : onlyDocuments.Faultless := faultless_ofReads "stdin" (by decide +kernel)
  refine ⟨hfaultless, by decide +kernel, _, hfaultless.outcome_eq ⟨0, 0⟩, ?_, ?_⟩ <;> decide +kernel

end Intake

end FailurePipeline
