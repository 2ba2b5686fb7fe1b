import FailurePipeline.Proofs.Intake.Diverting

/-!
# The output can be read again

What an intake writes is input for another one, which takes every line of it for what the first one took it for.  The
lines are the same but for one carriage return that each may lose at its end, since there it counts as a part of the
line's end; a document does not end in one that matters (`Json.read_stripLast`).
-/

namespace FailurePipeline

namespace Json

/-! ### The end of a document -/

/-- A text whose last character is no blank of any kind. -/
private def EndsVisibly (cs : List Char) : Prop := ∃ init c, cs = init ++ [c] ∧ 0x20 < c.toNat

private theorem EndsVisibly.append {cs : List Char} (h : EndsVisibly cs) (before : List Char) :
    EndsVisibly (before ++ cs) := by
  obtain ⟨init, c, rfl, hc⟩ := h
  exact ⟨before ++ init, c, (List.append_assoc ..).symm, hc⟩

private theorem Figures.endsVisibly (f : Figures) : EndsVisibly f.chars := by
  have hdigit : ∀ d : Fin 10, 0x20 < (Nat.digitChar d).toNat := by decide
  have hne : f.digits ≠ [] := List.cons_ne_nil _ _
  refine ⟨f.digits.dropLast.map fun d : Fin 10 => Nat.digitChar d, _, ?_, hdigit (f.digits.getLast hne)⟩
  rw [Figures.chars]
  conv_lhs => rw [← List.dropLast_append_getLast hne]
  rw [List.map_append, List.map_singleton]

private theorem Numeral.endsVisibly (n : Numeral) : EndsVisibly n.chars := by
  have hunsigned : EndsVisibly n.unsigned := by
    unfold Numeral.unsigned Numeral.exponentChars
    cases n.exponent with
    | some e => exact (e.figures.endsVisibly.append _).append _
    | none =>
      rw [List.append_nil]
      unfold Numeral.fractionChars
      cases n.fraction with
      | some f => exact (f.endsVisibly.append ['.']).append _
      | none =>
        rw [List.append_nil]
        exact n.whole.endsVisibly
  unfold Numeral.chars
  split
  · exact hunsigned.append ['-']
  · exact hunsigned

private theorem Tree.endsVisibly (t : Tree) : EndsVisibly t.chars := by
  have hclose : ∀ (cs : List Char) {c : Char}, 0x20 < c.toNat → EndsVisibly (cs ++ [c]) :=
    fun cs c hc => ⟨cs, c, rfl, hc⟩
  cases t with
  | word w =>
    cases w with
    | null => exact hclose ['n', 'u', 'l'] (by decide)
    | true => exact hclose ['t', 'r', 'u'] (by decide)
    | false => exact hclose ['f', 'a', 'l', 's'] (by decide)
  | number n => exact n.endsVisibly
  | string ps => exact hclose _ (by decide)
  | emptyArray inside => exact hclose _ (by decide)
  | array items => exact hclose _ (by decide)
  | emptyObject inside => exact hclose _ (by decide)
  | object members => exact hclose _ (by decide)

/-- A carriage return at the end of a document is the last of the blanks after its value. -/
private theorem exists_after {t : Document} {s : Bytes} (h : t.octets = s ++ [0x0D]) :
    ∃ after, s = Document.octets ⟨t.before, t.value, after⟩ := by
  obtain ⟨before, value, after⟩ := t
  rcases List.eq_nil_or_concat after with rfl | ⟨init, b, rfl⟩
  · obtain ⟨cs, c, hcs, hc⟩ := value.endsVisibly
    have htext : Document.octets ⟨before, value, []⟩ =
        Utf8.encodeChars (before.chars ++ cs) ++ Utf8.encodeChars [c] := by
      simp [Document.octets, Document.chars, Gap.chars, hcs, Utf8.encodeChars]
    have hne : Utf8.encodeChars [c] ≠ [] := by
      obtain ⟨o, r, ho, -⟩ := Utf8.utf8EncodeChar_eq_cons c
      simp [Utf8.encodeChars, ho]
    have hlast : (Utf8.encodeChars [c]).getLast? = some 0x0D := by
      have hends := congrArg List.getLast? (htext.symm.trans h)
      rwa [List.getLast?_concat, List.getLast?_append_of_ne_nil _ hne] at hends
    have hmem := Utf8.mem_of_mem_encodeChars (by decide) (List.mem_of_getLast? hlast)
    simp at hmem
    subst hmem
    exact absurd hc (by decide)
  · refine ⟨init, ?_⟩
    have hspace : ∃ o, String.utf8EncodeChar b.char = [o] := by cases b <;> exact ⟨_, rfl⟩
    obtain ⟨o, ho⟩ := hspace
    have htext : Document.octets ⟨before, value, init ++ [b]⟩ = Document.octets ⟨before, value, init⟩ ++ [o] := by
      simp [Document.octets, Document.chars, Gap.chars, Utf8.encodeChars, ho]
    rw [List.concat_eq_append, htext] at h
    exact (List.append_inj' h rfl).1.symm

variable {line : Bytes}

/-- A document means the same without a carriage return at its end. -/
theorem read_stripLast (h : Lines.decodes line = true) : read (Lines.stripLast 0x0D line) = read line := by
  unfold Lines.stripLast
  split
  · next hlast =>
    cases hread : read line with
    | error fault => simp [Lines.decodes, hread] at h
    | ok v =>
      obtain ⟨t, rfl, hv⟩ := document_of_read hread
      obtain ⟨after, hafter⟩ := exists_after (List.dropLast_append_getLast? _ hlast).symm
      have hsame := read_document ⟨t.before, t.value, after⟩
      rw [← hafter, hv] at hsame
      cases hless : read t.octets.dropLast with
      | ok w => simpa [hless, Except.toOption] using hsame
      | error fault => simp [hless, Except.toOption] at hsame
  · rfl

end Json

namespace Lines

variable {line : Bytes} {lines : List Bytes}

/-! ### What is written, as lines -/

private theorem exists_of_mem_ofBytes {s : Bytes} (h : line ∈ ofBytes s) :
    ∃ l, 0x0A ∉ l ∧ (line = l ∨ line = l ++ [0x0A]) := by
  induction s generalizing line with
  | nil => cases h
  | cons b s ih =>
    rw [ofBytes] at h
    split at h
    · next hb =>
      rcases List.mem_cons.1 h with rfl | h
      · exact ⟨[], List.not_mem_nil, .inr (by rw [hb]; rfl)⟩
      · exact ih h
    · next hb =>
      have hcons : ∀ l : Bytes, 0x0A ∉ l → 0x0A ∉ b :: l :=
        fun l hl hmem => (List.mem_cons.1 hmem).elim (fun heq => hb heq.symm) hl
      split at h
      · obtain rfl := List.mem_singleton.1 h
        exact ⟨[b], hcons [] List.not_mem_nil, .inl rfl⟩
      · next first rest hrest =>
        rcases List.mem_cons.1 h with rfl | h
        · obtain ⟨l, hl, hfirst⟩ := ih (hrest ▸ List.mem_cons_self)
          refine ⟨b :: l, hcons l hl, ?_⟩
          rcases hfirst with hfirst | hfirst
          · exact .inl (by rw [hfirst])
          · exact .inr (by rw [hfirst, List.cons_append])
        · exact ih (hrest ▸ List.mem_cons_of_mem _ h)

/-- What goes on of an input are lines that can be read. -/
theorem of_mem_decoded {s : Bytes} (h : line ∈ decoded (ofBytes s)) : 0x0A ∉ line ∧ decodes line = true := by
  obtain ⟨hmem, hok⟩ := List.mem_filter.1 h
  obtain ⟨whole, hwhole, rfl⟩ := List.mem_map.1 (List.mem_filter.1 hmem).1
  obtain ⟨l, hl, rfl | rfl⟩ := exists_of_mem_ofBytes hwhole
  · exact ⟨(not_mem_trimEnd hl).1, hok⟩
  · exact ⟨(not_mem_trimEnd hl).2, hok⟩

theorem ofBytes_flatMap (h : ∀ line ∈ lines, 0x0A ∉ line) :
    ofBytes (lines.flatMap (· ++ [0x0A])) = lines.map (· ++ [0x0A]) := by
  induction lines with
  | nil => rfl
  | cons line lines ih =>
    obtain ⟨hline, hrest⟩ := List.forall_mem_cons.1 h
    rw [List.flatMap_cons, List.append_assoc, List.singleton_append, ofBytes_line hline, ih hrest, List.map_cons]

/-- A line that can be read is not blank. -/
theorem isBlankLine_of_decodes (h : decodes line = true) : Blank.isBlankLine line = false := by
  obtain ⟨t, rfl, -⟩ := decodes_iff.1 h
  exact t.isBlankLine_octets

theorem exists_read (h : decodes line = true) : ∃ v, Json.read line = .ok v := by
  cases hread : Json.read line with
  | ok v => exact ⟨v, rfl⟩
  | error fault => simp [decodes, hread] at h

theorem decodes_stripLast (h : decodes line = true) : decodes (stripLast 0x0D line) = true := by
  rwa [decodes, Json.read_stripLast h]

/-- Read again, lines that can be read lose one carriage return each. -/
theorem contents_map (h : ∀ line ∈ lines, decodes line = true) :
    contents (lines.map (· ++ [0x0A])) = lines.map (stripLast 0x0D) := by
  have htrim : (lines.map (· ++ [0x0A])).map trimEnd = lines.map (stripLast 0x0D) := by
    rw [List.map_map]
    exact List.map_congr_left fun line _ => trimEnd_line
  rw [contents, htrim, List.filter_eq_self]
  intro line hline
  obtain ⟨l, hl, rfl⟩ := List.mem_map.1 hline
  rw [isBlankLine_of_decodes (decodes_stripLast (h l hl)), Bool.not_false]

/-- Read again, every line that can be read goes on and none is reported. -/
theorem fate_map (h : ∀ line ∈ lines, decodes line = true) (inputId : String) (now : Instant) :
    decoded (lines.map (· ++ [0x0A])) = lines.map (stripLast 0x0D) ∧
      undecodable (lines.map (· ++ [0x0A])) = [] ∧ reports inputId now (lines.map (· ++ [0x0A])) = [] := by
  have hall : ∀ line ∈ lines.map (stripLast 0x0D), decodes line = true := by
    intro line hline
    obtain ⟨l, hl, rfl⟩ := List.mem_map.1 hline
    exact decodes_stripLast (h l hl)
  rw [decoded, undecodable, reports, contents_map h]
  refine ⟨List.filter_eq_self.2 hall, ?_, ?_⟩
  · rw [List.filter_eq_nil_iff]
    intro line hline
    simp [hall line hline]
  · rw [List.filterMap_eq_nil_iff]
    intro line hline
    obtain ⟨v, hv⟩ := exists_read (hall line hline)
    rw [report?, hv]

theorem stripLast_eq_self_iff {b : UInt8} : stripLast b line = line ↔ line.getLast? ≠ some b := by
  unfold stripLast
  split
  · next hlast =>
    refine ⟨fun h => ?_, fun h => absurd hlast h⟩
    have hlen := congrArg List.length h
    have hne : line ≠ [] := by rintro rfl; cases hlast
    have hpos := List.length_pos_iff.2 hne
    rw [List.length_dropLast] at hlen
    omega
  · next hlast => exact ⟨fun _ => hlast, fun _ => rfl⟩

/-- Lines stay as they are exactly if none of them ends in a carriage return. -/
theorem flatMap_stripLast_eq_iff (h : ∀ line ∈ lines, 0x0A ∉ line) :
    lines.flatMap (stripLast 0x0D · ++ [0x0A]) = lines.flatMap (· ++ [0x0A]) ↔
      ∀ line ∈ lines, line.getLast? ≠ some 0x0D := by
  have hstrip : ∀ line ∈ lines.map (stripLast 0x0D), 0x0A ∉ line := by
    intro line hline hmem
    obtain ⟨l, hl, rfl⟩ := List.mem_map.1 hline
    exact h l hl (mem_of_mem_stripLast hmem)
  constructor
  · intro heq line hline
    -- Equal octets are equal lines.
    have hlines := congrArg ofBytes heq
    rw [← List.flatMap_map (stripLast 0x0D) (· ++ [0x0A]), ofBytes_flatMap hstrip, ofBytes_flatMap h, List.map_map,
      List.map_inj_left] at hlines
    exact stripLast_eq_self_iff.1 (List.append_cancel_right (hlines line hline))
  · intro hends
    exact List.flatMap_congr fun line hline => by rw [stripLast_eq_self_iff.2 (hends line hline)]

end Lines

namespace Intake

/-- A run with outcome `p` on these lines, which are what a run with outcome `o` has written. -/
structure ReadAgain (lines : List Bytes) (o p : Outcome) : Prop where
  written : o.written = lines.flatMap (· ++ [0x0A])
  oneLine : ∀ line ∈ lines, 0x0A ∉ line
  /-- The first run has counted the lines. -/
  forwarded : ∃ failed, o.result = .ok ⟨lines.length, failed⟩
  /-- All of them go on again. -/
  again : p.result = .ok ⟨lines.length, 0⟩
  failures : p.failures = []
  /-- Each has lost one carriage return at its end, if it had any. -/
  rewritten : p.written = lines.flatMap (Lines.stripLast 0x0D · ++ [0x0A])
  /-- Each means what it meant. -/
  values : ∀ line ∈ lines, ∃ v, Json.read line = .ok v ∧ Json.read (Lines.stripLast 0x0D line) = .ok v
  /-- Nothing has changed exactly if there was nothing to lose. -/
  fixed : p.written = o.written ↔ ∀ line ∈ lines, line.getLast? ≠ some 0x0D

variable {i j : Intake}

/-- What a run without faults has written can be read again, by any run without faults. -/
theorem output_is_read_again (hi : i.Faultless) (now : Instant) :
    ∃ o, i.outcome? now = some o ∧ ∀ (j : Intake) (later : Instant), j.Faultless → j.unread = o.written →
      ∃ lines p, j.outcome? later = some p ∧ ReadAgain lines o p := by
  refine ⟨_, hi.outcome_eq now, fun j later hj hdata => ?_⟩
  let lines := Lines.decoded (Lines.ofBytes i.unread)
  have hone : ∀ line ∈ lines, 0x0A ∉ line := fun line hline => (Lines.of_mem_decoded hline).1
  have hok : ∀ line ∈ lines, Lines.decodes line = true := fun line hline => (Lines.of_mem_decoded hline).2
  have hagain : Lines.ofBytes j.unread = lines.map (· ++ [0x0A]) := by
    rw [hdata]
    exact Lines.ofBytes_flatMap hone
  obtain ⟨hdecoded, hundecodable, hreports⟩ := Lines.fate_map hok j.inputId later
  have hp := hj.outcome_eq later
  rw [hagain, Lines.output, hdecoded, hundecodable, hreports, List.length_map, List.flatMap_map] at hp
  refine ⟨lines, _, hp, ?_⟩
  exact {
    written := rfl
    oneLine := hone
    forwarded := ⟨_, rfl⟩
    again := rfl
    failures := rfl
    rewritten := rfl
    values := fun line hline => by
      obtain ⟨v, hv⟩ := Lines.exists_read (hok line hline)
      exact ⟨v, hv, (Json.read_stripLast (hok line hline)).trans hv⟩
    fixed := Lines.flatMap_stripLast_eq_iff hone }

/-- A number with two carriage returns at its end, a line that is not JSON, and an array. -/
def returnsAtEnd : Intake := ofReads "stdin" [Utf8.encode "1\r\r\nx\n\n[2]"]

/-- What is left of it, in two reads. -/
def oneReturnAtEnd : Intake := ofReads "again" [Utf8.encode "1\r", Utf8.encode "\n[2]\n"]

/-- The first run takes one carriage return and the second the other one. -/
theorem output_is_read_again_after_returnsAtEnd :
    returnsAtEnd.Faultless ∧ oneReturnAtEnd.Faultless ∧ ∃ o lines p, returnsAtEnd.outcome? ⟨0, 0⟩ = some o ∧
      oneReturnAtEnd.unread = o.written ∧ oneReturnAtEnd.outcome? ⟨1, 0⟩ = some p ∧ ReadAgain lines o p ∧
      p.written = Utf8.encode "1\n[2]\n" := by
  have hfirst : returnsAtEnd.Faultless := faultless_ofReads "stdin" (by decide +kernel)
  have hsecond : oneReturnAtEnd.Faultless := faultless_ofReads "again" (by decide +kernel)
  obtain ⟨o, ho, hall⟩ := output_is_read_again hfirst ⟨0, 0⟩
  have hw : (returnsAtEnd.outcome? ⟨0, 0⟩).map (·.written) = some oneReturnAtEnd.unread := by decide +kernel
  have hw' : (oneReturnAtEnd.outcome? ⟨1, 0⟩).map (·.written) = some (Utf8.encode "1\n[2]\n") := by decide +kernel
  rw [ho] at hw
  have hdata : oneReturnAtEnd.unread = o.written := (Option.some.inj hw).symm
  obtain ⟨lines, p, hp, hread⟩ := hall oneReturnAtEnd ⟨1, 0⟩ hsecond hdata
  rw [hp] at hw'
  exact ⟨hfirst, hsecond, o, lines, p, ho, hdata, hp, hread, Option.some.inj hw'⟩

end Intake

end FailurePipeline
