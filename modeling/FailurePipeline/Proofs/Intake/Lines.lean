import FailurePipeline.Intake.Machine
import Mathlib.Data.List.Basic
import Mathlib.Data.List.TakeWhile

/-!
# The lines of an input

`Lines.ofBytes` cuts octets into lines, whatever the reads in which they arrive.  A line without its end that is
not blank is either JSON, and then goes to the output, or it is not, and then is reported; `Lines.decoded` and
`Lines.undecodable` tell the two apart.
-/

namespace FailurePipeline

namespace Lines

/-- The lines of an input, each with its line feed, which only the last one may lack. -/
def ofBytes : Bytes → List Bytes
  | [] => []
  | b :: rest =>
    if b = 0x0A then [b] :: ofBytes rest
    else
      match ofBytes rest with
      | [] => [[b]]
      | line :: lines => (b :: line) :: lines

/-- Octets up to a line feed are the first line. -/
theorem ofBytes_line {s : Bytes} (hs : 0x0A ∉ s) (rest : Bytes) :
    ofBytes (s ++ 0x0A :: rest) = (s ++ [0x0A]) :: ofBytes rest := by
  induction s with
  | nil => simp [ofBytes]
  | cons b s ih =>
    have hb : b ≠ 0x0A := fun h => hs (by simp [h])
    have hs' : 0x0A ∉ s := fun h => hs (by simp [h])
    simp [ofBytes, hb, ih hs']

/-- Octets without a line feed are one line, if there are any. -/
theorem ofBytes_open {s : Bytes} (hs : 0x0A ∉ s) (hne : s ≠ []) : ofBytes s = [s] := by
  induction s with
  | nil => exact absurd rfl hne
  | cons b s ih =>
    have hb : b ≠ 0x0A := fun h => hs (by simp [h])
    have hs' : 0x0A ∉ s := fun h => hs (by simp [h])
    cases s with
    | nil => simp [ofBytes, hb]
    | cons c s =>
      rw [ofBytes, ih hs' (by simp)]
      simp [hb]

/-- Nothing is lost between two lines. -/
theorem flatten_ofBytes (s : Bytes) : (ofBytes s).flatten = s := by
  induction s with
  | nil => rfl
  | cons b s ih =>
    rw [ofBytes]
    split
    · simp [ih]
    · split
      · next hnil => simpa [hnil] using ih
      · next line lines hcons => simpa [hcons] using ih

theorem split?_eq_none {s : Bytes} (h : split? s = none) : 0x0A ∉ s := by
  unfold split? at h
  split at h
  · next hnil =>
    intro hmem
    have := List.dropWhile_eq_nil_iff.1 hnil _ hmem
    simp at this
  · simp at h

theorem split?_eq_some {s head rest : Bytes} (h : split? s = some (head, rest)) :
    ∃ line, 0x0A ∉ line ∧ head = line ++ [0x0A] ∧ s = line ++ 0x0A :: rest := by
  unfold split? at h
  split at h
  · simp at h
  · next b after hd =>
    simp only [Option.some.injEq, Prod.mk.injEq] at h
    obtain ⟨rfl, rfl⟩ := h
    have hb : b = 0x0A := by
      have := List.head?_dropWhile_not (· != 0x0A) s
      simpa [hd] using this
    subst hb
    refine ⟨s.takeWhile (· != 0x0A), fun hmem => ?_, rfl, ?_⟩
    · have := List.mem_takeWhile_imp hmem
      simp at this
    · rw [← hd, List.takeWhile_append_dropWhile]

/-! ### Ends of lines, and blank lines -/

theorem stripLast_concat (b : UInt8) (s : Bytes) : stripLast b (s ++ [b]) = s := by simp [stripLast]

theorem exists_eq_stripLast_append (b : UInt8) (s : Bytes) :
    ∃ ending, (ending = [] ∨ ending = [b]) ∧ s = stripLast b s ++ ending := by
  unfold stripLast
  split
  · next hlast => exact ⟨[b], .inr rfl, (List.dropLast_append_getLast? b hlast).symm⟩
  · exact ⟨[], .inl rfl, (List.append_nil s).symm⟩

theorem trimEnd_line {line : Bytes} : trimEnd (line ++ [0x0A]) = stripLast 0x0D line := by
  rw [trimEnd, stripLast_concat]

theorem trimEnd_crlf (line : Bytes) : trimEnd (line ++ [0x0D, 0x0A]) = line := by
  have hends : line ++ [0x0D, 0x0A] = line ++ [0x0D] ++ [0x0A] := by simp
  rw [hends, trimEnd_line, stripLast_concat]

/-- What is cut off is a line feed and one carriage return at most. -/
theorem exists_eq_trimEnd_append (line : Bytes) :
    ∃ ending ∈ [[], [0x0A], [0x0D], [0x0D, 0x0A]], line = trimEnd line ++ ending := by
  obtain ⟨feed, hfeed, hline⟩ := exists_eq_stripLast_append 0x0A line
  obtain ⟨ret, hret, hrest⟩ := exists_eq_stripLast_append 0x0D (stripLast 0x0A line)
  refine ⟨ret ++ feed, ?_, ?_⟩
  · rcases hfeed with rfl | rfl <;> rcases hret with rfl | rfl <;> simp
  · rw [trimEnd, ← List.append_assoc, ← hrest, ← hline]

theorem isBlankLine_iff {line : Bytes} :
    Blank.isBlankLine line = true ↔ ∀ b ∈ line, b ∈ [0x20, 0x09, 0x0A, 0x0C, 0x0D] := by
  simp [Blank.isBlankLine, Blank.isAsciiSpace, or_assoc]

/-- A line is as blank with its end as without. -/
theorem isBlankLine_trimEnd (line : Bytes) : Blank.isBlankLine (trimEnd line) = Blank.isBlankLine line := by
  obtain ⟨ending, hending, hline⟩ := exists_eq_trimEnd_append line
  have hblank : Blank.isBlankLine ending = true := by
    simp only [List.mem_cons, List.not_mem_nil, or_false] at hending
    rcases hending with rfl | rfl | rfl | rfl <;> rfl
  calc Blank.isBlankLine (trimEnd line)
      = (Blank.isBlankLine (trimEnd line) && Blank.isBlankLine ending) := by rw [hblank, Bool.and_true]
    _ = Blank.isBlankLine (trimEnd line ++ ending) := List.all_append.symm
    _ = Blank.isBlankLine line := by rw [← hline]

/-! ### What becomes of lines -/

/-- The lines without their ends, but for the blank ones. -/
def contents (lines : List Bytes) : List Bytes := (lines.map trimEnd).filter (!Blank.isBlankLine ·)

/-- Whether a line is JSON. -/
def decodes (line : Bytes) : Bool :=
  match Json.read line with
  | .ok _ => true
  | .error _ => false

/-- The lines that go on. -/
def decoded (lines : List Bytes) : List Bytes := (contents lines).filter decodes

/-- The lines that are reported. -/
def undecodable (lines : List Bytes) : List Bytes := (contents lines).filter (!decodes ·)

/-- What is written of the lines that go on. -/
def output (lines : List Bytes) : Bytes := (decoded lines).flatMap (· ++ [0x0A])

variable {line : Bytes} (lines : List Bytes)

theorem contents_concat_blank (h : Blank.isBlankLine (trimEnd line) = true) :
    contents (lines ++ [line]) = contents lines := by
  simp [contents, h]

theorem contents_concat (h : Blank.isBlankLine (trimEnd line) = false) :
    contents (lines ++ [line]) = contents lines ++ [trimEnd line] := by
  simp [contents, h]

end Lines

namespace Output

variable {o : Output} {octets line : Bytes}

/-- A write that succeeds adds its octets; one that fails adds some of them only. -/
private theorem written_put (h : o.put octets = (o', fault)) :
    o'.whenFull = o.whenFull ∧
      ((fault = none ∧ o'.written = o.written ++ octets) ∨
        (fault = some o.whenFull ∧ ∃ cut, cut <+: octets ∧ cut ≠ octets ∧ o'.written = o.written ++ cut)) := by
  unfold put at h
  split at h
  · cases h
    exact ⟨rfl, .inl ⟨rfl, by simp [written]⟩⟩
  · next room hroom =>
    split at h
    · cases h
      exact ⟨rfl, .inl ⟨rfl, by simp [written]⟩⟩
    · next hlong =>
      cases h
      refine ⟨rfl, .inr ⟨rfl, octets.take room, List.take_prefix .., fun he => ?_, by simp [written]⟩⟩
      have := congrArg List.length he
      simp only [List.length_take] at this
      omega

/-- A line that is written is written with its line feed; of one at which the output fails something is
missing. -/
theorem written_putLine (h : o.putLine line = (o', fault)) :
    o'.whenFull = o.whenFull ∧
      ((fault = none ∧ o'.written = o.written ++ (line ++ [0x0A])) ∨
        (fault = some o.whenFull ∧
          ∃ cut, cut <+: line ++ [0x0A] ∧ cut ≠ line ++ [0x0A] ∧ o'.written = o.written ++ cut)) := by
  unfold putLine at h
  cases hput : o.put line with
  | mk o₁ fault₁ =>
    obtain ⟨hfull, hcase⟩ := written_put hput
    rw [hput] at h
    cases fault₁ with
    | none =>
      obtain ⟨hfull', hcase'⟩ := written_put h
      rcases hcase with ⟨-, hw⟩ | ⟨hno, -⟩
      · refine ⟨hfull'.trans hfull, ?_⟩
        rcases hcase' with ⟨hnone, hw'⟩ | ⟨hsome, cut, hcut, hne, hw'⟩
        · exact .inl ⟨hnone, by rw [hw', hw, List.append_assoc]⟩
        · refine .inr ⟨hfull ▸ hsome, line ++ cut, ?_, by simpa using hne, by rw [hw', hw, List.append_assoc]⟩
          exact (List.prefix_append_right_inj line).2 hcut
      · simp at hno
    | some f =>
      cases h
      refine ⟨hfull, ?_⟩
      rcases hcase with ⟨hno, -⟩ | ⟨hsome, cut, hcut, hne, hw⟩
      · simp at hno
      · refine .inr ⟨hsome, cut, hcut.trans (List.prefix_append ..), fun he => ?_, hw⟩
        have := hcut.length_le
        have hlen := congrArg List.length he
        simp only [List.length_append, List.length_singleton] at hlen
        omega

end Output

end FailurePipeline
