import FailurePipeline.Proofs.Intake.Lines
import Mathlib.Data.List.Forall2

/-!
# What an intake has done with its lines

After any number of steps, an intake has dealt with some of the lines of its input, from the first one on: it has
written those that are JSON, and has reported the others, but for the blank ones.  What it has in hand and what is
still to come are the lines that are left (`Intake.Progress`).
-/

namespace FailurePipeline

/-- Nothing arrives any more once a read has delivered nothing. -/
def Feed.EndsOnce (f : Feed) : Prop :=
  ∀ pre shutdown post, f.arrivals = pre ++ .read [] shutdown :: post → Feed.data ⟨post, f.sequel⟩ = []

theorem Feed.EndsOnce.tail {a : Arrival} {arrivals : List Arrival} {sequel : Sequel}
    (h : Feed.EndsOnce ⟨a :: arrivals, sequel⟩) : Feed.EndsOnce ⟨arrivals, sequel⟩ := by
  intro pre shutdown post hsplit
  exact h (a :: pre) shutdown post (by simpa using hsplit)

/-- Nothing arrives after a read that delivers nothing, if there is none but the last. -/
theorem Feed.endsOnce_of_not_mem {f : Feed} (h : ∀ shutdown, .read [] shutdown ∉ f.arrivals.dropLast) :
    f.EndsOnce := by
  intro pre shutdown post hsplit
  cases post with
  | nil => rfl
  | cons a post =>
    refine absurd ?_ (h shutdown)
    rw [hsplit, List.dropLast_append_cons, List.dropLast_cons_of_ne_nil (List.cons_ne_nil a post)]
    exact List.mem_append_right _ List.mem_cons_self

/-- A failure that reports this line. -/
def Lines.Reports (inputId : String) (line : Bytes) (f : InputFailure) : Prop :=
  ∃ now fault, Json.read line = .error fault ∧ f = Intake.failureOf inputId now line fault

namespace Intake

/-- The octets that have not been looked at. -/
def unread (i : Intake) : Bytes := i.buffered ++ i.feed.data

/-- Of all lines the first have been read, and of the next one only a part without its end, if anything; what is
still unread comes after it. -/
def ReadTo (all lines : List Bytes) (unread : Bytes) : Prop :=
  ∃ part, 0x0A ∉ part ∧ all = lines ++ Lines.ofBytes (part ++ unread)

/-- Why reading an input of these lines has ended with an error, when it has dealt with the first of them: the
input broke; the output could not be flushed; or the output failed at the next line, of which only `cut` was
written. -/
def Broke (all lines : List Bytes) (cut : Bytes) (i : Intake) (f : StreamFault) : Prop :=
  (f = .read ∧ cut = [] ∧ ReadTo all lines i.unread) ∨
    (f = .flush ∧ cut = [] ∧ ReadTo all lines i.unread ∧ (i.shutdown = false → lines = all)) ∨
    (f = i.output.whenFull ∧ ∃ line, all = lines ++ line :: Lines.ofBytes i.unread ∧ cut <+: Lines.output [line] ∧
      cut ≠ Lines.output [line])

/-- What an intake has in hand, when it has dealt with the first lines of all. -/
def Holds (all lines : List Bytes) (cut : Bytes) (i : Intake) : IntakePhase → Prop
  | .turn => cut = [] ∧ all = lines ++ Lines.ofBytes i.unread
  | .reading pieces =>
    cut = [] ∧ 0x0A ∉ pieces.flatten ∧ [] ∉ pieces ∧
      all = lines ++ Lines.ofBytes (pieces.reverse.flatten ++ i.unread)
  | .judging line => cut = [] ∧ all = lines ++ line :: Lines.ofBytes i.unread
  | .reporting f =>
    cut = [] ∧ ∃ line, Blank.isBlankLine (Lines.trimEnd line) = false ∧
      Lines.Reports i.inputId (Lines.trimEnd line) f ∧ all = lines ++ line :: Lines.ofBytes i.unread
  | .flushing => cut = [] ∧ ReadTo all lines i.unread ∧ (i.shutdown = false → lines = all)
  | .finished (.ok stats) =>
    cut = [] ∧ stats = i.stats ∧ ReadTo all lines i.unread ∧ (i.shutdown = false → lines = all)
  | .finished (.error f) => Broke all lines cut i f

/-- The intake `i` that began as `i₀` has dealt with these lines and has had these failures accepted; `cut` is
what it has written of a line at which its output failed. -/
structure Progress (i₀ : Intake) (lines : List Bytes) (failures : List InputFailure) (cut : Bytes) (i : Intake) :
    Prop where
  inputId : i.inputId = i₀.inputId
  whenFull : i.output.whenFull = i₀.output.whenFull
  ends : i.feed.EndsOnce
  reported : List.Forall₂ (Lines.Reports i₀.inputId) (Lines.undecodable lines) failures
  failed : i.stats.failed = failures.length
  forwarded : i.stats.forwarded = (Lines.decoded lines).length
  written : i.output.written = i₀.output.written ++ Lines.output lines ++ cut
  holds : Holds (Lines.ofBytes i₀.unread) lines cut i i.phase

/-- An intake that has not begun. -/
structure Fresh (i : Intake) : Prop where
  phase : i.phase = .turn
  stats : i.stats = {}
  ends : i.feed.EndsOnce

namespace Progress

variable {i₀ i : Intake} {lines : List Bytes} {failures : List InputFailure} {cut : Bytes}

theorem fresh (h : Fresh i) : Progress i [] [] [] i := by
  constructor <;> simp [h.ends, h.stats, h.phase, Lines.undecodable, Lines.decoded, Lines.contents, Lines.output,
    Holds]

/-- The intake goes on without dealing with a line. -/
private theorem of_quiet (hp : Progress i₀ lines failures cut i) {i' : Intake} (hid : i'.inputId = i.inputId)
    (ho : i'.output = i.output) (hs : i'.stats = i.stats) (he : i'.feed.EndsOnce)
    (hh : Holds (Lines.ofBytes i₀.unread) lines cut i' i'.phase) : Progress i₀ lines failures cut i' where
  inputId := hid.trans hp.inputId
  whenFull := ho ▸ hp.whenFull
  ends := he
  reported := hp.reported
  failed := hs ▸ hp.failed
  forwarded := hs ▸ hp.forwarded
  written := ho ▸ hp.written
  holds := hh

/-- The end of the input. -/
private theorem atEnd (hp : Progress i₀ lines failures cut i) {pieces : List Bytes} {feed : Feed} {shutdown : Bool}
    (hphase : i.phase = .reading pieces) (hb : i.buffered = []) (hf : i.feed.data = [])
    (hfeed : feed.EndsOnce) (hdata : feed.data = []) :
    Progress i₀ lines failures cut (atEnd { i with feed := feed, shutdown := shutdown } pieces) := by
  have hh := hp.holds
  rw [hphase] at hh
  obtain ⟨hcut, hopen, hne, hall⟩ := hh
  have hunread : i.unread = [] := by simp [unread, hb, hf]
  rw [hunread, List.append_nil] at hall
  unfold Intake.atEnd
  cases hpieces : pieces with
  | nil =>
    have hlines : Lines.ofBytes i₀.unread = lines := by simpa [hpieces, Lines.ofBytes] using hall
    refine hp.of_quiet rfl rfl rfl hfeed ⟨hcut, ⟨[], by simp, ?_⟩, fun _ => hlines.symm⟩
    change Lines.ofBytes i₀.unread = lines ++ Lines.ofBytes ([] ++ (i.buffered ++ feed.data))
    rw [hlines, hb, hdata]
    simp [Lines.ofBytes]
  | cons piece pieces =>
    -- What has been read of the last line has no line feed, and is a line all the same.
    refine hp.of_quiet rfl rfl rfl hfeed ⟨hcut, ?_⟩
    have hnil : pieces.reverse.flatten ++ piece ≠ [] := by
      intro hnil
      rw [List.append_eq_nil_iff] at hnil
      exact hne (by simp [hpieces, hnil.2])
    have hno : 0x0A ∉ pieces.reverse.flatten ++ piece := by
      intro hmem
      exact hopen (by simpa [hpieces, List.mem_append, or_comm] using hmem)
    simp only [hpieces, List.reverse_cons, List.flatten_append, List.flatten_cons, List.flatten_nil,
      List.append_nil] at hall ⊢
    rw [hall, Lines.ofBytes_open hno hnil]
    simp [unread, hb, hdata, Lines.ofBytes]

/-- Nothing more is buffered in the middle of a line. -/
private theorem await (hp : Progress i₀ lines failures cut i) {pieces : List Bytes}
    (hphase : i.phase = .reading pieces) (hb : i.buffered = []) : Progress i₀ lines failures cut (i.await pieces) := by
  have hh := hp.holds
  rw [hphase] at hh
  obtain ⟨hcut, hopen, hne, hall⟩ := hh
  have hends := hp.ends
  unfold Intake.await
  cases harr : i.feed.arrivals with
  | nil =>
    have hdata : i.feed.data = [] := by simp [Feed.data, harr]
    cases hseq : i.feed.sequel with
    | endOfInput => exact hp.atEnd hphase hb hdata hends hdata
    | fault =>
      exact hp.of_quiet rfl rfl rfl hends (.inl ⟨rfl, hcut, pieces.reverse.flatten, by simpa using hopen, hall⟩)
    | unknown => exact hp
  | cons a rest =>
    have hfeed : i.feed = ⟨a :: rest, i.feed.sequel⟩ := by rw [← harr]
    have htail := (hfeed ▸ hends).tail
    cases a with
    | read octets shutdown =>
      simp only
      split
      -- A read of no octets is the end of the input, after which nothing arrives any more.
      · next hempty =>
        have hoctets : octets = [] := List.isEmpty_iff.1 hempty
        have hdata : Feed.data ⟨rest, i.feed.sequel⟩ = [] :=
          hends [] shutdown rest (by rw [harr, hoctets]; rfl)
        refine hp.atEnd hphase hb ?_ htail hdata
        rw [hfeed]
        simpa [Feed.data, hoctets] using hdata
      · refine hp.of_quiet rfl rfl rfl htail ⟨hcut, hopen, hne, ?_⟩
        have hunread : i.unread = octets ++ Feed.data ⟨rest, i.feed.sequel⟩ := by
          rw [unread, hb, hfeed]
          simp [Feed.data]
        rwa [hunread] at hall
    | silence shutdown =>
      have hsilent : i.feed.data = Feed.data ⟨rest, i.feed.sequel⟩ := by
        rw [hfeed]
        simp [Feed.data]
      simp only
      split
      · next hshut =>
        refine hp.of_quiet rfl rfl rfl htail
          ⟨hcut, ⟨pieces.reverse.flatten, by simpa using hopen, ?_⟩, fun hno => ?_⟩
        · simpa [unread, hb, hsilent] using hall
        · exact absurd (hno.symm.trans hshut) nofun
      · exact hp.of_quiet rfl rfl rfl htail ⟨hcut, hopen, hne, by simpa [unread, hb, hsilent] using hall⟩

/-- A line that is not blank goes on, if the output takes it. -/
private theorem forward (hp : Progress i₀ lines failures cut i) {line : Bytes} (hphase : i.phase = .judging line)
    (hblank : Blank.isBlankLine (Lines.trimEnd line) = false) (hok : Lines.decodes (Lines.trimEnd line) = true) :
    ∃ lines' cut', Progress i₀ lines' failures cut' (i.forward (Lines.trimEnd line)) := by
  have hh := hp.holds
  rw [hphase] at hh
  obtain ⟨rfl, hall⟩ := hh
  have hone : Lines.output [line] = Lines.trimEnd line ++ [0x0A] := by
    simp [Lines.output, Lines.decoded, Lines.contents, hblank, hok]
  unfold Intake.forward
  cases hput : i.output.putLine (Lines.trimEnd line) with
  | mk output fault =>
    obtain ⟨hfull, hcase⟩ := Output.written_putLine hput
    cases fault with
    | none =>
      rcases hcase with ⟨-, hw⟩ | ⟨hno, -⟩
      · refine ⟨lines ++ [line], [], hp.inputId, hfull.trans hp.whenFull, hp.ends, ?_, hp.failed, ?_, ?_, rfl, ?_⟩
        · simpa [Lines.undecodable, Lines.contents_concat lines hblank, hok] using hp.reported
        · simp [hp.forwarded, Lines.decoded, Lines.contents_concat lines hblank, hok]
        · have hout : Lines.output (lines ++ [line]) = Lines.output lines ++ (Lines.trimEnd line ++ [0x0A]) := by
            simp [Lines.output, Lines.decoded, Lines.contents_concat lines hblank, hok]
          rw [hout, hw, hp.written]
          simp
        · simpa [unread] using hall
      · simp at hno
    | some fault =>
      rcases hcase with ⟨hno, -⟩ | ⟨hsome, cut, hcut, hne, hw⟩
      · simp at hno
      · refine ⟨lines, cut, hp.inputId, hfull.trans hp.whenFull, hp.ends, hp.reported, hp.failed, hp.forwarded, ?_,
          .inr (.inr ⟨?_, line, hall, hone ▸ hcut, hone ▸ hne⟩)⟩
        · rw [hw, hp.written, List.append_nil]
        · rw [hfull]
          exact Option.some.inj hsome

private theorem judge (hp : Progress i₀ lines failures cut i) {line : Bytes} (hphase : i.phase = .judging line)
    (now : Instant) : ∃ lines' cut', Progress i₀ lines' failures cut' (i.judge now line) := by
  have hh := hp.holds
  rw [hphase] at hh
  obtain ⟨hcut, hall⟩ := hh
  simp only [Intake.judge]
  split
  · next hblank =>
    refine ⟨lines ++ [line], cut, hp.inputId, hp.whenFull, hp.ends, ?_, hp.failed, ?_, ?_, hcut, ?_⟩
    · simpa [Lines.undecodable, Lines.contents_concat_blank lines hblank] using hp.reported
    · simpa [Lines.decoded, Lines.contents_concat_blank lines hblank] using hp.forwarded
    · simpa [Lines.output, Lines.decoded, Lines.contents_concat_blank lines hblank] using hp.written
    · simpa [unread] using hall
  · next hblank =>
    split
    · next v hv => exact hp.forward hphase (by simpa using hblank) (by simp [Lines.decodes, hv])
    · next fault hfault =>
      refine ⟨lines, cut, hp.of_quiet rfl rfl rfl hp.ends ⟨hcut, line, by simpa using hblank, ?_, hall⟩⟩
      exact ⟨now, fault, hfault, rfl⟩

/-- More of what is buffered is looked at. -/
private theorem look (hp : Progress i₀ lines failures cut i) {pieces : List Bytes}
    (hphase : i.phase = .reading pieces) (now : Instant) (hb : i.buffered ≠ []) :
    Progress i₀ lines failures cut (i.step now) := by
  have hh := hp.holds
  rw [hphase] at hh
  obtain ⟨hcut, hopen, hne, hall⟩ := hh
  have hempty : i.buffered.isEmpty = false := by simpa using hb
  simp only [Intake.step, hphase, hempty, Bool.false_eq_true, if_false]
  split
  · next head rest hsplit =>
    -- The line feed that is found is the first one since the line began.
    obtain ⟨line, hline, rfl, hbuf⟩ := Lines.split?_eq_some hsplit
    refine hp.of_quiet rfl rfl rfl hp.ends ⟨hcut, ?_⟩
    have hno : 0x0A ∉ pieces.reverse.flatten ++ line := by
      rw [List.mem_append]
      rintro (hmem | hmem)
      · exact hopen (by simpa using hmem)
      · exact hline hmem
    have hunread : pieces.reverse.flatten ++ i.unread =
        (pieces.reverse.flatten ++ line) ++ 0x0A :: (rest ++ i.feed.data) := by simp [unread, hbuf]
    rw [hall, hunread, Lines.ofBytes_line hno]
    simp [unread]
  · next hsplit =>
    refine hp.of_quiet rfl rfl rfl hp.ends ⟨hcut, ?_, ?_, ?_⟩
    · have hno := Lines.split?_eq_none hsplit
      rw [List.flatten_cons, List.mem_append]
      exact fun hmem => hmem.elim hno hopen
    · simp only [List.mem_cons, not_or]
      exact ⟨Ne.symm hb, hne⟩
    · simpa [unread] using hall

/-- A step deals with one line at most, and never loses one. -/
theorem step (hp : Progress i₀ lines failures cut i) (now : Instant) :
    ∃ lines' cut', Progress i₀ lines' failures cut' (i.step now) := by
  -- One case for each phase; only where a line is judged, `lines` may grow.
  have hh := hp.holds
  cases hphase : i.phase with
  | turn =>
    rw [hphase] at hh
    obtain ⟨hcut, hall⟩ := hh
    simp only [Intake.step, hphase]
    split
    · next hshut =>
      refine ⟨lines, cut, hp.of_quiet rfl rfl rfl hp.ends ⟨hcut, ⟨[], by simp, hall⟩, fun hno => ?_⟩⟩
      exact absurd (hno.symm.trans hshut) nofun
    · exact ⟨lines, cut, hp.of_quiet rfl rfl rfl hp.ends ⟨hcut, by simp, by simp, by simpa [unread] using hall⟩⟩
  | reading pieces =>
    by_cases hb : i.buffered = []
    · simp only [Intake.step, hphase, hb, List.isEmpty_nil, if_true]
      exact ⟨lines, cut, hp.await hphase hb⟩
    · exact ⟨lines, cut, hp.look hphase now hb⟩
  | judging line =>
    simp only [Intake.step, hphase]
    exact hp.judge hphase now
  | reporting f =>
    simp only [Intake.step, hphase]
    exact ⟨lines, cut, hp⟩
  | flushing =>
    rw [hphase] at hh
    obtain ⟨hcut, hlines, hno⟩ := hh
    simp only [Intake.step, hphase]
    split
    · exact ⟨lines, cut, hp.of_quiet rfl rfl rfl hp.ends (.inr (.inl ⟨rfl, hcut, hlines, hno⟩))⟩
    · exact ⟨lines, cut, hp.of_quiet rfl rfl rfl hp.ends ⟨hcut, rfl, hlines, hno⟩⟩
  | finished r =>
    simp only [Intake.step, hphase]
    exact ⟨lines, cut, hp⟩

/-- The failure that an intake reports is that of a line, with which it has dealt when the failure is accepted. -/
theorem accepted (hp : Progress i₀ lines failures cut i) {f : InputFailure} (hphase : i.phase = .reporting f) :
    ∃ lines', Progress i₀ lines' (failures ++ [f]) cut i.accepted := by
  have hh := hp.holds
  rw [hphase] at hh
  obtain ⟨hcut, line, hblank, hreports, hall⟩ := hh
  have hno : Lines.decodes (Lines.trimEnd line) = false := by
    obtain ⟨now, fault, hfault, -⟩ := hreports
    simp [Lines.decodes, hfault]
  refine ⟨lines ++ [line], hp.inputId, hp.whenFull, hp.ends, ?_, ?_, ?_, ?_, hcut, ?_⟩
  · have hun : Lines.undecodable (lines ++ [line]) = Lines.undecodable lines ++ [Lines.trimEnd line] := by
      simp [Lines.undecodable, Lines.contents_concat lines hblank, hno]
    rw [hun]
    exact List.rel_append hp.reported (.cons (hp.inputId ▸ hreports) .nil)
  · simp [Intake.accepted, hp.failed]
  · simpa [Intake.accepted, Lines.decoded, Lines.contents_concat lines hblank, hno] using hp.forwarded
  · simpa [Intake.accepted, Lines.output, Lines.decoded, Lines.contents_concat lines hblank, hno] using hp.written
  · simpa [Intake.accepted, unread] using hall

end Progress

/-! ### What a step counts -/

private theorem await_stats (i : Intake) (pieces : List Bytes) : (i.await pieces).stats = i.stats := by
  have hend : ∀ k : Intake, (k.atEnd pieces).stats = k.stats := by
    intro k
    unfold atEnd
    split <;> rfl
  unfold await
  split
  · simp only
    split
    · exact hend _
    · rfl
  · simp only
    split <;> rfl
  · split
    · exact hend i
    · rfl
    · rfl

/-- A step forwards one line at most, and no line fails with it. -/
theorem step_stats (i : Intake) (now : Instant) :
    (i.step now).stats = i.stats ∨
      (i.step now).stats = { i.stats with forwarded := i.stats.forwarded + 1 } := by
  unfold step
  split
  · left
    split <;> rfl
  · left
    split
    · exact i.await_stats _
    · split <;> rfl
  · next line _ =>
    simp only [judge]
    split
    · exact .inl rfl
    · split
      · simp only [forward]
        split
        · exact .inl rfl
        · exact .inr rfl
      · exact .inl rfl
  · exact .inl rfl
  · exact .inl rfl
  · exact .inl rfl

end Intake

end FailurePipeline
