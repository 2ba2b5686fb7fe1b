import FailurePipeline.Proofs.Intake.Faults

/-!
# A request for shutdown ends a run between two lines

However the request falls among the reads, a run does to the end what a run that nobody asks to stop does on the first
lines of the same input (`stops_between_lines`).  These are all lines that had come to their end before the request,
and the line under way at most; and the later the request, the more they are.
-/

namespace FailurePipeline

/-- What an arrival brings, whoever asks meanwhile; nothing at all if it is a silence. -/
def Arrival.content? : Arrival → Option Bytes
  | .read octets _ => some octets
  | .silence _ => none

namespace Intake

/-- An intake before its run, whose source comes to its end and whose output does not fail. -/
structure Stoppable (i : Intake) : Prop where
  fresh : i.Fresh
  blank : i.output.written = []
  sequel : i.feed.sequel = .endOfInput
  room : i.output.room = none
  flush : i.output.flushFails = false

/-- The octets of the lines that an intake reads. -/
def share (i : Intake) : Bytes := i.next.lines.flatten

/-- Whether a shutdown has been requested by the first arrivals. -/
def askedBy (i : Intake) (n : Nat) : Bool := i.shutdown || (i.feed.arrivals.take n).any Arrival.stops

/-- Two intakes of the same reads; for the second one nobody asks before it is asked for the first one. -/
structure AsksLater (i i' : Intake) : Prop where
  buffered : i'.buffered = i.buffered
  arrivals : i'.feed.arrivals.map Arrival.content? = i.feed.arrivals.map Arrival.content?
  later : ∀ n, i'.askedBy n = true → i.askedBy n = true

variable {i i' j : Intake}

/-! ### Which lines are read -/

private theorem faultless_next (h : i.feed.sequel = .endOfInput) (part : Bytes) :
    i.onwards part = .of false part i.signals := by
  rw [onwards, h]
  rfl

theorem lines_next_prefix (h : i.feed.EndsOnce) : i.next.lines <+: Lines.ofBytes i.unread := by
  cases hs : i.shutdown with
  | true =>
    rw [next_of_shutdown hs]
    exact List.nil_prefix
  | false =>
    rw [next_eq_onwards hs]
    exact octets_signals i ▸ Harvest.lines_prefix List.not_mem_nil (endsOnce_signals h)

/-- The first lines are the first octets. -/
private theorem flatten_prefix {s : Bytes} {lines : List Bytes} (h : lines <+: Lines.ofBytes s) :
    lines.flatten <+: s := by
  obtain ⟨more, hmore⟩ := h
  exact ⟨more.flatten, by rw [← List.flatten_append, hmore, Lines.flatten_ofBytes]⟩

theorem broken_next (h : i.feed.sequel = .endOfInput) : i.next.broken = false := by
  cases hs : i.shutdown with
  | true => rw [next_of_shutdown hs]
  | false =>
    rw [next_eq_onwards hs, faultless_next h]
    exact Harvest.broken_of _ _

variable {before after : List Arrival}

private theorem octets_unasked (i : Intake) (before : List Arrival) :
    Signal.octets (Signal.chunk false i.buffered ++ Arrival.allSignals false before) =
      i.buffered ++ Feed.data ⟨before, i.feed.sequel⟩ := by
  rw [Signal.octets_append, Signal.octets_chunk, Arrival.octets_allSignals]

/-- The lines that had come to their end when a shutdown was requested are read, and one more at most. -/
theorem lines_next_asked (h : i.feed.EndsOnce) (hs : i.shutdown = false) {a : Arrival}
    (harr : i.feed.arrivals = before ++ a :: after) (hno : ∀ b ∈ before, b.stops = false) (ha : a.stops = true) :
    ∃ lines, lines.length ≤ 1 ∧
      i.next.lines = Lines.ofBytes (Lines.closed (i.buffered ++ Feed.data ⟨before, i.feed.sequel⟩)) ++ lines := by
  have hnone : before.any Arrival.stops = false := List.any_eq_false.2 fun b hb => by simp [hno b hb]
  have hsplit : i.signals =
      (Signal.chunk false i.buffered ++ Arrival.allSignals false before) ++ Arrival.allSignals true (a :: after) := by
    rw [signals, hs, harr, Arrival.allSignals_append, hnone, List.append_assoc]
    simp [Arrival.allSignals, ha]
  have hunasked : ∀ s ∈ Signal.chunk false i.buffered ++ Arrival.allSignals false before, s.asked = false := by
    intro s hmem
    rcases List.mem_append.1 hmem with hmem | hmem
    · obtain ⟨b, -, rfl⟩ := List.mem_map.1 hmem
      rfl
    · exact (Arrival.asked_allSignals _ hmem).2 rfl hno
  have hasked : ∀ s ∈ Arrival.allSignals true (a :: after), s.asked = true :=
    fun s hmem => (Arrival.asked_allSignals _ hmem).1 rfl
  have hends := endsOnce_signals h
  rw [hsplit] at hends
  rw [next_eq_onwards hs, onwards, hsplit, ← octets_unasked]
  exact Harvest.lines_asked List.not_mem_nil hends hunasked hasked

/-- Of a line that is under way when the source falls silent after a request, nothing is read. -/
theorem lines_next_abandoned {asked : Bool} (harr : i.feed.arrivals = before ++ .silence asked :: after)
    (hasked : (i.shutdown || before.any Arrival.stops || asked) = true)
    (hend : ∀ shutdown, .read [] shutdown ∉ before) :
    i.next.lines <+: Lines.ofBytes (Lines.closed (i.buffered ++ Feed.data ⟨before, i.feed.sequel⟩)) := by
  cases hs : i.shutdown with
  | true =>
    rw [next_of_shutdown hs]
    exact List.nil_prefix
  | false =>
    rw [hs] at hasked
    have hsplit : i.signals = (Signal.chunk false i.buffered ++ Arrival.allSignals false before) ++
        ⟨.silence, true⟩ :: Arrival.allSignals true after := by
      have hyes : (false || before.any Arrival.stops || (Arrival.silence asked).stops) = true := hasked
      rw [signals, hs, harr, Arrival.allSignals_append, Arrival.allSignals, hyes, List.append_assoc]
      rfl
    have hnoend : ∀ s ∈ Signal.chunk false i.buffered ++ Arrival.allSignals false before, s.news ≠ .ending := by
      intro s hmem he
      rcases List.mem_append.1 hmem with hmem | hmem
      · obtain ⟨b, -, rfl⟩ := List.mem_map.1 hmem
        simp at he
      · obtain ⟨shutdown, hread⟩ := Arrival.ending_mem_allSignals _ hmem he
        exact hend shutdown hread
    rw [next_eq_onwards hs, onwards, hsplit, ← octets_unasked]
    exact Harvest.lines_abandoned List.not_mem_nil hnoend

/-- Arrivals of the same content give the same signals, and later requests are later on them. -/
private theorem delays_allSignals {early late : List Arrival} {asked asked' : Bool}
    (h : late.map Arrival.content? = early.map Arrival.content?)
    (hlater : ∀ n, (asked' || (late.take n).any Arrival.stops) = true →
      (asked || (early.take n).any Arrival.stops) = true) :
    List.Forall₂ Signal.Delays (Arrival.allSignals asked early) (Arrival.allSignals asked' late) := by
  induction early generalizing late asked asked' with
  | nil =>
    obtain rfl : late = [] := List.map_eq_nil_iff.1 h
    exact .nil
  | cons a early ih =>
    cases late with
    | nil => simp at h
    | cons a' late =>
      obtain ⟨hcontent, hrest⟩ := List.cons.inj h
      have hnow : (asked' || a'.stops) = true → (asked || a.stops) = true := by simpa using hlater 1
      refine List.rel_append ?_ (ih hrest fun n => ?_)
      · cases a with
        | read octets shutdown =>
          cases a' with
          | read octets' shutdown' =>
            obtain rfl : octets' = octets := Option.some.inj hcontent
            simp only [Arrival.signals]
            split
            · exact .cons ⟨rfl, hnow⟩ .nil
            · exact List.forall₂_map_left_iff.2
                (List.forall₂_map_right_iff.2 (List.forall₂_same.2 fun b _ => ⟨rfl, hnow⟩))
          | silence shutdown' => simp [Arrival.content?] at hcontent
        | silence shutdown =>
          cases a' with
          | read octets' shutdown' => simp [Arrival.content?] at hcontent
          | silence shutdown' => exact .cons ⟨rfl, hnow⟩ .nil
      · simpa [Bool.or_assoc] using hlater (n + 1)

/-- The later a request, the more lines are read. -/
theorem AsksLater.lines_prefix (h : AsksLater i i') (hq : i'.feed.sequel = i.feed.sequel) :
    i.next.lines <+: i'.next.lines := by
  have hfirst : i'.shutdown = true → i.shutdown = true := by simpa [askedBy] using h.later 0
  cases hs : i.shutdown with
  | true =>
    rw [next_of_shutdown hs]
    exact List.nil_prefix
  | false =>
    have hs' : i'.shutdown = false := Bool.eq_false_iff.2 fun ht => Bool.false_ne_true (hs.symm.trans (hfirst ht))
    have hsignals : List.Forall₂ Signal.Delays i.signals i'.signals := by
      rw [signals, signals, h.buffered, hs, hs']
      refine List.rel_append (List.forall₂_same.2 fun s _ => ⟨rfl, id⟩) (delays_allSignals h.arrivals fun n => ?_)
      simpa [askedBy, hs, hs'] using h.later n
    rw [next_eq_onwards hs, next_eq_onwards hs', onwards, onwards, hq]
    exact Harvest.lines_mono hsignals

/-! ### What a run does with them -/

/-- A run that nobody's request cuts through a line. -/
structure StopsBetweenLines (now : Instant) (i : Intake) : Prop where
  /-- The run does not fail. -/
  completed : ∃ o stats, i.outcome? now = some o ∧ o.result = .ok stats
  /-- It comes to the same as any run on its share that has no faults and is not stopped. -/
  same : ∀ j : Intake, j.Faultless → j.inputId = i.inputId → j.unread = i.share → i.outcome? now = j.outcome? now
  /-- The share is a first part of the input. -/
  first : i.share <+: i.unread
  /-- It is all of it, or every line in it has its end. -/
  closed : i.share = i.unread ∨ Lines.closed i.share = i.share
  /-- After a request before the run it is nothing. -/
  early : i.shutdown = true → i.share = []
  /-- Without a request it is everything. -/
  never : i.shutdown = false → (∀ a ∈ i.feed.arrivals, a.stops = false) → i.share = i.unread
  /-- After a request during the run it is what had come of complete lines, and of the next lines one at most. -/
  underWay : ∀ before a after, i.shutdown = false → i.feed.arrivals = before ++ a :: after →
    (∀ b ∈ before, b.stops = false) → a.stops = true →
      ∃ lines, lines.length ≤ 1 ∧
        i.share = Lines.closed (i.buffered ++ Feed.data ⟨before, .endOfInput⟩) ++ lines.flatten ∧
        Lines.ofBytes (Lines.closed (i.buffered ++ Feed.data ⟨before, .endOfInput⟩)) ++ lines <+:
          Lines.ofBytes i.unread
  /-- A line that is under way when the source falls silent after a request is no part of it. -/
  abandoned : ∀ before asked after, i.feed.arrivals = before ++ .silence asked :: after →
    (i.shutdown || before.any Arrival.stops || asked) = true → (∀ shutdown, .read [] shutdown ∉ before) →
      i.share <+: Lines.closed (i.buffered ++ Feed.data ⟨before, .endOfInput⟩)
  /-- It is the longer, the later somebody asks. -/
  later : ∀ i' : Intake, i'.Stoppable → AsksLater i i' → i.share <+: i'.share

/-- A request never cuts through a line. -/
theorem stops_between_lines (h : i.Stoppable) (now : Instant) : StopsBetweenLines now i := by
  have hends : i.feed.EndsOnce := h.fresh.ends
  have hfirst := lines_next_prefix hends
  obtain ⟨hlines, hclosed⟩ := Lines.of_prefix hfirst
  have hrun : i.outcome? now = some ⟨Lines.output i.next.lines, Lines.reports i.inputId now i.next.lines,
      .ok ⟨(Lines.decoded i.next.lines).length, (Lines.undecodable i.next.lines).length⟩⟩ := by
    rw [outcome_eq (h.fresh.tidy (by simp [h.sequel])), comesTo, h.fresh.phase]
    simp only [outcomeOf]
    rw [Outcome.of_room (by simp [h.room]), broken_next h.sequel, h.blank, h.flush, h.fresh.stats]
    simp
  constructor
  case completed => exact ⟨_, _, hrun, rfl⟩
  case same =>
    intro j hj hid hshare
    have husable : j.usable = i.share := (usable_eq_unread hj.sequel).trans hshare
    rw [hrun, outcome_eq (hj.fresh.tidy hj.known), hj.comesTo_eq, husable, share, hlines,
      Outcome.of_room (by simp [hj.room]), hj.blank, hj.flush, hj.sequel, hid]
    simp
  case first => exact flatten_prefix hfirst
  case closed =>
    refine hclosed.imp_left fun hall => ?_
    rw [share, hall, Lines.flatten_ofBytes]
  case early =>
    intro hs
    rw [share, next_of_shutdown hs]
    rfl
  case never =>
    intro hs ha
    have hall := Harvest.of_unasked List.not_mem_nil (endsOnce_signals hends) (unasked_signals hs ha)
    rw [share, next_eq_onwards hs, faultless_next h.sequel, hall, List.nil_append, octets_signals,
      Lines.flatten_ofBytes]
  case underWay =>
    intro before a after hs harr hno ha
    obtain ⟨lines, hlen, hnext⟩ := lines_next_asked hends hs harr hno ha
    rw [h.sequel] at hnext
    refine ⟨lines, hlen, ?_, hnext ▸ hfirst⟩
    rw [share, hnext, List.flatten_append, Lines.flatten_ofBytes]
  case abandoned =>
    intro before asked after harr hasked hend
    have hnext := lines_next_abandoned harr hasked hend
    rw [h.sequel] at hnext
    exact flatten_prefix hnext
  case later =>
    intro i' h' hlater
    obtain ⟨more, hmore⟩ := hlater.lines_prefix (h'.sequel.trans h.sequel.symm)
    exact ⟨more.flatten, by rw [share, share, ← hmore, List.flatten_append]⟩

/-- A source of three lines.  While the rest of the second one is read somebody asks to stop. -/
def stoppedSource : Intake where
  inputId := "stdin"
  feed :=
    ⟨[.read (Utf8.encode "1\nx") false, .silence false, .read (Utf8.encode "y\n3") true, .read [] false], .endOfInput⟩
  output := {}

/-- The second line is still read, and the third one is not. -/
theorem stops_between_lines_of_stoppedSource :
    stoppedSource.Stoppable ∧ StopsBetweenLines ⟨0, 0⟩ stoppedSource ∧
      stoppedSource.share = Utf8.encode "1\nxy\n" := by
  have hstoppable : stoppedSource.Stoppable :=
    ⟨⟨rfl, rfl, Feed.endsOnce_of_not_mem (by decide)⟩, rfl, rfl, rfl, rfl⟩
  exact ⟨hstoppable, stops_between_lines hstoppable ⟨0, 0⟩, by decide +kernel⟩

end Intake

end FailurePipeline
