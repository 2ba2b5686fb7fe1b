import FailurePipeline.Proofs.Intake.Harvest
import FailurePipeline.Proofs.Intake.Moves
import FailurePipeline.Proofs.Intake.Outcome

/-!
# What a run of an intake comes to

The lines that an intake is still going to read are known from the signals of its source, and what becomes of them is
known too: `Intake.comesTo` says what will have been written and reported at the end.  No step changes it
(`comesTo_move`), and each gets closer to the end, so that a run always finishes, and with this outcome (`outcome_eq`).
-/

namespace FailurePipeline

namespace Intake

/-- What the source of an intake is still going to tell it. -/
def signals (i : Intake) : List Signal :=
  Signal.chunk i.shutdown i.buffered ++ Arrival.allSignals i.shutdown i.feed.arrivals

/-- What is read of these signals from the next line on. -/
def next (i : Intake) : Harvest := .between (i.feed.sequel == .fault) i.shutdown i.signals

/-- What is read from the middle of a line on. -/
def onwards (i : Intake) (part : Bytes) : Harvest := .of (i.feed.sequel == .fault) part i.signals

variable (i : Intake)

@[simp]
theorem octets_signals : Signal.octets i.signals = i.unread := by
  rw [signals, Signal.octets_append, Signal.octets_chunk, Arrival.octets_allSignals i.shutdown _ i.feed.sequel]
  rfl

variable {i}

/-- Only an empty read that is still to come is an end. -/
theorem ending_mem_signals {s : Signal} (h : s ∈ i.signals) (hs : s.news = .ending) :
    ∃ shutdown, .read [] shutdown ∈ i.feed.arrivals := by
  rcases List.mem_append.1 h with h | h
  · obtain ⟨b, -, rfl⟩ := List.mem_map.1 h
    simp at hs
  · exact Arrival.ending_mem_allSignals _ h hs

theorem endsOnce_signals (h : i.feed.EndsOnce) : Signal.EndsOnce i.signals := by
  refine List.pairwise_append.2 ⟨?_, Arrival.endsOnce_allSignals _ h, fun s hs t _ hend => ?_⟩
  · exact List.pairwise_map.2 (List.pairwise_of_forall fun _ _ => nofun)
  · obtain ⟨b, -, rfl⟩ := List.mem_map.1 hs
    simp at hend

/-- Where nobody has asked nor will, no signal comes after a request. -/
theorem unasked_signals (hs : i.shutdown = false) (ha : ∀ a ∈ i.feed.arrivals, a.stops = false) :
    ∀ s ∈ i.signals, s.asked = false := by
  intro s h
  rcases List.mem_append.1 h with h | h
  · obtain ⟨b, -, rfl⟩ := List.mem_map.1 h
    exact hs
  · exact (Arrival.asked_allSignals _ h).2 hs ha

theorem next_of_shutdown (hs : i.shutdown = true) : i.next = {} := by
  rw [next, hs, Harvest.between, if_pos rfl]

theorem next_eq_onwards (hs : i.shutdown = false) : i.next = i.onwards [] := by
  rw [next, hs, Harvest.between, if_neg Bool.false_ne_true]
  rfl

/-- What becomes of lines that an intake reads, with what it has counted before. -/
def outcomeOf (now : Instant) (i : Intake) (stats : IntakeStats) (h : Harvest) : Outcome :=
  .of i.inputId now h.broken i.output stats h.lines

/-- What an intake comes to. -/
def comesTo (now : Instant) (i : Intake) : Outcome :=
  match i.phase with
  | .turn => i.outcomeOf now i.stats i.next
  | .reading pieces => i.outcomeOf now i.stats (i.onwards pieces.reverse.flatten)
  | .judging line => i.outcomeOf now i.stats (i.next.cons line)
  | .reporting f => (i.outcomeOf now { i.stats with failed := i.stats.failed + 1 } i.next).cons f
  | .flushing => i.outcomeOf now i.stats {}
  | .finished r => ⟨i.output.written, [], r⟩

/-- An intake that knows how its input ends, with no empty piece of a line. -/
structure Tidy (i : Intake) : Prop where
  known : i.feed.sequel ≠ .unknown
  pieces : ∀ pieces, i.phase = .reading pieces → [] ∉ pieces

variable {i i' : Intake} {now : Instant} {pieces : List Bytes}

private theorem comesTo_turn (hp : i.phase = .turn) : i.comesTo now = i.outcomeOf now i.stats i.next := by
  rw [comesTo, hp]

private theorem comesTo_reading (hp : i.phase = .reading pieces) :
    i.comesTo now = i.outcomeOf now i.stats (i.onwards pieces.reverse.flatten) := by
  rw [comesTo, hp]

private theorem comesTo_judging {line : Bytes} (hp : i.phase = .judging line) :
    i.comesTo now = i.outcomeOf now i.stats (i.next.cons line) := by
  rw [comesTo, hp]

theorem Fresh.tidy (h : i.Fresh) (hq : i.feed.sequel ≠ .unknown) : i.Tidy where
  known := hq
  pieces := by
    rw [h.phase]
    exact nofun

private theorem tidy_atEnd (hq : i.feed.sequel ≠ .unknown) (pieces : List Bytes) : (i.atEnd pieces).Tidy := by
  unfold atEnd
  split <;> exact ⟨hq, nofun⟩

theorem tidy_move (ht : i.Tidy) (h : Move now i i') : i'.Tidy := by
  cases h with
  | close hp => exact ⟨ht.known, nofun⟩
  | begin hp hs => exact ⟨ht.known, fun p hp => IntakePhase.reading.inj hp ▸ List.not_mem_nil⟩
  | complete pieces line rest hp hb hl => exact ⟨ht.known, nofun⟩
  | look pieces hp hb hl =>
    refine ⟨ht.known, fun p hp' => ?_⟩
    rw [← IntakePhase.reading.inj hp', List.mem_cons, not_or]
    exact ⟨Ne.symm hb, ht.pieces pieces hp⟩
  | arrive pieces octets shutdown rest hp hb ha hne =>
    exact ⟨ht.known, fun p hp' => IntakePhase.reading.inj hp' ▸ ht.pieces pieces hp⟩
  | findEnd pieces shutdown rest hp hb ha =>
    refine tidy_atEnd ?_ pieces
    exact ht.known
  | wait pieces shutdown rest hp hb ha hs =>
    exact ⟨ht.known, fun p hp' => IntakePhase.reading.inj hp' ▸ ht.pieces pieces hp⟩
  | abandon pieces shutdown rest hp hb ha hs => exact ⟨ht.known, nofun⟩
  | exhaust pieces hp hb ha hq => exact tidy_atEnd ht.known pieces
  | «break» pieces hp hb ha hq => exact ⟨ht.known, nofun⟩
  | skip line hp hblank => exact ⟨ht.known, nofun⟩
  | forward line hp hblank hok =>
    unfold forward
    cases i.output.putLine (Lines.trimEnd line) with
    | mk output fault => cases fault <;> exact ⟨ht.known, nofun⟩
  | report line fault hp hblank hf => exact ⟨ht.known, nofun⟩
  | flush hp => exact ⟨ht.known, nofun⟩
  | rest h => exact ht

theorem tidy_accepted (ht : i.Tidy) : i.accepted.Tidy := ⟨ht.known, nofun⟩

/-- What has been read of a line at the end of the input is a line, if there is anything. -/
private theorem comesTo_atEnd (hne : [] ∉ pieces) :
    (i.atEnd pieces).comesTo now =
      i.outcomeOf now i.stats (if pieces.reverse.flatten.isEmpty then {} else i.next.cons pieces.reverse.flatten) := by
  cases pieces with
  | nil => rfl
  | cons piece pieces =>
    have hpiece : piece ≠ [] := fun h => hne (h ▸ List.mem_cons_self)
    have hpart : ((piece :: pieces).reverse.flatten).isEmpty = false := by simp [hpiece]
    rw [hpart]
    rfl

/-- No step changes what an intake comes to. -/
theorem comesTo_move (ht : i.Tidy) (h : Move now i i') : i'.comesTo now = i.comesTo now := by
  -- What a step takes, the next line, chunk or end, is the first part of what is still to come.
  cases h with
  | close hp hs =>
    rw [comesTo_turn hp, next_of_shutdown hs]
    rfl
  | begin hp hs =>
    rw [comesTo_turn hp, next_eq_onwards hs]
    rfl
  | complete pieces line rest hp hb hl =>
    have hline : i.onwards pieces.reverse.flatten =
        ({ i with buffered := rest } : Intake).next.cons (pieces.reverse.flatten ++ (line ++ [0x0A])) := by
      rw [onwards, signals, hb, Harvest.of_line hl]
      rfl
    rw [comesTo_reading hp, hline]
    rfl
  | look pieces hp hb hl =>
    have hmore : i.onwards pieces.reverse.flatten =
        ({ i with buffered := [] } : Intake).onwards (i.buffered :: pieces).reverse.flatten := by
      rw [onwards, signals, Harvest.of_chunk hl]
      simp [onwards, signals, Signal.chunk]
    rw [comesTo_reading hp, hmore]
    rfl
  | arrive pieces octets shutdown rest hp hb ha hne =>
    have hsignals : i.signals = Signal.chunk (i.shutdown || shutdown) octets ++
        Arrival.allSignals (i.shutdown || shutdown) rest := by
      simp [signals, hb, ha, Signal.chunk, Arrival.allSignals, Arrival.signals, Arrival.stops, hne]
    rw [comesTo_reading hp, onwards, hsignals]
    rfl
  | findEnd pieces shutdown rest hp hb ha =>
    have hsignals : i.signals =
        ⟨.ending, i.shutdown || shutdown⟩ :: Arrival.allSignals (i.shutdown || shutdown) rest := by
      simp [signals, hb, ha, Signal.chunk, Arrival.allSignals, Arrival.signals, Arrival.stops]
    rw [comesTo_reading hp, comesTo_atEnd (ht.pieces pieces hp), onwards, hsignals, Harvest.of]
    simp [next, signals, hb, Signal.chunk, Harvest.between, outcomeOf]
  | wait pieces shutdown rest hp hb ha hs =>
    have hsignals : i.signals = ⟨.silence, false⟩ :: Arrival.allSignals false rest := by
      simp [signals, hb, ha, Signal.chunk, Arrival.allSignals, Arrival.signals, Arrival.stops, hs]
    rw [comesTo_reading hp, onwards, hsignals, Harvest.of, if_neg Bool.false_ne_true]
    simp [comesTo, onwards, signals, hb, Signal.chunk, outcomeOf]
  | abandon pieces shutdown rest hp hb ha hs =>
    have hsignals : i.signals = ⟨.silence, true⟩ :: Arrival.allSignals true rest := by
      simp [signals, hb, ha, Signal.chunk, Arrival.allSignals, Arrival.signals, Arrival.stops, hs]
    rw [comesTo_reading hp, onwards, hsignals, Harvest.of, if_pos rfl]
    rfl
  | exhaust pieces hp hb ha hq =>
    have hsignals : i.signals = [] := by simp [signals, hb, ha, Signal.chunk, Arrival.allSignals]
    rw [comesTo_reading hp, comesTo_atEnd (ht.pieces pieces hp), onwards, next, hsignals, hq, Harvest.of]
    simp [Harvest.between, Harvest.of, Harvest.cons]
  | «break» pieces hp hb ha hq =>
    have hsignals : i.signals = [] := by simp [signals, hb, ha, Signal.chunk, Arrival.allSignals]
    rw [comesTo_reading hp, onwards, hsignals, hq, Harvest.of]
    rfl
  | skip line hp hblank =>
    rw [comesTo_judging hp]
    exact (Outcome.of_blank hblank).symm
  | forward line hp hblank hok =>
    have hof := @Outcome.of_decoded i.inputId now i.next.broken i.output i.stats line i.next.lines hblank hok
    rw [comesTo_judging hp, forward]
    cases hput : i.output.putLine (Lines.trimEnd line) with
    | mk output fault =>
      rw [hput] at hof
      cases fault <;> exact hof.symm
  | report line fault hp hblank hf =>
    rw [comesTo_judging hp]
    exact (Outcome.of_undecodable hblank hf).symm
  | flush hp =>
    rw [comesTo, comesTo, hp]
    rfl
  | rest h => rfl

theorem comesTo_accepted {f : InputFailure} (hp : i.phase = .reporting f) :
    i.comesTo now = (i.accepted.comesTo now).cons f := by
  rw [comesTo, hp]
  rfl

/-! ### That a run comes to an end -/

/-- How many steps an intake takes at most before it has finished. -/
def distance (i : Intake) : Nat :=
  4 * (i.buffered.length + (i.feed.arrivals.map Arrival.size).sum) + i.phase.rank + (!i.buffered.isEmpty).toNat

/-- A run has the patience that it needs. -/
theorem distance_le_patience (i : Intake) : i.distance ≤ i.patience := by
  have hpatience : i.patience = 4 * (i.buffered.length + (i.feed.arrivals.map Arrival.size).sum) + 16 := by
    refine congrArg (fun n => 4 * (i.buffered.length + n) + 16) (congrArg List.sum (List.map_congr_left fun a _ => ?_))
    cases a <;> rfl
  have hrank : i.phase.rank ≤ 6 := by
    cases i.phase with
    | reading pieces => cases pieces <;> simp [IntakePhase.rank]
    | _ => simp [IntakePhase.rank]
  have hone : (!i.buffered.isEmpty).toNat ≤ 1 := Bool.toNat_le _
  rw [distance, hpatience]
  omega

private theorem two_le_rank_reading (pieces : List Bytes) : 2 ≤ (IntakePhase.reading pieces).rank := by
  cases pieces <;> simp [IntakePhase.rank]

private theorem distance_atEnd (i : Intake) (pieces : List Bytes) :
    (i.atEnd pieces).distance < 4 * (i.buffered.length + (i.feed.arrivals.map Arrival.size).sum) +
      (IntakePhase.reading pieces).rank + (!i.buffered.isEmpty).toNat := by
  cases pieces <;> simp [atEnd, distance, IntakePhase.rank]

/-- An intake that knows how its input ends gets on with every step, as long as no failure waits and it has not
finished. -/
theorem distance_move (hq : i.feed.sequel ≠ .unknown) (hr : ∀ f, i.phase ≠ .reporting f)
    (hf : ∀ r, i.phase ≠ .finished r) (h : Move now i i') : i'.distance < i.distance := by
  -- From one line to the next the rank of the phase falls; to begin again it takes octets or an arrival.
  cases h with
  | close hp hs => simp [distance, hp, IntakePhase.rank]
  | begin hp hs => simp [distance, hp, IntakePhase.rank]
  | complete pieces line rest hp hb hl =>
    have hlow := two_le_rank_reading pieces
    have hflag : (!rest.isEmpty).toNat ≤ 1 := Bool.toNat_le _
    have hfull : (!i.buffered.isEmpty).toNat = 1 := by simp [hb]
    have hlen : i.buffered.length = line.length + (rest.length + 1) := by simp [hb]
    have hnew : (IntakePhase.judging (pieces.reverse.flatten ++ (line ++ [0x0A]))).rank = 5 := rfl
    simp only [distance, hp, hnew, hlen, hfull]
    omega
  | look pieces hp hb hl =>
    have hlow := two_le_rank_reading pieces
    have hpos : 0 < i.buffered.length := List.length_pos_iff.2 hb
    have hflag : (!i.buffered.isEmpty).toNat = 1 := by simp [hb]
    have hnew : (IntakePhase.reading (i.buffered :: pieces)).rank = 6 := rfl
    simp only [distance, hp, hnew, hflag, List.length_nil, List.isEmpty_nil, Bool.not_true, Bool.toNat_false]
    omega
  | arrive pieces octets shutdown rest hp hb ha hne =>
    have hflag : (!octets.isEmpty).toNat ≤ 1 := Bool.toNat_le _
    simp only [distance, hp, hb, ha, List.map_cons, List.sum_cons, Arrival.size, List.length_nil]
    omega
  | findEnd pieces shutdown rest hp hb ha =>
    refine Nat.lt_trans (distance_atEnd _ pieces) ?_
    simp only [distance, hp, hb, ha, List.map_cons, List.sum_cons, Arrival.size, List.length_nil]
    omega
  | wait pieces shutdown rest hp hb ha hs =>
    simp only [distance, hp, hb, ha, List.map_cons, List.sum_cons, Arrival.size, List.length_nil]
    omega
  | abandon pieces shutdown rest hp hb ha hs =>
    have hlow := two_le_rank_reading pieces
    have hnew : IntakePhase.flushing.rank = 1 := rfl
    simp only [distance, hp, hb, ha, hnew, List.map_cons, List.sum_cons, Arrival.size, List.length_nil]
    omega
  | exhaust pieces hp hb ha hq =>
    have hless := distance_atEnd i pieces
    rwa [← hp] at hless
  | «break» pieces hp hb ha hq =>
    have hlow := two_le_rank_reading pieces
    have hnew : (IntakePhase.finished (.error .read)).rank = 0 := rfl
    simp only [distance, hp, hnew]
    omega
  | skip line hp hblank => simp [distance, hp, IntakePhase.rank]
  | forward line hp hblank hok =>
    unfold forward
    cases i.output.putLine (Lines.trimEnd line) with
    | mk output fault => cases fault <;> simp [distance, hp, IntakePhase.rank]
  | report line fault hp hblank hf => simp [distance, hp, IntakePhase.rank]
  | flush hp => simp [distance, hp, IntakePhase.rank]
  | rest h =>
    obtain ⟨f, hp⟩ | ⟨r, hp⟩ | hu := h
    · exact absurd hp (hr f)
    · exact absurd hp (hf r)
    · exact absurd hu hq

theorem distance_accepted {f : InputFailure} (hp : i.phase = .reporting f) : i.accepted.distance < i.distance := by
  simp [distance, accepted, hp, IntakePhase.rank]

/-- A run for as many steps as are needed finishes, with what the intake has come to from the beginning. -/
theorem runFor_eq (ht : i.Tidy) {steps : Nat} (h : i.distance ≤ steps) :
    ∃ i', runFor now steps i = (i', (i.comesTo now).failures) ∧ i'.phase = .finished (i.comesTo now).result ∧
      i'.output.written = (i.comesTo now).written := by
  induction steps generalizing i with
  | zero =>
    have hrank : i.phase.rank = 0 := by
      unfold distance at h
      omega
    cases hp : i.phase with
    | finished r => exact ⟨i, by simp [runFor, comesTo, hp], by simp [comesTo, hp], by simp [comesTo, hp]⟩
    | reading pieces => cases pieces <;> simp [hp, IntakePhase.rank] at hrank
    | _ => simp [hp, IntakePhase.rank] at hrank
  | succ steps ih =>
    by_cases hf : ∃ r, i.phase = .finished r
    · obtain ⟨r, hp⟩ := hf
      exact ⟨i, by simp [runFor, comesTo, hp], by simp [comesTo, hp], by simp [comesTo, hp]⟩
    · by_cases hr : ∃ f, i.phase = .reporting f
      · obtain ⟨f, hp⟩ := hr
        have hless := distance_accepted hp
        obtain ⟨i', hrun, hphase, hwritten⟩ := @ih i.accepted (tidy_accepted ht) (by omega)
        rw [comesTo_accepted hp]
        refine ⟨i', ?_, hphase, hwritten⟩
        simp only [runFor, hp, hrun]
        rfl
      · have hmove := step_move now i
        have hless := distance_move ht.known (not_exists.1 hr) (not_exists.1 hf) hmove
        obtain ⟨i', hrun, hphase, hwritten⟩ := @ih (i.step now) (tidy_move ht hmove) (by omega)
        rw [comesTo_move ht hmove] at hrun hphase hwritten
        refine ⟨i', ?_, hphase, hwritten⟩
        rw [← hrun, runFor]
        split
        · next r hp => exact absurd ⟨r, hp⟩ hf
        · next f hp => exact absurd ⟨f, hp⟩ hr
        · rfl

/-- What a run has come to, if it has finished. -/
def outcome? (now : Instant) (i : Intake) : Option Outcome :=
  match i.run now with
  | (i', failures) => i'.result?.map (⟨i'.output.written, failures, ·⟩)

/-- A run finishes, with the outcome that its intake comes to. -/
theorem outcome_eq (ht : i.Tidy) (now : Instant) : i.outcome? now = some (i.comesTo now) := by
  obtain ⟨i', hrun, hphase, hwritten⟩ := @runFor_eq i now ht _ i.distance_le_patience
  rw [outcome?, run, hrun]
  simp [result?, hphase, hwritten]

end Intake

end FailurePipeline
