import FailurePipeline.Proofs.Dispatch.Isolation

/-!
# How a dispatch is settled

Every run of a dispatch can be completed, whatever has happened so far (`finishes_of_underway`).  Once it is
complete, each handler that claims the batch was called once and nobody else, the flagged messages were
acknowledged once, after all the calls, and every counter says so (`Settled`).  That holds for every order of
the turns and for all outcomes, and other outcomes of one handler change nothing for the others.
-/

namespace FailurePipeline

namespace Dispatch

/-! ### Every run can be completed -/

/-- Some further turns complete the dispatch. -/
def Finishes (p : Workplace × Dispatch) : Prop := ∃ turns, (run p turns).2.phase = .finished

private theorem finishes_of_turn {p : Workplace × Dispatch} (t : Turn) (h : Finishes (turn p t)) :
    Finishes p := by
  obtain ⟨turns, hf⟩ := h
  exact ⟨t :: turns, hf⟩

private theorem finishes_finished (w : Workplace) (b : Batch) : Finishes (w, ⟨b, .finished⟩) := ⟨[], rfl⟩

private theorem finishes_counting (w : Workplace) (b : Batch) : Finishes (w, ⟨b, .counting⟩) :=
  finishes_of_turn (.own {}) (finishes_finished _ b)

private theorem finishes_awaiting (w : Workplace) (b : Batch) (began call : Nat) :
    Finishes (w, ⟨b, .awaiting began call⟩) := by
  refine finishes_of_turn (.own { now := began + w.acknowledger.delay }) ?_
  simp only [turn, step, canStep, Nat.le_refl, decide_true, if_true]
  exact finishes_counting _ b

private theorem finishes_acknowledging (w : Workplace) (b : Batch) : Finishes (w, ⟨b, .acknowledging⟩) := by
  refine finishes_of_turn (.own {}) ?_
  simp only [turn, step, canStep, if_true]
  split
  · exact finishes_counting _ b
  · exact finishes_awaiting _ b _ _

/-- The steps that calls have left: two before they begin, and one while they are under way. -/
private def stepsLeft (calls : List Call) : Nat := calls.countP (!hasBegun ·) + calls.countP (!hasEnded ·)

private theorem finishes_calling (w : Workplace) (b : Batch) (calls : List Call) :
    Finishes (w, ⟨b, .calling calls⟩) := by
  -- The calls may go on in any order, so the induction is on all the steps that they have left together.
  induction hn : stepsLeft calls using Nat.strongRecOn generalizing w calls with
  | ind n ih =>
    by_cases hall : calls.all (·.phase == .ended) = true
    · refine finishes_of_turn (.own {}) ?_
      simp only [turn, step, canStep, hall, if_true]
      exact finishes_acknowledging w b
    · have hex : ∃ c ∈ calls, c.phase ≠ .ended := by simpa using hall
      obtain ⟨⟨seat, cp⟩, hmem, hne⟩ := hex
      obtain ⟨i, hi⟩ := List.getElem?_of_mem hmem
      have hbegun := fun c' => countP_set_add hi c' (!hasBegun ·)
      have hended := fun c' => countP_set_add hi c' (!hasEnded ·)
      cases cp with
      | ended => exact absurd rfl hne
      | ready =>
        refine finishes_of_turn (.call i {}) ?_
        simp only [turn, stepCall, hi, Call.canStep, Call.step, if_true]
        refine ih _ ?_ _ _ rfl
        have h₁ := hbegun ⟨seat, .running ({} : Surroundings).now (w.beginCall seat b).2⟩
        have h₂ := hended ⟨seat, .running ({} : Surroundings).now (w.beginCall seat b).2⟩
        simp [hasBegun, hasEnded] at h₁ h₂
        simp only [stepsLeft, hasBegun, hasEnded] at hn ⊢
        omega
      | running began call =>
        let now := began + ((w.registry.get? seat).map (·.delay)).getD 0
        refine finishes_of_turn (.call i { now := now }) ?_
        simp only [turn, stepCall, hi, Call.canStep, Call.step, now, Nat.le_refl, decide_true, if_true]
        refine ih _ ?_ _ _ rfl
        have h₁ := hbegun ⟨seat, .ended⟩
        have h₂ := hended ⟨seat, .ended⟩
        simp [hasBegun, hasEnded] at h₁ h₂
        simp only [stepsLeft, hasBegun, hasEnded] at hn ⊢
        omega

/-- A dispatch whose handlers answer never gets stuck. -/
theorem finishes_of_underway {w₀ w : Workplace} {b : Batch} {vs : List Verdict} {d : Dispatch}
    (ha : w₀.registry.Answers b) (hb : b.isEmpty = false) (hd : d.batch = b)
    (h : Underway w₀ b w vs d.phase) : Finishes (w, d) := by
  obtain ⟨b', phase⟩ := d
  obtain rfl : b' = b := hd
  cases phase with
  | routing =>
    obtain ⟨rfl, rfl⟩ := h
    obtain ⟨route, hroute, -⟩ := Registry.count_seats_of_resolve ha
    refine finishes_of_turn (.own {}) ?_
    simp only [turn, step, canStep, if_true, Dispatch.route, hb, hroute, Bool.false_eq_true, if_false]
    cases route with
    | unroutable => exact finishes_acknowledging _ b'
    | fallback => exact finishes_calling _ b' _
    | custom is => exact finishes_calling _ b' _
  | calling calls => exact finishes_calling w b' calls
  | acknowledging => exact finishes_acknowledging w b'
  | awaiting began call => exact finishes_awaiting w b' began call
  | counting => exact finishes_counting w b'
  | finished => exact finishes_finished w b'
  | crashed p => exact h.elim

/-! ### What a dispatch has done -/

/-- What a dispatch that began when the workplace was `w₀` has done once it is complete. -/
structure Settled (w₀ w : Workplace) (b : Batch) (vs : List Verdict) : Prop where
  /-- First the handlers that claim the batch are called, each once; then the flagged messages are
  acknowledged. -/
  journal : ∃ calls rest, w.journal = w₀.journal ++ calls ++ rest ∧
    (∀ s id, calls.count (.began s id) = if id == b.id && w₀.registry.claims b s then 1 else 0) ∧
    (∀ s id, calls.count (.ended s id) = if id == b.id && w₀.registry.claims b s then 1 else 0) ∧
    (∀ s id, .began s id ∉ rest ∧ .ended s id ∉ rest) ∧
    Note.acknowledgments calls = [] ∧ Note.acknowledgments rest = acknowledgmentsOf b
  /-- Every call ended once, and as its handler was bound to end it. -/
  verdicts : ∀ s, (vs.map (·.1)).count s = if w₀.registry.claims b s then 1 else 0
  bound : ∀ v ∈ vs, ∀ h, w₀.registry.get? v.1 = some h → ∀ o, h.bound? = some o → v.2 = o
  processed : w.stats.processed = w₀.stats.processed + 1
  dropped : w.stats.dropped = w₀.stats.dropped + if w₀.registry.isClaimed b then 0 else 1
  handlerErrors : w.stats.handlerErrors = w₀.stats.handlerErrors + vs.countP (!·.2.isOk)
  acknowledged : w.stats.acknowledged =
    w₀.stats.acknowledged + if (acknowledgeOutcome w₀).isOk then b.flagged.length else 0
  acknowledgeErrors : w.stats.acknowledgeErrors = w₀.stats.acknowledgeErrors +
    if b.flagged.isEmpty || (acknowledgeOutcome w₀).isOk then 0 else 1

private theorem settled_of_underway {w₀ w : Workplace} {b : Batch} {vs : List Verdict}
    (h : Underway w₀ b w vs .finished) : Settled w₀ w b vs := by
  obtain ⟨calls, rest, hc, hacks, hquiet, hstats⟩ := h
  have hjournal := And.intro hc.journal <| And.intro hc.began <| And.intro hc.ended <|
    And.intro hquiet <| And.intro hc.quiet hacks
  refine ⟨⟨calls, rest, hjournal⟩, hc.verdicts, hc.bound, ?_, ?_, ?_, ?_, ?_⟩
  · rw [hstats]
  · rw [hstats, acknowledgedStats, calledStats]
    split
    · rfl
    · split <;> rfl
  · rw [hstats, acknowledgedStats, calledStats]
    split
    · rfl
    · split <;> rfl
  · rw [hstats, acknowledgedStats, calledStats]
    cases hf : b.flagged with
    | nil => simp
    | cons m ms => cases ho : (acknowledgeOutcome w₀).isOk <;> simp
  · rw [hstats, acknowledgedStats, calledStats]
    cases hf : b.flagged with
    | nil => simp
    | cons m ms => cases ho : (acknowledgeOutcome w₀).isOk <;> simp

/-- A dispatch of a batch that is not empty goes to exactly the handlers that claim the batch, acknowledges its
flagged messages once, counts both, and cannot be held up or changed for the others by how a handler ends. -/
theorem dispatch_settles (w₀ : Workplace) (b : Batch) (ha : w₀.registry.Answers b) (hb : b.isEmpty = false)
    (turns : List Turn) :
    let p := run (w₀, { batch := b }) turns
    let vs := verdicts (w₀, { batch := b }) turns
    Finishes p ∧ (p.2.phase = .finished → Settled w₀ p.1 b vs) ∧
      ∀ seat f,
        let p' := run (w₀.withOutcomes seat f, { batch := b }) turns
        let vs' := verdicts (w₀.withOutcomes seat f, { batch := b }) turns
        Alike seat f p'.1 p.1 ∧ p'.2 = p.2 ∧ vs'.map (·.1) = vs.map (·.1) ∧
          vs'.filter (·.1 != seat) = vs.filter (·.1 != seat) := by
  intro p vs
  have hstart : Underway w₀ b w₀ [] ({ batch := b } : Dispatch).phase := ⟨rfl, rfl⟩
  obtain ⟨hbatch, hrun⟩ := hstart.run ha hb (d := { batch := b }) rfl turns
  rw [List.nil_append] at hrun
  refine ⟨finishes_of_underway ha hb hbatch hrun, fun hf => ?_, fun seat f => ?_⟩
  · rw [hf] at hrun
    exact settled_of_underway hrun
  · have halike := Alike.withOutcomes w₀ seat f
    obtain ⟨hworkplaces, hdispatches⟩ := halike.run { batch := b } turns
    exact ⟨hworkplaces, hdispatches, halike.verdicts { batch := b } turns⟩

/-- A handler that panics after a while stands beside one that does not. -/
def brokenBesideLog : Workplace where
  registry :=
    { fallback := .log
      custom :=
        [{ name := "broken", enabled := .ok true, supports := fun _ => .ok true
           work := .scripted 5 fun _ => .panic .other }, .log] }

/-- Two of three failures have their message acknowledged, the first one and the last one. -/
def mixedFlags : Batch :=
  ⟨1, .processing
    [⟨.unknown, ⟨"", "", ⟨0, 0⟩⟩, ⟨some "first"⟩, true⟩, ⟨.extractor, ⟨"", "", ⟨0, 0⟩⟩, ⟨some "second"⟩, false⟩,
      ⟨.unknown, ⟨"", "", ⟨0, 0⟩⟩, ⟨none⟩, true⟩]⟩

/-- The calls of the two handlers go on in turns, and the broken one is asked in vain once. -/
def takingTurns : List Turn :=
  [.own {}, .call 0 {}, .call 1 {}, .call 0 {}, .call 1 {}, .call 0 { now := 5 }, .own {}, .own {}, .own {},
    .own {}]

/-- Both handlers are called once, one error is counted, and the flagged messages are acknowledged, in one call. -/
theorem dispatch_settles_beside_panic :
    brokenBesideLog.registry.Answers mixedFlags ∧ mixedFlags.isEmpty = false ∧
      let p := run (brokenBesideLog, { batch := mixedFlags }) takingTurns
      p.2.phase = .finished ∧
        Settled brokenBesideLog p.1 mixedFlags [(.custom 1, .ok), (.custom 0, .panic .other)] ∧
        p.1.stats = { processed := 1, handlerErrors := 1, acknowledged := 2 } ∧
        Note.acknowledgments p.1.journal = [(1, [⟨some "first"⟩, ⟨none⟩])] := by
  have ha : brokenBesideLog.registry.Answers mixedFlags := by
    intro h hmem
    simp only [brokenBesideLog, List.mem_cons, List.not_mem_nil, or_false] at hmem
    rcases hmem with rfl | rfl | rfl <;> exact ⟨⟨true, rfl⟩, true, rfl⟩
  have hb : mixedFlags.isEmpty = false := rfl
  have hf : (run (brokenBesideLog, { batch := mixedFlags }) takingTurns).2.phase = .finished := rfl
  have hv : verdicts (brokenBesideLog, { batch := mixedFlags }) takingTurns =
      [(.custom 1, .ok), (.custom 0, .panic .other)] := rfl
  have hsettled := (dispatch_settles brokenBesideLog mixedFlags ha hb takingTurns).2.1 hf
  rw [hv] at hsettled
  exact ⟨ha, hb, hf, hsettled, rfl, rfl⟩

end Dispatch

end FailurePipeline
