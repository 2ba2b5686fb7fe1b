import FailurePipeline.Proofs.Dispatch.Counting
import FailurePipeline.Proofs.Service.Transcript

/-!
# Steps of a drain

What else holds while the consumer follows its course: a batch is dispatched to its end before anything is noted
again (`Processes`), a request to stop is heeded from the next turn on (`Heeds`), and after the last poll there is
nothing left but to measure the drain (`MeasuresDrain`).
-/

namespace FailurePipeline

namespace ConsumerEvent

def received? : ConsumerEvent → Option Batch
  | .received b => some b
  | _ => none

def drew? : ConsumerEvent → Option Batch
  | .drew b => some b
  | _ => none

end ConsumerEvent

namespace ConsumerPhase

/-- One for a consumer with a batch that will still count as processed. -/
def unprocessed : ConsumerPhase → Nat
  | .dispatching d _ => d.unprocessed
  | _ => 0

/-- Whether the consumer is done with its source. -/
def isThrough : ConsumerPhase → Bool
  | .summing .. | .leaving _ | .gone _ => true
  | _ => false

/-- Whether the drain has been measured. -/
def hasMeasured : ConsumerPhase → Bool
  | .leaving false | .gone false => true
  | _ => false

end ConsumerPhase

namespace World

variable {w w' : World}

/-- The batches that have come without a time limit, in order. -/
def received (w : World) : List Batch := w.service.events.filterMap ConsumerEvent.received?

/-- The batches that have come within the time limit, in order. -/
def drawn (w : World) : List Batch := w.service.events.filterMap ConsumerEvent.drew?

/-! ### When nothing is noted -/

/-- Nothing is noted during a dispatch. -/
theorem events_of_dispatching {d : Dispatch} {mode : ConsumerMode}
    (h : w.service.consumer = some (.dispatching d mode)) (a : Action) :
    (w.step a).service.events = w.service.events := by
  have hno : ∀ {p : ConsumerPhase}, w.service.consumer = some p → p = .dispatching d mode := fun hp =>
    Option.some.inj (hp.symm.trans h)
  refine step_cases (P := fun v => v.service.events = w.service.events) w a (fun j _ => ?_)
    (fun i v _ hm => hm.frame.2.2.2.1) (fun v _ hm => ?_) fun _ _ _ _ => rfl
  · rw [(w.spawn_frame j).2.2.2.2.1]
  · cases hm with
    | idle | dispatch | call | goOn | drainOn | fall | crash => rfl
    | _ => exact absurd (hno (by assumption)) (by simp)

/-- A consumer that is done with its source notes nothing more. -/
theorem step_of_through (hl : Lifecycle w) {p : ConsumerPhase} (hp : w.service.consumer = some p)
    (ht : p.isThrough = true) (a : Action) :
    (w.step a).service.events = w.service.events ∧
      ∃ p', (w.step a).service.consumer = some p' ∧ p'.isThrough = true := by
  have hno : ∀ {q : ConsumerPhase}, w.service.consumer = some q → q.isThrough = true := fun hq =>
    Option.some.inj (hp.symm.trans hq) ▸ ht
  refine step_cases (P := fun v => v.service.events = w.service.events ∧
    ∃ p', v.service.consumer = some p' ∧ p'.isThrough = true) w a (fun j _ => ?_) (fun i v _ hm => ?_)
    (fun v _ hm => ?_) fun _ _ _ _ => ⟨rfl, p, hp, ht⟩
  · rw [(w.spawn_frame j).2.2.2.2.1]
    exact ⟨rfl, p, hp, ht⟩
  · obtain ⟨-, -, -, hev, hc | ⟨hi, -⟩⟩ := hm.frame
    · exact ⟨hev, p, hc.trans hp, ht⟩
    · simp [hl.consumer_eq_none hi] at hp
  · cases hm with
    | idle => exact ⟨rfl, p, hp, ht⟩
    | sum count since h => exact ⟨rfl, _, rfl, rfl⟩
    | leave crashed h => exact ⟨rfl, _, rfl, rfl⟩
    | crash => exact ⟨rfl, _, rfl, rfl⟩
    | _ => exact absurd (hno (by assumption)) (by simp [ConsumerPhase.isThrough])

theorem events_run_of_through (hl : Lifecycle w) {p : ConsumerPhase} (hp : w.service.consumer = some p)
    (ht : p.isThrough = true) (actions : List Action) :
    (w.run actions).service.events = w.service.events := by
  induction actions generalizing w p with
  | nil => rfl
  | cons a as ih =>
    obtain ⟨hev, p', hp', ht'⟩ := step_of_through hl hp ht a
    exact (ih (hl.step a) hp' ht').trans hev

/-! ### Requests to stop -/

/-- No batch is asked for in between, and none comes but the one for which the source is being asked already. -/
def Heeds (w w' : World) : Prop :=
  ∃ later, w'.service.events = w.service.events ++ later ∧ .asked ∉ later ∧
    (w.service.consumer ≠ some .asking →
      w'.service.consumer ≠ some .asking ∧ .exhausted ∉ later ∧ ∀ b, .received b ∉ later)

namespace Heeds

theorem refl (w : World) : Heeds w w := ⟨[], by simp, by simp, fun h => ⟨h, by simp, by simp⟩⟩

theorem trans {w'' : World} (h : Heeds w w') (h' : Heeds w' w'') : Heeds w w'' := by
  obtain ⟨later, hev, hasked, hcame⟩ := h
  obtain ⟨later', hev', hasked', hcame'⟩ := h'
  refine ⟨later ++ later', by rw [hev', hev, List.append_assoc], by simp [hasked, hasked'], fun hno => ?_⟩
  obtain ⟨hno', hend, hnone⟩ := hcame hno
  obtain ⟨hno'', hend', hnone'⟩ := hcame' hno'
  exact ⟨hno'', by simp [hend, hend'], fun b => by simp [hnone b, hnone' b]⟩

private theorem of_events {p : ConsumerPhase} (noted : List ConsumerEvent)
    (hp : w'.service.consumer = some p) (hev : w'.service.events = w.service.events ++ noted)
    (hno : p ≠ .asking) (hnoted : .asked ∉ noted) (hend : .exhausted ∉ noted)
    (hnone : ∀ b, .received b ∉ noted) : Heeds w w' :=
  ⟨noted, hev, hnoted, fun _ => ⟨by simp [hp, hno], hend, hnone⟩⟩

private theorem of_asking (h : w.service.consumer = some .asking) (noted : List ConsumerEvent)
    (hev : w'.service.events = w.service.events ++ noted) (hnoted : .asked ∉ noted) : Heeds w w' :=
  ⟨noted, hev, hnoted, fun hno => absurd h hno⟩

theorem consumerMove (hs : w.service.shutdown = true) (h : ConsumerMove w w') : Heeds w w' := by
  have hquiet : ∀ {v : World} {p : ConsumerPhase}, v.service.consumer = some p →
      v.service.events = w.service.events → p ≠ .asking → Heeds w v := by
    intro v p hp hev hno
    exact of_events [] hp (by rw [hev, List.append_nil]) hno (by simp) (by simp) (by simp)
  -- Where the consumer would ask again it sees the request instead; other moves do not lead to asking.
  cases h with
  | idle => exact .refl w
  | launch => split <;> exact hquiet rfl rfl (by simp)
  | close => split <;> exact hquiet rfl rfl (by simp)
  | seeShutdown asked h _ => exact of_events [.sawShutdown] rfl rfl (by simp) (by simp) (by simp) (by simp)
  | ask asked h hno => simp [hs] at hno
  | receive b q h hq ht =>
    refine of_asking h [.received b, .dispatched b] ?_ (by simp)
    simp [dispatchNext, enter, Service.enter, log, Service.log, emitDepth, emit]
  | hear a steady timed h hq =>
    cases a with
    | batch b =>
      refine of_asking h [.received b, .dispatched b] ?_ (by simp)
      simp [dispatchNext, enter, Service.enter, log, Service.log]
    | nothing => exact of_asking h [.exhausted] rfl (by simp)
    | panic p => exact of_asking h [] (by simp [enter, Service.enter]) (by simp)
  | poll => exact of_events [.polled w.config.shutdownAwait] rfl rfl (by simp) (by simp) (by simp) (by simp)
  | pollScript a steady timed count since =>
    cases a with
    | batch b =>
      refine of_events [.polled w.config.shutdownAwait, .drew b, .dispatched b] rfl ?_ (by simp) (by simp) (by simp)
        (by simp)
      simp [dispatchNext, enter, Service.enter, log, Service.log]
    | nothing =>
      refine of_events [.polled w.config.shutdownAwait, .expired] rfl ?_ (by simp) (by simp) (by simp) (by simp)
      simp [enter, Service.enter, log, Service.log]
    | panic p => exact of_events [.polled w.config.shutdownAwait] rfl rfl (by simp) (by simp) (by simp) (by simp)
  | pollEnd =>
    refine of_events [.polled w.config.shutdownAwait, .expired] rfl ?_ (by simp) (by simp) (by simp) (by simp)
    simp [enter, Service.enter, log, Service.log]
  | draw deadline count since b q h ht =>
    refine of_events [.drew b, .dispatched b] rfl ?_ (by simp) (by simp) (by simp) (by simp)
    simp [dispatchNext, enter, Service.enter, log, Service.log, emitDepth, emit]
  | expire => exact of_events [.expired] rfl rfl (by simp) (by simp) (by simp) (by simp)
  | _ => exact hquiet rfl rfl (by simp)

theorem step (hs : w.service.shutdown = true) (a : Action) :
    Heeds w (w.step a) ∧ (w.step a).service.shutdown = true := by
  have hsame : ∀ {v : World}, v.service.events = w.service.events → v.service.consumer = w.service.consumer →
      Heeds w v := by
    intro v hev hc
    exact ⟨[], by rw [hev, List.append_nil], by simp, fun hno => ⟨hc ▸ hno, by simp, by simp⟩⟩
  refine step_cases (P := fun v => Heeds w v ∧ v.service.shutdown = true) w a (fun j _ => ?_) (fun i v _ h => ?_)
    (fun v _ h => ⟨consumerMove hs h, h.frame.2.2.2.2.2.trans hs⟩) fun _ _ _ _ => ⟨hsame rfl rfl, hs⟩
  · have hv := (w.spawn_frame j).2.2.2.2.1
    exact ⟨hsame (by rw [hv]) (by rw [hv]), by rw [hv, hs]⟩
  · refine ⟨?_, h.grows.1 hs⟩
    obtain ⟨-, -, -, hev, hc | ⟨-, hc⟩⟩ := h.frame
    · exact hsame hev hc
    · exact of_events [] hc (by rw [hev, List.append_nil]) nofun (by simp) (by simp) (by simp)

theorem run (hs : w.service.shutdown = true) (actions : List Action) : Heeds w (w.run actions) := by
  induction actions generalizing w with
  | nil => exact .refl w
  | cons a as ih =>
    obtain ⟨hfirst, hs'⟩ := step hs a
    exact hfirst.trans (ih hs')

end Heeds

/-! ### Dispatches -/

/-- How many batches of the consumer will still count as processed. -/
def unprocessed (w : World) : Nat := (w.service.consumer.map (·.unprocessed)).getD 0

/-- Until the consumer panics, the batches that count as processed and the one that still will are those that were
dispatched and are not empty. -/
def Processes (before : Nat) (w : World) : Prop :=
  w.hasCrashed = false →
    w.workplace.stats.processed + w.unprocessed = before + w.dispatched.countP (!·.isEmpty)

namespace Processes

variable {before : Nat}

theorem fresh (hv : w.service = {}) : Processes w.workplace.stats.processed w := by
  intro _
  simp [unprocessed, dispatched, hv]

private theorem unprocessed_of_isFree {p : ConsumerPhase} (hp : w.service.consumer = some p) (hfree : p.IsFree) :
    w.unprocessed = 0 := by
  cases p with
  | dispatching d mode =>
    have hd : d.phase = .finished := hfree
    simp [unprocessed, hp, ConsumerPhase.unprocessed, Dispatch.unprocessed, hd]
  | _ => simp [unprocessed, hp, ConsumerPhase.unprocessed]

private theorem stats_of_onlyMeasures (h : w.OnlyMeasures w') : w'.workplace.stats = w.workplace.stats := by
  obtain ⟨recorder, hplace⟩ := h
  rw [hplace]

theorem of_dispatchStep (hp : Processes before w) (h : w.DispatchStep w') : Processes before w' := by
  intro hcalm
  cases h with
  | apart hc hplace hd =>
    have hsame : w'.hasCrashed = w.hasCrashed ∧ w'.unprocessed = w.unprocessed := by
      rcases hc with hc | ⟨hnone, hc⟩
      · simp [hasCrashed, unprocessed, hc]
      · simp [hasCrashed, unprocessed, hc, hnone, ConsumerPhase.hasCrashed, ConsumerPhase.unprocessed]
    rw [stats_of_onlyMeasures hplace, hsame.2, hd]
    exact hp (hsame.1 ▸ hcalm)
  | rest p p' hc hfree hc' hfree' hno hplace hd =>
    have hbefore := hp (hasCrashed_of_isFree hc hfree)
    rw [unprocessed_of_isFree hc hfree] at hbefore
    rw [stats_of_onlyMeasures hplace, unprocessed_of_isFree hc' hfree', hd, hbefore]
  | begins p b mode hc hfree hc' hplace hd =>
    have hbefore := hp (hasCrashed_of_isFree hc hfree)
    have hnew : w'.unprocessed = if b.isEmpty then 0 else 1 := by rw [unprocessed, hc']; rfl
    rw [unprocessed_of_isFree hc hfree, Nat.add_zero] at hbefore
    rw [stats_of_onlyMeasures hplace, hnew, hd, hbefore, List.countP_append, ← Nat.add_assoc]
    cases hempty : b.isEmpty <;> simp [hempty]
  | goesOn d mode hc hc' hplace hd =>
    have hbefore := hp (by simp [hasCrashed, hc, ConsumerPhase.hasCrashed])
    rw [unprocessed, hc] at hbefore
    rw [unprocessed, hc', hplace, hd]
    exact (d.step_processed w.surroundings w.workplace).trans hbefore
  | calls i d mode hc hc' hplace hd =>
    have hbefore := hp (by simp [hasCrashed, hc, ConsumerPhase.hasCrashed])
    rw [unprocessed, hc] at hbefore
    rw [unprocessed, hc', hplace, hd]
    exact (d.stepCall_processed w.surroundings w.workplace i).trans hbefore
  | panics hc' hplace hd =>
    rcases hc' with hc' | hc' <;> simp [hasCrashed, hc', ConsumerPhase.hasCrashed] at hcalm

theorem step (hp : Processes before w) (hl : Lifecycle w) (a : Action) : Processes before (w.step a) :=
  hp.of_dispatchStep (dispatchStep hl a)

theorem run (hp : Processes before w) (hl : Lifecycle w) (actions : List Action) :
    Processes before (w.run actions) := by
  induction actions generalizing w with
  | nil => exact hp
  | cons a as ih => exact ih (hp.step hl a) (hl.step a)

end Processes

/-! ### The measure of the drain -/

/-- The count of drained batches. -/
def drainCount (w : World) : Nat := w.workplace.recorder.count .batchesDrained

/-- Until the consumer panics, no drain has been measured before the end, and the one drain then. -/
def MeasuresDrain (before : Nat) (w : World) : Prop :=
  w.hasCrashed = false →
    w.drainCount = if w.service.consumer.any (·.hasMeasured) then Metrics.wrapAdd before w.drawn.length else before

namespace MeasuresDrain

variable {before : Nat}

theorem fresh (hv : w.service = {}) : MeasuresDrain w.drainCount w := by
  intro _
  simp [hv]

private theorem of_quiet (hm : MeasuresDrain before w) {p p' : ConsumerPhase} (hp : w.service.consumer = some p)
    (hc : p.hasCrashed = false) (hno : p.hasMeasured = false) (hp' : w'.service.consumer = some p')
    (hno' : p'.hasMeasured = false) (hcount : w'.drainCount = w.drainCount) : MeasuresDrain before w' := by
  intro _
  have h := hm (by simp [hasCrashed, hp, hc])
  simpa [hp, hno, hp', hno', hcount] using h

/-- Only where the consumer sums up is a drain measured. -/
theorem consumerMove (hm : MeasuresDrain before w)
    (hsum : ∀ count since, w.service.consumer = some (.summing count since) → count = w.drawn.length)
    (h : ConsumerMove w w') : MeasuresDrain before w' := by
  have hcrashed : ∀ {v : World} {p}, v.service.consumer = some p → p.hasCrashed = true →
      MeasuresDrain before v := by
    intro v p hq hx hno
    simp [hasCrashed, hq, hx] at hno
  cases h with
  | idle => exact hm
  | launch h | close h => split <;> exact hm.of_quiet h rfl rfl rfl rfl rfl
  | ask asked h => cases asked <;> exact hm.of_quiet h rfl rfl rfl rfl rfl
  | hear a steady timed h =>
    cases a with
    | panic p => exact hcrashed rfl rfl
    | _ => exact hm.of_quiet h rfl rfl rfl rfl rfl
  | pollScript a steady timed count since h =>
    cases a with
    | panic p => exact hcrashed rfl rfl
    | _ => exact hm.of_quiet h rfl rfl rfl rfl rfl
  | dispatch d mode h =>
    exact hm.of_quiet h rfl rfl rfl rfl (d.step_measures w.surroundings w.workplace).batchesDrained
  | call i d mode h =>
    exact hm.of_quiet h rfl rfl rfl rfl (d.stepCall_measures w.surroundings w.workplace i).batchesDrained
  | sum count since h =>
    intro _
    have hbefore : w.drainCount = before := by
      simpa [h, ConsumerPhase.hasMeasured] using hm (by simp [hasCrashed, h, ConsumerPhase.hasCrashed])
    rw [← hbefore]
    exact (Metrics.Recorder.batchesDrained_emit_drained ..).trans (by rw [hsum count since h]; rfl)
  | leave crashed h =>
    cases crashed with
    | true => exact hcrashed rfl rfl
    | false =>
      intro _
      have hbefore := hm (by simp [hasCrashed, h, ConsumerPhase.hasCrashed])
      rw [h] at hbefore
      exact hbefore
  | fall | crash => exact hcrashed rfl rfl
  | _ => exact hm.of_quiet (by assumption) rfl rfl rfl rfl rfl

/-- Tasks do not measure drains. -/
private theorem drainCount_taskMove {i : Nat} (h : TaskMove w i w') : w'.drainCount = w.drainCount := by
  cases h with
  | answer b r =>
    have hnone : ∀ e ∈ [Metrics.Event.batchSubmitted b.type b.size, .queueDepth w.queue.size],
        e.isDrained = false := by simp [Metrics.Event.isDrained]
    exact Metrics.Recorder.batchesDrained_emitAll _ hnone
  | readOn b intake =>
    have hnone : ∀ e ∈ [Metrics.Event.batchSubmitted b.type b.size, .queueDepth w.queue.size, .lineRead .failed],
        e.isDrained = false := by simp [Metrics.Event.isDrained]
    exact Metrics.Recorder.batchesDrained_emitAll _ hnone
  | read intake =>
    split
    · exact Metrics.Recorder.batchesDrained_emit _ rfl
    · rfl
  | _ => rfl

theorem taskMove (hm : MeasuresDrain before w) (hl : Lifecycle w) {i : Nat} (h : TaskMove w i w') :
    MeasuresDrain before w' := by
  obtain ⟨-, -, -, hev, hc⟩ := h.frame
  have hdrawn : w'.drawn = w.drawn := by rw [drawn, drawn, hev]
  intro hcrash
  have hsame : w'.hasCrashed = w.hasCrashed ∧
      w'.service.consumer.any (·.hasMeasured) = w.service.consumer.any (·.hasMeasured) := by
    rcases hc with hc | ⟨hi, hc⟩
    · simp [hasCrashed, hc]
    · simp [hasCrashed, hc, hl.consumer_eq_none hi, ConsumerPhase.hasCrashed, ConsumerPhase.hasMeasured]
  rw [drainCount_taskMove h, hdrawn, hsame.2]
  exact hm (hsame.1 ▸ hcrash)

theorem step (hm : MeasuresDrain before w) (hl : Lifecycle w)
    (hsum : ∀ count since, w.service.consumer = some (.summing count since) → count = w.drawn.length)
    (a : Action) : MeasuresDrain before (w.step a) := by
  refine step_cases w a (fun j _ => ?_) (fun _ _ _ h => hm.taskMove hl h)
    (fun _ _ h => hm.consumerMove hsum h) fun _ _ _ _ => hm
  obtain ⟨-, -, -, -, hv, hplace, -⟩ := w.spawn_frame j
  rw [MeasuresDrain, hasCrashed, drainCount, drawn, hv, hplace]
  exact hm

end MeasuresDrain

end World

end FailurePipeline
