import FailurePipeline.Proofs.Dispatch.Effects
import FailurePipeline.Proofs.Dispatch.Moves
import FailurePipeline.Proofs.Lists
import FailurePipeline.Proofs.Metrics.Totals
import FailurePipeline.Proofs.Storage.Objects

/-!
# Figures that are kept twice

The statistics and the metrics of a pipeline keep the same figures, each in its own way (`Figure`): a dispatch that
moves one of them measures an event that moves the other as much (`Workplace.Advances`), whether handlers and
acknowledgers succeed, fail or panic, and whether a store takes an object or not.
-/

namespace FailurePipeline

/-- A figure that both the statistics and the metrics keep. -/
inductive Figure where
  | dropped
  | handlerErrors
  | acknowledged
  | acknowledgeErrors
  | batches (t : FailureType)
  | failures (t : FailureType)
  /-- Failures that have been kept as dead letters. -/
  | records
  /-- Octets of the objects in which they have been kept. -/
  | octets
  | lines (s : LineStatus)
  deriving DecidableEq

/-- One for a call that did not succeed. -/
def HandlerStatus.faults : HandlerStatus → Nat
  | .success => 0
  | .error | .panicked => 1

namespace Figure

/-- The counter of a figure that has one only. -/
def counter? : Figure → Option Metrics.Key
  | .dropped | .handlerErrors => none
  | .acknowledged => some .messagesAcknowledged
  | .acknowledgeErrors => some .acknowledgeErrors
  | .batches t => some (.batchesSubmitted t)
  | .failures t => some (.failuresSubmitted t)
  | .records => some .deadLetterRecords
  | .octets => some .deadLetterOctets
  | .lines s => some (.inputLines s)

/-- The counters that keep a figure together. -/
def covers (f : Figure) (k : Metrics.Key) : Bool :=
  match f with
  | .dropped => k.name == "snowdrift_failure_batches_dropped_total"
  | .handlerErrors =>
    k.name == "snowdrift_failure_batches_handled_total" &&
      [HandlerStatus.error, .panicked].any fun s => k.labels.contains ("status", s.name)
  | _ => some k == f.counter?

theorem covers_of_counter? {f : Figure} {k : Metrics.Key} (h : f.counter? = some k) : f.covers = (· == k) := by
  funext k'
  cases f with
  | dropped => simp [counter?] at h
  | handlerErrors => simp [counter?] at h
  | _ => simp [covers, h]

/-- What an event says of a figure. -/
def ofEvent : Figure → Metrics.Event → Nat
  | .dropped, .batchDropped _ => 1
  | .handlerErrors, .batchHandled _ _ status _ => status.faults
  | .acknowledged, .acknowledged count => count
  | .acknowledgeErrors, .acknowledgeFailed => 1
  | .batches t, .batchSubmitted t' _ => if t' = t then 1 else 0
  | .failures t, .batchSubmitted t' count => if t' = t then count else 0
  | .records, .recordsWritten count _ => count
  | .octets, .recordsWritten _ size => size
  | .lines s, .lineRead s' => if s' = s then 1 else 0
  | _, _ => 0

/-- What events say of a figure together. -/
def ofEvents (f : Figure) (es : List Metrics.Event) : Nat := (es.map f.ofEvent).sum

theorem ofEvents_append (f : Figure) (es es' : List Metrics.Event) :
    f.ofEvents (es ++ es') = f.ofEvents es + f.ofEvents es' := by
  simp [ofEvents]

private theorem type_name_inj (t t' : FailureType) : t.name = t'.name ↔ t = t' := by
  cases t <;> cases t' <;> decide

private theorem line_name_inj (s s' : LineStatus) : s.name = s'.name ↔ s = s' := by
  cases s <;> cases s' <;> decide

/-- The counters of a figure move as much as the events say. -/
theorem amount_covers (f : Figure) (e : Metrics.Event) : e.amount f.covers = f.ofEvent e := by
  cases e with
  | batchHandled handler t status duration =>
    simp only [Metrics.Event.amount, Metrics.Event.increments, Metrics.Event.measurements, Metrics.sumWhere]
    cases f <;> cases status <;> simp [covers, counter?, ofEvent, Metrics.Key.batchesHandled,
      Metrics.Key.batchesSubmitted, Metrics.Key.failuresSubmitted, Metrics.Key.messagesAcknowledged,
      Metrics.Key.acknowledgeErrors, Metrics.Key.deadLetterRecords, Metrics.Key.deadLetterOctets,
      Metrics.Key.inputLines, HandlerStatus.name, HandlerStatus.faults]
  | _ =>
    simp only [Metrics.Event.amount, Metrics.Event.increments, Metrics.Event.measurements, Metrics.sumWhere]
    cases f <;> simp [covers, counter?, ofEvent, Metrics.Key.batchesDropped, Metrics.Key.batchesDrained,
      Metrics.Key.batchesSubmitted, Metrics.Key.failuresSubmitted, Metrics.Key.messagesAcknowledged,
      Metrics.Key.acknowledgeErrors, Metrics.Key.deadLetterRecords, Metrics.Key.deadLetterOctets,
      Metrics.Key.inputLines, type_name_inj, line_name_inj]

theorem amounts_covers (f : Figure) (es : List Metrics.Event) : Metrics.amounts f.covers es = f.ofEvents es := by
  unfold Metrics.amounts ofEvents
  rw [List.map_congr_left fun e _ => f.amount_covers e]

end Figure

/-! ### Objects that are put -/

/-- An object that a handler puts into its store. -/
structure Put where
  provider : Provider
  path : ObjectPath
  octets : Bytes
  deriving DecidableEq

namespace Put

/-- What an object that was put says of a figure. -/
def figure : Figure → Put → Nat
  | .octets, p => p.octets.length
  | _, _ => 0

/-- Puts objects one after the other. -/
def all (d : Depot) (puts : List Put) : Except StorageError Depot :=
  puts.foldlM (fun d p => p.provider.put d p.path p.octets) d

theorem all_append {d d' d'' : Depot} {puts puts' : List Put} (h : all d puts = .ok d')
    (h' : all d' puts' = .ok d'') : all d (puts ++ puts') = .ok d'' := by
  unfold all at h h' ⊢
  rw [List.foldlM_append, h]
  exact h'

end Put

/-! ### What handlers have kept -/

/-- How many failures a handler has kept. -/
def Handler.kept (h : Handler) : Nat := (h.sink?.map (·.stats.total)).getD 0

/-- How many failures all handlers have kept. -/
def Registry.kept (r : Registry) : Nat := (r.sinks.map (·.stats.total)).sum

theorem sum_filterMap {α β : Type} (l : List α) (f : α → Option β) (g : β → Nat) :
    ((l.filterMap f).map g).sum = (l.map fun a => ((f a).map g).getD 0).sum := by
  induction l with
  | nil => rfl
  | cons a l ih =>
    cases h : f a with
    | none => simp [h, ih]
    | some b => simp [h, ih]

theorem Registry.kept_eq (r : Registry) : r.kept = ((r.fallback :: r.custom).map Handler.kept).sum :=
  sum_filterMap (r.fallback :: r.custom) (·.sink?) (·.stats.total)

theorem Registry.kept_set {r : Registry} {seat : Seat} {h : Handler} (hs : r.get? seat = some h) (h' : Handler) :
    (r.set h' seat).kept + h.kept = r.kept + h'.kept := by
  rw [kept_eq, kept_eq]
  cases seat with
  | fallback =>
    obtain rfl : r.fallback = h := Option.some.inj hs
    simp only [Registry.set, List.map_cons, List.sum_cons]
    omega
  | custom i =>
    have hset := sum_map_set_add hs h' Handler.kept
    simp only [Registry.set, List.map_cons, List.sum_cons]
    omega

theorem Sink.total_count (k : Sink) (b : Batch) : (k.count b).stats.total = k.stats.total + b.size := by
  unfold Sink.count DeadLetterStats.add DeadLetterStats.total
  cases b.type <;> simp only <;> omega

namespace Workplace

variable {w w' w'' : Workplace}

/-- What the statistics of a workplace say of a figure. -/
def figure (w : Workplace) : Figure → Nat
  | .dropped => w.stats.dropped
  | .handlerErrors => w.stats.handlerErrors
  | .acknowledged => w.stats.acknowledged
  | .acknowledgeErrors => w.stats.acknowledgeErrors
  | .records => w.registry.kept
  | _ => 0

/-- What is measured in between, and the objects that are put, account for what the statistics say. -/
structure Advances (w w' : Workplace) (es : List Metrics.Event) (puts : List Put) : Prop where
  recorder : w'.recorder = w.recorder.emitAll es
  figures : ∀ f, w'.figure f + (puts.map (Put.figure f)).sum = w.figure f + f.ofEvents es
  depot : Put.all w.depot puts = .ok w'.depot

namespace Advances

/-- Neither the statistics nor the metrics move. -/
theorem of_same (hr : w'.recorder = w.recorder) (hf : ∀ f, w'.figure f = w.figure f)
    (hd : w'.depot = w.depot) : Advances w w' [] [] := by
  refine ⟨hr, fun f => ?_, ?_⟩
  · rw [hf]
    rfl
  · rw [hd]
    rfl

theorem trans {es es' : List Metrics.Event} {puts puts' : List Put} (h : Advances w w' es puts)
    (h' : Advances w' w'' es' puts') : Advances w w'' (es ++ es') (puts ++ puts') := by
  refine ⟨?_, fun f => ?_, Put.all_append h.depot h'.depot⟩
  · rw [Metrics.Recorder.emitAll_append, ← h.recorder, h'.recorder]
  · have := h.figures f
    have := h'.figures f
    rw [Figure.ofEvents_append, List.map_append, List.sum_append]
    omega

/-- The statistics move by as much as one event says, and the event is measured. -/
theorem of_emit {e : Metrics.Event} (hr : w'.recorder = w.recorder.emit e) (hd : w'.depot = w.depot)
    (hf : ∀ f, w'.figure f = w.figure f + f.ofEvent e) : Advances w w' [e] [] := by
  refine ⟨hr, fun f => ?_, ?_⟩
  · simp [hf f, Figure.ofEvents]
  · rw [hd]
    rfl

end Advances

variable (w : Workplace) (s : Surroundings) (seat : Seat) (call began : Nat) (b : Batch)

theorem drop_advances : Advances w (w.drop b) [.batchDropped b.type] [] := by
  refine .of_emit rfl rfl fun f => ?_
  cases f <;> simp [figure, drop, emit, Figure.ofEvent]

theorem endAcknowledge_advances : ∃ e, Advances w (w.endAcknowledge call b) [e] [] := by
  unfold endAcknowledge
  cases w.acknowledger.outcome call with
  | ok =>
    refine ⟨.acknowledged b.flagged.length, .of_emit rfl rfl fun f => ?_⟩
    cases f <;> simp [figure, emit, Figure.ofEvent]
  | error reason =>
    refine ⟨.acknowledgeFailed, .of_emit rfl rfl fun f => ?_⟩
    cases f <;> simp [figure, emit, note, Figure.ofEvent]
  | panic p =>
    refine ⟨.acknowledgeFailed, .of_emit rfl rfl fun f => ?_⟩
    cases f <;> simp [figure, emit, note, Figure.ofEvent]

theorem beginCall_advances : Advances w (w.beginCall seat b).1 [] [] := by
  cases hs : w.registry.get? seat with
  | none =>
    have hsame : (w.beginCall seat b).1 = w := by simp [beginCall, hs]
    rw [hsame]
    exact .of_same rfl (fun _ => rfl) rfl
  | some h =>
    rw [beginCall_eq hs]
    have hset := Registry.kept_set hs { h with calls := h.calls + 1 }
    have hsame : Handler.kept { h with calls := h.calls + 1 } = h.kept := rfl
    refine .of_same rfl (fun f => ?_) rfl
    cases f with
    | records =>
      simp only [figure]
      omega
    | _ => rfl

/-- The object that a handler puts into its store when it does its work, if the store takes it. -/
def put? (w : Workplace) (s : Surroundings) (seat : Seat) (b : Batch) : Option Put :=
  match (w.registry.get? seat).bind (·.sink?) with
  | none => none
  | some k =>
    match k.store s w.depot b with
    | .ok _ => some ⟨k.provider, Sink.objectPath s b, DeadLetter.octets b⟩
    | .error _ => none

private theorem perform_advances :
    ∃ es, Advances w (w.perform s seat call b).1 es (w.put? s seat b).toList := by
  cases hs : w.registry.get? seat with
  | none => exact ⟨[], by simpa [perform, put?, hs] using .of_same rfl (fun _ => rfl) rfl⟩
  | some h =>
    cases hw : h.work with
    | scripted delay outcome =>
      exact ⟨[], by simpa [perform, put?, hs, hw, Handler.sink?] using .of_same rfl (fun _ => rfl) rfl⟩
    | log => exact ⟨[], by simpa [perform, put?, hs, hw, Handler.sink?] using .of_same rfl (fun _ => rfl) rfl⟩
    | deadLetter k =>
      have hsink : h.sink? = some k := by simp [Handler.sink?, hw]
      cases hstore : k.store s w.depot b with
      | error e =>
        exact ⟨[], by simpa [perform, put?, hs, hw, hsink, Sink.write, hstore] using .of_same rfl (fun _ => rfl) rfl⟩
      | ok depot =>
        -- The object is in the store, and is measured and counted with the same step.
        have hput : w.put? s seat b = some ⟨k.provider, Sink.objectPath s b, DeadLetter.octets b⟩ := by
          simp [put?, hs, hsink, hstore]
        have hperform : (w.perform s seat call b).1 =
            { w with registry := w.registry.set { h with work := .deadLetter (k.count b) } seat
                     depot := depot
                     recorder := w.recorder.emit (Sink.written b) } := by
          simp [perform, hs, hw, Sink.write, hstore]
        rw [hput, hperform]
        refine ⟨[Sink.written b], rfl, fun f => ?_, ?_⟩
        · have hset := Registry.kept_set hs { h with work := .deadLetter (k.count b) }
          have hold : h.kept = k.stats.total := by simp [Handler.kept, hsink]
          have hnew : Handler.kept { h with work := .deadLetter (k.count b) } = k.stats.total + b.size :=
            k.total_count b
          cases f with
          | records =>
            simp only [figure, Put.figure, Figure.ofEvents, Figure.ofEvent, Sink.written, Option.toList_some,
              List.map_cons, List.map_nil, List.sum_cons, List.sum_nil]
            omega
          | _ => simp [figure, Put.figure, Figure.ofEvents, Figure.ofEvent, Sink.written]
        · unfold Sink.store at hstore
          split at hstore
          · next depot' hok =>
            cases hstore
            simp [Put.all, Provider.put_of_offer hok]
          · simp at hstore

private theorem judge_advances (name : String) (o : Outcome HandlerError) (duration : Duration) :
    ∃ e, Advances w ((w.judge name b o).1.emit (.batchHandled name b.type (w.judge name b o).2 duration)) [e] [] := by
  refine ⟨.batchHandled name b.type (w.judge name b o).2 duration, ?_⟩
  cases o with
  | ok =>
    refine .of_emit rfl rfl fun f => ?_
    cases f <;> simp [figure, emit, judge, Figure.ofEvent, HandlerStatus.faults]
  | error e =>
    refine .of_emit rfl rfl fun f => ?_
    cases f <;> simp [figure, emit, judge, note, Figure.ofEvent, HandlerStatus.faults]
  | panic p =>
    refine .of_emit rfl rfl fun f => ?_
    cases f <;> simp [figure, emit, judge, note, Figure.ofEvent, HandlerStatus.faults]

/-- The end of a call counts and measures that it has not succeeded, if so. -/
theorem endCall_advances : ∃ es, Advances w (w.endCall s seat began call b) es (w.put? s seat b).toList := by
  have hnoted : Advances w (w.note (.ended seat b.id)) [] [] := .of_same rfl (fun _ => rfl) rfl
  obtain ⟨es, hperform⟩ := perform_advances (w.note (.ended seat b.id)) s seat call b
  obtain ⟨e, hjudge⟩ := judge_advances ((w.note (.ended seat b.id)).perform s seat call b).1 b
    (((w.registry.get? seat).map (·.name)).getD "") ((w.note (.ended seat b.id)).perform s seat call b).2
    (.ofMillis (s.now - began))
  have hall := (hnoted.trans hperform).trans hjudge
  rw [List.nil_append, List.nil_append, List.append_nil] at hall
  exact ⟨es ++ [e], hall⟩

end Workplace

namespace Dispatch

open Workplace (Advances)

variable (d : Dispatch) (s : Surroundings) (w : Workplace)

/-- Between the calls of handlers no object is put. -/
theorem step_advances : ∃ es, Advances w (d.step s w).1 es [] := by
  cases d.step_move s w with
  | drop _ _ _ hw =>
    rw [hw]
    exact ⟨_, w.drop_advances d.batch⟩
  | answer began call _ hw =>
    rw [hw]
    obtain ⟨e, he⟩ := w.endAcknowledge_advances call d.batch
    exact ⟨[e], he⟩
  | _ =>
    rw [‹(d.step s w).1 = _›]
    exact ⟨[], .of_same rfl (fun _ => rfl) rfl⟩

/-- The object that is put with a step of the call at a place, if one is. -/
def put? (i : Nat) : Option Put :=
  match d.phase with
  | .calling calls =>
    match calls[i]? with
    | some c =>
      match c.phase with
      | .running _ _ => if c.canStep s w then w.put? s c.seat d.batch else none
      | _ => none
    | none => none
  | _ => none

theorem stepCall_advances (i : Nat) : ∃ es, Advances w (d.stepCall s w i).1 es (d.put? s w i).toList := by
  have hsame : ∃ es, Advances w w es [] := ⟨[], .of_same rfl (fun _ => rfl) rfl⟩
  obtain ⟨b, phase⟩ := d
  cases phase with
  | calling calls =>
    simp only [stepCall, put?]
    cases hc : calls[i]? with
    | none => exact hsame
    | some c =>
      obtain ⟨seat, phase⟩ := c
      simp only
      cases phase with
      | ready => exact ⟨[], w.beginCall_advances seat b⟩
      | running began call =>
        simp only
        split
        · exact w.endCall_advances s seat call began b
        · exact hsame
      | ended => exact hsame
  | _ => exact hsame

end Dispatch

end FailurePipeline
