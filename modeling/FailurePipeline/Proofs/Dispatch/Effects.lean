import FailurePipeline.Dispatch.Basic

/-!
# What a workplace goes through

What each operation of a `Workplace` leaves as it was, and what it adds to the journal and to the counters.  A
call of a handler changes its own place of the registry, the stores and the recorder; only the end of a call
counts, and only if the call did not succeed (`endCall_stats`).
-/

namespace FailurePipeline

def Outcome.isOk {ε : Type} : Outcome ε → Bool
  | .ok => true
  | _ => false

/-- One for a call that did not succeed. -/
def Outcome.faults {ε : Type} : Outcome ε → Nat
  | .ok => 0
  | _ => 1

/-- The calls of the acknowledger among some notes: the number of the batch and the messages. -/
def Note.acknowledgments (notes : List Note) : List (Nat × List Message) :=
  notes.filterMap fun
    | .acknowledging batch messages => some (batch, messages)
    | _ => none

@[simp] theorem Note.acknowledgments_append (ns ms : List Note) :
    acknowledgments (ns ++ ms) = acknowledgments ns ++ acknowledgments ms := List.filterMap_append

@[simp] theorem Note.acknowledgments_nil : acknowledgments [] = [] := rfl

namespace Failures

/-- Flagged are the messages of failures of processing that say so, and no others. -/
theorem mem_flagged {fs : Failures} {m : Message} :
    m ∈ fs.flagged ↔ ∃ ps, fs = .processing ps ∧ ∃ f ∈ ps, f.acknowledge = true ∧ f.failed = m := by
  cases fs <;> simp [flagged, and_assoc]

@[simp] theorem flagged_processing_nil : (processing []).flagged = [] := rfl

/-- A message is flagged once for each failure, in their order. -/
@[simp] theorem flagged_processing_cons (f : ProcessingFailure) (fs : List ProcessingFailure) :
    (processing (f :: fs)).flagged =
      if f.acknowledge then f.failed :: (processing fs).flagged else (processing fs).flagged := by
  cases hf : f.acknowledge <;> simp [flagged, hf]

end Failures

/-! ### Places of a registry -/

namespace Registry

theorem get?_set {r : Registry} {s : Seat} {old : Handler} (hs : r.get? s = some old) (h : Handler)
    (s' : Seat) : (r.set h s).get? s' = if s' = s then some h else r.get? s' := by
  cases s with
  | fallback => cases s' <;> simp [set, get?]
  | custom i =>
    have hi : i < r.custom.length := (List.getElem?_eq_some_iff.1 hs).1
    cases s' with
    | fallback => simp [set, get?]
    | custom j =>
      simp only [set, get?, List.getElem?_set, hi, if_true, Seat.custom.injEq]
      by_cases hij : i = j
      · simp [hij]
      · simp [hij, Ne.symm hij]

end Registry

/-- A handler does the same work as before, but for what it has kept. -/
inductive SameWork (w₀ w : HandlerWork) : Prop where
  | same (e : w = w₀)
  | keeps (k₀ k : Sink) (e₀ : w₀ = .deadLetter k₀) (e : w = .deadLetter k)

theorem SameWork.trans {a b c : HandlerWork} (hab : SameWork a b) (hbc : SameWork b c) : SameWork a c := by
  cases hab with
  | same e => exact e ▸ hbc
  | keeps k₀ k e₀ e =>
    cases hbc with
    | same e' => exact .keeps k₀ k e₀ (e' ▸ e)
    | keeps _ k' _ e' => exact .keeps k₀ k' e₀ e'

namespace Workplace

/-- What the handler at a place notes when its call begins. -/
def openingNotes (h : Handler) (b : Batch) : List Note :=
  match h.work with
  | .log => (failureLines b).map .failure
  | _ => []

/-- What is noted of a handler that did not succeed. -/
def complaint (b : Batch) (name : String) : Outcome HandlerError → List Note
  | .ok => []
  | .error e => [.mishap (.handlerFailed b.id name e)]
  | .panic p => [.mishap (.handlerPanicked b.id name p)]

/-- What is noted of an acknowledger that did not succeed. -/
def acknowledgeComplaint (b : Batch) : Outcome String → List Note
  | .ok => []
  | .error reason =>
    [.mishap (.acknowledgeFailed b.id b.flagged.length (.rejected b.flagged.length reason))]
  | .panic p => [.mishap (.acknowledgerPanicked b.id b.flagged.length p)]

/-- A note on a failure or a mishap, which tells of no call. -/
def isRemark : Note → Bool
  | .failure _ | .mishap _ => true
  | _ => false

theorem isRemark_of_mem_openingNotes {h : Handler} {b : Batch} {n : Note} (hn : n ∈ openingNotes h b) :
    isRemark n := by
  unfold openingNotes at hn
  split at hn
  · obtain ⟨l, -, rfl⟩ := List.mem_map.1 hn
    rfl
  · simp at hn

theorem isRemark_of_mem_complaint {b : Batch} {name : String} {o : Outcome HandlerError} {n : Note}
    (hn : n ∈ complaint b name o) : isRemark n := by
  cases o <;> simp [complaint] at hn <;> subst hn <;> rfl

theorem isRemark_of_mem_acknowledgeComplaint {b : Batch} {o : Outcome String} {n : Note}
    (hn : n ∈ acknowledgeComplaint b o) : isRemark n := by
  cases o <;> simp [acknowledgeComplaint] at hn <;> subst hn <;> rfl

/-- Remarks tell of no call. -/
theorem count_of_remarks {notes : List Note} (h : ∀ n ∈ notes, isRemark n) (s : Seat) (id : Nat) :
    notes.count (.began s id) = 0 ∧ notes.count (.ended s id) = 0 ∧ Note.acknowledgments notes = [] := by
  refine ⟨?_, ?_, ?_⟩
  · exact List.count_eq_zero.2 fun hm => by simpa [isRemark] using h _ hm
  · exact List.count_eq_zero.2 fun hm => by simpa [isRemark] using h _ hm
  · rw [Note.acknowledgments, List.filterMap_eq_nil_iff]
    intro n hn
    have := h n hn
    cases n <;> simp [isRemark] at this ⊢

/-! ### The beginning of a call -/

private theorem foldl_note_failure (w : Workplace) (lines : List FailureLine) :
    lines.foldl (fun w line => w.note (.failure line)) w =
      { w with journal := w.journal ++ lines.map .failure } := by
  induction lines generalizing w with
  | nil => simp
  | cons l ls ih =>
    rw [List.foldl_cons, ih]
    simp [note]

theorem beginCall_eq {w : Workplace} {s : Seat} {h : Handler} (hs : w.registry.get? s = some h)
    (b : Batch) :
    w.beginCall s b =
      ({ w with registry := w.registry.set { h with calls := h.calls + 1 } s
                journal := w.journal ++ .began s b.id :: openingNotes h b }, h.calls) := by
  simp only [beginCall, hs, openingNotes]
  cases hw : h.work with
  | log =>
    simp only
    rw [foldl_note_failure]
    simp [note]
  | _ => simp [note]

/-! ### The end of a call -/

variable (w : Workplace) (s : Surroundings) (seat : Seat) (call began : Nat) (b : Batch)

/-- How the call of a handler ends. -/
def outcome : Outcome HandlerError := (w.perform s seat call b).2

private theorem perform_note (n : Note) :
    (w.note n).perform s seat call b =
      ((w.perform s seat call b).1.note n, (w.perform s seat call b).2) := by
  simp only [perform, note]
  split
  · rfl
  · split
    · rfl
    · rfl
    · split <;> rfl

private theorem judge_eq (name : String) (o : Outcome HandlerError) :
    (w.judge name b o).1 =
      { w with journal := w.journal ++ complaint b name o
               stats := { w.stats with
                 handlerErrors := w.stats.handlerErrors + o.faults } } := by
  cases o <;> simp [judge, complaint, note, Outcome.faults]

theorem perform_frame :
    (w.perform s seat call b).1.journal = w.journal ∧ (w.perform s seat call b).1.stats = w.stats ∧
      (w.perform s seat call b).1.acknowledger = w.acknowledger := by
  simp only [perform]
  split
  · exact ⟨rfl, rfl, rfl⟩
  · split
    · exact ⟨rfl, rfl, rfl⟩
    · exact ⟨rfl, rfl, rfl⟩
    · split <;> exact ⟨rfl, rfl, rfl⟩

theorem outcome_of_scripted {h : Handler} (hs : w.registry.get? seat = some h) {delay : Nat}
    {f : Nat → Outcome HandlerError} (hw : h.work = .scripted delay f) : w.outcome s seat call b = f call := by
  simp [outcome, perform, hs, hw]

theorem outcome_of_log {h : Handler} (hs : w.registry.get? seat = some h) (hw : h.work = .log) :
    w.outcome s seat call b = .ok := by
  simp [outcome, perform, hs, hw]

/-- A handler changes at most what it has kept. -/
theorem perform_registry {h : Handler} (hs : w.registry.get? seat = some h) :
    ∃ work, SameWork h.work work ∧
      ∀ s', (w.perform s seat call b).1.registry.get? s' =
        if s' = seat then some { h with work := work } else w.registry.get? s' := by
  have hsame : ∀ s', w.registry.get? s' = if s' = seat then some { h with work := h.work } else
      w.registry.get? s' := by
    intro s'
    split
    · next he => rw [he, hs]
    · rfl
  simp only [perform, hs]
  split
  · exact ⟨h.work, .same rfl, hsame⟩
  · exact ⟨h.work, .same rfl, hsame⟩
  · next k hw =>
    split
    · next k' depot recorder hk => exact ⟨.deadLetter k', .keeps k k' hw rfl, fun s' => Registry.get?_set hs _ s'⟩
    · exact ⟨h.work, .same rfl, hsame⟩

/-- Apart from what the handler itself does, the end of a call adds to the journal, the counter of errors and
the recorder. -/
theorem endCall_eq :
    ∃ name recorder, w.endCall s seat began call b =
      { (w.perform s seat call b).1 with
          journal := w.journal ++ .ended seat b.id :: complaint b name (w.outcome s seat call b)
          stats := { w.stats with
            handlerErrors := w.stats.handlerErrors + (w.outcome s seat call b).faults }
          acknowledger := w.acknowledger
          recorder := recorder } := by
  obtain ⟨hj, hs, ha⟩ := perform_frame w s seat call b
  refine ⟨((w.registry.get? seat).map (·.name)).getD "", (w.endCall s seat began call b).recorder, ?_⟩
  simp only [endCall, perform_note, judge_eq]
  simp [note, emit, outcome, hj, hs, ha]

theorem endCall_journal :
    ∃ name, (w.endCall s seat began call b).journal =
      w.journal ++ .ended seat b.id :: complaint b name (w.outcome s seat call b) := by
  obtain ⟨name, recorder, h⟩ := endCall_eq w s seat call began b
  exact ⟨name, by rw [h]⟩

theorem endCall_stats :
    (w.endCall s seat began call b).stats =
      { w.stats with
          handlerErrors := w.stats.handlerErrors + (w.outcome s seat call b).faults } := by
  obtain ⟨name, recorder, h⟩ := endCall_eq w s seat call began b
  rw [h]

theorem endCall_acknowledger : (w.endCall s seat began call b).acknowledger = w.acknowledger := by
  obtain ⟨name, recorder, h⟩ := endCall_eq w s seat call began b
  rw [h]

theorem endCall_registry :
    (w.endCall s seat began call b).registry = (w.perform s seat call b).1.registry := by
  obtain ⟨name, recorder, h⟩ := endCall_eq w s seat call began b
  rw [h]

theorem endCall_depot :
    (w.endCall s seat began call b).depot = (w.perform s seat call b).1.depot := by
  obtain ⟨name, recorder, h⟩ := endCall_eq w s seat call began b
  rw [h]

/-! ### Acknowledging and counting -/

theorem endAcknowledge_journal :
    (w.endAcknowledge call b).journal =
      w.journal ++ acknowledgeComplaint b (w.acknowledger.outcome call) := by
  rw [endAcknowledge]
  cases w.acknowledger.outcome call <;> simp [acknowledgeComplaint, note, emit]

theorem endAcknowledge_stats :
    (w.endAcknowledge call b).stats =
      if (w.acknowledger.outcome call).isOk then
        { w.stats with acknowledged := w.stats.acknowledged + b.flagged.length }
      else { w.stats with acknowledgeErrors := w.stats.acknowledgeErrors + 1 } := by
  rw [endAcknowledge]
  cases w.acknowledger.outcome call <;> simp [note, emit, Outcome.isOk]

theorem endAcknowledge_frame :
    (w.endAcknowledge call b).registry = w.registry ∧ (w.endAcknowledge call b).depot = w.depot ∧
      (w.endAcknowledge call b).acknowledger = w.acknowledger := by
  rw [endAcknowledge]
  cases w.acknowledger.outcome call <;> simp [note, emit]

end Workplace

end FailurePipeline
