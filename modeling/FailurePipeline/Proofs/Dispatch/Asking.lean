import FailurePipeline.Proofs.Dispatch.Isolation
import FailurePipeline.Proofs.Dispatch.Moves

/-!
# Handlers that panic when they are asked

Before a batch is handed to anybody, handlers are asked whether they take it.  The route is lost exactly if one that
is asked panics instead of answering (`Registry.exists_resolve_error_iff`).  What handlers answer does not change
while batches are dispatched (`Dispatch.step_answersAs`).
-/

namespace FailurePipeline

namespace Handler

variable {h : Handler} {b : Batch}

/-- A handler panics when it is asked about a batch: whether it is enabled or, if it is, whether it supports the
batch. -/
def Panics (h : Handler) (b : Batch) : Prop :=
  (∃ p, h.enabled = .error p) ∨ h.enabled = .ok true ∧ ∃ p, h.supports b = .error p

theorem exists_takes_error_iff : (∃ p, h.takes b = .error p) ↔ h.Panics b := by
  unfold takes Panics
  split
  · next he => simp [he]
  · next he =>
    have hne : h.enabled ≠ .ok true := he
    simp [hne]

end Handler

namespace Registry

variable {r r' : Registry} {b : Batch}

/-- Somebody who is asked about a batch panics.  All custom handlers are asked, and the fallback if none of them
takes the batch. -/
def Panics (r : Registry) (b : Batch) : Prop :=
  (∃ h ∈ r.custom, h.Panics b) ∨ (∀ h ∈ r.custom, h.takes b = .ok false) ∧ r.fallback.Panics b

/-- The dispatch of a batch ends with a panic: the batch is not empty, so that handlers are asked. -/
def Fells (r : Registry) (b : Batch) : Prop := b.isEmpty = false ∧ r.Panics b

private theorem exists_select_error_iff (b : Batch) (hs : List Handler) (k : Nat) :
    (∃ p, select b k hs = .error p) ↔ ∃ h ∈ hs, h.Panics b := by
  induction hs generalizing k with
  | nil => simp [select]
  | cons h hs ih =>
    simp only [List.mem_cons, exists_eq_or_imp]
    rw [← ih (k + 1), ← Handler.exists_takes_error_iff]
    cases ht : h.takes b with
    | error p => simp [select, ht, bind, Except.bind]
    | ok taken => cases hr : select b (k + 1) hs <;> simp [select, ht, hr, bind, Except.bind]

private theorem select_eq_nil_iff (b : Batch) (hs : List Handler) (k : Nat) :
    select b k hs = .ok [] ↔ ∀ h ∈ hs, h.takes b = .ok false := by
  induction hs generalizing k with
  | nil => simp [select]
  | cons h hs ih =>
    rw [List.forall_mem_cons, ← ih (k + 1)]
    cases ht : h.takes b with
    | error p => simp [select, ht, bind, Except.bind]
    | ok taken => cases taken <;> cases hr : select b (k + 1) hs <;> simp [select, ht, hr, bind, Except.bind]

/-- The route of a batch is lost exactly if somebody who is asked panics. -/
theorem exists_resolve_error_iff : (∃ p, r.resolve b = .error p) ↔ r.Panics b := by
  rw [Panics, ← exists_select_error_iff b r.custom 0, ← select_eq_nil_iff b r.custom 0,
    ← Handler.exists_takes_error_iff]
  cases hs : select b 0 r.custom with
  | error p => simp [resolve, hs, bind, Except.bind]
  | ok is =>
    cases is with
    | cons i is => simp [resolve, hs, bind, Except.bind]
    | nil => cases ht : r.fallback.takes b <;> simp [resolve, hs, ht, bind, Except.bind]

theorem not_panics_of_answers (h : r.Answers b) : ¬ r.Panics b := by
  rw [← exists_resolve_error_iff]
  obtain ⟨route, hroute, -⟩ := count_seats_of_resolve h
  simp [hroute]

/-! ### What handlers answer stays the same -/

/-- The handlers at the same places give the same answers. -/
def AnswersAs (r r' : Registry) : Prop := ∀ s b, (r.get? s).map (·.takes b) = (r'.get? s).map (·.takes b)

namespace AnswersAs

theorem refl (r : Registry) : r.AnswersAs r := fun _ _ => rfl

theorem trans {r'' : Registry} (h : r.AnswersAs r') (h' : r'.AnswersAs r'') : r.AnswersAs r'' :=
  fun s b => (h s b).trans (h' s b)

theorem panics_iff (h : r.AnswersAs r') : r.Panics b ↔ r'.Panics b := by
  rw [← exists_resolve_error_iff, resolve_congr fun s => h s b, exists_resolve_error_iff]

theorem fells_iff (h : r.AnswersAs r') : r.Fells b ↔ r'.Fells b := and_congr_right fun _ => h.panics_iff

/-- A handler is replaced by one that gives the same answers. -/
private theorem of_get? {s : Seat} {h : Handler} (h' : Handler) (hs : r.get? s = some h) (ht : h'.takes = h.takes)
    (hall : ∀ s', r'.get? s' = if s' = s then some h' else r.get? s') : r'.AnswersAs r := by
  intro s' b
  rw [hall s']
  split
  · next he => simp [he, hs, ht]
  · rfl

end AnswersAs

end Registry

namespace Workplace

theorem beginCall_answersAs (w : Workplace) (s : Seat) (b : Batch) :
    (w.beginCall s b).1.registry.AnswersAs w.registry := by
  cases hs : w.registry.get? s with
  | none =>
    simp only [beginCall, hs]
    exact .refl _
  | some h =>
    rw [beginCall_eq hs]
    exact .of_get? { h with calls := h.calls + 1 } hs rfl (Registry.get?_set hs _)

theorem endCall_answersAs (w : Workplace) (sur : Surroundings) (s : Seat) (began call : Nat) (b : Batch) :
    (w.endCall sur s began call b).registry.AnswersAs w.registry := by
  rw [endCall_registry]
  cases hs : w.registry.get? s with
  | none =>
    simp only [perform, hs]
    exact .refl _
  | some h =>
    obtain ⟨work, -, hall⟩ := w.perform_registry sur s call b hs
    exact .of_get? { h with work := work } hs rfl hall

end Workplace

namespace Dispatch

theorem step_answersAs (d : Dispatch) (s : Surroundings) (w : Workplace) :
    (d.step s w).1.registry.AnswersAs w.registry := by
  cases d.step_move s w with
  | answer began call _ hw =>
    rw [hw, (Workplace.endAcknowledge_frame ..).1]
    exact .refl _
  | _ =>
    rw [‹(d.step s w).1 = _›]
    exact .refl _

theorem stepCall_answersAs (d : Dispatch) (s : Surroundings) (w : Workplace) (i : Nat) :
    (d.stepCall s w i).1.registry.AnswersAs w.registry := by
  cases d.stepCall_move s w i with
  | idle _ hw =>
    rw [hw]
    exact .refl _
  | begins calls seat _ _ hw =>
    rw [hw]
    exact w.beginCall_answersAs seat d.batch
  | ends calls seat began call _ _ _ hw =>
    rw [hw]
    exact w.endCall_answersAs s seat began call d.batch

end Dispatch

end FailurePipeline
