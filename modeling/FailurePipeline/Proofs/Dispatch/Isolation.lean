import FailurePipeline.Proofs.Dispatch.Run

/-!
# Handlers do not disturb one another

Two workplaces that differ only in how one scripted handler ends its calls go through the same dispatch: after
the same turns the same calls have begun and ended, the other handlers have ended theirs alike, the stores and
the acknowledger are the same, and of the counters only that of the handlers' errors may differ
(`Alike.run`).  The notes in the journal are the same but for the mishaps, and the recorder is left out, since
it counts the outcomes too.
-/

namespace FailurePipeline

/-- The handler with other outcomes, if it is a scripted one. -/
def Handler.withOutcomes (f : Nat → Outcome HandlerError) (h : Handler) : Handler :=
  { h with
      work := match h.work with
        | .scripted delay _ => .scripted delay f
        | work => work }

def Registry.withOutcomes (r : Registry) (seat : Seat) (f : Nat → Outcome HandlerError) : Registry :=
  match r.get? seat with
  | some h => r.set (h.withOutcomes f) seat
  | none => r

/-- The workplace, but with other outcomes for the calls of the handler at one place. -/
def Workplace.withOutcomes (w : Workplace) (seat : Seat) (f : Nat → Outcome HandlerError) : Workplace :=
  { w with registry := w.registry.withOutcomes seat f }

def Note.isMishap : Note → Bool
  | .mishap _ => true
  | _ => false

/-- The counters but for that of the handlers' errors. -/
def DispatchStats.sansErrors (s : DispatchStats) : DispatchStats := { s with handlerErrors := 0 }

namespace Handler

variable (h : Handler) (f : Nat → Outcome HandlerError)

@[simp] theorem withOutcomes_name : (h.withOutcomes f).name = h.name := rfl

@[simp] theorem withOutcomes_calls : (h.withOutcomes f).calls = h.calls := rfl

@[simp] theorem withOutcomes_delay : (h.withOutcomes f).delay = h.delay := by
  cases hw : h.work <;> simp [withOutcomes, delay, hw]

@[simp] theorem withOutcomes_takes (b : Batch) : (h.withOutcomes f).takes b = h.takes b := rfl

end Handler

theorem Registry.get?_withOutcomes (r : Registry) (seat : Seat) (f : Nat → Outcome HandlerError) (s : Seat) :
    (r.withOutcomes seat f).get? s =
      if s = seat then (r.get? s).map (·.withOutcomes f) else r.get? s := by
  rw [withOutcomes]
  split
  · next h hs =>
    rw [get?_set hs]
    split
    · next he => simp [he, hs]
    · rfl
  · next hs =>
    split
    · next he => simp [he, hs]
    · rfl

/-! ### Registries that answer alike -/

namespace Registry

private theorem select_congr {b : Batch} {hs hs' : List Handler}
    (h : hs.map (·.takes b) = hs'.map (·.takes b)) (k : Nat) : select b k hs = select b k hs' := by
  induction hs generalizing hs' k with
  | nil =>
    cases hs' with
    | nil => rfl
    | cons => simp at h
  | cons c cs ih =>
    cases hs' with
    | nil => simp at h
    | cons c' cs' =>
      simp only [List.map_cons, List.cons.injEq] at h
      simp only [select, h.1, ih h.2]

/-- Where a batch goes depends only on what the handlers answer. -/
theorem resolve_congr {r r' : Registry} {b : Batch}
    (h : ∀ s, (r.get? s).map (·.takes b) = (r'.get? s).map (·.takes b)) : r.resolve b = r'.resolve b := by
  have hcustom : r.custom.map (·.takes b) = r'.custom.map (·.takes b) := by
    apply List.ext_getElem?
    intro i
    rw [List.getElem?_map, List.getElem?_map]
    exact h (.custom i)
  have hfallback : r.fallback.takes b = r'.fallback.takes b := by simpa [get?] using h .fallback
  rw [resolve, resolve, select_congr hcustom, hfallback]

end Registry

/-! ### Workplaces that differ in the outcomes of one handler -/

/-- The workplaces are the same but for how the calls of one handler end, and for what follows from that alone.
-/
structure Alike (seat : Seat) (f : Nat → Outcome HandlerError) (v w : Workplace) : Prop where
  handlers : ∀ s, v.registry.get? s =
    if s = seat then (w.registry.get? s).map (·.withOutcomes f) else w.registry.get? s
  acknowledger : v.acknowledger = w.acknowledger
  depot : v.depot = w.depot
  stats : v.stats.sansErrors = w.stats.sansErrors
  journal : v.journal.filter (!·.isMishap) = w.journal.filter (!·.isMishap)

namespace Alike

variable {seat : Seat} {f : Nat → Outcome HandlerError} {v w : Workplace}

theorem withOutcomes (w : Workplace) (seat : Seat) (f : Nat → Outcome HandlerError) :
    Alike seat f (w.withOutcomes seat f) w where
  handlers := Registry.get?_withOutcomes w.registry seat f
  acknowledger := rfl
  depot := rfl
  stats := rfl
  journal := rfl

/-- What handlers are asked, and how long they take, is the same. -/
theorem map_get? {α : Type} (h : Alike seat f v w) {g : Handler → α}
    (hg : ∀ c : Handler, g (c.withOutcomes f) = g c) (s : Seat) :
    (v.registry.get? s).map g = (w.registry.get? s).map g := by
  rw [h.handlers s]
  split
  · cases w.registry.get? s <;> simp [hg]
  · rfl

theorem resolve (h : Alike seat f v w) (b : Batch) : v.registry.resolve b = w.registry.resolve b :=
  Registry.resolve_congr (h.map_get? fun c => c.withOutcomes_takes f b)

theorem canStep (h : Alike seat f v w) (c : Call) (s : Surroundings) : c.canStep s v = c.canStep s w := by
  have := h.map_get? (fun c => c.withOutcomes_delay f) c.seat
  cases hp : c.phase <;> simp [Call.canStep, hp, this]

private theorem openingNotes_withOutcomes (c : Handler) (b : Batch) :
    Workplace.openingNotes (c.withOutcomes f) b = Workplace.openingNotes c b := by
  cases hw : c.work <;> simp [Workplace.openingNotes, Handler.withOutcomes, hw]

/-- The handlers of both workplaces at one place, if there are any. -/
private theorem handlers_cases (h : Alike seat f v w) (s : Seat) :
    (v.registry.get? s = none ∧ w.registry.get? s = none) ∨
      ∃ c, w.registry.get? s = some c ∧ v.registry.get? s = some (if s = seat then c.withOutcomes f else c) := by
  rw [h.handlers s]
  cases w.registry.get? s with
  | none => simp
  | some c =>
    refine .inr ⟨c, rfl, ?_⟩
    split <;> rfl

/-- Setting the handler at one place the same way on both sides keeps the workplaces alike. -/
private theorem set_handlers (h : Alike seat f v w) {s : Seat} {c : Handler} (g : Handler → Handler)
    (hg : (g c).withOutcomes f = g (c.withOutcomes f)) (hc : w.registry.get? s = some c)
    (hv : v.registry.get? s = some (if s = seat then c.withOutcomes f else c)) (s' : Seat) :
    (v.registry.set (g (if s = seat then c.withOutcomes f else c)) s).get? s' =
      if s' = seat then ((w.registry.set (g c) s).get? s').map (·.withOutcomes f)
      else (w.registry.set (g c) s).get? s' := by
  rw [Registry.get?_set hv, Registry.get?_set hc]
  by_cases hs' : s' = s
  · subst hs'
    by_cases hseat : s' = seat <;> simp [hseat, hg]
  · simpa [hs'] using h.handlers s'

theorem beginCall (h : Alike seat f v w) (s : Seat) (b : Batch) :
    Alike seat f (v.beginCall s b).1 (w.beginCall s b).1 ∧ (v.beginCall s b).2 = (w.beginCall s b).2 := by
  rcases h.handlers_cases s with ⟨hv, hw⟩ | ⟨c, hw, hv⟩
  · simpa [Workplace.beginCall, hv, hw] using h
  · have hcalls : (if s = seat then c.withOutcomes f else c).calls = c.calls := by split <;> rfl
    have hopen : Workplace.openingNotes (if s = seat then c.withOutcomes f else c) b =
        Workplace.openingNotes c b := by
      split
      · exact openingNotes_withOutcomes c b
      · rfl
    rw [Workplace.beginCall_eq hv, Workplace.beginCall_eq hw, hopen]
    refine ⟨⟨?_, h.acknowledger, h.depot, h.stats, ?_⟩, hcalls⟩
    · exact h.set_handlers (fun c => { c with calls := c.calls + 1 }) rfl hw hv
    · simp [List.filter_append, h.journal]

/-- A handler does its work alike; the handlers at other places end it alike, too. -/
private theorem perform (h : Alike seat f v w) (sur : Surroundings) (s : Seat) (call : Nat) (b : Batch) :
    Alike seat f (v.perform sur s call b).1 (w.perform sur s call b).1 ∧
      (s ≠ seat → v.outcome sur s call b = w.outcome sur s call b) := by
  rcases h.handlers_cases s with ⟨hv, hw⟩ | ⟨c, hw, hv⟩
  · simpa [Workplace.outcome, Workplace.perform, hv, hw] using h
  · -- Other outcomes change the work of a scripted handler only.
    cases hwork : c.work with
    | scripted delay g =>
      have hscripted : ∃ g', (if s = seat then c.withOutcomes f else c).work = .scripted delay g' ∧
          (s ≠ seat → g' = g) := by
        split
        · next hs => exact ⟨f, by simp [Handler.withOutcomes, hwork], fun hne => absurd hs hne⟩
        · exact ⟨g, hwork, fun _ => rfl⟩
      obtain ⟨g', hg', heq⟩ := hscripted
      simp only [Workplace.outcome, Workplace.perform, hv, hw, hwork, hg']
      exact ⟨h, fun hs => by rw [heq hs]⟩
    | log =>
      have hlog : (if s = seat then c.withOutcomes f else c).work = .log := by
        split <;> simp [Handler.withOutcomes, hwork]
      simpa [Workplace.outcome, Workplace.perform, hv, hw, hwork, hlog] using h
    | deadLetter k =>
      have hsame : (if s = seat then c.withOutcomes f else c) = c := by
        split
        · simp only [Handler.withOutcomes, hwork]
          exact congrArg (fun work => { c with work := work }) hwork.symm
        · rfl
      simp only [Workplace.outcome, Workplace.perform, hv, hw, hsame, hwork, Sink.write, h.depot]
      cases k.store sur w.depot b with
      | error e => exact ⟨h, fun _ => rfl⟩
      | ok depot =>
        refine ⟨⟨?_, h.acknowledger, rfl, h.stats, h.journal⟩, fun _ => rfl⟩
        have hg : ({ c with work := .deadLetter (k.count b) } : Handler).withOutcomes f =
            { c with work := .deadLetter (k.count b) } := rfl
        have := h.set_handlers (fun c => { c with work := .deadLetter (k.count b) }) rfl hw hv
        simpa [hsame] using this

theorem endCall (h : Alike seat f v w) (sur : Surroundings) (s : Seat) (began call : Nat) (b : Batch) :
    Alike seat f (v.endCall sur s began call b) (w.endCall sur s began call b) := by
  obtain ⟨hp, -⟩ := h.perform sur s call b
  have hcomplaint : ∀ name o, (Workplace.complaint b name o).filter (!·.isMishap) = [] := by
    intro name o
    cases o <;> rfl
  constructor
  · rw [Workplace.endCall_registry, Workplace.endCall_registry]
    exact hp.handlers
  · rw [Workplace.endCall_acknowledger, Workplace.endCall_acknowledger, h.acknowledger]
  · rw [Workplace.endCall_depot, Workplace.endCall_depot, hp.depot]
  · rw [Workplace.endCall_stats, Workplace.endCall_stats]
    simpa [DispatchStats.sansErrors] using h.stats
  · obtain ⟨name, hv⟩ := v.endCall_journal sur s call began b
    obtain ⟨name', hw⟩ := w.endCall_journal sur s call began b
    rw [hv, hw]
    simp [List.filter_append, List.filter_cons, hcomplaint, h.journal]

theorem endAcknowledge (h : Alike seat f v w) (call : Nat) (b : Batch) :
    Alike seat f (v.endAcknowledge call b) (w.endAcknowledge call b) := by
  obtain ⟨hvr, hvd, hva⟩ := v.endAcknowledge_frame call b
  obtain ⟨hwr, hwd, hwa⟩ := w.endAcknowledge_frame call b
  constructor
  · rw [hvr, hwr]
    exact h.handlers
  · rw [hva, hwa, h.acknowledger]
  · rw [hvd, hwd, h.depot]
  · rw [Workplace.endAcknowledge_stats, Workplace.endAcknowledge_stats, h.acknowledger]
    have := h.stats
    simp only [DispatchStats.sansErrors, DispatchStats.mk.injEq] at this ⊢
    split <;> simp [this]
  · rw [Workplace.endAcknowledge_journal, Workplace.endAcknowledge_journal, h.acknowledger]
    simp [List.filter_append, h.journal]

/-! ### The same turns -/

private theorem stepCall (h : Alike seat f v w) (d : Dispatch) (s : Surroundings) (i : Nat) :
    Alike seat f (d.stepCall s v i).1 (d.stepCall s w i).1 ∧ (d.stepCall s v i).2 = (d.stepCall s w i).2 := by
  obtain ⟨b, phase⟩ := d
  cases phase with
  | calling calls =>
    simp only [Dispatch.stepCall]
    cases hi : calls[i]? with
    | none => exact ⟨h, rfl⟩
    | some c =>
      obtain ⟨place, cp⟩ := c
      simp only [h.canStep]
      split
      · cases cp with
        | ready =>
          obtain ⟨hb, hcall⟩ := h.beginCall place b
          exact ⟨hb, by simp only [Call.step, hcall]⟩
        | running began call => exact ⟨h.endCall s place began call b, rfl⟩
        | ended => exact ⟨h, rfl⟩
      · exact ⟨h, rfl⟩
  | _ => exact ⟨h, rfl⟩

private theorem route (h : Alike seat f v w) (d : Dispatch) :
    Alike seat f (d.route v).1 (d.route w).1 ∧ (d.route v).2 = (d.route w).2 := by
  simp only [Dispatch.route, h.resolve]
  split
  · exact ⟨h, rfl⟩
  · split
    · exact ⟨h, rfl⟩
    · refine ⟨⟨h.handlers, h.acknowledger, h.depot, ?_, h.journal⟩, rfl⟩
      have := h.stats
      simp only [Workplace.drop, Workplace.emit, DispatchStats.sansErrors, DispatchStats.mk.injEq] at this ⊢
      simp [this]
    · exact ⟨h, rfl⟩

private theorem step (h : Alike seat f v w) (d : Dispatch) (s : Surroundings) :
    Alike seat f (d.step s v).1 (d.step s w).1 ∧ (d.step s v).2 = (d.step s w).2 := by
  obtain ⟨b, phase⟩ := d
  have hcan : (⟨b, phase⟩ : Dispatch).canStep s v = (⟨b, phase⟩ : Dispatch).canStep s w := by
    cases phase <;> simp [Dispatch.canStep, h.acknowledger]
  simp only [Dispatch.step, hcan]
  split
  · cases phase with
    | routing => exact h.route _
    | acknowledging =>
      simp only
      split
      · exact ⟨h, rfl⟩
      · refine ⟨⟨h.handlers, ?_, h.depot, h.stats, ?_⟩, ?_⟩
        · simp [Workplace.beginAcknowledge, h.acknowledger]
        · simp [Workplace.beginAcknowledge, Workplace.note, List.filter_append, h.journal]
        · simp [Workplace.beginAcknowledge, h.acknowledger]
    | awaiting began call => exact ⟨h.endAcknowledge call b, rfl⟩
    | counting =>
      refine ⟨⟨h.handlers, h.acknowledger, h.depot, ?_, h.journal⟩, rfl⟩
      have := h.stats
      simp only [Workplace.countProcessed, DispatchStats.sansErrors, DispatchStats.mk.injEq] at this ⊢
      simp [this]
    | _ => exact ⟨h, rfl⟩
  · exact ⟨h, rfl⟩

open Dispatch in
theorem turn (h : Alike seat f v w) (d : Dispatch) (t : Turn) :
    Alike seat f (turn (v, d) t).1 (turn (w, d) t).1 ∧ (turn (v, d) t).2 = (turn (w, d) t).2 := by
  cases t with
  | call i s => exact h.stepCall d s i
  | own s => exact h.step d s

open Dispatch in
/-- With a turn the same call ends, and it ends alike unless it is one of the handler's whose outcomes differ.
-/
theorem verdict? (h : Alike seat f v w) (d : Dispatch) (t : Turn) :
    (verdict? (v, d) t).map (·.1) = (verdict? (w, d) t).map (·.1) ∧
      (verdict? (v, d) t).filter (·.1 != seat) = (verdict? (w, d) t).filter (·.1 != seat) := by
  obtain ⟨b, phase⟩ := d
  cases t with
  | own s => exact ⟨rfl, rfl⟩
  | call i s =>
    simp only [Dispatch.verdict?]
    split
    · split
      · next place began call hi =>
        rw [h.canStep]
        split
        · refine ⟨rfl, ?_⟩
          by_cases hs : place = seat
          · simp [hs, Option.filter]
          · rw [(h.perform s place call b).2 hs]
        · exact ⟨rfl, rfl⟩
      · exact ⟨rfl, rfl⟩
    · exact ⟨rfl, rfl⟩

open Dispatch in
/-- The same turns keep the workplaces alike, and take the dispatch through the same phases. -/
theorem run (h : Alike seat f v w) (d : Dispatch) (turns : List Turn) :
    Alike seat f (run (v, d) turns).1 (run (w, d) turns).1 ∧ (run (v, d) turns).2 = (run (w, d) turns).2 := by
  induction turns generalizing v w d with
  | nil => exact ⟨h, rfl⟩
  | cons t ts ih =>
    obtain ⟨h', hd⟩ := h.turn d t
    simp only [Dispatch.run, List.foldl_cons]
    generalize Dispatch.turn (v, d) t = p at h' hd
    generalize Dispatch.turn (w, d) t = q at h' hd
    obtain ⟨v', d'⟩ := p
    obtain ⟨w', e'⟩ := q
    obtain rfl : d' = e' := hd
    exact ih h' d'

open Dispatch in
theorem verdicts (h : Alike seat f v w) (d : Dispatch) (turns : List Turn) :
    (verdicts (v, d) turns).map (·.1) = (verdicts (w, d) turns).map (·.1) ∧
      (verdicts (v, d) turns).filter (·.1 != seat) = (verdicts (w, d) turns).filter (·.1 != seat) := by
  induction turns generalizing v w d with
  | nil => exact ⟨rfl, rfl⟩
  | cons t ts ih =>
    obtain ⟨h', hd⟩ := h.turn d t
    obtain ⟨hplaces, hothers⟩ := h.verdict? d t
    simp only [Dispatch.verdicts, List.map_append, List.filter_append, ← Option.toList_map,
      ← Option.toList_filter, hplaces, hothers]
    generalize Dispatch.turn (v, d) t = p at h' hd
    generalize Dispatch.turn (w, d) t = q at h' hd
    obtain ⟨v', d'⟩ := p
    obtain ⟨w', e'⟩ := q
    obtain rfl : d' = e' := hd
    obtain ⟨ihplaces, ihothers⟩ := ih h' d'
    rw [ihplaces, ihothers]
    exact ⟨rfl, rfl⟩

end Alike

end FailurePipeline
