import FailurePipeline.Proofs.Dispatch.Effects
import FailurePipeline.Proofs.Dispatch.Moves

/-!
# A dispatch keeps its batch

Where one handler keeps batches in a store and is the only one to take a batch, the dispatch of the batch puts it
into the store once, or counts an error (`Dispatch.stepCall_keeps`).  No other step of the dispatch has to do with
the stores.
-/

namespace FailurePipeline

theorem Sink.store_of_provider {k k₀ : Sink} (h : k.provider = k₀.provider) (s : Surroundings) (d : Depot)
    (b : Batch) : k.store s d b = k₀.store s d b := by
  simp [store, h]

/-- A handler that keeps batches in the store of a sink. -/
structure Handler.KeepsFor (k₀ : Sink) (h : Handler) : Prop where
  work : ∃ k, h.work = .deadLetter k ∧ k.provider = k₀.provider
  enabled : h.enabled = .ok true
  supports : ∀ b, h.supports b = .ok (k₀.supports b.type)

namespace Registry

/-- The handler at a place keeps batches for a sink, and no other custom handler is there. -/
def Guards (seat : Seat) (k₀ : Sink) (r : Registry) : Prop :=
  match seat with
  | .fallback => r.custom = [] ∧ r.fallback.KeepsFor k₀
  | .custom i => i = 0 ∧ ∃ h, r.custom = [h] ∧ h.KeepsFor k₀

namespace Guards

variable {seat : Seat} {k₀ : Sink} {r : Registry} {b : Batch}

theorem get? (hg : r.Guards seat k₀) : ∃ h, r.get? seat = some h ∧ h.KeepsFor k₀ := by
  cases seat with
  | fallback => exact ⟨r.fallback, rfl, hg.2⟩
  | custom i =>
    obtain ⟨rfl, h, hr, hk⟩ := hg
    exact ⟨h, by simp [Registry.get?, hr], hk⟩

theorem set (hg : r.Guards seat k₀) {h : Handler} (hk : h.KeepsFor k₀) : (r.set h seat).Guards seat k₀ := by
  cases seat with
  | fallback => exact ⟨hg.1, hk⟩
  | custom i =>
    obtain ⟨rfl, old, hr, -⟩ := hg
    exact ⟨rfl, h, by simp [Registry.set, hr], hk⟩

/-- A batch that the sink supports goes to this handler alone. -/
theorem resolve (hg : r.Guards seat k₀) (hk : k₀.supports b.type = true) :
    ∃ route, r.resolve b = .ok route ∧ route ≠ .unroutable ∧ route.seats = [seat] := by
  have htakes : ∀ {h : Handler}, h.KeepsFor k₀ → h.takes b = .ok true := by
    intro h hh
    simp [Handler.takes, hh.enabled, hh.supports, hk]
  cases seat with
  | fallback =>
    refine ⟨.fallback, ?_, nofun, rfl⟩
    simp [Registry.resolve, hg.1, select, htakes hg.2, bind, Except.bind]
  | custom i =>
    obtain ⟨rfl, h, hr, hh⟩ := hg
    refine ⟨.custom [0], ?_, nofun, rfl⟩
    simp [Registry.resolve, hr, select, htakes hh, bind, Except.bind]

end Guards

end Registry

namespace Dispatch

variable {seat : Seat} {k₀ : Sink} {w : Workplace} {s : Surroundings} {d : Dispatch}

/-- A dispatch that calls the handler at a place, and no other. -/
def CallsOnly (seat : Seat) (d : Dispatch) : Prop :=
  match d.phase with
  | .calling calls => ∃ p, calls = [⟨seat, p⟩]
  | .crashed _ => False
  | _ => True

/-- The batch of a dispatch, as long as no handler has dealt with it. -/
def unkept (d : Dispatch) : List Batch :=
  match d.phase with
  | .routing => [d.batch]
  | .calling calls => if calls.all (·.phase == .ended) then [] else [d.batch]
  | _ => []

theorem step_batch (d : Dispatch) (s : Surroundings) (w : Workplace) : (d.step s w).2.batch = d.batch := by
  cases d.step_move s w <;> rw [‹(d.step s w).2 = _›]

/-- The steps of a dispatch between the calls leave handlers and stores alone. -/
theorem step_keeps (hg : w.registry.Guards seat k₀) (hb : d.batch.isEmpty = false)
    (hk : k₀.supports d.batch.type = true) (hd : d.CallsOnly seat) :
    (d.step s w).1.registry = w.registry ∧ (d.step s w).1.depot = w.depot ∧
      (d.step s w).1.stats.handlerErrors = w.stats.handlerErrors ∧ (d.step s w).2.CallsOnly seat ∧
      (d.step s w).2.unkept = d.unkept := by
  obtain ⟨route, hroute, hne, hseats⟩ := hg.resolve hk
  -- The batch is not empty and the handler supports it, so that it is neither skipped nor dropped.
  cases d.step_move s w with
  | idle _ hw hd' =>
    rw [hw, hd']
    exact ⟨rfl, rfl, rfl, hd, rfl⟩
  | skip _ he => simp [hb] at he
  | crash p _ _ hr => simp [hroute] at hr
  | drop _ _ hr =>
    rw [hroute] at hr
    exact absurd (Except.ok.inj hr) hne
  | route r h _ hr _ hw hd' =>
    obtain rfl : route = r := Except.ok.inj (hroute.symm.trans hr)
    rw [hw, hd']
    exact ⟨rfl, rfl, rfl, ⟨.ready, by simp [hseats]⟩, by simp [unkept, h, hseats]⟩
  | gather calls h hall hw hd' =>
    rw [hw, hd']
    have hended : calls.all (·.phase == .ended) = true := by simpa using hall
    exact ⟨rfl, rfl, rfl, trivial, by simp only [unkept, h, hended, if_true]⟩
  | pass h _ hw hd' =>
    rw [hw, hd']
    exact ⟨rfl, rfl, rfl, trivial, by simp [unkept, h]⟩
  | acknowledge h _ hw hd' =>
    rw [hw, hd']
    exact ⟨rfl, rfl, rfl, trivial, by simp [unkept, h]⟩
  | answer began call h hw hd' =>
    obtain ⟨hr, hdepot, -⟩ := Workplace.endAcknowledge_frame w call d.batch
    have hstats : (w.endAcknowledge call d.batch).stats.handlerErrors = w.stats.handlerErrors := by
      rw [Workplace.endAcknowledge_stats]
      split <;> rfl
    rw [hw, hd']
    exact ⟨hr, hdepot, hstats, trivial, by simp [unkept, h]⟩
  | count h hw hd' =>
    rw [hw, hd']
    exact ⟨rfl, rfl, rfl, trivial, by simp [unkept, h]⟩

/-- At the end of its call the handler puts the batch, or fails to, which is counted. -/
private theorem endCall_keeps (hg : w.registry.Guards seat k₀) (s : Surroundings) (call began : Nat) (b : Batch) :
    (w.endCall s seat began call b).registry.Guards seat k₀ ∧
      ((k₀.store s w.depot b = .ok (w.endCall s seat began call b).depot ∧
          (w.endCall s seat began call b).stats.handlerErrors = w.stats.handlerErrors) ∨
        ∃ e, k₀.store s w.depot b = .error e ∧
          (w.endCall s seat began call b).stats.handlerErrors = w.stats.handlerErrors + 1) := by
  obtain ⟨h, hseat, hh⟩ := hg.get?
  obtain ⟨k, hwork, hprovider⟩ := hh.work
  rw [Workplace.endCall_registry, Workplace.endCall_depot, Workplace.endCall_stats]
  simp only [Workplace.outcome, Workplace.perform, hseat, hwork, Sink.write, Sink.store_of_provider hprovider]
  cases hstore : k₀.store s w.depot b with
  | ok depot => exact ⟨hg.set ⟨⟨_, rfl, hprovider⟩, hh.enabled, hh.supports⟩, .inl ⟨rfl, rfl⟩⟩
  | error e => exact ⟨hg, .inr ⟨e, rfl, rfl⟩⟩

/-- What a step of a call does about the stores: nothing, or it puts the batch, or it fails to and counts an error. -/
inductive KeepStep (k₀ : Sink) (s : Surroundings) (w w' : Workplace) (d d' : Dispatch) : Prop
  | leave (hun : d'.unkept = d.unkept) (hdepot : w'.depot = w.depot)
    (he : w'.stats.handlerErrors = w.stats.handlerErrors)
  | put (hun : d.unkept = [d.batch]) (hun' : d'.unkept = []) (hput : k₀.store s w.depot d.batch = .ok w'.depot)
    (he : w'.stats.handlerErrors = w.stats.handlerErrors)
  | fail (e : DeadLetterError) (hun : d.unkept = [d.batch]) (hun' : d'.unkept = [])
    (hput : k₀.store s w.depot d.batch = .error e) (he : w'.stats.handlerErrors = w.stats.handlerErrors + 1)

/-- The only call of such a dispatch. -/
private theorem CallsOnly.eq (hd : d.CallsOnly seat) {calls : List Call} (h : d.phase = .calling calls) {i : Nat}
    {c : Call} (hi : calls[i]? = some c) : i = 0 ∧ c.seat = seat ∧ calls = [c] := by
  rw [CallsOnly, h] at hd
  obtain ⟨p, rfl⟩ := hd
  cases i with
  | zero =>
    obtain rfl := Option.some.inj hi
    exact ⟨rfl, rfl, rfl⟩
  | succ i => simp at hi

theorem stepCall_keeps (hg : w.registry.Guards seat k₀) (hd : d.CallsOnly seat) (i : Nat) :
    (d.stepCall s w i).1.registry.Guards seat k₀ ∧ (d.stepCall s w i).2.CallsOnly seat ∧
      (d.stepCall s w i).2.batch = d.batch ∧
      KeepStep k₀ s w (d.stepCall s w i).1 d (d.stepCall s w i).2 := by
  cases d.stepCall_move s w i with
  | idle _ hw hd' =>
    rw [hw, hd']
    exact ⟨hg, hd, rfl, .leave rfl rfl rfl⟩
  | begins calls place h hi hw hd' =>
    obtain ⟨rfl, rfl, rfl⟩ := hd.eq h hi
    obtain ⟨handler, hseat, hh⟩ := hg.get?
    rw [hw, hd', Workplace.beginCall_eq hseat]
    refine ⟨hg.set ⟨hh.work, hh.enabled, hh.supports⟩, ⟨_, rfl⟩, rfl, .leave ?_ rfl rfl⟩
    simp [unkept, h]
  | ends calls place began call h hi _ hw hd' =>
    obtain ⟨rfl, rfl, rfl⟩ := hd.eq h hi
    have hbefore : d.unkept = [d.batch] := by simp [unkept, h]
    rw [hw, hd']
    obtain ⟨hguards, ⟨hput, he⟩ | ⟨e, hput, he⟩⟩ := endCall_keeps hg s call began d.batch
    · exact ⟨hguards, ⟨_, rfl⟩, rfl, .put hbefore rfl hput he⟩
    · exact ⟨hguards, ⟨_, rfl⟩, rfl, .fail e hbefore rfl hput he⟩

end Dispatch

end FailurePipeline
