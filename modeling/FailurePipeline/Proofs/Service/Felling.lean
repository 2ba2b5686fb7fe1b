import FailurePipeline.Proofs.Dispatch.Asking
import FailurePipeline.Proofs.Dispatch.Keeping
import FailurePipeline.Proofs.Pipeline.Panics
import FailurePipeline.Proofs.Service.Draining

/-!
# What fells the consumer

A dispatch whose handlers have not answered may still fall; one whose handlers have answered does not
(`Dispatch.step_unanswered`).  So the batches that a standing consumer has dispatched are all harmless but for one that
is `unanswered` (`Standing`), and a consumer that has fallen did so over the last batch that it dispatched (`Fallen`).
-/

namespace FailurePipeline

namespace Dispatch

/-- The batch of a dispatch whose handlers have not all answered. -/
def unanswered (d : Dispatch) : List Batch :=
  match d.phase with
  | .routing | .crashed _ => [d.batch]
  | _ => []

variable {d : Dispatch} {s : Surroundings} {w : Workplace} {p : Panic}

theorem eq_batch_of_mem_unanswered {b : Batch} (h : b ∈ d.unanswered) : b = d.batch := by
  unfold unanswered at h
  split at h
  · exact List.mem_singleton.1 h
  · exact List.mem_singleton.1 h
  · simp at h

private theorem not_fells_of_resolve {b : Batch} {r : Route} (hr : w.registry.resolve b = .ok r) :
    ¬ w.registry.Fells b := by
  rintro ⟨-, hpanics⟩
  obtain ⟨p, hp⟩ := Registry.exists_resolve_error_iff.2 hpanics
  simp [hr] at hp

/-- With a step, handlers do not become unanswered; they answer only to batches that do not fell the dispatch. -/
theorem step_unanswered (d : Dispatch) (s : Surroundings) (w : Workplace) :
    (d.step s w).2.unanswered = d.unanswered ∨
      (d.step s w).2.unanswered = [] ∧ d.unanswered = [d.batch] ∧ ¬ w.registry.Fells d.batch := by
  cases d.step_move s w with
  | idle _ _ hd => exact .inl (by rw [hd])
  | skip h he _ hd =>
    refine .inr ⟨by rw [hd]; rfl, by simp [unanswered, h], fun hf => ?_⟩
    simp [hf.1] at he
  | crash p h _ _ _ hd => exact .inl (by simp [hd, unanswered, h])
  | drop h _ hr _ hd => exact .inr ⟨by rw [hd]; rfl, by simp [unanswered, h], not_fells_of_resolve hr⟩
  | route r h _ hr _ _ hd => exact .inr ⟨by rw [hd]; rfl, by simp [unanswered, h], not_fells_of_resolve hr⟩
  | gather calls h _ _ hd => exact .inl (by simp [hd, unanswered, h])
  | pass h _ _ hd => exact .inl (by simp [hd, unanswered, h])
  | acknowledge h _ _ hd => exact .inl (by simp [hd, unanswered, h])
  | answer began call h _ hd => exact .inl (by simp [hd, unanswered, h])
  | count h _ hd => exact .inl (by simp [hd, unanswered, h])

/-- Only a batch that fells dispatches ends one with a panic. -/
theorem fells_of_step_crashed (hp : (d.step s w).2.phase = .crashed p) :
    d.phase = .crashed p ∨ w.registry.Fells d.batch := by
  cases d.step_move s w with
  | idle _ _ hd => exact .inl (hd ▸ hp)
  | crash q _ he hr _ _ => exact .inr ⟨by simpa using he, Registry.exists_resolve_error_iff.1 ⟨q, hr⟩⟩
  | _ => simp [‹(d.step s w).2 = _›] at hp

/-- A call that goes on neither answers a question nor asks one. -/
theorem stepCall_asks (d : Dispatch) (s : Surroundings) (w : Workplace) (i : Nat) :
    (d.stepCall s w i).2.batch = d.batch ∧ (d.stepCall s w i).2.unanswered = d.unanswered ∧
      ∀ p, (d.stepCall s w i).2.phase = .crashed p → d.phase = .crashed p := by
  cases d.stepCall_move s w i with
  | idle _ _ hd =>
    rw [hd]
    exact ⟨rfl, rfl, fun _ => id⟩
  | begins calls seat h _ _ hd =>
    rw [hd]
    exact ⟨rfl, by simp [unanswered, h], by simp⟩
  | ends calls seat began call h _ _ _ hd =>
    rw [hd]
    exact ⟨rfl, by simp [unanswered, h], by simp⟩

end Dispatch

/-- The batch that a consumer is dispatching and whose handlers have not all answered. -/
def ConsumerPhase.unanswered : ConsumerPhase → List Batch
  | .dispatching d _ => d.unanswered
  | _ => []

namespace World

variable {w w' : World} {r : Registry}

def unanswered (w : World) : List Batch := (w.service.consumer.map (·.unanswered)).getD []

/-! ### Answers -/

theorem answersAs_of_consumerMove (h : ConsumerMove w w') :
    w'.workplace.registry.AnswersAs w.workplace.registry := by
  cases h with
  | dispatch d mode h => exact d.step_answersAs w.surroundings w.workplace
  | call i d mode h => exact d.stepCall_answersAs w.surroundings w.workplace i
  | launch | close => split <;> exact .refl _
  | ask asked => cases asked <;> exact .refl _
  | hear a => cases a <;> exact .refl _
  | pollScript a => cases a <;> exact .refl _
  | _ => exact .refl _

/-- Nothing that happens changes what handlers answer. -/
theorem step_answersAs (w : World) (a : Action) : (w.step a).workplace.registry.AnswersAs w.workplace.registry := by
  refine step_cases (P := fun v => v.workplace.registry.AnswersAs w.workplace.registry) w a (fun j _ => ?_)
    (fun i v _ h => ?_) (fun _ _ h => answersAs_of_consumerMove h) fun _ _ _ _ => .refl _
  · rw [(w.spawn_frame j).2.2.2.2.2.1]
    exact .refl _
  · obtain ⟨recorder, hplace⟩ := h.workplace
    rw [hplace]
    exact .refl _

theorem run_answersAs (w : World) (actions : List Action) :
    (w.run actions).workplace.registry.AnswersAs w.workplace.registry := by
  induction actions generalizing w with
  | nil => exact .refl _
  | cons a as ih => exact (ih (w.step a)).trans (w.step_answersAs a)

/-! ### As long as the consumer stands -/

/-- Of the batches that have been dispatched, only one whose handlers have not all answered may fell dispatches; it does
if its dispatch has ended with a panic. -/
structure Standing (r : Registry) (w : World) : Prop where
  harmless : ∃ done, w.dispatched = done ++ w.unanswered ∧ ∀ b ∈ done, ¬ r.Fells b
  fells : ∀ d mode p, w.service.consumer = some (.dispatching d mode) → d.phase = .crashed p → r.Fells d.batch
  underway : ∀ d mode, w.service.consumer = some (.dispatching d mode) → d.batch ∈ w.dispatched

namespace Standing

theorem fresh (hv : w.service = {}) : Standing r w where
  harmless := ⟨[], by simp [dispatched, unanswered, hv], by simp⟩
  fells d mode p h := by simp [hv] at h
  underway d mode h := by simp [hv] at h

private theorem unanswered_of_isFree {p : ConsumerPhase} (hp : w.service.consumer = some p) (hfree : p.IsFree) :
    w.unanswered = [] := by
  cases p with
  | dispatching d mode =>
    have hd : d.phase = .finished := hfree
    simp [unanswered, hp, ConsumerPhase.unanswered, Dispatch.unanswered, hd]
  | _ => simp [unanswered, hp, ConsumerPhase.unanswered]

/-- No batch is dispatched before or after. -/
private theorem of_quiet (hs : Standing r w) (hsame : w'.unanswered = w.unanswered)
    (hno : ∀ d mode, w'.service.consumer ≠ some (.dispatching d mode)) (hd : w'.dispatched = w.dispatched) :
    Standing r w' where
  harmless := by
    rw [hd, hsame]
    exact hs.harmless
  fells d mode _ h := absurd h (hno d mode)
  underway d mode h := absurd h (hno d mode)

/-- A batch goes to dispatch. -/
private theorem of_dispatch (hs : Standing r w) (hnow : w.unanswered = []) {b : Batch} {mode : ConsumerMode}
    (hp' : w'.service.consumer = some (.dispatching { batch := b } mode))
    (hd : w'.dispatched = w.dispatched ++ [b]) : Standing r w' where
  harmless := by
    obtain ⟨done, hdone, hall⟩ := hs.harmless
    have hthen : w'.unanswered = [b] := by
      simp [unanswered, hp', ConsumerPhase.unanswered, Dispatch.unanswered]
    exact ⟨done, by rw [hd, hdone, hnow, hthen, List.append_nil], hall⟩
  fells d mode _ h hd := by
    cases hp'.symm.trans h
    simp at hd
  underway d mode h := by
    cases hp'.symm.trans h
    simp [hd]

/-- The dispatch under way goes on. -/
private theorem of_going_on (hs : Standing r w) (ha : w.workplace.registry.AnswersAs r) {d d' : Dispatch}
    {mode : ConsumerMode} (h : w.service.consumer = some (.dispatching d mode))
    (h' : w'.service.consumer = some (.dispatching d' mode)) (hd : w'.dispatched = w.dispatched)
    (hb : d'.batch = d.batch)
    (hu : d'.unanswered = d.unanswered ∨
      d'.unanswered = [] ∧ d.unanswered = [d.batch] ∧ ¬ w.workplace.registry.Fells d.batch)
    (hc : ∀ p, d'.phase = .crashed p → d.phase = .crashed p ∨ w.workplace.registry.Fells d.batch) :
    Standing r w' where
  harmless := by
    obtain ⟨done, hdone, hall⟩ := hs.harmless
    have hnow : w.unanswered = d.unanswered := by simp [unanswered, h, ConsumerPhase.unanswered]
    have hthen : w'.unanswered = d'.unanswered := by simp [unanswered, h', ConsumerPhase.unanswered]
    rw [hd, hdone, hnow, hthen]
    rcases hu with hu | ⟨hu, hasked, hno⟩
    · exact ⟨done, by rw [hu], hall⟩
    · refine ⟨done ++ [d.batch], by rw [hu, hasked, List.append_nil], fun b hb => ?_⟩
      rcases List.mem_append.1 hb with hb | hb
      · exact hall b hb
      · rw [List.mem_singleton.1 hb, ← ha.fells_iff]
        exact hno
  fells e mode' p he hp := by
    cases h'.symm.trans he
    rw [hb]
    rcases hc p hp with hp | hf
    · exact hs.fells d mode p h hp
    · exact ha.fells_iff.1 hf
  underway e mode' he := by
    cases h'.symm.trans he
    rw [hb, hd]
    exact hs.underway d mode h

theorem of_dispatchStep (hs : Standing r w) (ha : w.workplace.registry.AnswersAs r) (h : w.DispatchStep w')
    (hcalm : w'.hasCrashed = false) : Standing r w' := by
  cases h with
  | apart hc hplace hd =>
    rcases hc with hc | ⟨hnone, hc⟩
    · refine ⟨?_, hc ▸ hs.fells, hd ▸ hc ▸ hs.underway⟩
      rw [hd, unanswered, hc]
      exact hs.harmless
    · refine hs.of_quiet ?_ (by simp [hc]) hd
      simp [unanswered, hnone, hc, ConsumerPhase.unanswered]
  | rest p p' hp hfree hp' hfree' hno hplace hd =>
    have hsame : w'.unanswered = w.unanswered := by
      rw [unanswered_of_isFree hp hfree, unanswered_of_isFree hp' hfree']
    exact hs.of_quiet hsame (ne_dispatching hp' hno) hd
  | begins p b mode hp hfree hp' hplace hd => exact hs.of_dispatch (unanswered_of_isFree hp hfree) hp' hd
  | goesOn d mode hp hp' hplace hd =>
    exact hs.of_going_on ha hp hp' hd (d.step_batch w.surroundings w.workplace)
      (d.step_unanswered w.surroundings w.workplace) fun _ => Dispatch.fells_of_step_crashed
  | calls i d mode hp hp' hplace hd =>
    obtain ⟨hb, hu, hc⟩ := d.stepCall_asks w.surroundings w.workplace i
    exact hs.of_going_on ha hp hp' hd hb (.inl hu) fun p hp => .inl (hc p hp)
  | panics hp' hplace hd =>
    rcases hp' with hp' | hp' <;> simp [hasCrashed, hp', ConsumerPhase.hasCrashed] at hcalm

theorem step (hs : Standing r w) (hl : Lifecycle w) (ha : w.workplace.registry.AnswersAs r) (a : Action)
    (hc : (w.step a).hasCrashed = false) : Standing r (w.step a) :=
  hs.of_dispatchStep ha (dispatchStep hl a) hc

/-- The batch under way is one that was dispatched last. -/
theorem dispatched_of_unanswered (hs : Standing r w) {d : Dispatch} {mode : ConsumerMode} {p : Panic}
    (h : w.service.consumer = some (.dispatching d mode)) (hd : d.phase = .crashed p) :
    ∃ done, w.dispatched = done ++ [d.batch] ∧ ∀ b ∈ done, ¬ r.Fells b := by
  obtain ⟨done, hdone, hall⟩ := hs.harmless
  have hnow : w.unanswered = [d.batch] := by
    simp [unanswered, h, ConsumerPhase.unanswered, Dispatch.unanswered, hd]
  exact ⟨done, hnow ▸ hdone, hall⟩

end Standing

/-! ### Once it has fallen -/

/-- The consumer has fallen over the batch that was dispatched last.  Those before were harmless, and since then these
have been acknowledged and no others. -/
def Fallen (r : Registry) (before : List (Nat × List Message)) (w : World) : Prop :=
  ∃ done b, w.dispatched = done ++ [b] ∧ (∀ c ∈ done, ¬ r.Fells c) ∧ r.Fells b ∧
    w.acknowledged = before ++ done.flatMap Dispatch.acknowledgmentsOf

/-- With the step that fells the consumer and ever after nothing is dispatched or acknowledged. -/
theorem step_of_hasCrashed (hl : Lifecycle w) (a : Action) (hc : (w.step a).hasCrashed = true) :
    (w.step a).dispatched = w.dispatched ∧ (w.step a).acknowledged = w.acknowledged := by
  have hstands : ∀ {p : ConsumerPhase}, (w.step a).service.consumer = some p → p.hasCrashed = false → False := by
    intro p hp hno
    simp [hasCrashed, hp, hno] at hc
  cases dispatchStep hl a with
  | apart _ hplace hd => exact ⟨hd, acknowledged_of_onlyMeasures hplace⟩
  | panics _ hplace hd => exact ⟨hd, acknowledged_of_onlyMeasures hplace⟩
  | rest _ _ _ _ hp' hfree' => simp [hasCrashed_of_isFree hp' hfree'] at hc
  | begins _ _ _ _ _ hp' => exact (hstands hp' rfl).elim
  | goesOn _ _ _ hp' => exact (hstands hp' rfl).elim
  | calls _ _ _ _ hp' => exact (hstands hp' rfl).elim

/-- Where nothing else panics, the consumer stands, or has fallen over a batch. -/
theorem standing_or_fallen {w₀ : World} (hv : w₀.service = {}) (ht : w₀.tasks = []) {actions : List Action}
    (hs : ∀ first, first <+: actions → (w₀.run first).source.isCalm = true) (ha : .crash ∉ actions) :
    ((w₀.run actions).hasCrashed = false → Standing w₀.workplace.registry (w₀.run actions)) ∧
      ((w₀.run actions).hasCrashed = true →
        Fallen w₀.workplace.registry w₀.acknowledged (w₀.run actions)) := by
  induction actions using List.reverseRecOn with
  | nil => exact ⟨fun _ => .fresh hv, fun h => by simp [run, hasCrashed, hv] at h⟩
  | append_singleton as a ih =>
    have hpre : as <+: as ++ [a] := List.prefix_append as [a]
    obtain ⟨hstanding, hfallen⟩ := ih (fun first h => hs first (h.trans hpre)) fun h => ha (hpre.subset h)
    have hlife := (Lifecycle.fresh hv ht).run as
    have hanswers := w₀.run_answersAs as
    rw [run_concat]
    cases hbefore : (w₀.run as).hasCrashed with
    | true =>
      refine ⟨fun hc => ?_, fun hc => ?_⟩
      · simp [hasCrashed_step hlife a hbefore] at hc
      · obtain ⟨hd, hacks⟩ := step_of_hasCrashed hlife a hc
        rw [Fallen, hd, hacks]
        exact hfallen hbefore
    | false =>
      refine ⟨(hstanding hbefore).step hlife hanswers a, fun hc => ?_⟩
      -- The consumer falls with this step, so its dispatch has ended with a panic.
      have hdispatching : ∃ d mode p, (w₀.run as).service.consumer = some (.dispatching d mode) ∧
          d.phase = .crashed p := by
        by_contra hno
        push Not at hno
        have hnot : a ≠ .crash := fun h => ha (by simp [h])
        have hintact := step_hasCrashed (hs as hpre) hno hbefore hnot
        simp [hc] at hintact
      obtain ⟨d, mode, p, hconsumer, hphase⟩ := hdispatching
      obtain ⟨done, hdone, hall⟩ := (hstanding hbefore).dispatched_of_unanswered hconsumer hphase
      obtain ⟨hd, hacks⟩ := step_of_hasCrashed hlife a hc
      have howed : (w₀.run as).owed = Dispatch.acknowledgmentsOf d.batch := by
        simp [owed, hconsumer, ConsumerPhase.owed, Dispatch.owed, hphase]
      have hlaw := (Acknowledges.fresh hv).run (.fresh hv ht) as hbefore
      rw [howed, hdone, List.flatMap_append, List.flatMap_singleton, ← List.append_assoc] at hlaw
      exact ⟨done, d.batch, hd.trans hdone, hall, (hstanding hbefore).fells d mode p hconsumer hphase,
        hacks.trans (List.append_cancel_right hlaw)⟩

end World

end FailurePipeline
