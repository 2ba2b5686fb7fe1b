import FailurePipeline.Proofs.Service.Exhausting

/-!
# What handlers can do to the consumer

Whatever handlers and acknowledgers do when they are called, every dispatch comes to its end, its flagged messages are
acknowledged, the consumer takes the next batch, and the service ends through a drain.  Only a handler that panics when
it is asked about a batch ends all that: the consumer falls over the batch (`World.consumer_endures_its_handlers`).
-/

namespace FailurePipeline

namespace World

variable {w₀ : World} {actions : List Action}

/-- What handlers can do to the consumer of a service in a run in which nothing else panics. -/
structure Endures (w₀ : World) (actions : List Action) : Prop where
  /-- As long as the consumer stands, no batch has felled it, and the flagged messages of all batches but the one under
  way have been acknowledged. -/
  standing : (w₀.run actions).hasCrashed = false →
    Standing w₀.workplace.registry (w₀.run actions) ∧
      (w₀.run actions).acknowledged ++ (w₀.run actions).owed =
        w₀.acknowledged ++ (w₀.run actions).dispatched.flatMap Dispatch.acknowledgmentsOf
  /-- If it has fallen, it did so over the batch that was dispatched last, about which a handler panicked when it was
  asked. -/
  fallen : (w₀.run actions).hasCrashed = true →
    Fallen w₀.workplace.registry w₀.acknowledged (w₀.run actions)
  /-- A dispatch comes to its end: the flagged messages of its batch have been acknowledged then, and the consumer is
  back where it takes the next batch. -/
  returns : ∀ d mode, (w₀.run actions).service.consumer = some (.dispatching d mode) →
    ¬ w₀.workplace.registry.Fells d.batch →
    (w₀.run actions).Comes fun v => v.service.consumer = some mode.next ∧
      v.dispatched = (w₀.run actions).dispatched ∧
      v.acknowledged = w₀.acknowledged ++ v.dispatched.flatMap Dispatch.acknowledgmentsOf
  /-- Unless a handler panics when it is asked about its batch; then the consumer is gone, and the service has
  terminated. -/
  falls : ∀ d mode, (w₀.run actions).service.consumer = some (.dispatching d mode) →
    w₀.workplace.registry.Fells d.batch →
    (w₀.run actions).Comes fun v => v.service.consumer = some (.gone true) ∧ v.service.state = .terminated
  /-- Where no batch fells it that it holds or that its source holds for it, the consumer goes on until there is nothing
  left for it; if nobody else receives, all that was accepted has been dispatched then. -/
  goesOn : ∀ p, (w₀.run actions).service.consumer = some p → p.hasCrashed = false →
    (∀ b ∈ (w₀.run actions).unanswered ++ (w₀.run actions).ahead, ¬ w₀.workplace.registry.Fells b) →
    (w₀.run actions).Comes fun v => AtRest v ∧
      (Sole (w₀.run actions) → p.hasExpired = false → v.dispatched = (w₀.run actions).queue.accepted)
  /-- A service that has terminated and whose consumer has not fallen has drained its source. -/
  drained : (w₀.run actions).hasStarted = true → (w₀.run actions).service.state = .terminated →
    (w₀.run actions).hasCrashed = false →
    (w₀.run actions).service.consumer = some (.gone false) ∧
      ∃ c : Course, c.ending.isSome = true ∧ c.expired = true ∧
        (w₀.run actions).service.events = c.events w₀.config.shutdownAwait

theorem consumer_endures_its_handlers (hv : w₀.service = {}) (ht : w₀.tasks = []) (hs : w₀.source.isCalm = true)
    (ha : ∀ a ∈ actions, a.isCalm = true) : Endures w₀ actions := by
  have hlife := (Lifecycle.fresh hv ht).run actions
  have hacks := fun actions => (Acknowledges.fresh hv).run (.fresh hv ht) actions
  have hanswers := w₀.run_answersAs actions
  have hnot : .crash ∉ actions := fun h => by simpa [Action.isCalm] using ha _ h
  have hcalm := fun first (h : first <+: actions) => run_source_isCalm hs fun a hin => ha a (h.subset hin)
  -- Nothing panics by itself: the consumer stands, or has fallen over a batch of its own.
  obtain ⟨hstanding, hfallen⟩ := standing_or_fallen hv ht hcalm hnot
  have hdispatching : ∀ {d mode}, (w₀.run actions).service.consumer = some (.dispatching d mode) →
      (w₀.run actions).hasCrashed = false := by
    intro d mode h
    simp [hasCrashed, h, ConsumerPhase.hasCrashed]
  refine ⟨fun hc => ⟨hstanding hc, hacks actions hc⟩, hfallen, ?returns, ?falls, ?goesOn, ?drained⟩
  case returns =>
    intro d mode h hb
    have hsafe : d.IsSafe w₀.workplace.registry := by
      refine (hstanding (hdispatching h)).isSafe h rfl fun c hc => ?_
      have hheld : c ∈ d.unanswered := by simpa [unanswered, h, ConsumerPhase.unanswered] using hc
      exact d.eq_batch_of_mem_unanswered hheld ▸ hb
    obtain ⟨more, hmore, place, s, hback⟩ := comes_back h (Dispatch.isSafe_congr hanswers hsafe)
    have hstands : ((w₀.run actions).run more).hasCrashed = false ∧ ((w₀.run actions).run more).owed = [] := by
      rw [hback]
      cases mode <;> exact ⟨rfl, rfl⟩
    have hlaw := hacks (actions ++ more)
    rw [run_append] at hlaw
    refine ⟨more, hmore, by rw [hback]; rfl, by rw [hback]; rfl, ?_⟩
    rw [← hlaw hstands.1, hstands.2, List.append_nil]
  case falls =>
    intro d mode h hb
    have hstands := hstanding (hdispatching h)
    refine comes_to_fall h (fun hnone => ?_) (hanswers.fells_iff.2 hb)
    obtain ⟨done, hdone, hall⟩ := hstands.harmless
    have hin := hstands.underway d mode h
    have hnow : (w₀.run actions).unanswered = [] := by simp [unanswered, h, ConsumerPhase.unanswered, hnone]
    rw [hdone, hnow, List.append_nil] at hin
    exact hall _ hin hb
  case goesOn => exact fun p => comes_to_rest_of_harmless hv ht hcalm hnot
  case drained =>
    intro hstart hterm hc
    have hgone := hlife.gone_of_terminated hstart hterm fun h => by
      simp [hasCrashed, h, ConsumerPhase.hasCrashed] at hc
    exact ⟨hgone, exists_course_of_gone hv ht hgone⟩

private def flaggedFailure : Failures := .processing [⟨.unknown, ⟨"", "", ⟨0, 0⟩⟩, ⟨none⟩, true⟩]

/-- One handler panics whenever it is called and another one when it is asked about a line that could not be read; the
acknowledger panics, too. -/
def troubledPipeline : World :=
  { queue := { capacity := 2, free := 2 }
    workplace :=
      { registry :=
          { fallback := .log
            custom :=
              [{ name := "broken", enabled := .ok true, supports := fun _ => .ok true
                 work := .scripted 0 fun _ => .panic .other },
                { name := "picky", enabled := .ok true
                  supports := fun b => if b.type = .input then .error .other else .ok false, work := .log }] }
        acknowledger := { outcome := fun _ => .panic .other } } }

/-- Two batches are sent, and the service is stopped while the first one is dispatched. -/
def twoBatchesAndStop : List Action :=
  [.spawn .start, .spawn (.send flaggedFailure), .spawn (.send flaggedFailure), .spawn .stop, .task 0, .task 0] ++
    List.replicate 3 (.task 1) ++ List.replicate 3 (.task 2) ++ List.replicate 4 .consumer ++
    [.task 3, .task 3, .call 0, .call 0] ++ List.replicate 10 .consumer ++ [.call 0, .call 0] ++
    List.replicate 7 .consumer ++ [.pass 60000] ++ List.replicate 3 .consumer

/-- Both batches go through, although every call ends with a panic. -/
theorem consumer_endures_its_handlers_in_twoBatchesAndStop :
    troubledPipeline.service = {} ∧ troubledPipeline.tasks = [] ∧ troubledPipeline.source.isCalm = true ∧
      (∀ a ∈ twoBatchesAndStop, a.isCalm = true) ∧ Endures troubledPipeline twoBatchesAndStop ∧
      (troubledPipeline.run twoBatchesAndStop).service.consumer = some (.gone false) ∧
      (troubledPipeline.run twoBatchesAndStop).workplace.stats =
        { processed := 2, handlerErrors := 2, acknowledgeErrors := 2 } := by
  have hcalm : ∀ a ∈ twoBatchesAndStop, a.isCalm = true := by decide +kernel
  exact ⟨rfl, rfl, rfl, hcalm, consumer_endures_its_handlers rfl rfl rfl hcalm, by decide +kernel,
    by decide +kernel⟩

/-- Here no call ends with a panic, but the handler panics when it is asked. -/
def askedInVain : World :=
  { queue := { capacity := 2, free := 2 }
    workplace :=
      { registry :=
          { fallback := .log
            custom :=
              [{ name := "picky", enabled := .ok true, supports := fun _ => .error .other
                 work := .scripted 0 fun _ => .ok }] } } }

/-- The consumer goes on until its dispatch has ended, and beyond. -/
def twoBatchesAndQuestion : List Action :=
  [.spawn .start, .spawn (.send flaggedFailure), .spawn (.send flaggedFailure), .task 0, .task 0] ++
    List.replicate 3 (.task 1) ++ List.replicate 3 (.task 2) ++ List.replicate 6 .consumer

/-- The consumer falls over the first batch, whose flagged message is not acknowledged, and the second one is never
dispatched. -/
theorem question_fells_the_consumer :
    (∀ a ∈ twoBatchesAndQuestion, a.isCalm = true) ∧
      (askedInVain.run twoBatchesAndQuestion).service.consumer = some (.gone true) ∧
      (askedInVain.run twoBatchesAndQuestion).service.state = .terminated ∧
      (askedInVain.run twoBatchesAndQuestion).dispatched.flatMap (·.flagged) ≠ [] ∧
      (askedInVain.run twoBatchesAndQuestion).acknowledged = [] ∧
      (askedInVain.run twoBatchesAndQuestion).queue.buffer.map (·.id) = [2] ∧
      ∀ more, ((askedInVain.run twoBatchesAndQuestion).run more).dispatched.map (·.id) = [1] := by
  have hgone : (askedInVain.run twoBatchesAndQuestion).service.consumer = some (.gone true) := by decide +kernel
  have hlife := (Lifecycle.fresh (w := askedInVain) rfl rfl).run twoBatchesAndQuestion
  have honly : (askedInVain.run twoBatchesAndQuestion).dispatched.map (·.id) = [1] := by decide +kernel
  refine ⟨by decide +kernel, hgone, by decide +kernel, by decide +kernel, by decide +kernel, by decide +kernel,
    fun more => ?_⟩
  rw [dispatched, events_run_of_through hlife hgone rfl more]
  exact honly

end World

end FailurePipeline
