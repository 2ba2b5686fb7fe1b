import FailurePipeline.Proofs.Service.Draining
import FailurePipeline.Proofs.Service.Handing

/-!
# A drain ends with the first poll that brings nothing

Whatever the source answers, whatever the handlers do and whenever the service is stopped: a consumer that ends
without a panic has dispatched what its source gave it, in order, has asked for nothing more after it saw the stop
or heard that nothing can come, and has drained until the first poll that brought nothing (`BoundedDrain`).
-/

namespace FailurePipeline

def ConsumerEvent.polled? : ConsumerEvent → Option Nat
  | .polled limit => some limit
  | _ => none

namespace Course

variable (limit : Nat) (c : Course)

/-- What is picked from the notes of a course is picked turn by turn and poll by poll. -/
private theorem filterMap_events {α : Type} (f : ConsumerEvent → Option α) (hs : f .sawShutdown = none)
    (ha : f .asked = none) (hx : f .exhausted = none) :
    (c.events limit).filterMap f =
      c.received.flatMap (fun b => [.received b, .dispatched b].filterMap f) ++
        c.drawn.flatMap (fun b => [.polled limit, .drew b, .dispatched b].filterMap f) ++
        (if c.expired then [.polled limit, .expired] else []).filterMap f := by
  have hending : (c.ending.elim [] SteadyEnd.events).filterMap f = [] := by
    rcases c.ending with - | (- | -) | - <;> simp [SteadyEnd.events, hs, ha, hx]
  have hturns : (turns c.received).filterMap f =
      c.received.flatMap fun b => [.received b, .dispatched b].filterMap f := by
    rw [turns, List.filterMap_flatMap]
    exact congrArg c.received.flatMap (funext fun b => List.filterMap_cons_none ha)
  rw [events, List.filterMap_append, List.filterMap_append, List.filterMap_append, hending, hturns, polls,
    List.filterMap_flatMap, List.nil_append, List.append_assoc]

theorem received_events : (c.events limit).filterMap ConsumerEvent.received? = c.received := by
  rw [filterMap_events limit c _ rfl rfl rfl]
  cases c.expired <;> simp [List.filterMap_cons, ConsumerEvent.received?]

theorem drawn_events : (c.events limit).filterMap ConsumerEvent.drew? = c.drawn := by
  rw [filterMap_events limit c _ rfl rfl rfl]
  cases c.expired <;> simp [List.filterMap_cons, ConsumerEvent.drew?]

theorem dispatched_events : (c.events limit).filterMap ConsumerEvent.dispatched? = c.received ++ c.drawn := by
  rw [filterMap_events limit c _ rfl rfl rfl]
  cases c.expired <;> simp [List.filterMap_cons, ConsumerEvent.dispatched?]

theorem polled_events (hx : c.expired = true) :
    (c.events limit).filterMap ConsumerEvent.polled? = List.replicate (c.drawn.length + 1) limit := by
  have hnone : c.received.flatMap (fun _ => ([] : List Nat)) = [] := List.flatMap_eq_nil_iff.2 fun _ _ => rfl
  have hdrawn : c.drawn.flatMap (fun _ => [limit]) = List.replicate c.drawn.length limit := by
    rw [← List.map_eq_flatMap, List.map_const']
  rw [filterMap_events limit c _ rfl rfl rfl]
  simp [List.filterMap_cons, ConsumerEvent.polled?, hx, hnone, hdrawn, List.replicate_succ']

end Course

namespace World

variable {w₀ w : World} {c : Course} {supplied : List Handout} {actions pre post : List Action}

private theorem filterMap_pending {α : Type} (f : ConsumerEvent → Option α) (limit : Nat)
    (ha : f .asked = none) (hp : f (.polled limit) = none) (p : Option ConsumerPhase) :
    (ConsumerPhase.pending limit p).filterMap f = [] := by
  rw [List.filterMap_eq_nil_iff]
  intro e he
  unfold ConsumerPhase.pending at he
  split at he <;> simp at he <;> rw [he] <;> assumption

namespace Follows

theorem received (hf : Follows w₀ supplied w c) : w.received = c.received := by
  rw [World.received, hf.events, List.filterMap_append, c.received_events, filterMap_pending _ _ rfl rfl,
    List.append_nil]

theorem drawn (hf : Follows w₀ supplied w c) : w.drawn = c.drawn := by
  rw [World.drawn, hf.events, List.filterMap_append, c.drawn_events, filterMap_pending _ _ rfl rfl,
    List.append_nil]

theorem dispatched (hf : Follows w₀ supplied w c) : w.dispatched = c.received ++ c.drawn := by
  rw [World.dispatched, hf.events, List.filterMap_append, c.dispatched_events, filterMap_pending _ _ rfl rfl,
    List.append_nil]

/-- The consumer has counted the batches that it has drawn. -/
theorem count_of_summing (hf : Follows w₀ supplied w c) {count since : Nat}
    (h : w.service.consumer = some (.summing count since)) : count = w.drawn.length := by
  have hphase := hf.phase
  rw [h] at hphase
  rw [hf.drawn]
  exact hphase.2.1.symm

end Follows

/-! ### Parts of a run -/

theorem hasCrashed_run (hl : Lifecycle w) (hc : w.hasCrashed = true) (actions : List Action) :
    (w.run actions).hasCrashed = true := by
  induction actions generalizing w with
  | nil => exact hc
  | cons a as ih => exact ih (hl.step a) (hasCrashed_step hl a hc)

/-- A consumer that does not panic in a run does not panic in a part of it. -/
private theorem hasCrashed_of_part (hl : Lifecycle w₀) (hc : (w₀.run (pre ++ post)).hasCrashed = false) :
    (w₀.run pre).hasCrashed = false := by
  cases h : (w₀.run pre).hasCrashed with
  | false => rfl
  | true =>
    have hlater := hasCrashed_run (hl.run pre) h post
    rw [← run_append, hc] at hlater
    simp at hlater

theorem measuresDrain_run (hv : w₀.service = {}) (ht : w₀.tasks = []) (actions : List Action) :
    MeasuresDrain w₀.drainCount (w₀.run actions) := by
  induction actions using List.reverseRecOn with
  | nil => exact .fresh hv
  | append_singleton as a ih =>
    have hlife := (Lifecycle.fresh hv ht).run as
    rw [run_concat]
    refine ih.step hlife (fun count since h => ?_) a
    have hcrash : (w₀.run as).hasCrashed = false := by simp [hasCrashed, h, ConsumerPhase.hasCrashed]
    obtain ⟨c, hf⟩ := exists_follows hv ht hcrash
    exact hf.count_of_summing h

/-! ### The whole run -/

/-- What a consumer that has ended without a panic has done. -/
structure BoundedDrain (w₀ : World) (actions : List Action) (ending : SteadyEnd) : Prop where
  /-- It took batches turn by turn, saw the stop or heard that nothing more can come, and then polled until nothing
  came; every batch went to dispatch as soon as it was there. -/
  course : (w₀.run actions).service.events =
    Course.turns (w₀.run actions).received ++ (ending.events ++
      (Course.polls w₀.config.shutdownAwait (w₀.run actions).drawn ++ [.polled w₀.config.shutdownAwait, .expired]))
  order : (w₀.run actions).dispatched = (w₀.run actions).received ++ (w₀.run actions).drawn
  /-- Every timed poll has the configured limit, and there is one more of them than batches they brought. -/
  polled : (w₀.run actions).service.events.filterMap ConsumerEvent.polled? =
    List.replicate ((w₀.run actions).drawn.length + 1) w₀.config.shutdownAwait
  /-- A script has been used up to the end of the steady phase, and to the first timed answer that was no batch. -/
  script : ∀ steady timed, w₀.source = .scripted steady timed →
    ∃ steady' timed', (w₀.run actions).source = .scripted steady' timed' ∧
      (w₀.run actions).received.map .batch ++ ending.answers ++ steady' = steady ++ Action.supplies actions ∧
      ((w₀.run actions).drawn.map .batch ++ .nothing :: timed' = timed ∨
        ((w₀.run actions).drawn.map .batch = timed ∧ timed' = []))
  /-- Of the batches that a queue has delivered, the consumer dispatched all but those that tasks received, in the
  order of the queue. -/
  queue : w₀.source = .queue →
    (w₀.queue.delivered ++ (w₀.run actions).dispatched).Sublist (w₀.run actions).queue.delivered ∧
      (w₀.run actions).queue.delivered.Perm
        (w₀.queue.delivered ++ (w₀.run actions).dispatched ++ (w₀.run actions).taken)
  told : ∀ asked, ending = .shutdown asked → (w₀.run actions).service.shutdown = true
  /-- From a request to stop on, no batch is asked for, and none comes for which the source was not being asked. -/
  heeds : ∀ pre post, actions = pre ++ post → (w₀.run pre).service.shutdown = true →
    Heeds (w₀.run pre) (w₀.run actions)
  /-- Whenever something is noted, the batches that were dispatched before have been processed. -/
  finishes : ∀ pre a post, actions = pre ++ a :: post →
    ((w₀.run pre).step a).service.events ≠ (w₀.run pre).service.events →
    (w₀.run pre).workplace.stats.processed =
      w₀.workplace.stats.processed + (w₀.run pre).dispatched.countP (!·.isEmpty)
  /-- What is summed up at the end is the number of batches that the timed polls brought. -/
  count : ∀ pre post, actions = pre ++ post → ∀ count since,
    (w₀.run pre).service.consumer = some (.summing count since) → count = (w₀.run actions).drawn.length
  measured : (w₀.run actions).drainCount = Metrics.wrapAdd w₀.drainCount (w₀.run actions).drawn.length

/-- Where a consumer that does not panic notes something, it is dispatching nothing. -/
private theorem processed_of_noted (hv : w₀.service = {}) (ht : w₀.tasks = [])
    (hc : (w₀.run pre).hasCrashed = false) {a : Action}
    (hnoted : ((w₀.run pre).step a).service.events ≠ (w₀.run pre).service.events) :
    (w₀.run pre).workplace.stats.processed =
      w₀.workplace.stats.processed + (w₀.run pre).dispatched.countP (!·.isEmpty) := by
  have hprocesses := (Processes.fresh hv).run (.fresh hv ht) pre hc
  have hnone : (w₀.run pre).unprocessed = 0 := by
    cases hp : (w₀.run pre).service.consumer with
    | none => simp [unprocessed, hp]
    | some p =>
      cases p with
      | dispatching d mode => exact absurd (events_of_dispatching hp a) hnoted
      | _ => simp [unprocessed, hp, ConsumerPhase.unprocessed]
  rwa [hnone, Nat.add_zero] at hprocesses

/-- A service that was started and has terminated without a panic has drained its source until the first timed poll
that brought nothing, and has dispatched all that came. -/
theorem drain_is_bounded (hv : w₀.service = {}) (ht : w₀.tasks = [])
    (hstart : (w₀.run actions).hasStarted = true) (hterm : (w₀.run actions).service.state = .terminated)
    (hended : (w₀.run actions).service.consumer ≠ some (.gone true)) :
    ∃ ending, BoundedDrain w₀ actions ending := by
  have hfresh : Lifecycle w₀ := .fresh hv ht
  have hlife := hfresh.run actions
  have hgone := hlife.gone_of_terminated hstart hterm hended
  have hcrash : (w₀.run actions).hasCrashed = false := by simp [hasCrashed, hgone, ConsumerPhase.hasCrashed]
  -- The consumer has left, so that its course has an ending and its last poll brought nothing.
  obtain ⟨c, hf⟩ := exists_follows hv ht hcrash
  have hphase := hf.phase
  rw [hgone] at hphase
  obtain ⟨hending, hexpired⟩ := hphase
  obtain ⟨ending, hending⟩ := Option.isSome_iff_exists.1 hending
  have hevents : (w₀.run actions).service.events = c.events w₀.config.shutdownAwait := by
    rw [hf.events, hgone]
    exact List.append_nil _
  refine ⟨ending, ?_, ?_, ?_, ?_, ?_, ?_, ?_, ?_, ?_, ?_⟩
  · rw [hevents, hf.received, hf.drawn, Course.events, hending, hexpired]
    rfl
  · rw [hf.dispatched, hf.received, hf.drawn]
  · rw [hevents, hf.drawn, c.polled_events _ hexpired]
  · intro steady timed hs
    obtain ⟨steady', timed', hsrc, hheard, hpolled⟩ := hf.script steady timed hs
    refine ⟨steady', timed', hsrc, ?_, ?_⟩
    · rw [← hheard, hf.received, Course.heard, hending]
      rfl
    · rw [hf.drawn]
      simpa [Course.Polled, hexpired] using hpolled
  · intro hs
    have hhands := (Hands.fresh hs hv ht).run (.fresh hv ht) actions
    exact ⟨hhands.order, hhands.shared⟩
  · exact fun asked h => hf.told asked (hending.trans (congrArg some h))
  · intro pre post hsplit htold
    rw [hsplit, run_append]
    exact Heeds.run htold post
  · intro pre a post hsplit hnoted
    subst hsplit
    exact processed_of_noted hv ht (hasCrashed_of_part hfresh hcrash) hnoted
  · intro pre post hsplit count since hsum
    subst hsplit
    have hbefore := hasCrashed_of_part hfresh hcrash
    obtain ⟨c', hf'⟩ := exists_follows hv ht hbefore
    have hsame : (w₀.run (pre ++ post)).service.events = (w₀.run pre).service.events := by
      rw [run_append]
      exact events_run_of_through (hfresh.run pre) hsum rfl post
    rw [hf'.count_of_summing hsum, World.drawn, World.drawn, hsame]
  · have hmeasured := measuresDrain_run hv ht actions hcrash
    rw [hgone] at hmeasured
    exact hmeasured

private def unreadLine : Failures := .input [⟨.parse, ⟨"", "", ⟨0, 0⟩⟩, [], ""⟩]

/-- Two batches can be had without a time limit, and four answers with one, the first of which is an empty batch. -/
def scriptedPipeline : World :=
  { queue := { capacity := 1, free := 1 }, workplace := { registry := { fallback := .log } }
    source := .scripted [.batch ⟨1, unreadLine⟩, .batch ⟨2, unreadLine⟩]
      [.batch ⟨3, .input []⟩, .batch ⟨4, unreadLine⟩, .nothing, .batch ⟨5, unreadLine⟩] }

/-- The service is stopped while the first batch is dispatched. -/
def stopInDispatch : List Action :=
  [.spawn .start, .spawn .stop, .task 0, .task 0, .consumer, .consumer, .consumer, .consumer, .call 0, .task 1,
    .task 1, .call 0] ++ List.replicate 11 .consumer ++ [.call 0, .call 0] ++ List.replicate 7 .consumer

/-- The second batch stays where it is, and so does the one behind the poll that brings nothing. -/
theorem drain_is_bounded_in_stopInDispatch :
    scriptedPipeline.service = {} ∧ scriptedPipeline.tasks = [] ∧
      (scriptedPipeline.run stopInDispatch).hasStarted = true ∧
      (scriptedPipeline.run stopInDispatch).service.state = .terminated ∧
      (scriptedPipeline.run stopInDispatch).service.consumer = some (.gone false) ∧
      (∃ ending, BoundedDrain scriptedPipeline stopInDispatch ending) ∧
      (scriptedPipeline.run stopInDispatch).dispatched.map (·.id) = [1, 3, 4] ∧
      (scriptedPipeline.run stopInDispatch).source =
        .scripted [.batch ⟨2, unreadLine⟩] [.batch ⟨5, unreadLine⟩] ∧
      (scriptedPipeline.run stopInDispatch).drainCount = 2 := by
  have hstart : (scriptedPipeline.run stopInDispatch).hasStarted = true := by decide +kernel
  have hterm : (scriptedPipeline.run stopInDispatch).service.state = .terminated := by decide +kernel
  have hgone : (scriptedPipeline.run stopInDispatch).service.consumer = some (.gone false) := by decide +kernel
  have hended : (scriptedPipeline.run stopInDispatch).service.consumer ≠ some (.gone true) := by simp [hgone]
  exact ⟨rfl, rfl, hstart, hterm, hgone, drain_is_bounded rfl rfl hstart hterm hended, by decide +kernel,
    by decide +kernel, by decide +kernel⟩

end World

end FailurePipeline
