import FailurePipeline.Proofs.Pipeline.Numbers
import FailurePipeline.Proofs.Pipeline.Order
import FailurePipeline.Proofs.Pipeline.Provenance
import FailurePipeline.Proofs.Service.Lifecycle
import Mathlib.Data.List.Induction

/-!
# The end of a drain

The consumer drains the queue only after a shutdown was requested (`Closes`), and ends without a panic only
after a timed poll has found the queue empty; from then on it does nothing with batches (`LastPoll`).  What has
been accepted by then has been dispatched.
-/

namespace FailurePipeline

namespace ConsumerPhase

/-- Whether the consumer has begun to drain, or has drained. -/
def isDraining : ConsumerPhase → Bool
  | .closing | .polling .. | .expecting .. | .summing .. | .leaving false | .gone false => true
  | .dispatching _ (.draining ..) => true
  | _ => false

/-- Whether the last timed poll is over. -/
def hasExpired : ConsumerPhase → Bool
  | .summing .. | .leaving false | .gone false => true
  | _ => false

end ConsumerPhase

namespace World

variable {w w' : World}

/-- A consumer that drains has been told to stop. -/
def Closes (w : World) : Prop :=
  ∀ p, w.service.consumer = some p → p.isDraining = true → w.service.shutdown = true

namespace Closes

theorem fresh (hv : w.service = {}) : Closes w := by
  intro p hp
  simp [hv] at hp

theorem consumerMove (hc : Closes w) (hl : Sole w) (h : ConsumerMove w w') : Closes w' := by
  have hframe := h.frame.2.2.2.2.2
  -- A consumer that drains after its step has drained before, or has seen the shutdown.
  have hquiet : ∀ {v : World} {p p'}, w.service.consumer = some p → v.service.consumer = some p' →
      v.service.shutdown = w.service.shutdown → (p'.isDraining = true → p.isDraining = true) → Closes v := by
    intro v p p' hp hp' hs hd q hq hdrain
    obtain rfl : p' = q := Option.some.inj (hp'.symm.trans hq)
    rw [hs]
    exact hc p hp (hd hdrain)
  cases h with
  | idle => exact hc
  | launch h => exact hquiet h rfl hframe nofun
  | seeShutdown asked h hs =>
    intro p _ _
    exact hs
  | close h => exact hquiet h rfl hframe fun _ => rfl
  | dispatch d mode h | call i d mode h =>
    refine hquiet h rfl hframe fun hd => ?_
    cases mode <;> simp [ConsumerPhase.isDraining] at hd ⊢
  | leave crashed h =>
    refine hquiet h rfl hframe fun hd => ?_
    cases crashed <;> simp [ConsumerPhase.isDraining] at hd ⊢
  | hear a steady timed h hs => simp [hl.source] at hs
  | hang timed h hs => simp [hl.source] at hs
  | pollScript a steady timed count since h hs => simp [hl.source] at hs
  | pollEnd steady count since h hs => simp [hl.source] at hs
  | drainOn _ _ _ h | poll _ _ h | draw _ _ _ _ _ h | expire _ _ _ h | sum _ _ h =>
    exact hquiet h rfl rfl fun _ => rfl
  | _ => exact hquiet (by assumption) rfl hframe nofun

theorem taskMove (hc : Closes w) {i : Nat} (h : TaskMove w i w') : Closes w' := by
  intro p hp hd
  obtain ⟨-, -, -, -, hsame | ⟨-, hlaunch⟩⟩ := h.frame
  · exact h.grows.1 (hc p (hsame ▸ hp) hd)
  · obtain rfl : ConsumerPhase.launching = p := Option.some.inj (hlaunch.symm.trans hp)
    simp [ConsumerPhase.isDraining] at hd

theorem step (hc : Closes w) (hl : Sole w) (a : Action) : Closes (w.step a) := by
  refine step_cases w a (fun j _ => ?_) (fun _ _ _ h => hc.taskMove h) (fun _ _ h => hc.consumerMove hl h)
    fun _ _ _ _ => hc
  obtain ⟨-, -, -, -, hv, -, -⟩ := w.spawn_frame j
  rw [Closes, hv]
  exact hc

end Closes

/-! ### All of it together -/

/-- A pipeline at its beginning: an empty queue and a new service. -/
structure Fresh (w : World) : Prop where
  queue : ∃ capacity, Queue.create? capacity = some w.queue
  source : w.source = .queue
  service : w.service = {}
  tasks : w.tasks = []

/-- What holds of a pipeline in which only the consumer receives, after any of its steps. -/
structure Flow (jobs : List Job) (w : World) : Prop where
  lifecycle : Lifecycle w
  sole : Sole w
  numbered : Numbered w
  provenance : Provenance jobs w
  closes : Closes w

theorem Flow.fresh (hf : Fresh w) : Flow [] w := by
  obtain ⟨⟨capacity, hq⟩, hs, hv, ht⟩ := hf
  exact ⟨.fresh hv ht, .fresh hs hv ht hq, .fresh hq ht, .fresh hv ht, .fresh hv⟩

theorem Flow.step {jobs : List Job} (hf : Flow jobs w) {a : Action} (ha : a.beginsReceiver = false) :
    Flow (jobs ++ a.job?.toList) (w.step a) :=
  ⟨hf.lifecycle.step a, hf.sole.step ha, hf.numbered.step a, hf.provenance.step a, hf.closes.step hf.sole a⟩

theorem Flow.run {jobs : List Job} (hf : Flow jobs w) {actions : List Action}
    (ha : ∀ a ∈ actions, a.beginsReceiver = false) : Flow (jobs ++ Action.jobs actions) (w.run actions) := by
  induction actions generalizing jobs w with
  | nil => simpa [Action.jobs, World.run] using hf
  | cons a as ih =>
    rw [Action.jobs_cons, ← List.append_assoc]
    exact ih (hf.step (ha a List.mem_cons_self)) fun b hb => ha b (List.mem_cons_of_mem a hb)

/-! ### The last timed poll -/

/-- After the actions `pre`, a timed poll was over with the action `a`; it had found the queue empty, and the
consumer has noted nothing since. -/
structure LastPoll (w₀ : World) (pre : List Action) (a : Action) (w : World) : Prop where
  due : ∃ deadline count since, (w₀.run pre).service.consumer = some (.expecting deadline count since) ∧
    deadline ≤ (w₀.run pre).surroundings.now
  empty : (w₀.run pre).queue.buffer = []
  expired : ((w₀.run pre).step a).service.events = (w₀.run pre).service.events ++ [.expired]
  last : w.service.events = ((w₀.run pre).step a).service.events

/-- The consumer gets past its last poll only by finding the queue empty in time, and then notes nothing more. -/
private def PassesPoll (w w' : World) : Prop :=
  ∀ p', w'.service.consumer = some p' → p'.hasExpired = true →
    (∃ p, w.service.consumer = some p ∧ p.hasExpired = true ∧ w'.service.events = w.service.events) ∨
      ((∃ deadline count since, w.service.consumer = some (.expecting deadline count since) ∧
          deadline ≤ w.surroundings.now) ∧ w.queue.buffer = [] ∧
        w'.service.events = w.service.events ++ [.expired])

private theorem passesPoll_of_consumerMove (hl : Sole w) (h : ConsumerMove w w') : PassesPoll w w' := by
  intro p' hp' he
  have hno : ∀ {p : ConsumerPhase}, w'.service.consumer = some p → p.hasExpired = false → False := by
    intro p hp hf
    obtain rfl : p = p' := Option.some.inj (hp.symm.trans hp')
    simp [hf] at he
  cases h with
  | idle => exact .inl ⟨p', hp', he, rfl⟩
  | expire deadline count since h ht hd =>
    have hfirst : w.queue.receivers.head? = some .consumer := by simp [hl.expecting _ _ _ h]
    exact .inr ⟨⟨deadline, count, since, h, hd⟩, Queue.buffer_eq_nil_of_take hfirst ht, rfl⟩
  | sum count since h => exact .inl ⟨_, h, rfl, rfl⟩
  | leave crashed h =>
    cases crashed with
    | true => exact (hno rfl rfl).elim
    | false => exact .inl ⟨_, h, rfl, rfl⟩
  | hear a steady timed h hs => simp [hl.source] at hs
  | pollScript a steady timed count since h hs => simp [hl.source] at hs
  | pollEnd steady count since h hs => simp [hl.source] at hs
  | _ => exact (hno rfl rfl).elim

private theorem passesPoll_of_service_eq (h : w'.service = w.service) : PassesPoll w w' :=
  fun p' hp' he => .inl ⟨p', h ▸ hp', he, by rw [h]⟩

private theorem passesPoll_step (hl : Sole w) (a : Action) : PassesPoll w (w.step a) := by
  refine step_cases w a (fun j _ => ?_) (fun i v _ h => ?_) (fun v _ h => passesPoll_of_consumerMove hl h)
    fun _ _ _ _ => passesPoll_of_service_eq rfl
  · exact passesPoll_of_service_eq (w.spawn_frame j).2.2.2.2.1
  · intro p' hp' he
    obtain ⟨-, -, -, hev, hc | ⟨-, hc⟩⟩ := h.frame
    · exact .inl ⟨p', hc ▸ hp', he, hev⟩
    · obtain rfl : ConsumerPhase.launching = p' := Option.some.inj (hc.symm.trans hp')
      simp [ConsumerPhase.hasExpired] at he

/-- A consumer that has ended without a panic has polled the empty queue before. -/
theorem exists_lastPoll {w₀ : World} (hf : Fresh w₀) {actions : List Action}
    (ha : ∀ a ∈ actions, a.beginsReceiver = false) {p : ConsumerPhase}
    (hp : (w₀.run actions).service.consumer = some p) (he : p.hasExpired = true) :
    ∃ pre a post, actions = pre ++ a :: post ∧ LastPoll w₀ pre a (w₀.run actions) := by
  induction actions using List.reverseRecOn generalizing p with
  | nil => simp [run, hf.service] at hp
  | append_singleton as a ih =>
    have has : ∀ a' ∈ as, a'.beginsReceiver = false := fun a' h => ha a' (List.mem_append_left _ h)
    have hsole := ((Flow.fresh hf).run has).sole
    rw [run_concat] at hp ⊢
    rcases passesPoll_step hsole a p hp he with ⟨q, hq, hqe, hev⟩ | ⟨hdue, hempty, hev⟩
    · obtain ⟨pre, b, post, hsplit, hlast⟩ := ih has hq hqe
      refine ⟨pre, b, post ++ [a], by simp [hsplit], hlast.due, hlast.empty, hlast.expired, ?_⟩
      rw [hev, hlast.last]
    · exact ⟨as, a, [], rfl, hdue, hempty, hev, rfl⟩

end World

end FailurePipeline
