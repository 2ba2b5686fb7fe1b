import FailurePipeline.Proofs.Config.Accepted
import FailurePipeline.Proofs.Program.Health
import FailurePipeline.Proofs.Service.Exhausting
import FailurePipeline.Proofs.Service.Transitions

/-!
# Programs with an accepted configuration

A configuration that has been accepted has room for a batch, and its program serves: the consumer does not panic, the
service gives no error, and it drains with the time limit that was configured (`World.Serves`).  But there are queues
that are too large to be made, and no configuration is refused for that: the start panics exactly then
(`Program.accepted_configuration_starts`, `Program.large_queue_crashes_the_start`).
-/

namespace FailurePipeline

theorem Handler.answers_log (b : Batch) : Handler.log.Answers b := ⟨⟨true, rfl⟩, true, rfl⟩

theorem Handler.answers_deadLetter (k : Sink) (b : Batch) : (Handler.deadLetter k).Answers b :=
  ⟨⟨true, rfl⟩, k.supports b.type, rfl⟩

/-- The handlers that a configuration describes always answer. -/
theorem Registry.answers_ofConfig {d d' : Depot} {c : Config} {r : Registry} (h : ofConfig d c = .ok (r, d'))
    (b : Batch) : r.Answers b := by
  unfold ofConfig at h
  split at h
  · cases h
    exact List.forall_mem_singleton.2 (Handler.answers_log b)
  · split at h
    · simp at h
    · next k depot _ =>
      split at h <;> cases h
      · exact List.forall_mem_singleton.2 (Handler.answers_deadLetter k b)
      · exact List.forall_mem_cons.2
          ⟨Handler.answers_log b, List.forall_mem_singleton.2 (Handler.answers_deadLetter k b)⟩

theorem Queue.create?_eq_none_iff {capacity : Nat} (h : 0 < capacity) :
    create? capacity = none ↔ maxCapacity < capacity := by
  unfold create?
  split
  · next hc => simpa using hc.2
  · next hc => simpa [h] using hc

namespace World

variable {w w₀ : World} {actions : List Action}

/-! ### Where no batch fells the consumer -/

/-- The consumer has drained its queue, with this time limit, and gone. -/
structure Drained (limit : Nat) (w : World) : Prop where
  gone : w.service.consumer = some (.gone false)
  terminated : w.service.state = .terminated
  course : ∃ c : Course, c.ending.isSome = true ∧ c.expired = true ∧ w.service.events = c.events limit

theorem drained_of_gone (hf : Fresh w₀) (hgone : (w₀.run actions).service.consumer = some (.gone false)) :
    Drained w₀.config.shutdownAwait (w₀.run actions) :=
  ⟨hgone, terminated_of_gone hf.service actions hgone, exists_course_of_gone hf.service hf.tasks hgone⟩

/-- The run of a pipeline whose source is the queue of the consumer alone, and in which nothing panics from without or
because it is asked about a batch. -/
structure Untroubled (w₀ : World) (actions : List Action) : Prop where
  fresh : Fresh w₀
  answers : ∀ b, ¬ w₀.workplace.registry.Fells b
  receivers : ∀ a ∈ actions, a.beginsReceiver = false
  panics : .crash ∉ actions

namespace Untroubled

theorem isCalm (h : Untroubled w₀ actions) {first : List Action} (hfirst : first <+: actions) :
    (w₀.run first).source.isCalm = true := by
  have hflow := (Flow.fresh h.fresh).run fun a ha => h.receivers a (hfirst.subset ha)
  rw [hflow.sole.source]
  rfl

theorem hasCrashed (h : Untroubled w₀ actions) : (w₀.run actions).hasCrashed = false := by
  cases hc : (w₀.run actions).hasCrashed with
  | false => rfl
  | true =>
    obtain ⟨-, hfallen⟩ :=
      standing_or_fallen h.fresh.service h.fresh.tasks (fun first hfirst => h.isCalm hfirst) h.panics
    obtain ⟨done, b, -, -, hfells, -⟩ := hfallen hc
    exact absurd hfells (h.answers b)

/-- Once a shutdown has been requested, the consumer drains the queue and goes, with nobody else's help.  If it was not
past its last poll before, it dispatches all that was accepted. -/
theorem comes_to_drain (h : Untroubled w₀ actions) (hs : (w₀.run actions).service.shutdown = true) {p : ConsumerPhase}
    (hp : (w₀.run actions).service.consumer = some p) :
    (w₀.run actions).Comes fun v => Drained w₀.config.shutdownAwait v ∧
      (p.hasExpired = false → v.dispatched = (w₀.run actions).queue.accepted) := by
  have hc : p.hasCrashed = false := by simpa [World.hasCrashed, hp] using h.hasCrashed
  obtain ⟨more, hmore, hrest, hall⟩ :=
    comes_to_rest_of_harmless h.fresh.service h.fresh.tasks (fun first hfirst => h.isCalm hfirst) h.panics hp hc
      fun b _ => h.answers b
  have hstill : ((w₀.run actions).run more).service.shutdown = true :=
    run_induction (P := fun v => v.service.shutdown = true) hs (fun _ a _ hv => (Heeds.step hv a).2) hmore
  -- It cannot rest in front of an empty queue, since the shutdown would wake it.
  have hgone : (w₀.run (actions ++ more)).service.consumer = some (.gone false) := by
    rw [run_append]
    rcases hrest with hgone | ⟨-, hno, -⟩
    · exact hgone
    · simp [hstill] at hno
  have hdrained := drained_of_gone h.fresh hgone
  rw [run_append] at hdrained
  exact ⟨more, hmore, hdrained, hall ((Flow.fresh h.fresh).run h.receivers).sole⟩

end Untroubled

/-! ### The service of a program -/

/-- What holds of the pipeline of a program at any moment. -/
structure Serves (c : HandlingConfig) (w : World) : Prop where
  /-- The consumer has not panicked. -/
  stands : w.hasCrashed = false
  /-- Nobody has got an error of the service. -/
  faultless : ∀ (i : Nat) e, w.tasks[i]? ≠ some (.finished (.service (.error e)))
  /-- Once a shutdown has been requested, the consumer drains the queue with the time limit that was configured. -/
  drains : w.service.shutdown = true → ∀ p, w.service.consumer = some p →
    w.Comes fun v => Drained c.shutdownAwait v ∧ (p.hasExpired = false → v.dispatched = w.queue.accepted)
  /-- It has done so when the service has terminated. -/
  drained : w.service.state = .terminated → Drained c.shutdownAwait w

/-- A service that has terminated had been started. -/
theorem Healthy.hasStarted {jobs : List Job} (hh : Healthy jobs w) (hl : Lifecycle w)
    (ht : w.service.state = .terminated) : w.hasStarted = true := by
  have hnotNew : w.service.state ≠ .new := by simp [ht]
  cases hfirst : w.tasks[0]? with
  | none => exact absurd (hh.new (.inl hfirst)) hnotNew
  | some p =>
    rcases hh.spawned p hfirst with rfl | rfl | hsome
    · exact absurd (hh.new (.inr hfirst)) hnotNew
    · exact hl.hasStarted_of_spawning hfirst
    · obtain ⟨q, hq⟩ := Option.isSome_iff_exists.1 hsome
      exact hl.hasStarted_of_consumer hq

end World

namespace Program

open World

variable {c : Config} {m : Metrics.Controller} {s : Surroundings} {d : Depot} {intake : Intake} {p : Program}

/-- The start panics exactly if it comes as far as the queue and there can be none of the capacity. -/
theorem setUp_eq_crashed_iff : setUp c m s d intake = .crashed ↔
    (∃ m', openMetrics c.metrics m = .ok m') ∧ Queue.create? c.failureHandling.queueCapacity = none := by
  unfold setUp
  split
  · next e he => simp [he]
  · next m' hm =>
    split
    · next hq => simp [hm, hq]
    · next queue hq => split <;> simp [hq]

/-- A program that has been set up with a configuration and has not begun anything. -/
structure BuiltWith (c : Config) (intake : Intake) (p : Program) : Prop where
  fresh : World.Fresh p.world
  agenda : p.agenda = jobs intake
  capacity : p.world.queue.capacity = c.failureHandling.queueCapacity
  config : p.world.config = c.failureHandling
  answers : ∀ b, p.world.workplace.registry.Answers b

theorem builtWith_of_setUp (h : setUp c m s d intake = .ready p) : p.BuiltWith c intake := by
  unfold setUp at h
  split at h
  · simp at h
  · split at h
    · simp at h
    · next queue hqueue =>
      split at h
      · simp at h
      · next registry depot hregistry =>
        cases h
        exact ⟨⟨⟨_, hqueue⟩, rfl, rfl, rfl⟩, rfl, by rw [(Queue.eq_of_create? hqueue).2], rfl,
          Registry.answers_ofConfig hregistry⟩

namespace BuiltWith

private theorem untroubled (h : p.BuiltWith c intake) {actions : List Action}
    (ho : Orderly p.world (jobs intake) actions) : Untroubled p.world actions where
  fresh := h.fresh
  answers b hb := Registry.not_panics_of_answers (h.answers b) hb.2
  receivers := ho.beginsReceiver (by simp [jobs])
  panics hc := by simpa [Action.isInner] using ho.inner _ hc

/-- Whenever the run of the program is looked at, it serves. -/
theorem serves (h : p.BuiltWith c intake) {moves : List Move} (hm : ∀ move ∈ moves, move.isInner = true) :
    Serves c.failureHandling (p.run moves).world := by
  obtain ⟨actions, hcourse⟩ := (Course.fresh h.fresh.tasks).run hm
  rw [h.agenda, List.nil_append] at hcourse
  have horderly := hcourse.orderly
  have hrun := h.untroubled horderly
  -- The service gives no error because no shorter run makes the consumer panic either.
  have hhealthy := Healthy.run horderly h.fresh fun first hfirst => (h.untroubled hfirst).hasCrashed
  have hlife := (Lifecycle.fresh h.fresh.service h.fresh.tasks).run actions
  rw [hcourse.world, ← h.config]
  refine ⟨hrun.hasCrashed, hhealthy.faultless, fun hs q hq => hrun.comes_to_drain hs hq, fun ht => ?_⟩
  refine drained_of_gone h.fresh (hlife.gone_of_terminated (hhealthy.hasStarted hlife ht) ht fun hgone => ?_)
  have hstands := hrun.hasCrashed
  simp [hasCrashed, hgone, ConsumerPhase.hasCrashed] at hstands

end BuiltWith

/-! ### All of it together -/

/-- How a program starts with a configuration. -/
structure Starts (c : Config) (m : Metrics.Controller) (s : Surroundings) (d : Depot) (intake : Intake) : Prop where
  /-- There is room for a batch. -/
  room : 0 < c.failureHandling.queueCapacity
  /-- The capacity and the time limit are words of 64 bits. -/
  bounded : c.failureHandling.IsBounded
  /-- The start panics only where it comes as far as a queue that would be too large. -/
  crashes : setUp c m s d intake = .crashed ↔
    (∃ m', openMetrics c.metrics m = .ok m') ∧ Queue.maxCapacity < c.failureHandling.queueCapacity
  /-- A program that has been set up has the queue and the settings that were configured. -/
  built : ∀ p, setUp c m s d intake = .ready p → p.BuiltWith c intake
  /-- Whenever its run is looked at, it serves. -/
  serves : ∀ p, setUp c m s d intake = .ready p → ∀ moves, (∀ move ∈ moves, move.isInner = true) →
    Serves c.failureHandling (p.run moves).world

theorem accepted_configuration_starts {env : Environment} (h : Config.Accepted env c) (m : Metrics.Controller)
    (s : Surroundings) (d : Depot) (intake : Intake) : Starts c m s d intake where
  room := h.isBounded.1
  bounded := h.isBounded.2
  crashes := by rw [setUp_eq_crashed_iff, Queue.create?_eq_none_iff h.isBounded.1]
  built _ := builtWith_of_setUp
  serves _ hp _ hm := (builtWith_of_setUp hp).serves hm

/-- A capacity from a variable, and the most patience that there can be. -/
def patientText : String :=
  "failure_handling:\n  queue_capacity: $CAPACITY\n  shutdown_await_ms: 18446744073709551615\n" ++
    "metrics:\n  enabled: false\n"

def sixteen : Environment := fun name => if name = "CAPACITY" then some (Utf8.encode "0x10") else none

def patientConfig : Config where
  failureHandling := { queueCapacity := 16, shutdownAwait := 18446744073709551615 }
  metrics := { enabled := false }

/-- An input of one line, which is not JSON. -/
def oneBadLine : Intake where
  inputId := "stdin"
  feed := { arrivals := [.read [0x62, 0x0A] false] }
  output := {}

def patientProgram : Program where
  world :=
    { config := patientConfig.failureHandling
      queue := { capacity := 16, free := 16 }
      workplace := { registry := { fallback := .log } } }
  agenda := jobs oneBadLine

/-- Everybody gets turns until the consumer waits for its last poll to be over, and some more after that. -/
def patientTurns : List Move :=
  let turn : List Move :=
    [.proceed, .act (.task 0), .act (.task 1), .act (.task 2), .act (.task 3), .act (.task 4), .act .consumer,
      .act (.call 0)]
  (List.replicate 30 turn).flatten ++ .act (.pass 18446744073709551615) :: (List.replicate 5 turn).flatten

/-- The program comes to its end, with its one batch dispatched. -/
theorem accepted_configuration_starts_with_patientConfig :
    Config.parse sixteen patientText = .ok patientConfig ∧ Starts patientConfig {} {} {} oneBadLine ∧
      setUp patientConfig {} {} {} oneBadLine = .ready patientProgram ∧
      (∀ move ∈ patientTurns, move.isInner = true) ∧
      (patientProgram.run patientTurns).result? = some (.ok ()) ∧
      (patientProgram.run patientTurns).world.dispatched.map (·.id) = [1] := by
  have hparse : Config.parse sixteen patientText = .ok patientConfig := by decide +kernel
  exact ⟨hparse, accepted_configuration_starts (.text patientText hparse) {} {} {} oneBadLine, rfl,
    by decide +kernel, by decide +kernel, by decide +kernel⟩

/-- One more than there can be permits. -/
def largeText : String :=
  "failure_handling:\n  queue_capacity: 2305843009213693952\nmetrics:\n  enabled: false\n"

def largeConfig : Config where
  failureHandling := { queueCapacity := 2305843009213693952 }
  metrics := { enabled := false }

/-- The configuration is accepted, and the start panics. -/
theorem large_queue_crashes_the_start :
    Config.parse .empty largeText = .ok largeConfig ∧
      ∀ m s d intake, setUp largeConfig m s d intake = .crashed := by
  refine ⟨by decide +kernel, fun m s d intake => setUp_eq_crashed_iff.2 ⟨⟨m, rfl⟩, ?_⟩⟩
  exact (Queue.create?_eq_none_iff (by decide)).2 (by decide)

end Program

end FailurePipeline
