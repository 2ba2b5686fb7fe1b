import FailurePipeline.Proofs.Service.Lifecycle

/-!
# How the state of the service changes

Those who start the service, those who stop it and the consumer all write its state.  `Transition` lists every
change with the party that makes it, and each of them goes up in the order of the states (`Transition.lt`).  A
step makes one of these changes and publishes it, or leaves the state alone (`step_changes`), so that the states
published in a run go up (`Ascending`).
-/

namespace FailurePipeline

namespace ServiceState

theorem lt_trans {r s t : ServiceState} (h : r < s) (h' : s < t) : r < t := Nat.lt_trans h h'

theorem lt_terminated {s : ServiceState} (h : s ≠ .terminated) : s < .terminated := by
  cases s <;> first | decide | exact absurd rfl h

theorem eq_starting_or_running {s : ServiceState} (hn : s ≠ .new) (h : s < .stopping) :
    s = .starting ∨ s = .running := by
  cases s with
  | new => exact absurd rfl hn
  | starting => exact .inl rfl
  | running => exact .inr rfl
  | stopping => exact absurd h (by decide)
  | terminated => exact absurd h (by decide)

end ServiceState

/-- A stop ends a new service, stops one that has been started, and leaves one that stops as it is. -/
theorem Service.stop_cases (v : Service) :
    (v.state = .new ∧ v.stop = (v.publish .terminated, false)) ∨
      ((v.state = .starting ∨ v.state = .running) ∧ v.stop = (v.publish .stopping, true)) ∨
      (v.state = .stopping ∨ v.state = .terminated) ∧ v.stop = (v, false) := by
  unfold Service.stop
  split <;> simp_all

namespace World

variable {w w' : World}

/-- A change of state in a step, and who makes it. -/
inductive Transition (w w' : World) : ServiceState → ServiceState → Prop
  /-- Somebody starts the service, and is about to spawn the consumer. -/
  | start (i : Nat) (h : w.tasks[i]? = some .starting) (h' : w'.tasks[i]? = some .spawning) :
    Transition w w' .new .starting
  /-- Somebody stops a service that was not started. -/
  | stopNew (i : Nat) (h : w.tasks[i]? = some .stopping) (h' : w'.tasks[i]? = some (.finished .done)) :
    Transition w w' .new .terminated
  /-- Somebody stops the service, and is about to tell the consumer. -/
  | stop (i : Nat) (s : ServiceState) (h : w.tasks[i]? = some .stopping) (h' : w'.tasks[i]? = some .telling)
    (hs : s = .starting ∨ s = .running) : Transition w w' s .stopping
  /-- The consumer says that it runs. -/
  | launch (h : w.service.consumer = some .launching) (h' : w'.service.consumer = some (.turning false)) :
    Transition w w' .starting .running
  /-- The consumer says that it stops. -/
  | close (s : ServiceState) (since : Nat) (h : w.service.consumer = some .closing)
    (h' : w'.service.consumer = some (.polling 0 since)) (hs : s = .starting ∨ s = .running) :
    Transition w w' s .stopping
  /-- The consumer ends. -/
  | leave (s : ServiceState) (crashed : Bool) (h : w.service.consumer = some (.leaving crashed))
    (h' : w'.service.consumer = some (.gone crashed)) (hs : s ≠ .terminated) : Transition w w' s .terminated

/-- The state goes up with every change. -/
theorem Transition.lt {s s' : ServiceState} (h : Transition w w' s s') : s < s' := by
  cases h with
  | start => decide
  | stopNew => decide
  | stop i s h h' hs => rcases hs with rfl | rfl <;> decide
  | launch => decide
  | close s since h h' hs => rcases hs with rfl | rfl <;> decide
  | leave s crashed h h' hs => exact ServiceState.lt_terminated hs

/-- A step leaves the state alone, or makes one change and publishes the new state. -/
def Changes (w w' : World) : Prop :=
  (w'.service.state = w.service.state ∧ w'.service.published = w.service.published) ∨
    Transition w w' w.service.state w'.service.state ∧
      w'.service.published = w.service.published ++ [w'.service.state]

theorem changes_of_service_eq (h : w'.service = w.service) : Changes w w' := .inl ⟨by rw [h], by rw [h]⟩

/-- No change leads away from the last state. -/
theorem Changes.terminated (h : Changes w w') (ht : w.service.state = .terminated) :
    w'.service.state = .terminated := by
  rcases h with ⟨hs, -⟩ | ⟨htrans, -⟩
  · rw [hs, ht]
  · have hlt := htrans.lt
    rw [ht] at hlt
    cases hs : w'.service.state <;> rw [hs] at hlt <;> exact absurd hlt (by decide)

private theorem getElem?_setTask {i : Nat} {p : TaskPhase} (h : w.tasks[i]? = some p) (p' : TaskPhase)
    (v : World) (hv : v.tasks = w.tasks) : (v.setTask i p').tasks[i]? = some p' := by
  rw [setTask, hv, List.getElem?_set_self (List.getElem?_eq_some_iff.1 h).1]

private theorem changes_of_stop {i : Nat} (h : w.tasks[i]? = some .stopping) :
    Changes w ({ w with service := w.service.stop.1 }.setTask i
      (if w.service.stop.2 then .telling else .finished .done)) := by
  rcases w.service.stop_cases with ⟨hs, hstop⟩ | ⟨hs, hstop⟩ | ⟨-, hstop⟩
  · rw [hstop]
    refine .inr ⟨?_, rfl⟩
    rw [hs]
    exact .stopNew i h (getElem?_setTask h _ { w with service := w.service.publish .terminated } rfl)
  · rw [hstop]
    exact .inr ⟨.stop i _ h (getElem?_setTask h _ { w with service := w.service.publish .stopping } rfl) hs, rfl⟩
  · rw [hstop]
    exact .inl ⟨rfl, rfl⟩

theorem changes_of_taskMove {i : Nat} (h : TaskMove w i w') : Changes w w' := by
  cases h with
  | start v h hv =>
    obtain ⟨hn, rfl⟩ := eq_of_start hv
    refine .inr ⟨?_, rfl⟩
    rw [hn]
    exact .start i h (getElem?_setTask h _ { w with service := w.service.publish .starting } rfl)
  | stop h => exact changes_of_stop h
  | read => split <;> exact .inl ⟨rfl, rfl⟩
  | join crashed => cases crashed <;> exact .inl ⟨rfl, rfl⟩
  | _ => exact .inl ⟨rfl, rfl⟩

namespace Lifecycle

/-- While there is a consumer, the service is not new. -/
theorem ne_new_of_consumer (hl : Lifecycle w) {p : ConsumerPhase} (h : w.service.consumer = some p) :
    w.service.state ≠ .new := by
  intro hn
  have := hl.new hn
  simp [hl.hasStarted_of_consumer h] at this

/-- Until the consumer has gone, the service is not terminated. -/
theorem ne_terminated_of_consumer (hl : Lifecycle w) {p : ConsumerPhase} (h : w.service.consumer = some p)
    (hg : ∀ c, p ≠ .gone c) : w.service.state ≠ .terminated := by
  intro ht
  obtain ⟨c, hc⟩ := hl.ended ht (hl.hasStarted_of_consumer h)
  exact hg c (Option.some.inj (h.symm.trans hc))

theorem changes_of_consumerMove (hl : Lifecycle w) (h : ConsumerMove w w') : Changes w w' := by
  cases h with
  | idle => exact .inl ⟨rfl, rfl⟩
  | launch h =>
    split
    · next hs => exact .inr ⟨hs ▸ .launch h rfl, rfl⟩
    · exact .inl ⟨rfl, rfl⟩
  | close h =>
    split
    · next hs =>
      exact .inr ⟨.close _ _ h rfl (ServiceState.eq_starting_or_running (hl.ne_new_of_consumer h) hs), rfl⟩
    · exact .inl ⟨rfl, rfl⟩
  | leave crashed h => exact .inr ⟨.leave _ crashed h rfl (hl.ne_terminated_of_consumer h nofun), rfl⟩
  | hear a => cases a <;> exact .inl ⟨rfl, rfl⟩
  | pollScript a => cases a <;> exact .inl ⟨rfl, rfl⟩
  | ask asked => cases asked <;> exact .inl ⟨rfl, rfl⟩
  | _ => exact .inl ⟨rfl, rfl⟩

/-- Whatever a step is, it makes a change that is listed, or none. -/
theorem step_changes (hl : Lifecycle w) (a : Action) : Changes w (w.step a) :=
  step_cases w a (fun j _ => changes_of_service_eq (w.spawn_frame j).2.2.2.2.1)
    (fun _ _ _ h => changes_of_taskMove h) (fun _ _ h => hl.changes_of_consumerMove h)
    fun _ _ _ _ => changes_of_service_eq rfl

end Lifecycle

/-! ### Runs -/

/-- All states that the service has been in, in order. -/
def states (w : World) : List ServiceState := .new :: w.service.published

/-- The states go up, and the last of them is the present one. -/
structure Ascending (w : World) : Prop where
  sorted : w.states.Pairwise (· < ·)
  last : w.states.getLast? = some w.service.state

namespace Ascending

theorem fresh (hv : w.service = {}) : Ascending w := by
  constructor <;> simp [states, hv]

private theorem le_last (ha : Ascending w) {s : ServiceState} (hs : s ∈ w.states) :
    s = w.service.state ∨ s < w.service.state := by
  obtain ⟨before, hsplit⟩ := List.getLast?_eq_some_iff.1 ha.last
  rw [hsplit] at hs
  rcases List.mem_append.1 hs with hs | hs
  · have hsorted := ha.sorted
    rw [hsplit, List.pairwise_append] at hsorted
    exact .inr (hsorted.2.2 s hs _ (List.mem_singleton_self _))
  · exact .inl (List.mem_singleton.1 hs)

theorem of_changes (ha : Ascending w) (h : Changes w w') : Ascending w' := by
  rcases h with ⟨hs, hp⟩ | ⟨htrans, hp⟩
  · constructor
    · rw [states, hp]
      exact ha.sorted
    · rw [states, hp, hs]
      exact ha.last
  · have hstates : w'.states = w.states ++ [w'.service.state] := by rw [states, hp, states, List.cons_append]
    constructor
    · rw [hstates, List.pairwise_append]
      refine ⟨ha.sorted, List.pairwise_singleton _ _, fun s hs s' hs' => ?_⟩
      rw [List.mem_singleton.1 hs']
      rcases ha.le_last hs with rfl | hlt
      · exact htrans.lt
      · exact ServiceState.lt_trans hlt htrans.lt
    · rw [hstates, List.getLast?_concat]

theorem run (ha : Ascending w) (hl : Lifecycle w) (actions : List Action) : Ascending (w.run actions) := by
  have hboth : Ascending (w.run actions) ∧ Lifecycle (w.run actions) :=
    run_induction (P := fun v => Ascending v ∧ Lifecycle v) (A := fun _ => True) ⟨ha, hl⟩
      (fun _ a _ h => ⟨h.1.of_changes (h.2.step_changes a), h.2.step a⟩) fun _ _ => trivial
  exact hboth.1

end Ascending

/-! ### Without a consumer -/

private theorem terminated_of_gone_of_consumerMove (hw : ∀ c, w.service.consumer = some (.gone c) →
    w.service.state = .terminated) (h : ConsumerMove w w') :
    ∀ c, w'.service.consumer = some (.gone c) → w'.service.state = .terminated := by
  have hno : ∀ {v : World} {p : ConsumerPhase}, v.service.consumer = some p → (∀ c, p ≠ .gone c) →
      ∀ c, v.service.consumer = some (.gone c) → v.service.state = .terminated := by
    intro v p hp hg c hc
    exact absurd (Option.some.inj (hp.symm.trans hc)) (hg c)
  cases h with
  | idle => exact hw
  | leave crashed => exact fun _ _ => rfl
  | launch => split <;> exact hno rfl nofun
  | close => split <;> exact hno rfl nofun
  | ask asked => cases asked <;> exact hno rfl nofun
  | hear a => cases a <;> exact hno rfl nofun
  | pollScript a => cases a <;> exact hno rfl nofun
  | _ => exact hno rfl nofun

/-- Once the consumer has gone, the service is terminated. -/
theorem terminated_of_gone (hv : w.service = {}) (actions : List Action) {c : Bool}
    (hg : (w.run actions).service.consumer = some (.gone c)) : (w.run actions).service.state = .terminated := by
  refine run_induction (P := fun v => ∀ c, v.service.consumer = some (.gone c) → v.service.state = .terminated)
    (A := fun _ => True) (w := w) (by simp [hv]) (fun v a _ hw => ?_) (fun _ _ => trivial) c hg
  refine step_cases (P := fun v => ∀ c, v.service.consumer = some (.gone c) → v.service.state = .terminated) v a
    (fun j _ => ?_) (fun i v' _ h c hc => ?_) (fun v' _ h => terminated_of_gone_of_consumerMove hw h)
    fun _ _ _ _ => hw
  · rw [(v.spawn_frame j).2.2.2.2.1]
    exact hw
  · rcases h.frame.2.2.2.2 with hsame | ⟨-, hnew⟩
    · exact (changes_of_taskMove h).terminated (hw c (hsame ▸ hc))
    · simp [hnew] at hc

end World

end FailurePipeline
