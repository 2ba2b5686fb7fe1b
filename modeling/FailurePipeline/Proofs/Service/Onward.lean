import FailurePipeline.Proofs.Service.Felling

/-!
# The consumer goes on by itself

The consumer needs nobody but its handlers, its source and time (`World.Comes`).  From a dispatch that no handler fells
it comes back to where it takes the next batch (`World.comes_back`).  So if no batch fells it, it goes on until there is
nothing left for it: it waits for another batch, or has drained its source and gone (`World.comes_to_rest`).
-/

namespace FailurePipeline

/-- Whether an action is a step of the consumer or of a handler that it calls, or lets time pass. -/
def Action.isConsumers : Action → Bool
  | .consumer | .call _ | .pass _ => true
  | _ => false

def Handout.batch? : Handout → Option Batch
  | .batch b => some b
  | _ => none

/-- Whether a dispatch does not fall: handlers that have not been asked about the batch answer. -/
def Dispatch.IsSafe (r : Registry) (d : Dispatch) : Prop :=
  match d.phase with
  | .routing => ¬ r.Fells d.batch
  | .crashed _ => False
  | _ => True

theorem Dispatch.isSafe_congr {r r' : Registry} (ha : r'.AnswersAs r) {d : Dispatch} (h : d.IsSafe r) :
    d.IsSafe r' := by
  obtain ⟨b, phase⟩ := d
  cases phase with
  | routing => exact fun hf => h (ha.fells_iff.1 hf)
  | crashed p => exact h
  | _ => trivial

/-- Whether a consumer has not fallen and does not fall over the batch that it dispatches. -/
def ConsumerPhase.IsSafe (r : Registry) : ConsumerPhase → Prop
  | .dispatching d _ => d.IsSafe r
  | .leaving crashed | .gone crashed => crashed = false
  | _ => True

/-- Where the consumer goes on after a dispatch. -/
def ConsumerMode.next : ConsumerMode → ConsumerPhase
  | .steady => .turning false
  | .draining count since => .polling count since

namespace World

variable {w v : World} {P Q : World → Prop}

/-- With nobody else's help the consumer can come to where this holds. -/
def Comes (w : World) (P : World → Prop) : Prop :=
  ∃ more, (∀ a ∈ more, a.isConsumers = true) ∧ P (w.run more)

namespace Comes

theorem here (h : P w) : w.Comes P := ⟨[], by simp, h⟩

theorem after {a : Action} (ha : a.isConsumers = true) (h : (w.step a).Comes P) : w.Comes P := by
  obtain ⟨more, hmore, hp⟩ := h
  exact ⟨a :: more, List.forall_mem_cons.2 ⟨ha, hmore⟩, hp⟩

theorem bind (h : w.Comes P) (hq : ∀ v, P v → v.workplace.registry.AnswersAs w.workplace.registry → v.Comes Q) :
    w.Comes Q := by
  obtain ⟨more, hmore, hp⟩ := h
  obtain ⟨more', hmore', hq⟩ := hq _ hp (w.run_answersAs more)
  exact ⟨more ++ more', List.forall_mem_append.2 ⟨hmore, hmore'⟩, by rwa [run_append]⟩

end Comes

/-! ### Dispatches come to their ends -/

section Dispatching

variable {place : Workplace} {s : Surroundings} {d : Dispatch} {mode : ConsumerMode} {b : Batch}

/-- The consumer is in the middle of a dispatch, and nothing else has changed. -/
def during (w : World) (place : Workplace) (s : Surroundings) (d : Dispatch) (mode : ConsumerMode) : World :=
  { w with workplace := place, surroundings := s }.enter (.dispatching d mode)

theorem eq_during (h : w.service.consumer = some (.dispatching d mode)) :
    w = w.during w.workplace w.surroundings d mode := by
  rw [during, enter, Service.enter, ← h]

private theorem during_consumer (hcan : d.canStep s place = true) :
    (w.during place s d mode).step .consumer = w.during (d.step s place).1 s (d.step s place).2 mode := by
  obtain ⟨b, phase⟩ := d
  cases phase with
  | finished => simp [Dispatch.canStep] at hcan
  | crashed p => simp [Dispatch.canStep] at hcan
  | _ =>
    rw [step, stepConsumer, if_pos]
    · rfl
    · exact hcan

/-- The dispatch has ended. -/
private def DispatchOver (w : World) (b : Batch) (mode : ConsumerMode) (v : World) : Prop :=
  ∃ place s, v = w.during place s ⟨b, .finished⟩ mode

private theorem comes_from_counting : (w.during place s ⟨b, .counting⟩ mode).Comes (DispatchOver w b mode) := by
  refine .after (a := .consumer) rfl ?_
  rw [during_consumer rfl]
  exact .here ⟨_, _, rfl⟩

private theorem comes_from_awaiting (began call : Nat) :
    (w.during place s ⟨b, .awaiting began call⟩ mode).Comes (DispatchOver w b mode) := by
  refine .after (a := .pass (began + place.acknowledger.delay)) rfl (.after (a := .consumer) rfl ?_)
  let later : Surroundings := { s with now := s.now + (began + place.acknowledger.delay) }
  have hcan : (⟨b, .awaiting began call⟩ : Dispatch).canStep later place = true :=
    decide_eq_true (Nat.le_add_left _ s.now)
  have hpass : (w.during place s ⟨b, .awaiting began call⟩ mode).step (.pass (began + place.acknowledger.delay)) =
      w.during place later ⟨b, .awaiting began call⟩ mode := rfl
  rw [hpass, during_consumer hcan, Dispatch.step, if_pos hcan]
  exact comes_from_counting

private theorem comes_from_acknowledging :
    (w.during place s ⟨b, .acknowledging⟩ mode).Comes (DispatchOver w b mode) := by
  refine .after (a := .consumer) rfl ?_
  rw [during_consumer rfl]
  simp only [Dispatch.step, Dispatch.canStep, if_true]
  split
  · exact comes_from_counting
  · exact comes_from_awaiting _ _

/-- The steps that a call has left. -/
private def callSteps (c : Call) : Nat :=
  match c.phase with
  | .ready => 2
  | .running .. => 1
  | .ended => 0

private theorem comes_from_calling (calls : List Call) :
    (w.during place s ⟨b, .calling calls⟩ mode).Comes (DispatchOver w b mode) := by
  -- Calls go on in any order, so the induction is on all the steps that they have left together.
  induction hn : (calls.map callSteps).sum using Nat.strongRecOn generalizing place s calls with
  | ind n ih =>
    by_cases hall : calls.all (·.phase == .ended) = true
    · have hcan : (⟨b, .calling calls⟩ : Dispatch).canStep s place = true := hall
      refine .after (a := .consumer) rfl ?_
      rw [during_consumer hcan, Dispatch.step, if_pos hcan]
      exact comes_from_acknowledging
    · have hex : ∃ c ∈ calls, c.phase ≠ .ended := by simpa using hall
      obtain ⟨⟨seat, cp⟩, hmem, hne⟩ := hex
      obtain ⟨i, hi⟩ := List.getElem?_of_mem hmem
      have hsum := fun c' => sum_map_set_add hi c' callSteps
      cases cp with
      | ended => exact absurd rfl hne
      | ready =>
        refine .after (a := .call i) rfl ?_
        have hcall : (w.during place s ⟨b, .calling calls⟩ mode).step (.call i) =
            w.during (place.beginCall seat b).1 s
              ⟨b, .calling (calls.set i ⟨seat, .running s.now (place.beginCall seat b).2⟩)⟩ mode := by
          simp only [step, stepCall, during, enter, Service.enter, Dispatch.stepCall, hi, Call.canStep, Call.step,
            if_true]
        rw [hcall]
        refine ih _ ?_ _ rfl
        have hless := hsum ⟨seat, .running s.now (place.beginCall seat b).2⟩
        simp only [callSteps] at hless hn ⊢
        omega
      | running began call =>
        let wait := began + ((place.registry.get? seat).map (·.delay)).getD 0
        refine .after (a := .pass wait) rfl (.after (a := .call i) rfl ?_)
        let later : Surroundings := { s with now := s.now + wait }
        have hcan : (⟨seat, .running began call⟩ : Call).canStep later place = true :=
          decide_eq_true (Nat.le_add_left _ s.now)
        have hcall : ((w.during place s ⟨b, .calling calls⟩ mode).step (.pass wait)).step (.call i) =
            w.during (place.endCall later seat began call b) later
              ⟨b, .calling (calls.set i ⟨seat, .ended⟩)⟩ mode := by
          have hpass : (w.during place s ⟨b, .calling calls⟩ mode).step (.pass wait) =
              w.during place later ⟨b, .calling calls⟩ mode := rfl
          rw [hpass]
          simp only [step, stepCall, during, enter, Service.enter, Dispatch.stepCall, hi, hcan, Call.step, if_true]
        rw [hcall]
        refine ih _ ?_ _ rfl
        have hless := hsum ⟨seat, .ended⟩
        simp only [callSteps] at hless hn ⊢
        omega

private theorem comes_from_routing (hb : ¬ place.registry.Fells b) :
    (w.during place s ⟨b, .routing⟩ mode).Comes (DispatchOver w b mode) := by
  refine .after (a := .consumer) rfl ?_
  rw [during_consumer rfl]
  simp only [Dispatch.step, Dispatch.canStep, if_true, Dispatch.route]
  split
  · exact .here ⟨_, _, rfl⟩
  · next he =>
    split
    · next p hroute => exact absurd ⟨by simpa using he, Registry.exists_resolve_error_iff.1 ⟨p, hroute⟩⟩ hb
    · exact comes_from_acknowledging
    · exact comes_from_calling _

/-- A dispatch whose handlers answer comes to its end, and the consumer is back where it takes the next batch. -/
theorem comes_back (h : w.service.consumer = some (.dispatching d mode))
    (hsafe : d.IsSafe w.workplace.registry) :
    w.Comes fun v => ∃ place s, v = { w with workplace := place, surroundings := s }.enter mode.next := by
  have hended : w.Comes (DispatchOver w d.batch mode) := by
    obtain ⟨b, phase⟩ := d
    rw [eq_during h]
    cases phase with
    | routing => exact comes_from_routing hsafe
    | calling calls => exact comes_from_calling calls
    | acknowledging => exact comes_from_acknowledging
    | awaiting began call => exact comes_from_awaiting began call
    | counting => exact comes_from_counting
    | finished => exact .here ⟨_, _, rfl⟩
    | crashed p => exact hsafe.elim
  refine hended.bind fun v hv _ => ?_
  obtain ⟨place, s, rfl⟩ := hv
  refine .after (a := .consumer) rfl (.here ⟨place, s, ?_⟩)
  cases mode <;> rfl

private theorem falls_of_crashed {p : Panic} :
    (w.during place s ⟨b, .crashed p⟩ mode).Comes fun v =>
      v.service.consumer = some (.gone true) ∧ v.service.state = .terminated := by
  refine .after (a := .consumer) rfl (.after (a := .consumer) rfl (.here ?_))
  have hfall : (w.during place s ⟨b, .crashed p⟩ mode).step .consumer =
      (w.during place s ⟨b, .crashed p⟩ mode).enter (.leaving true) := by
    cases mode <;> rfl
  rw [hfall]
  exact ⟨rfl, rfl⟩

/-- A dispatch that has not been answered and that a handler fells takes the consumer with it. -/
theorem comes_to_fall (h : w.service.consumer = some (.dispatching d mode)) (hd : d.unanswered ≠ [])
    (hb : w.workplace.registry.Fells d.batch) :
    w.Comes fun v => v.service.consumer = some (.gone true) ∧ v.service.state = .terminated := by
  obtain ⟨b, phase⟩ := d
  rw [eq_during h]
  cases phase with
  | routing =>
    obtain ⟨hempty, hpanics⟩ := hb
    obtain ⟨p, hroute⟩ := Registry.exists_resolve_error_iff.2 hpanics
    refine .after (a := .consumer) rfl ?_
    rw [during_consumer rfl]
    simp only [Dispatch.step, Dispatch.canStep, if_true, Dispatch.route, hempty, Bool.false_eq_true, if_false, hroute]
    exact falls_of_crashed
  | crashed p => exact falls_of_crashed
  | _ => exact absurd rfl hd

end Dispatching

/-! ### Until there is nothing left -/

/-- The batches that the source holds for the consumer. -/
def ahead (w : World) : List Batch :=
  match w.source with
  | .queue => w.queue.buffer
  | .scripted steady timed => (steady ++ timed).filterMap Handout.batch?

/-- The consumer waits for a batch that is not there, or has drained its source and gone. -/
def AtRest (w : World) : Prop :=
  w.service.consumer = some (.gone false) ∨
    w.service.consumer = some .waiting ∧ w.service.shutdown = false ∧ w.hasAnswer = false

variable {r : Registry}

/-- No panic stands before the consumer: handlers answer to the batches that it holds or that the source holds for it,
and the source does not panic itself. -/
structure Safe (r : Registry) (w : World) : Prop where
  consumer : ∃ p, w.service.consumer = some p ∧ p.IsSafe r
  answers : w.workplace.registry.AnswersAs r
  source : w.source.isCalm = true
  ahead : ∀ b ∈ w.ahead, ¬ r.Fells b
  /-- Only a queue makes the consumer wait in a timed poll. -/
  waits : ∀ deadline count since, w.service.consumer = some (.expecting deadline count since) → w.source = .queue

/-- The consumer goes on, and the source holds no more than before. -/
private theorem Safe.goOn (hs : Safe r w) {p : ConsumerPhase} (hp : v.service.consumer = some p) (hsafe : p.IsSafe r)
    (hplace : v.workplace.registry.AnswersAs w.workplace.registry) (hsource : v.source.isCalm = true)
    (hahead : v.ahead.Sublist w.ahead)
    (hwaits : (∃ deadline count since, p = .expecting deadline count since) → v.source = .queue) : Safe r v where
  consumer := ⟨p, hp, hsafe⟩
  answers := hplace.trans hs.answers
  source := hsource
  ahead b hb := hs.ahead b (hahead.subset hb)
  waits deadline count since h := hwaits ⟨deadline, count, since, Option.some.inj (hp.symm.trans h)⟩

/-- The consumer goes on, and its source stays as it is. -/
private theorem Safe.stepOn (hs : Safe r w) {p : ConsumerPhase} (hp : v.service.consumer = some p)
    (hsafe : p.IsSafe r) (hplace : v.workplace.registry.AnswersAs w.workplace.registry)
    (hsource : v.source = w.source) (hahead : v.ahead = w.ahead)
    (hno : ∀ deadline count since, p ≠ .expecting deadline count since) : Safe r v :=
  hs.goOn hp hsafe hplace (hsource ▸ hs.source) (hahead ▸ .refl _) fun ⟨_, _, _, h⟩ => absurd h (hno _ _ _)

/-- From wherever the source holds fewer batches for it, the consumer comes to rest. -/
private def RestsBelow (r : Registry) (n : Nat) : Prop := ∀ v, Safe r v → v.ahead.length < n → v.Comes AtRest

section Phases

variable {n : Nat}

private theorem rests_of_leaving (h : w.service.consumer = some (.leaving false)) : w.Comes AtRest := by
  refine .after (a := .consumer) rfl (.here (.inl ?_))
  simp [step, stepConsumer, canStepConsumer, h, Service.enter]

private theorem rests_of_summing (count since : Nat) (h : w.service.consumer = some (.summing count since)) :
    w.Comes AtRest := by
  refine .after (a := .consumer) rfl (rests_of_leaving ?_)
  simp [step, stepConsumer, canStepConsumer, h, enter, Service.enter]

/-- A batch that the source holds goes to dispatch. -/
private theorem rests_of_taken (ih : RestsBelow r n) (hn : w.ahead.length ≤ n) (hs : Safe r w) {b : Batch}
    {mode : ConsumerMode} (hp : v.service.consumer = some (.dispatching { batch := b } mode))
    (hplace : v.workplace.registry = w.workplace.registry) (hsource : v.source.isCalm = true)
    (front back : List Batch) (hahead : w.ahead = front ++ b :: back) (hleft : v.ahead = front ++ back) :
    v.Comes AtRest := by
  have hanswers : v.workplace.registry.AnswersAs w.workplace.registry := by
    rw [hplace]
    exact .refl _
  have hsafe : (ConsumerPhase.dispatching { batch := b } mode).IsSafe r := hs.ahead b (by simp [hahead])
  have hsub : v.ahead.Sublist w.ahead := by simp [hahead, hleft]
  have hless : v.ahead.length < w.ahead.length := by simp [hahead, hleft]
  exact ih v (hs.goOn hp hsafe hanswers hsource hsub (by simp)) (by omega)

private theorem ahead_of_queue (h : w.source = .queue) : w.ahead = w.queue.buffer := by rw [ahead, h]

private theorem ahead_of_scripted {steady timed : List Handout} (h : w.source = .scripted steady timed) :
    w.ahead = (steady ++ timed).filterMap Handout.batch? := by rw [ahead, h]

private theorem rests_of_expecting (ih : RestsBelow r n) (hn : w.ahead.length ≤ n) (hs : Safe r w)
    {deadline count since : Nat} (h : w.service.consumer = some (.expecting deadline count since)) :
    w.Comes AtRest := by
  have hqueue := hs.waits _ _ _ h
  cases ht : w.queue.take .consumer with
  | none =>
    refine .after (a := .pass deadline) rfl (.after (a := .consumer) rfl (rests_of_summing count since ?_))
    simp [step, stepConsumer, canStepConsumer, h, take, ht, enter, Service.enter]
  | some p =>
    obtain ⟨b, q⟩ := p
    have hcan : w.canStepConsumer = true := by
      simp [canStepConsumer, h, Queue.canTake_eq_isSome_take, ht]
    have hstep : w.step .consumer =
        ({ w with queue := q }.emitDepth.log (.drew b)).dispatchNext b (.draining (count + 1) since) := by
      simp [step, stepConsumer, hcan, h, take, ht]
    refine .after (a := .consumer) rfl ?_
    rw [hstep]
    refine rests_of_taken ih hn hs rfl rfl hs.source [] q.buffer ?_ (ahead_of_queue hqueue)
    rw [ahead_of_queue hqueue]
    exact (Queue.of_take ht).1

private theorem rests_of_polling (ih : RestsBelow r n) (hn : w.ahead.length ≤ n) (hs : Safe r w)
    {count since : Nat} (h : w.service.consumer = some (.polling count since)) : w.Comes AtRest := by
  have hcan : w.canStepConsumer = true := by simp [canStepConsumer, h]
  have hstep : w.step .consumer = w.stepPolling count since := by simp [step, stepConsumer, hcan, h]
  refine .after (a := .consumer) rfl ?_
  rw [hstep]
  cases hsrc : w.source with
  | queue =>
    have hpoll : w.stepPolling count since =
        { w.log (.polled w.config.shutdownAwait) with queue := w.queue.join .consumer }.enter
          (.expecting (w.surroundings.now + w.config.shutdownAwait) count since) := by
      simp [stepPolling, log, hsrc]
    rw [hpoll]
    have hahead : ({ w.log (.polled w.config.shutdownAwait) with queue := w.queue.join .consumer }.enter
        (.expecting (w.surroundings.now + w.config.shutdownAwait) count since)).ahead = w.ahead := by
      rw [ahead_of_queue hsrc, ahead_of_queue (by exact hsrc)]
      exact Queue.join_buffer ..
    exact rests_of_expecting ih (hahead ▸ hn)
      (hs.goOn rfl trivial (.refl _) hs.source (hahead ▸ .refl _) fun _ => hsrc) rfl
  | scripted steady timed =>
    have hcalm := hs.source
    rw [hsrc, Source.isCalm_scripted] at hcalm
    cases timed with
    | nil =>
      refine rests_of_summing count since ?_
      simp [stepPolling, log, hsrc, enter, Service.enter]
    | cons a timed =>
      cases a with
      | panic p => simpa [Handout.isPanic] using hcalm.2 _ List.mem_cons_self
      | nothing =>
        refine rests_of_summing count since ?_
        simp [stepPolling, log, hsrc, enter, Service.enter]
      | batch b =>
        have hpoll : w.stepPolling count since =
            ({ w.log (.polled w.config.shutdownAwait) with source := .scripted steady timed }.log
              (.drew b)).dispatchNext b (.draining (count + 1) since) := by
          simp [stepPolling, log, hsrc]
        rw [hpoll]
        refine rests_of_taken ih hn hs rfl rfl ?_ (steady.filterMap Handout.batch?)
          (timed.filterMap Handout.batch?) ?_ ?_
        · exact Source.isCalm_scripted.2 ⟨hcalm.1, fun c hc => hcalm.2 c (List.mem_cons_of_mem _ hc)⟩
        · rw [ahead_of_scripted hsrc]
          simp [Handout.batch?]
        · rw [ahead_of_scripted rfl]
          simp

private theorem rests_of_closing (ih : RestsBelow r n) (hn : w.ahead.length ≤ n) (hs : Safe r w)
    (h : w.service.consumer = some .closing) : w.Comes AtRest := by
  have hcan : w.canStepConsumer = true := by simp [canStepConsumer, h]
  have hstep : w.step .consumer =
      (if w.service.state < .stopping then { w with service := w.service.publish .stopping } else w).enter
        (.polling 0 w.surroundings.now) := by
    simp [step, stepConsumer, hcan, h]
  refine .after (a := .consumer) rfl ?_
  rw [hstep]
  split
  · exact rests_of_polling ih hn (hs.stepOn rfl trivial (.refl _) rfl rfl (by simp)) rfl
  · exact rests_of_polling ih hn (hs.stepOn rfl trivial (.refl _) rfl rfl (by simp)) rfl

/-- A consumer that sees a shutdown before it asks for a batch drains the source. -/
private theorem rests_of_shutdown (ih : RestsBelow r n) (hn : w.ahead.length ≤ n) (hs : Safe r w) {asked : Bool}
    (h : w.service.consumer = some (.turning asked)) (hd : w.service.shutdown = true) : w.Comes AtRest := by
  have hcan : w.canStepConsumer = true := by simp [canStepConsumer, h]
  have hstep : w.step .consumer =
      ({ w with queue := w.queue.leave .consumer }.log .sawShutdown).enter .closing := by
    simp [step, stepConsumer, hcan, h, hd]
  refine .after (a := .consumer) rfl ?_
  rw [hstep]
  exact rests_of_closing ih hn (hs.stepOn rfl trivial (.refl _) rfl rfl (by simp)) rfl

/-- A consumer that waits and finds nothing stays, unless it is told to stop. -/
private theorem rests_of_waiting_in_vain (ih : RestsBelow r n) (hn : w.ahead.length ≤ n) (hs : Safe r w)
    (h : w.service.consumer = some .waiting) (hno : w.hasAnswer = false) : w.Comes AtRest := by
  cases hd : w.service.shutdown with
  | false => exact .here (.inr ⟨h, hd, hno⟩)
  | true =>
    have hcan : w.canStepConsumer = true := by simp [canStepConsumer, h, hd]
    have hstep : w.step .consumer = w.enter (.turning true) := by simp [step, stepConsumer, hcan, h]
    refine .after (a := .consumer) rfl ?_
    rw [hstep]
    exact rests_of_shutdown ih hn (hs.stepOn rfl trivial (.refl _) rfl rfl (by simp)) rfl hd

/-- A consumer that asks the queue takes a batch, or waits in line for one. -/
private theorem rests_of_asking_queue (ih : RestsBelow r n) (hn : w.ahead.length ≤ n) (hs : Safe r w)
    (hsrc : w.source = .queue) : w.stepAsking.Comes AtRest := by
  cases ht : (w.queue.join .consumer).take .consumer with
  | none =>
    have hask : w.stepAsking = { w with queue := w.queue.join .consumer }.enter .waiting := by
      simp [stepAsking, hsrc, take, ht]
    rw [hask]
    have hahead : ({ w with queue := w.queue.join .consumer }.enter .waiting).ahead = w.ahead := by
      rw [ahead_of_queue hsrc, ahead_of_queue (by exact hsrc)]
      exact Queue.join_buffer ..
    have hno : ({ w with queue := w.queue.join .consumer }.enter .waiting).hasAnswer = false := by
      simp [hasAnswer, enter, hsrc, Queue.canTake_eq_isSome_take, ht]
    exact rests_of_waiting_in_vain ih (hahead ▸ hn) (hs.stepOn rfl trivial (.refl _) rfl hahead (by simp)) rfl hno
  | some p =>
    obtain ⟨b, q⟩ := p
    have hask : w.stepAsking =
        ({ w with queue := q }.emitDepth.log (.received b)).dispatchNext b .steady := by
      simp [stepAsking, hsrc, take, ht]
    rw [hask]
    refine rests_of_taken ih hn hs rfl rfl hs.source [] q.buffer ?_ (ahead_of_queue hsrc)
    rw [ahead_of_queue hsrc, ← Queue.join_buffer w.queue .consumer]
    exact (Queue.of_take ht).1

/-- A consumer that asks a script hears the next answer of it, or waits for one. -/
private theorem rests_of_asking_script (ih : RestsBelow r n) (hn : w.ahead.length ≤ n) (hs : Safe r w)
    {steady timed : List Handout} (hsrc : w.source = .scripted steady timed) : w.stepAsking.Comes AtRest := by
  have hcalm := hs.source
  rw [hsrc, Source.isCalm_scripted] at hcalm
  cases steady with
  | nil =>
    have hask : w.stepAsking = w.enter .waiting := by simp [stepAsking, hsrc]
    rw [hask]
    have hno : (w.enter .waiting).hasAnswer = false := by simp [hasAnswer, enter, hsrc]
    exact rests_of_waiting_in_vain ih hn (hs.stepOn rfl trivial (.refl _) rfl rfl (by simp)) rfl hno
  | cons a steady =>
    have hleft := Source.isCalm_scripted.2 ⟨fun c hc => hcalm.1 c (List.mem_cons_of_mem _ hc), hcalm.2⟩
    cases a with
    | panic p => simpa [Handout.isPanic] using hcalm.1 _ List.mem_cons_self
    | nothing =>
      have hask : w.stepAsking = ({ w with source := .scripted steady timed }.log .exhausted).enter .closing := by
        simp [stepAsking, hsrc]
      rw [hask]
      have hahead : (({ w with source := .scripted steady timed }.log .exhausted).enter .closing).ahead =
          w.ahead := by
        rw [ahead_of_scripted hsrc, ahead_of_scripted rfl, List.cons_append, List.filterMap_cons_none rfl]
      exact rests_of_closing ih (hahead ▸ hn)
        (hs.goOn rfl trivial (.refl _) hleft (hahead ▸ .refl _) (by simp)) rfl
    | batch b =>
      have hask : w.stepAsking =
          ({ w with source := .scripted steady timed }.log (.received b)).dispatchNext b .steady := by
        simp [stepAsking, hsrc]
      rw [hask]
      refine rests_of_taken ih hn hs rfl rfl hleft []
        ((steady ++ timed).filterMap Handout.batch?) ?_ (ahead_of_scripted rfl)
      rw [ahead_of_scripted hsrc]
      simp [Handout.batch?]

private theorem rests_of_asking (ih : RestsBelow r n) (hn : w.ahead.length ≤ n) (hs : Safe r w)
    (h : w.service.consumer = some .asking) : w.Comes AtRest := by
  have hcan : w.canStepConsumer = true := by simp [canStepConsumer, h]
  have hstep : w.step .consumer = w.stepAsking := by simp [step, stepConsumer, hcan, h]
  refine .after (a := .consumer) rfl ?_
  rw [hstep]
  cases hsrc : w.source with
  | queue => exact rests_of_asking_queue ih hn hs hsrc
  | scripted steady timed => exact rests_of_asking_script ih hn hs hsrc

private theorem rests_of_turning (ih : RestsBelow r n) (hn : w.ahead.length ≤ n) (hs : Safe r w) {asked : Bool}
    (h : w.service.consumer = some (.turning asked)) : w.Comes AtRest := by
  cases hd : w.service.shutdown with
  | true => exact rests_of_shutdown ih hn hs h hd
  | false =>
    have hcan : w.canStepConsumer = true := by simp [canStepConsumer, h]
    have hstep : w.step .consumer = (if asked then w else w.log .asked).enter .asking := by
      simp [step, stepConsumer, hcan, h, hd]
    refine .after (a := .consumer) rfl ?_
    rw [hstep]
    cases asked <;> exact rests_of_asking ih hn (hs.stepOn rfl trivial (.refl _) rfl rfl (by simp)) rfl

private theorem rests_of_waiting (ih : RestsBelow r n) (hn : w.ahead.length ≤ n) (hs : Safe r w)
    (h : w.service.consumer = some .waiting) : w.Comes AtRest := by
  cases hanswer : w.hasAnswer with
  | false => exact rests_of_waiting_in_vain ih hn hs h hanswer
  | true =>
    have hcan : w.canStepConsumer = true := by simp [canStepConsumer, h, hanswer]
    have hstep : w.step .consumer = w.enter (.turning true) := by simp [step, stepConsumer, hcan, h]
    refine .after (a := .consumer) rfl ?_
    rw [hstep]
    exact rests_of_turning ih hn (hs.stepOn rfl trivial (.refl _) rfl rfl (by simp)) rfl

private theorem rests_of_launching (ih : RestsBelow r n) (hn : w.ahead.length ≤ n) (hs : Safe r w)
    (h : w.service.consumer = some .launching) : w.Comes AtRest := by
  have hcan : w.canStepConsumer = true := by simp [canStepConsumer, h]
  have hstep : w.step .consumer =
      (if w.service.state = .starting then { w with service := w.service.publish .running } else w).enter
        (.turning false) := by
    simp [step, stepConsumer, hcan, h]
  refine .after (a := .consumer) rfl ?_
  rw [hstep]
  split <;> exact rests_of_turning ih hn (hs.stepOn rfl trivial (.refl _) rfl rfl (by simp)) rfl

private theorem rests_of_dispatching (ih : RestsBelow r n) (hn : w.ahead.length ≤ n) (hs : Safe r w) {d : Dispatch}
    {mode : ConsumerMode} (h : w.service.consumer = some (.dispatching d mode)) : w.Comes AtRest := by
  obtain ⟨p, hp, hsafe⟩ := hs.consumer
  cases h.symm.trans hp
  refine (comes_back h (Dispatch.isSafe_congr hs.answers hsafe)).bind fun v hv hanswers => ?_
  obtain ⟨place, s, rfl⟩ := hv
  cases mode with
  | steady => exact rests_of_turning ih hn (hs.stepOn rfl trivial hanswers rfl rfl (by simp [ConsumerMode.next])) rfl
  | draining count since =>
    exact rests_of_polling ih hn (hs.stepOn rfl trivial hanswers rfl rfl (by simp [ConsumerMode.next])) rfl

end Phases

/-- A consumer before which no panic stands comes to rest by itself. -/
theorem comes_to_rest (hs : Safe r w) : w.Comes AtRest := by
  -- Every batch that the source gives away leaves fewer, and between two batches the phases follow one another.
  induction hn : w.ahead.length using Nat.strongRecOn generalizing w with
  | ind n ih =>
    have hbelow : RestsBelow r n := fun v hv hless => ih _ hless hv rfl
    have hle := Nat.le_of_eq hn
    obtain ⟨p, hp, hsafe⟩ := hs.consumer
    cases p with
    | launching => exact rests_of_launching hbelow hle hs hp
    | turning asked => exact rests_of_turning hbelow hle hs hp
    | asking => exact rests_of_asking hbelow hle hs hp
    | waiting => exact rests_of_waiting hbelow hle hs hp
    | dispatching d mode => exact rests_of_dispatching hbelow hle hs hp
    | closing => exact rests_of_closing hbelow hle hs hp
    | polling count since => exact rests_of_polling hbelow hle hs hp
    | expecting deadline count since => exact rests_of_expecting hbelow hle hs hp
    | summing count since => exact rests_of_summing count since hp
    | leaving crashed =>
      obtain rfl : crashed = false := hsafe
      exact rests_of_leaving hp
    | gone crashed =>
      obtain rfl : crashed = false := hsafe
      exact .here (.inl hp)

end World

end FailurePipeline
