import FailurePipeline.Proofs.Pipeline.Drain
import FailurePipeline.Proofs.Pipeline.Receivers
import FailurePipeline.Proofs.Service.Onward

/-!
# A consumer at rest has left nothing behind

Where only the consumer receives, it stands in line while it waits (`WaitsInLine`) and gets past its last poll only if
that found the queue empty (`Empties`).  So when it comes to rest, all that was accepted has been dispatched
(`World.dispatched_of_atRest`).
-/

namespace FailurePipeline

namespace World

variable {w w' : World}

/-! ### In line -/

/-- A consumer that waits for a batch of the queue stands in line. -/
def WaitsInLine (w : World) : Prop :=
  w.source = .queue → w.service.consumer = some .waiting → .consumer ∈ w.queue.receivers

namespace WaitsInLine

theorem fresh (hv : w.service = {}) : WaitsInLine w := by
  intro _ h
  simp [hv] at h

private theorem consumerMove (hw : WaitsInLine w) (h : ConsumerMove w w') : WaitsInLine w' := by
  have hno : ∀ {v : World} {p : ConsumerPhase}, v.service.consumer = some p → p ≠ .waiting → WaitsInLine v := by
    intro v p hp hne _ h
    exact absurd (Option.some.inj (hp.symm.trans h)) hne
  cases h with
  | idle => exact hw
  | wait h hs ht => exact fun _ _ => Queue.mem_join.2 (.inr rfl)
  | hang timed h hs => exact fun hq _ => Source.noConfusion (hs.symm.trans hq)
  | launch => split <;> exact hno rfl nofun
  | close => split <;> exact hno rfl nofun
  | ask asked => cases asked <;> exact hno rfl nofun
  | hear a => cases a <;> exact hno rfl nofun
  | pollScript a => cases a <;> exact hno rfl nofun
  | _ => exact hno rfl nofun

/-- A task does not push the consumer out of line. -/
private theorem mem_of_taskMove {i : Nat} (h : TaskMove w i w') (hin : .consumer ∈ w.queue.receivers) :
    .consumer ∈ w'.queue.receivers := by
  have hne : Agent.consumer ≠ .task i := nofun
  have herase : .consumer ∈ w.queue.receivers.erase (.task i) := (List.mem_erase_of_ne hne).2 hin
  cases h with
  | ask b after h => exact (Queue.ask_receivers w.queue (.task i)).symm ▸ hin
  | call limit h => exact Queue.mem_join.2 (.inl hin)
  | receive deadline b q h ht => exact (Queue.of_take ht).2.2.symm ▸ herase
  | expire => exact herase
  | abandonQueued b after h => exact (Queue.withdraw_receivers w.queue (.task i)).symm ▸ hin
  | abandonReceiving => exact herase
  | read => split <;> exact hin
  | _ => exact hin

private theorem taskMove (hw : WaitsInLine w) {i : Nat} (h : TaskMove w i w') : WaitsInLine w' := by
  obtain ⟨hs, -, -, -, hc | ⟨-, hc⟩⟩ := h.frame
  · exact fun hq hp => mem_of_taskMove h (hw (hs ▸ hq) (hc ▸ hp))
  · exact fun _ hp => absurd (Option.some.inj (hc.symm.trans hp)) nofun

theorem step (hw : WaitsInLine w) (a : Action) : WaitsInLine (w.step a) := by
  cases a with
  | spawn j =>
    obtain ⟨hs, -, -, hq, hv, -, -⟩ := w.spawn_frame j
    rw [World.step, WaitsInLine, hs, hq, hv]
    exact hw
  | task i => exact hw.taskMove (stepTask_move w i)
  | abandon i => exact hw.taskMove (abandonTask_move w i)
  | consumer => exact hw.consumerMove (stepConsumer_move w)
  | call i => exact hw.consumerMove (stepCall_move w i)
  | crash => exact hw.consumerMove (crashConsumer_move w)
  | supply a =>
    rw [World.step, supply]
    split
    · exact hw
    · exact fun hq => absurd hq (by simp)
  | pass ms => exact hw
  | clock wall => exact hw
  | refuse reason => exact hw

theorem run (hw : WaitsInLine w) (actions : List Action) : WaitsInLine (w.run actions) := by
  induction actions generalizing w with
  | nil => exact hw
  | cons a as ih => exact ih (hw.step a)

end WaitsInLine

/-! ### Past the last poll -/

/-- Past its last poll the consumer leaves the queue empty. -/
def Empties (w : World) : Prop :=
  ∀ p, w.service.consumer = some p → p.hasExpired = true → w.queue.buffer = []

private theorem empties_of_consumerMove (he : Empties w) (hl : Sole w) (h : ConsumerMove w w') : Empties w' := by
  have hno : ∀ {v : World} {p : ConsumerPhase}, v.service.consumer = some p → p.hasExpired = false → Empties v := by
    intro v p hp hno q hq hx
    obtain rfl : p = q := Option.some.inj (hp.symm.trans hq)
    simp [hno] at hx
  cases h with
  | idle => exact he
  | expire deadline count since h ht hd =>
    have hfirst : w.queue.receivers.head? = some .consumer := by simp [hl.expecting _ _ _ h]
    have hempty := Queue.buffer_eq_nil_of_take hfirst ht
    exact fun _ _ _ => hempty
  | sum count since h => exact fun _ _ _ => he _ h rfl
  | leave crashed h =>
    cases crashed with
    | true => exact hno rfl rfl
    | false => exact fun _ _ _ => he _ h rfl
  | launch => split <;> exact hno rfl rfl
  | close => split <;> exact hno rfl rfl
  | ask asked => cases asked <;> exact hno rfl rfl
  | hear a steady timed h hs => simp [hl.source] at hs
  | pollScript a steady timed count since h hs => simp [hl.source] at hs
  | pollEnd steady count since h hs => simp [hl.source] at hs
  | _ => exact hno rfl rfl

/-- What the consumer keeps while it goes on by itself. -/
private structure Alone (accepted : List Batch) (w : World) : Prop where
  sole : Sole w
  line : WaitsInLine w
  empties : Empties w
  accepted : w.queue.accepted = accepted

private theorem Alone.step {accepted : List Batch} (h : Alone accepted w) {a : Action} (ha : a.isConsumers = true) :
    Alone accepted (w.step a) := by
  have hreceiver : a.beginsReceiver = false := by cases a <;> simp [Action.isConsumers] at ha <;> rfl
  have hmove : (w.step a).service = w.service ∧ (w.step a).queue = w.queue ∨ ConsumerMove w (w.step a) := by
    cases a with
    | consumer => exact .inr (stepConsumer_move w)
    | call i => exact .inr (stepCall_move w i)
    | pass ms => exact .inl ⟨rfl, rfl⟩
    | _ => simp [Action.isConsumers] at ha
  refine ⟨h.sole.step hreceiver, h.line.step a, ?_, ?_⟩
  · rcases hmove with ⟨hv, hq⟩ | hmove
    · rw [Empties, hv, hq]
      exact h.empties
    · exact empties_of_consumerMove h.empties h.sole hmove
  · rcases hmove with ⟨-, hq⟩ | hmove
    · rw [hq, h.accepted]
    · rw [hmove.frame.2.2.2.2.1, h.accepted]

/-- A consumer that comes to rest by itself, and was not past its last poll before, has dispatched all that was
accepted. -/
theorem dispatched_of_atRest (hl : Sole w) (hw : WaitsInLine w) {p : ConsumerPhase}
    (hp : w.service.consumer = some p) (hx : p.hasExpired = false) {more : List Action}
    (hmore : ∀ a ∈ more, a.isConsumers = true) (hrest : AtRest (w.run more)) :
    (w.run more).dispatched = w.queue.accepted := by
  have hstart : Alone w.queue.accepted w := by
    refine ⟨hl, hw, fun q hq hqx => ?_, rfl⟩
    obtain rfl : p = q := Option.some.inj (hp.symm.trans hq)
    simp [hx] at hqx
  have halone : Alone w.queue.accepted (w.run more) :=
    run_induction (P := Alone w.queue.accepted) hstart (fun _ _ ha h => h.step ha) hmore
  -- A consumer that has gone found the queue empty, and one that waits is first in line and finds nothing.
  have hempty : (w.run more).queue.buffer = [] := by
    rcases hrest with hgone | ⟨hwaiting, -, hno⟩
    · exact halone.empties _ hgone rfl
    · have hin := halone.line halone.sole.source hwaiting
      have hfirst : (w.run more).queue.receivers.head? = some .consumer := by
        rcases halone.sole.line with hline | hline
        · simp [hline] at hin
        · simp [hline]
      simpa [hasAnswer, halone.sole.source, Queue.canTake, hfirst] using hno
  have horder := halone.sole.order
  rwa [hempty, List.append_nil, halone.accepted] at horder

/-! ### After a run -/

/-- A consumer that stands and holds no batch that fells it is safe. -/
theorem Standing.isSafe {r : Registry} {w : World} (hs : Standing r w) {p : ConsumerPhase}
    (hp : w.service.consumer = some p) (hc : p.hasCrashed = false) (hb : ∀ b ∈ w.unanswered, ¬ r.Fells b) :
    p.IsSafe r := by
  cases p with
  | dispatching d mode =>
    obtain ⟨b, phase⟩ := d
    cases phase with
    | routing => exact hb b (by simp [unanswered, hp, ConsumerPhase.unanswered, Dispatch.unanswered])
    | crashed q =>
      refine absurd (hs.fells _ mode q hp rfl) (hb b ?_)
      simp [unanswered, hp, ConsumerPhase.unanswered, Dispatch.unanswered]
    | _ => trivial
  | leaving crashed =>
    cases crashed with
    | false => rfl
    | true => simp [ConsumerPhase.hasCrashed] at hc
  | gone crashed =>
    cases crashed with
    | false => rfl
    | true => simp [ConsumerPhase.hasCrashed] at hc
  | _ => trivial

/-- Where no batch fells it that it holds or that its source holds for it, the consumer comes to rest; if nobody else
receives, all that was accepted has been dispatched then. -/
theorem comes_to_rest_of_harmless {w₀ : World} {actions : List Action} (hv : w₀.service = {}) (ht : w₀.tasks = [])
    (hs : ∀ first, first <+: actions → (w₀.run first).source.isCalm = true) (ha : .crash ∉ actions)
    {p : ConsumerPhase} (hp : (w₀.run actions).service.consumer = some p) (hc : p.hasCrashed = false)
    (hb : ∀ b ∈ (w₀.run actions).unanswered ++ (w₀.run actions).ahead, ¬ w₀.workplace.registry.Fells b) :
    (w₀.run actions).Comes fun v => AtRest v ∧
      (Sole (w₀.run actions) → p.hasExpired = false → v.dispatched = (w₀.run actions).queue.accepted) := by
  obtain ⟨hheld, hahead⟩ := List.forall_mem_append.1 hb
  have hcrash : (w₀.run actions).hasCrashed = false := by simp [hasCrashed, hp, hc]
  have hstands := (standing_or_fallen hv ht hs ha).1 hcrash
  obtain ⟨c, hf⟩ := exists_follows hv ht hcrash
  have hsafe : Safe w₀.workplace.registry (w₀.run actions) :=
    ⟨⟨p, hp, hstands.isSafe hp hc hheld⟩, w₀.run_answersAs actions, hs _ List.prefix_rfl, hahead, hf.waits⟩
  obtain ⟨more, hmore, hrest⟩ := comes_to_rest hsafe
  refine ⟨more, hmore, hrest, fun hsole hx => ?_⟩
  exact dispatched_of_atRest hsole ((WaitsInLine.fresh hv).run actions) hp hx hmore hrest

end World

end FailurePipeline
