import FailurePipeline.Proofs.Pipeline.Acknowledgments

/-!
# Where panics of the consumer come from

The consumer panics because it is made to from without, because its source does, or because a dispatch has ended with
a panic (`World.Panics`).  Where the first two are ruled out, only the last is left (`World.step_hasCrashed`).  A source
that does not panic stays so unless it is given a panic as an answer (`World.run_source_isCalm`).
-/

namespace FailurePipeline

def Handout.isPanic : Handout → Bool
  | .panic _ => true
  | _ => false

/-- Whether a source never panics instead of answering. -/
def Source.isCalm : Source → Bool
  | .queue => true
  | .scripted steady timed => (steady ++ timed).all (!·.isPanic)

/-- Whether an action is neither a panic from without nor has a source panic. -/
def Action.isCalm : Action → Bool
  | .crash => false
  | .supply h => !h.isPanic
  | _ => true

theorem Source.isCalm_scripted {steady timed : List Handout} :
    (Source.scripted steady timed).isCalm = true ↔
      (∀ h ∈ steady, h.isPanic = false) ∧ ∀ h ∈ timed, h.isPanic = false := by
  simp [isCalm]

namespace World

variable {w w' : World} {a : Action}

private theorem consumerMove_isCalm (hs : w.source.isCalm = true) (h : ConsumerMove w w') :
    w'.source.isCalm = true := by
  cases h with
  | hear a steady timed h hsrc =>
    rw [hsrc, Source.isCalm_scripted] at hs
    have hrest := Source.isCalm_scripted.2 ⟨fun b hb => hs.1 b (List.mem_cons_of_mem _ hb), hs.2⟩
    cases a <;> exact hrest
  | pollScript a steady timed count since h hsrc =>
    rw [hsrc, Source.isCalm_scripted] at hs
    have hrest := Source.isCalm_scripted.2 ⟨hs.1, fun b hb => hs.2 b (List.mem_cons_of_mem _ hb)⟩
    cases a <;> exact hrest
  | launch => split <;> exact hs
  | close => split <;> exact hs
  | ask asked => cases asked <;> exact hs
  | _ => exact hs

/-- A calm source stays calm. -/
theorem step_source_isCalm (hs : w.source.isCalm = true) (ha : a.isCalm = true) :
    (w.step a).source.isCalm = true := by
  cases a with
  | spawn j =>
    rw [step, (w.spawn_frame j).1]
    exact hs
  | task i =>
    rw [step, (stepTask_move w i).frame.1]
    exact hs
  | abandon i =>
    rw [step, (abandonTask_move w i).frame.1]
    exact hs
  | consumer => exact consumerMove_isCalm hs (stepConsumer_move w)
  | call i => exact consumerMove_isCalm hs (stepCall_move w i)
  | crash => simp [Action.isCalm] at ha
  | supply h =>
    rw [step, supply]
    split
    · exact hs
    · next steady timed hsrc =>
      rw [hsrc, Source.isCalm_scripted] at hs
      refine Source.isCalm_scripted.2 ⟨fun b hb => ?_, hs.2⟩
      rcases List.mem_append.1 hb with hb | hb
      · exact hs.1 b hb
      · simpa [List.mem_singleton.1 hb, Action.isCalm] using ha
  | pass ms => exact hs
  | clock wall => exact hs
  | refuse reason => exact hs

theorem run_source_isCalm (hs : w.source.isCalm = true) {actions : List Action}
    (ha : ∀ a ∈ actions, a.isCalm = true) : (w.run actions).source.isCalm = true :=
  run_induction (P := fun v => v.source.isCalm = true) hs (fun _ _ ha h => step_source_isCalm h ha) ha

/-! ### Panics -/

/-- The consumer panics with an action: from without, instead of an answer of its source, without a time limit or with
one, or because a handler has when it was asked about a batch. -/
inductive Panics (w : World) : Action → Prop
  | outside (p : ConsumerPhase) (h : w.service.consumer = some p) (hl : ∀ c, p ≠ .leaving c)
    (hg : ∀ c, p ≠ .gone c) : Panics w .crash
  | asking (q : Panic) (steady timed : List Handout) (h : w.service.consumer = some .asking)
    (hs : w.source = .scripted (.panic q :: steady) timed) : Panics w .consumer
  | polling (q : Panic) (steady timed : List Handout) (count since : Nat)
    (h : w.service.consumer = some (.polling count since)) (hs : w.source = .scripted steady (.panic q :: timed)) :
    Panics w .consumer
  | resolving (q : Panic) (d : Dispatch) (mode : ConsumerMode) (h : w.service.consumer = some (.dispatching d mode))
    (hd : d.phase = .crashed q) : Panics w .consumer

private theorem panics_of_stepAsking (h : w.service.consumer = some .asking) (hc : w.stepAsking.hasCrashed = true) :
    Panics w .consumer := by
  rw [stepAsking] at hc
  split at hc
  · simp only at hc
    split at hc <;> simp [hasCrashed, ConsumerPhase.hasCrashed, dispatchNext, enter, Service.enter] at hc
  · simp [hasCrashed, ConsumerPhase.hasCrashed, enter, Service.enter] at hc
  · next a steady timed hs =>
    cases a with
    | panic q => exact .asking q steady timed h hs
    | _ => simp [hasCrashed, ConsumerPhase.hasCrashed, dispatchNext, enter, Service.enter] at hc

private theorem panics_of_stepPolling {count since : Nat} (h : w.service.consumer = some (.polling count since))
    (hc : (w.stepPolling count since).hasCrashed = true) : Panics w .consumer := by
  unfold stepPolling at hc
  simp only at hc
  split at hc
  · simp [hasCrashed, ConsumerPhase.hasCrashed, enter, Service.enter] at hc
  · simp [hasCrashed, ConsumerPhase.hasCrashed, enter, Service.enter] at hc
  · next steady a timed hs =>
    cases a with
    | panic q => exact .polling q steady timed count since h hs
    | _ => simp [hasCrashed, ConsumerPhase.hasCrashed, dispatchNext, enter, Service.enter] at hc

private theorem panics_of_stepConsumer (h : w.hasCrashed = false) (hc : w.stepConsumer.hasCrashed = true) :
    Panics w .consumer := by
  have hstands : ∀ {v : World} {p}, v.service.consumer = some p → p.hasCrashed = false → v.hasCrashed ≠ true := by
    intro v p hp hno hx
    simp [hasCrashed, hp, hno] at hx
  rw [stepConsumer] at hc
  split at hc
  · split at hc
    · exact absurd hc (by simp [h])
    · exact absurd hc (by simp [h])
    · exact absurd hc (hstands rfl rfl)
    · split at hc <;> exact absurd hc (hstands rfl rfl)
    · next hp => exact panics_of_stepAsking hp hc
    · exact absurd hc (hstands rfl rfl)
    · next d mode hp =>
      unfold stepDispatch at hc
      split at hc
      · exact absurd hc (hstands rfl rfl)
      · exact absurd hc (hstands rfl rfl)
      · next q hd => exact .resolving q d _ hp hd
      · exact absurd hc (hstands rfl rfl)
    · exact absurd hc (hstands rfl rfl)
    · next count since hp => exact panics_of_stepPolling hp hc
    · split at hc <;> exact absurd hc (hstands rfl rfl)
    · exact absurd hc (hstands rfl rfl)
    · next crashed hp =>
      have hno : crashed = false := by cases crashed <;> simp [hasCrashed, hp, ConsumerPhase.hasCrashed] at h ⊢
      rw [hno] at hc
      exact absurd hc (hstands rfl rfl)
  · exact absurd hc (by simp [h])

/-- Nothing else makes the consumer panic. -/
theorem panics_of_step (h : w.hasCrashed = false) (hc : (w.step a).hasCrashed = true) : Panics w a := by
  have hsame : ∀ {v : World}, v.service.consumer = w.service.consumer → v.hasCrashed ≠ true := by
    intro v hv hx
    rw [hasCrashed, hv] at hx
    exact Bool.false_ne_true (h.symm.trans hx)
  have htask : ∀ {i v}, TaskMove w i v → v.hasCrashed ≠ true := by
    intro i v hv
    rcases hv.frame.2.2.2.2 with hp | ⟨-, hp⟩
    · exact hsame hp
    · simp [hasCrashed, hp, ConsumerPhase.hasCrashed]
  cases a with
  | spawn j => exact absurd hc (hsame (by rw [step, (w.spawn_frame j).2.2.2.2.1]))
  | task i => exact absurd hc (htask (stepTask_move w i))
  | abandon i => exact absurd hc (htask (abandonTask_move w i))
  | consumer => exact panics_of_stepConsumer h hc
  | call i =>
    rw [step, stepCall] at hc
    split at hc
    · simp [hasCrashed, ConsumerPhase.hasCrashed, enter, Service.enter] at hc
    · exact absurd hc (hsame rfl)
  | crash =>
    rw [step, crashConsumer] at hc
    split at hc
    · exact absurd hc (hsame rfl)
    · exact absurd hc (hsame rfl)
    · exact absurd hc (hsame rfl)
    · next p hl hg hp => exact .outside p hp hl hg
  | supply a =>
    rw [step, supply] at hc
    split at hc <;> exact absurd hc (hsame rfl)
  | pass ms => exact absurd hc (hsame rfl)
  | clock wall => exact absurd hc (hsame rfl)
  | refuse reason => exact absurd hc (hsame rfl)

theorem hasCrashed_of_panics (h : Panics w a) : (w.step a).hasCrashed = true := by
  cases h with
  | outside p h hl hg => simp [step, crashConsumer, h, hasCrashed, ConsumerPhase.hasCrashed, enter, Service.enter]
  | asking q steady timed h hs =>
    simp [step, stepConsumer, canStepConsumer, stepAsking, h, hs, hasCrashed, ConsumerPhase.hasCrashed, enter,
      Service.enter]
  | polling q steady timed count since h hs =>
    simp [step, stepConsumer, canStepConsumer, stepPolling, log, h, hs, hasCrashed, ConsumerPhase.hasCrashed, enter,
      Service.enter]
  | resolving q d mode h hd =>
    simp [step, stepConsumer, canStepConsumer, stepDispatch, h, hd, hasCrashed, ConsumerPhase.hasCrashed, enter,
      Service.enter]

/-- Where nothing else panics, the consumer panics only because of a dispatch that has. -/
theorem step_hasCrashed (hs : w.source.isCalm = true)
    (hd : ∀ d mode p, w.service.consumer = some (.dispatching d mode) → d.phase ≠ .crashed p)
    (h : w.hasCrashed = false) (ha : a ≠ .crash) : (w.step a).hasCrashed = false := by
  rw [Bool.eq_false_iff]
  intro hc
  cases panics_of_step h hc with
  | outside => exact ha rfl
  | asking q steady timed _ hsrc =>
    rw [hsrc, Source.isCalm_scripted] at hs
    simpa [Handout.isPanic] using hs.1 _ List.mem_cons_self
  | polling q steady timed count since _ hsrc =>
    rw [hsrc, Source.isCalm_scripted] at hs
    simpa [Handout.isPanic] using hs.2 _ List.mem_cons_self
  | resolving q d mode hp hq => exact hd d mode q hp hq

end World

end FailurePipeline
