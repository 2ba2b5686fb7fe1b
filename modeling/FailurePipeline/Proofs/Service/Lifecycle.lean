import FailurePipeline.Proofs.Lists
import FailurePipeline.Proofs.Pipeline.Moves

/-!
# The life of the service

A service is started at most once, and then has exactly one consumer: `Lifecycle` counts the tasks that are
about to spawn it together with the consumer itself.  A service that was started is terminated only by its
consumer, when that has gone.
-/

namespace FailurePipeline

def TaskPhase.isSpawning : TaskPhase → Bool
  | .spawning => true
  | _ => false

namespace World

/-- Whether somebody has started the service. -/
def hasStarted (w : World) : Bool := w.service.published.contains .starting

structure Lifecycle (w : World) : Prop where
  once : w.tasks.countP (·.isSpawning) + w.service.consumer.isSome.toNat = w.hasStarted.toNat
  new : w.service.state = .new → w.hasStarted = false
  ended : w.service.state = .terminated → w.hasStarted = true → ∃ c, w.service.consumer = some (.gone c)

namespace Lifecycle

variable {w w' : World}

theorem fresh (hv : w.service = {}) (ht : w.tasks = []) : Lifecycle w := by
  constructor <;> simp [hv, ht, hasStarted]

theorem hasStarted_of_consumer (hl : Lifecycle w) {p : ConsumerPhase} (h : w.service.consumer = some p) :
    w.hasStarted = true := by
  have := hl.once
  cases hs : w.hasStarted with
  | true => rfl
  | false => simp [h, hs] at this

/-- A consumer that has not panicked has gone when the service is terminated, if that was started. -/
theorem gone_of_terminated (hl : Lifecycle w) (hstart : w.hasStarted = true) (hterm : w.service.state = .terminated)
    (hended : w.service.consumer ≠ some (.gone true)) : w.service.consumer = some (.gone false) := by
  obtain ⟨crashed, hgone⟩ := hl.ended hterm hstart
  cases crashed with
  | false => exact hgone
  | true => exact absurd hgone hended

private theorem countP_isSpawning_pos {i : Nat} (hi : w.tasks[i]? = some .spawning) :
    0 < w.tasks.countP (·.isSpawning) :=
  List.countP_pos_iff.2 ⟨.spawning, List.mem_of_getElem? hi, rfl⟩

theorem hasStarted_of_spawning (hl : Lifecycle w) {i : Nat} (hi : w.tasks[i]? = some .spawning) :
    w.hasStarted = true := by
  have hpos := countP_isSpawning_pos hi
  have honce := hl.once
  cases hs : w.hasStarted with
  | true => rfl
  | false =>
    simp only [hs, Bool.toNat_false] at honce
    omega

/-- Whoever is about to spawn the consumer finds none. -/
theorem consumer_eq_none (hl : Lifecycle w) {i : Nat} (hi : w.tasks[i]? = some .spawning) :
    w.service.consumer = none := by
  have hpos := countP_isSpawning_pos hi
  have honce := hl.once
  have hle := Bool.toNat_le w.hasStarted
  cases hc : w.service.consumer with
  | none => rfl
  | some p =>
    simp only [hc, Option.isSome_some, Bool.toNat_true] at honce
    omega

/-- A step of the consumer that says nothing about starting, and ends the service only if it is the last. -/
private theorem of_consumer (hl : Lifecycle w) {p p' : ConsumerPhase} (h : w.service.consumer = some p)
    (h' : w'.service.consumer = some p') (ht : w'.tasks = w.tasks) (hp : w'.hasStarted = w.hasStarted)
    (hs : w'.service.state ≠ .new) (ho : w'.service.state = .terminated → ∃ c, p' = .gone c) : Lifecycle w' where
  once := by
    have := hl.once
    rw [h] at this
    rw [h', ht, hp]
    exact this
  new hnew := absurd hnew hs
  ended hterm _ := by
    obtain ⟨c, rfl⟩ := ho hterm
    exact ⟨c, h'⟩

theorem consumerMove (hl : Lifecycle w) (h : ConsumerMove w w') : Lifecycle w' := by
  have hnew : ∀ {p}, w.service.consumer = some p → w.service.state ≠ .new := by
    intro p hp hn
    have := hl.new hn
    simp [hl.hasStarted_of_consumer hp] at this
  have hover : ∀ {p}, w.service.consumer = some p → (∀ c, p ≠ .gone c) → w.service.state ≠ .terminated := by
    intro p hp hg ht
    obtain ⟨c, hc⟩ := hl.ended ht (hl.hasStarted_of_consumer hp)
    exact hg c (Option.some.inj (hp.symm.trans hc))
  -- All but four kinds of moves leave the state and what has been published alone.
  have hquiet : ∀ {v : World} {p p'}, w.service.consumer = some p → (∀ c, p ≠ .gone c) →
      v.service.consumer = some p' → v.tasks = w.tasks → v.hasStarted = w.hasStarted →
      v.service.state = w.service.state → Lifecycle v := by
    intro v p p' hp hg hp' ht hs he
    exact hl.of_consumer hp hp' ht hs (he ▸ hnew hp) fun hterm => absurd (he ▸ hterm) (hover hp hg)
  cases h with
  | idle => exact hl
  | launch h =>
    split
    · exact hl.of_consumer h rfl rfl (by simp [hasStarted, enter, Service.enter, Service.publish]) nofun nofun
    · exact hquiet h nofun rfl rfl rfl rfl
  | close h =>
    split
    · exact hl.of_consumer h rfl rfl (by simp [hasStarted, enter, Service.enter, Service.publish]) nofun nofun
    · exact hquiet h nofun rfl rfl rfl rfl
  | leave crashed h =>
    exact hl.of_consumer h rfl rfl (by simp [hasStarted, Service.enter, Service.publish]) nofun
      fun _ => ⟨crashed, rfl⟩
  | hear a steady timed h hs => cases a <;> exact hquiet h nofun rfl rfl rfl rfl
  | pollScript a steady timed count since h hs => cases a <;> exact hquiet h nofun rfl rfl rfl rfl
  | ask asked h hs => cases asked <;> exact hquiet h nofun rfl rfl rfl rfl
  | crash p h _ hg => exact hquiet h hg rfl rfl rfl rfl
  | _ =>
    refine hquiet (by assumption) ?_ rfl rfl rfl rfl
    exact nofun

/-- A step of a task that does not spawn the consumer. -/
private theorem of_task (hl : Lifecycle w) {i : Nat} {p p' : TaskPhase} (hi : w.tasks[i]? = some p)
    (ht : w'.tasks = w.tasks.set i p') (hp : p.isSpawning = false) (hp' : p'.isSpawning = false)
    (hc : w'.service.consumer = w.service.consumer) (hh : w'.hasStarted = w.hasStarted)
    (hn : w'.service.state = .new → w.service.state = .new)
    (ho : w'.service.state = .terminated → w.service.state = .terminated ∨ w.hasStarted = false) :
    Lifecycle w' where
  once := by
    rw [ht, hc, hh, countP_set_of_eq hi (hp'.trans hp.symm)]
    exact hl.once
  new hnew := by
    rw [hh]
    exact hl.new (hn hnew)
  ended hterm hstart := by
    rw [hc]
    rcases ho hterm with h | h
    · exact hl.ended h (hh ▸ hstart)
    · rw [hh, h] at hstart
      simp at hstart

private theorem taskMove_start (hl : Lifecycle w) {i : Nat} (h : w.tasks[i]? = some .starting)
    (hn : w.service.state = .new) :
    Lifecycle ({ w with service := w.service.publish .starting }.setTask i .spawning) := by
  have honce := hl.once
  have hcount : (w.tasks.set i .spawning).countP (·.isSpawning) + 0 = w.tasks.countP (·.isSpawning) + 1 :=
    countP_set_add_toNat h .spawning (·.isSpawning)
  have hyes : ({ w with service := w.service.publish .starting }.setTask i .spawning).hasStarted = true := by
    simp [hasStarted, setTask, Service.publish]
  refine ⟨?_, nofun, nofun⟩
  rw [hyes]
  rw [hl.new hn] at honce
  simp only [Bool.toNat_false] at honce
  simp only [setTask, Service.publish, Bool.toNat_true]
  omega

private theorem taskMove_spawn (hl : Lifecycle w) {i : Nat} (h : w.tasks[i]? = some .spawning) :
    Lifecycle ({ w with service := w.service.spawn }.setTask i (.finished (.service (.ok ())))) := by
  have honce := hl.once
  have hcount : (w.tasks.set i (.finished (.service (.ok ())))).countP (·.isSpawning) + 1 =
      w.tasks.countP (·.isSpawning) + 0 := countP_set_add_toNat h (.finished (.service (.ok ()))) (·.isSpawning)
  have hmem := countP_isSpawning_pos h
  have hstarted := hl.hasStarted_of_spawning h
  have hkept : ({ w with service := w.service.spawn }.setTask i (.finished (.service (.ok ())))).hasStarted =
      true := hstarted
  refine ⟨?_, fun hn => ?_, fun ht _ => ?_⟩
  · rw [hkept]
    simp only [hstarted, Bool.toNat_true] at honce
    simp only [setTask, Service.spawn, Option.isSome_some, Bool.toNat_true]
    omega
  · simp [hl.new hn] at hstarted
  · obtain ⟨c, hc⟩ := hl.ended ht hstarted
    simp only [hstarted, hc, Option.isSome_some, Bool.toNat_true] at honce
    omega

theorem taskMove (hl : Lifecycle w) {i : Nat} (h : TaskMove w i w') : Lifecycle w' := by
  -- Only starting, spawning and stopping change the service in a way that matters here.
  have hquiet : ∀ {v : World} {p p'}, w.tasks[i]? = some p → v.tasks = w.tasks.set i p' → p.isSpawning = false →
      p'.isSpawning = false → v.service.consumer = w.service.consumer → v.hasStarted = w.hasStarted →
      v.service.state = w.service.state → Lifecycle v := by
    intro v p p' hi ht hp hp' hc hh hs
    exact hl.of_task hi ht hp hp' hc hh (fun h => hs ▸ h) fun h => .inl (hs ▸ h)
  cases h with
  | idle => exact hl
  | start v h hv =>
    obtain ⟨hn, rfl⟩ := eq_of_start hv
    exact hl.taskMove_start h hn
  | spawnConsumer h => exact hl.taskMove_spawn h
  | stop h =>
    cases hs : w.service.state with
    | new =>
      -- A service that is stopped before it was started is terminated without a consumer.
      have hnot := hl.new hs
      refine hl.of_task h rfl rfl ?_ ?_ ?_ ?_ fun _ => .inr hnot <;>
        simp [Service.stop, hs, Service.publish, TaskPhase.isSpawning, setTask, hasStarted]
    | starting =>
      refine hl.of_task h rfl rfl ?_ ?_ ?_ ?_ ?_ <;>
        simp [Service.stop, hs, Service.publish, TaskPhase.isSpawning, setTask, hasStarted]
    | running =>
      refine hl.of_task h rfl rfl ?_ ?_ ?_ ?_ ?_ <;>
        simp [Service.stop, hs, Service.publish, TaskPhase.isSpawning, setTask, hasStarted]
    | stopping =>
      refine hquiet h rfl rfl ?_ ?_ ?_ ?_ <;>
        simp [Service.stop, hs, TaskPhase.isSpawning, setTask, hasStarted]
    | terminated =>
      refine hquiet h rfl rfl ?_ ?_ ?_ ?_ <;>
        simp [Service.stop, hs, TaskPhase.isSpawning, setTask, hasStarted]
  | join crashed h hc => cases crashed <;> exact hquiet h rfl rfl rfl rfl rfl rfl
  | read intake h hf hr hi => split <;> exact hquiet h rfl rfl rfl rfl rfl rfl
  | _ => exact hquiet (by assumption) rfl rfl rfl rfl rfl rfl

private theorem spawn (hl : Lifecycle w) (j : Job) : Lifecycle (w.spawn j) := by
  have hnone : ((w.firstPhase j).2).isSpawning = false := by cases j <;> rfl
  obtain ⟨-, -, -, -, hv, -, ht⟩ := w.spawn_frame j
  refine ⟨?_, ?_, ?_⟩
  · simpa [hv, ht, hnone, hasStarted] using hl.once
  · simpa [hv, hasStarted] using hl.new
  · simpa [hv, hasStarted] using hl.ended

theorem step (hl : Lifecycle w) (a : Action) : Lifecycle (w.step a) :=
  step_cases w a (fun j _ => hl.spawn j) (fun _ _ _ h => hl.taskMove h) (fun _ _ h => hl.consumerMove h)
    fun _ _ _ _ => ⟨hl.once, hl.new, hl.ended⟩

theorem run (hl : Lifecycle w) (actions : List Action) : Lifecycle (w.run actions) :=
  run_induction (A := fun _ => True) hl (fun _ a _ h => h.step a) fun _ _ => trivial

end Lifecycle

end World

end FailurePipeline
