import FailurePipeline.Program.Run
import FailurePipeline.Proofs.Pipeline.Drain

/-!
# The course of a program

A run of a program is a run of its pipeline in which the jobs of the agenda are begun one after the other, each
only when all before it are done (`World.Orderly`).
-/

namespace FailurePipeline

/-- Whether an action begins nothing, and is no panic of the consumer from without. -/
def Action.isInner : Action → Bool
  | .spawn _ | .crash => false
  | _ => true

/-- A job that is begun in a run is begun after those before it. -/
theorem Action.exists_eq_of_jobs_eq {actions : List Action} {before after : List Job} {j : Job}
    (h : jobs actions = before ++ j :: after) :
    ∃ first rest, actions = first ++ .spawn j :: rest ∧ jobs first = before := by
  obtain ⟨first, rest, rfl, hfirst, hrest⟩ := List.filterMap_eq_append_iff.1 h
  obtain ⟨quiet, a, rest, rfl, hquiet, ha, -⟩ := List.filterMap_eq_cons_iff.1 hrest
  have hspawn : a = .spawn j := by
    cases a <;> simp_all [job?]
  have hnone : jobs quiet = [] := List.filterMap_eq_nil_iff.2 hquiet
  refine ⟨first ++ quiet, rest, by simp [hspawn], ?_⟩
  rw [jobs_append, hnone, List.append_nil]
  exact hfirst

/-- Whether a move comes from within the program. -/
def Program.Move.isInner : Program.Move → Bool
  | .proceed => true
  | .act a => a.isInner

namespace World

variable {w₀ w : World} {agenda : List Job} {actions : List Action}

/-- Whether a task has its result. -/
def IsDone (w : World) (i : Nat) : Prop := ∃ r, w.tasks[i]? = some (.finished r)

/-- The jobs of an agenda are begun one after the other, each when those before it are done. -/
structure Orderly (w₀ : World) (agenda : List Job) (actions : List Action) : Prop where
  inner : ∀ a ∈ actions, a.isInner = true ∨ ∃ j, a = .spawn j
  jobs : Action.jobs actions <+: agenda
  inTurn : ∀ first j rest, actions = first ++ .spawn j :: rest → ∀ i < (Action.jobs first).length,
    (w₀.run first).IsDone i

namespace Orderly

theorem left {rest : List Action} (h : Orderly w₀ agenda (actions ++ rest)) : Orderly w₀ agenda actions where
  inner a ha := h.inner a (List.mem_append_left _ ha)
  jobs := (List.prefix_append ..).trans (Action.jobs_append actions rest ▸ h.jobs)
  inTurn first j rest' hsplit := h.inTurn first j (rest' ++ rest) (by simp [hsplit])

/-- What holds at first and is kept by every further action holds after an orderly run. -/
theorem induction {P : World → Prop} (h : Orderly w₀ agenda actions) (start : P w₀)
    (step : ∀ actions a, Orderly w₀ agenda (actions ++ [a]) → P (w₀.run actions) → P ((w₀.run actions).step a)) :
    P (w₀.run actions) := by
  induction actions using List.reverseRecOn with
  | nil => exact start
  | append_singleton actions a ih =>
    rw [run_concat]
    exact step actions a h (ih h.left)

/-- Only the job that was begun last may still be under way. -/
theorem isDone_of_lt (h : Orderly w₀ agenda actions) {i : Nat} (hi : i + 1 < (Action.jobs actions).length) :
    (w₀.run actions).IsDone i := by
  induction actions using List.reverseRecOn with
  | nil => simp [Action.jobs] at hi
  | append_singleton actions a ih =>
    rw [run_concat]
    rw [Action.jobs_append, List.length_append] at hi
    have hkeep : (w₀.run actions).IsDone i → ((w₀.run actions).step a).IsDone i := by
      rintro ⟨r, hr⟩
      exact ⟨r, step_finished hr a⟩
    refine hkeep ?_
    cases a with
    | spawn j =>
      have hone : (Action.jobs [Action.spawn j]).length = 1 := rfl
      exact h.inTurn actions j [] rfl i (by omega)
    | _ => exact ih h.left hi

theorem beginsReceiver (h : Orderly w₀ agenda actions) (hag : ∀ limit, .receive limit ∉ agenda) :
    ∀ a ∈ actions, a.beginsReceiver = false := by
  intro a ha
  cases a with
  | spawn j =>
    have hmem : j ∈ agenda := h.jobs.subset (List.mem_filterMap.2 ⟨_, ha, rfl⟩)
    cases j with
    | receive limit => exact absurd hmem (hag limit)
    | _ => rfl
  | _ => rfl

end Orderly

end World

namespace Program

open World

variable {p : Program} {moves : List Move}

/-- A move takes the pipeline one step further, or leaves it alone. -/
theorem step_world (p : Program) (m : Move) :
    (p.step m).world = p.world ∨ ∃ a, (p.step m).world = p.world.step a ∧ (m = .act a ∨ ∃ j, a = .spawn j) := by
  cases m with
  | act a => exact .inr ⟨a, rfl, .inl rfl⟩
  | proceed =>
    simp only [Program.step, Program.proceed]
    split
    · next j rest _ =>
      split
      · exact .inr ⟨.spawn j, rfl, .inr ⟨j, rfl⟩⟩
      · exact .inl rfl
    · exact .inl rfl

theorem run_concat (p : Program) (moves : List Move) (m : Move) : p.run (moves ++ [m]) = (p.run moves).step m := by
  simp [Program.run]

/-- The pipeline of a program has gone through an orderly run of what is no longer on the agenda. -/
structure Course (w₀ : World) (agenda : List Job) (actions : List Action) (p : Program) : Prop where
  orderly : Orderly w₀ agenda actions
  world : p.world = w₀.run actions
  jobs : Action.jobs actions ++ p.agenda = agenda
  length : p.world.tasks.length = (Action.jobs actions).length

/-- What begins something in a run is the last action of the run or comes before it. -/
private theorem concat_eq_append_cons {first rest : List Action} {a b : Action} {actions : List Action}
    (h : actions ++ [a] = first ++ b :: rest) :
    (actions = first ∧ a = b) ∨ ∃ rest', actions = first ++ b :: rest' := by
  induction rest using List.reverseRecOn with
  | nil =>
    have hboth := List.append_inj' h rfl
    exact .inl ⟨hboth.1, by simpa using hboth.2⟩
  | append_singleton rest c _ =>
    rw [← List.cons_append, ← List.append_assoc] at h
    exact .inr ⟨rest, (List.append_inj' h rfl).1⟩

namespace Course

variable {w₀ : World} {agenda : List Job} {actions : List Action}

private theorem act (h : Course w₀ agenda actions p) {a : Action} (ha : a.isInner = true) :
    Course w₀ agenda (actions ++ [a]) { p with world := p.world.step a } := by
  have hjob : a.job? = none := by cases a <;> first | rfl | simp [Action.isInner] at ha
  have hjobs : Action.jobs (actions ++ [a]) = Action.jobs actions := by simp [Action.jobs, hjob]
  refine ⟨⟨fun b hb => ?_, ?_, fun first j rest hsplit => ?_⟩, ?_, ?_, ?_⟩
  · rcases List.mem_append.1 hb with hb | hb
    · exact h.orderly.inner b hb
    · exact .inl (List.mem_singleton.1 hb ▸ ha)
  · rw [hjobs]
    exact h.orderly.jobs
  · rcases concat_eq_append_cons hsplit with ⟨-, rfl⟩ | ⟨rest', hbefore⟩
    · simp [Action.isInner] at ha
    · exact h.orderly.inTurn first j rest' hbefore
  · rw [World.run_concat, ← h.world]
  · rw [hjobs]
    exact h.jobs
  · rw [hjobs, ← h.length]
    refine step_cases (P := fun v => v.tasks.length = p.world.tasks.length) p.world a (fun j hj => ?_)
      (fun i v _ hv => ?_) (fun v _ hv => ?_) fun _ _ _ _ => rfl
    · simp [hj, Action.isInner] at ha
    · exact hv.grows.2.2
    · rw [hv.frame.1]

private theorem proceed (h : Course w₀ agenda actions p) {j : Job} {rest : List Job} (hj : p.agenda = j :: rest)
    (hbetween : p.isBetween = true) : Course w₀ agenda (actions ++ [.spawn j]) ⟨p.world.spawn j, rest⟩ := by
  have hjobs : Action.jobs (actions ++ [.spawn j]) = Action.jobs actions ++ [j] := by
    simp [Action.jobs, Action.job?]
  refine ⟨⟨fun b hb => ?_, ?_, fun first k more hsplit i hi => ?_⟩, ?_, ?_, ?_⟩
  · rcases List.mem_append.1 hb with hb | hb
    · exact h.orderly.inner b hb
    · exact .inr ⟨j, List.mem_singleton.1 hb⟩
  · rw [hjobs, ← h.jobs, hj]
    exact ⟨rest, by simp⟩
  · rcases concat_eq_append_cons hsplit with ⟨rfl, -⟩ | ⟨more', hbefore⟩
    · by_cases hlt : i + 1 < (Action.jobs actions).length
      · exact h.orderly.isDone_of_lt hlt
      · -- The last task is done, since the next thing is begun.
        have hlast : p.world.tasks.getLast? = p.world.tasks[i]? := by
          rw [List.getLast?_eq_getElem?, h.length]
          congr 1
          omega
        have hin : i < p.world.tasks.length := h.length ▸ hi
        unfold isBetween at hbetween
        rw [hlast, List.getElem?_eq_getElem hin] at hbetween
        unfold World.IsDone
        rw [← h.world, List.getElem?_eq_getElem hin]
        split at hbetween
        · simp at *
        · next r hr => exact ⟨r, hr⟩
        · simp at hbetween
    · exact h.orderly.inTurn first k more' hbefore i hi
  · rw [World.run_concat, ← h.world]
    rfl
  · rw [hjobs, ← h.jobs, hj]
    simp
  · rw [hjobs, (p.world.spawn_frame j).2.2.2.2.2.2]
    simp [h.length]

theorem step (h : Course w₀ agenda actions p) {m : Move} (hm : m.isInner = true) :
    ∃ more, Course w₀ agenda (actions ++ more) (p.step m) := by
  cases m with
  | act a => exact ⟨[a], h.act hm⟩
  | proceed =>
    simp only [Program.step, Program.proceed]
    split
    · next j rest hj =>
      split
      · next hgo =>
        simp only [Bool.and_eq_true] at hgo
        exact ⟨[.spawn j], h.proceed hj hgo.1⟩
      · exact ⟨[], by simpa using h⟩
    · exact ⟨[], by simpa using h⟩

theorem fresh (ht : p.world.tasks = []) : Course p.world p.agenda [] p := by
  refine ⟨⟨by simp, by simp [Action.jobs], by simp⟩, rfl, by simp [Action.jobs], by simp [Action.jobs, ht]⟩

theorem run (h : Course w₀ agenda actions p) (hm : ∀ m ∈ moves, m.isInner = true) :
    ∃ more, Course w₀ agenda (actions ++ more) (p.run moves) := by
  induction moves generalizing actions p with
  | nil => exact ⟨[], by simpa [Program.run] using h⟩
  | cons m ms ih =>
    obtain ⟨more, hstep⟩ := h.step (hm m List.mem_cons_self)
    obtain ⟨more', hrun⟩ := ih hstep fun n hn => hm n (List.mem_cons_of_mem m hn)
    exact ⟨more ++ more', by simpa [Program.run] using hrun⟩

end Course

end Program

end FailurePipeline
