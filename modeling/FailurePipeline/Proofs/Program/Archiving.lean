import FailurePipeline.Proofs.Program.Health
import FailurePipeline.Proofs.Program.Storing

/-!
# A program with a sink

Where a program has been set up with a sink for the failures of its input, nothing panics and whatever is dispatched
is stored, whenever its run is looked at (`Program.Archiving`).  No handler counts an error as long as the store takes
what is put (`Program.Begins.handlerErrors_eq_zero`).  A store in memory or a remote one does so as long as nothing is
refused (`Program.takes_of_backend`).
-/

namespace FailurePipeline

namespace Program

variable {intake : Intake} {p q : Program} {moves : List Move} {seat : Seat} {k : Sink}

/-- A program at its beginning, with a sink as the only handler. -/
structure Begins (p : Program) (intake : Intake) (seat : Seat) (k : Sink) : Prop where
  fresh : World.Fresh p.world
  nextId : p.world.nextId = 1
  agenda : p.agenda = jobs intake
  guards : p.world.workplace.registry.Guards seat k
  errors : p.world.workplace.stats.handlerErrors = 0

/-- A program that is set up with a sink has opened its store. -/
theorem begins_of_setUp {c : Config} {m : Metrics.Controller} {s : Surroundings} {d : Depot} {dl : DeadLetterConfig}
    (h : setUp c m s d intake = .ready p) (hdl : c.deadLetter = some dl) :
    ∃ provider seat, d.openStore dl.path dl.storageOptions = .ok (provider, p.world.workplace.depot) ∧
      p.Begins intake seat { provider := provider, types := dl.failureTypes } := by
  unfold setUp at h
  split at h
  · simp at h
  · split at h
    · simp at h
    · next queue hqueue =>
      split at h
      · simp at h
      · next registry depot hregistry =>
        cases h
        simp only [Registry.ofConfig, hdl, Sink.ofConfig] at hregistry
        split at hregistry
        · simp at hregistry
        · next k depot' hk =>
          split at hk
          · next provider depot'' hopen =>
            cases hk
            split at hregistry <;> cases hregistry
            · exact ⟨provider, .fallback, hopen, ⟨⟨_, hqueue⟩, rfl, rfl, rfl⟩, rfl, rfl,
                ⟨rfl, ⟨_, rfl, rfl⟩, rfl, fun _ => rfl⟩, rfl⟩
            · exact ⟨provider, .custom 0, hopen, ⟨⟨_, hqueue⟩, rfl, rfl, rfl⟩, rfl, rfl,
                ⟨rfl, _, rfl, ⟨_, rfl, rfl⟩, rfl, fun _ => rfl⟩, rfl⟩
          · simp at hk

/-- A sink for input failures supports all batches of an input. -/
private theorem supports_of_reader {w : World} (htypes : k.types = [] ∨ .input ∈ k.types)
    (hr : World.Reader intake 2 w) : ∀ b ∈ w.queue.accepted, b.isEmpty = false ∧ k.supports b.type = true := by
  intro b hb
  obtain ⟨fs, hfs⟩ := hr.exists_inputBatches
  rw [hfs] at hb
  obtain ⟨n, hn, rfl⟩ := List.mem_mapIdx.1 hb
  refine ⟨rfl, ?_⟩
  rcases htypes with hnone | hmem
  · simp [Sink.supports, hnone]
  · simp [Sink.supports, Batch.type, Failures.type, hmem]

/-- What holds of a program that began as `p` whenever its run is looked at, its pipeline having gone through these
actions. -/
structure Archiving (p : Program) (intake : Intake) (seat : Seat) (k : Sink) (actions : List Action) (q : Program) :
    Prop where
  course : Course p.world (jobs intake) actions q
  flow : World.Flow (Action.jobs actions) q.world
  healthy : World.Healthy (Action.jobs actions) q.world
  reader : World.Reader intake 2 q.world
  intact : q.world.hasCrashed = false
  storing : World.Storing seat k p.world.workplace.depot q.world

theorem silent_of_jobs {i : Nat} {j : Job} (h : (jobs intake)[i]? = some j) :
    if i = 2 then j = .read intake else j.isSilent = true := by
  rcases place_of_jobs h with ⟨rfl, rfl⟩ | ⟨rfl, rfl⟩ | ⟨rfl, rfl⟩ | ⟨rfl, rfl⟩ | ⟨rfl, rfl⟩ <;> rfl

namespace Begins

variable (hbegins : p.Begins intake seat k) (htypes : k.types = [] ∨ .input ∈ k.types) (hi : intake.Fresh)
include hbegins htypes hi

theorem archiving (hm : ∀ m ∈ moves, m.isInner = true) :
    ∃ actions, Archiving p intake seat k actions (p.run moves) := by
  have hf := hbegins.fresh
  obtain ⟨actions, hc⟩ := (Course.fresh hf.tasks).run hm
  rw [List.nil_append, hbegins.agenda] at hc
  have hrec : ∀ limit, .receive limit ∉ jobs intake := by simp [jobs]
  have hreader := fun {first} (h : World.Orderly p.world (jobs intake) first) =>
    World.Reader.run h hf hbegins.nextId hi fun i j => silent_of_jobs
  have hstoring := fun {first} (h : World.Orderly p.world (jobs intake) first) =>
    World.Storing.run h hf hbegins.guards hrec fun first h => supports_of_reader htypes (hreader h)
  have hflow := (World.Flow.fresh hf).run (hc.orderly.beginsReceiver hrec)
  have hhealthy := World.Healthy.run hc.orderly hf fun first h => (hstoring h).1
  have hreads := hreader hc.orderly
  obtain ⟨hcrash, hs⟩ := hstoring hc.orderly
  rw [← hc.world] at hflow hhealthy hreads hcrash hs
  exact ⟨actions, hc, hflow, hhealthy, hreads, hcrash, hs⟩

/-- No move counts an error of a handler where the store takes what it puts. -/
private theorem step_handlerErrors (hm : ∀ m ∈ moves, m.isInner = true) {m : Move}
    (htakes : World.Takes k.provider (p.run moves).world ((p.run moves).step m).world) :
    ((p.run moves).step m).world.workplace.stats.handlerErrors =
      (p.run moves).world.workplace.stats.handlerErrors := by
  obtain ⟨actions, ha⟩ := hbegins.archiving htypes hi hm
  rcases (p.run moves).step_world m with hsame | ⟨a, hstep, -⟩
  · rw [hsame]
  · rw [hstep] at htakes ⊢
    refine ha.storing.step_handlerErrors ha.flow.lifecycle (fun b hb => ?_) htakes
    exact supports_of_reader htypes ha.reader b (ha.flow.sole.dispatched_prefix.subset hb)

/-- As long as the store takes whatever is put, no handler counts an error. -/
theorem handlerErrors_eq_zero (hm : ∀ m ∈ moves, m.isInner = true)
    (hputs : ∀ first m, first ++ [m] <+: moves →
      World.Takes k.provider (p.run first).world (p.run (first ++ [m])).world) :
    (p.run moves).world.workplace.stats.handlerErrors = 0 := by
  induction moves using List.reverseRecOn with
  | nil => exact hbegins.errors
  | append_singleton moves m ih =>
    have hleft := List.prefix_append moves [m]
    have hinner : ∀ n ∈ moves, n.isInner = true := fun n hn => hm n (hleft.subset hn)
    have htakes := hputs moves m (List.prefix_refl _)
    rw [run_concat] at htakes ⊢
    rw [hbegins.step_handlerErrors htypes hi hinner htakes]
    exact ih hinner fun first n hfirst => hputs first n (hfirst.trans hleft)

/-- As long as no handler has counted an error, there are as many stores in memory as at first. -/
private theorem takes_of_no_errors (hm : ∀ m ∈ moves, m.isInner = true)
    (hzero : (p.run moves).world.workplace.stats.handlerErrors = 0)
    (hmap : k.provider.IsMap p.world.workplace.depot)
    (hnone : (p.run moves).world.surroundings.refusal = none) (w : World) :
    World.Takes k.provider (p.run moves).world w := by
  intro b _ _
  obtain ⟨actions, ha⟩ := hbegins.archiving htypes hi hm
  obtain ⟨done, -, objects, hput, -⟩ := ha.storing.stored hzero
  rw [hnone]
  exact (hmap.of_length_eq (Provider.memories_length_of_putAll hput)).exists_put _ _

end Begins

/-- A store that is no directory takes whatever is put in a run in which nothing is refused. -/
theorem takes_of_backend {c : Config} {m : Metrics.Controller} {s : Surroundings} {d d' : Depot}
    {dl : DeadLetterConfig} {provider : Provider} (hset : setUp c m s d intake = .ready p)
    (hdl : c.deadLetter = some dl) (htypes : dl.failureTypes = [] ∨ .input ∈ dl.failureTypes) (hi : intake.Fresh)
    (hopen : d.openStore dl.path dl.storageOptions = .ok (provider, d'))
    (hbackend : ∀ root, provider.backend ≠ .directory root) (hm : ∀ m ∈ moves, m.isInner = true)
    (hnone : ∀ first, first <+: moves → (p.run first).world.surroundings.refusal = none) (w : World) :
    World.Takes provider (p.run moves).world w := by
  have hmap := Depot.isMap_of_openStore hopen hbackend
  obtain ⟨provider', seat, hopen', hbegins⟩ := begins_of_setUp hset hdl
  obtain ⟨rfl, rfl⟩ : provider = provider' ∧ d' = p.world.workplace.depot := by simpa [hopen] using hopen'
  refine hbegins.takes_of_no_errors htypes hi hm ?_ hmap (hnone moves (List.prefix_refl _)) w
  -- A batch is only put when all batches before it are in the store, which leaves the stores where they are.
  induction moves using List.reverseRecOn with
  | nil => exact hbegins.errors
  | append_singleton moves m ih =>
    have hleft := List.prefix_append moves [m]
    have hinner : ∀ n ∈ moves, n.isInner = true := fun n hn => hm n (hleft.subset hn)
    have hzero := ih hinner fun first hfirst => hnone first (hfirst.trans hleft)
    have htakes := hbegins.takes_of_no_errors htypes hi hinner hzero hmap (hnone moves hleft)
    rw [run_concat, hbegins.step_handlerErrors htypes hi hinner (htakes _), hzero]

/-- Whether stores begin to refuse objects with a move. -/
def Move.refuses : Move → Bool
  | .proceed => false
  | .act a => a.refuses

/-- Nothing is refused in a run in which no store begins to refuse objects. -/
theorem run_refusal (h : p.world.surroundings.refusal = none) (hm : ∀ m ∈ moves, m.refuses = false) :
    (p.run moves).world.surroundings.refusal = none := by
  induction moves using List.reverseRecOn with
  | nil => exact h
  | append_singleton moves m ih =>
    have hnone := ih fun n hn => hm n (List.mem_append_left _ hn)
    have hlast := hm m (List.mem_append_right _ List.mem_cons_self)
    rw [run_concat]
    rcases (p.run moves).step_world m with hsame | ⟨a, hstep, rfl | ⟨j, rfl⟩⟩
    · rw [hsame, hnone]
    · rw [hstep]
      exact World.step_refusal hnone hlast
    · rw [hstep]
      exact World.step_refusal hnone rfl

end Program

end FailurePipeline
