import FailurePipeline.Proofs.DeadLetter.ObjectName
import FailurePipeline.Proofs.Pipeline.Shutdown
import FailurePipeline.Proofs.Program.Archiving

/-!
# Every line is in one place

When a program has returned, each line that it has read and that is not blank has either been written to the output
or is in the store of its sink, in an object of its own; nothing else has been written, and nothing is left in the
queue (`Program.every_line_is_in_one_place`).  This holds however the input is cut into reads and in whatever order
the tasks and the consumer go on, and also if the program returns an error of its input or output.
-/

namespace FailurePipeline

namespace DeadLetter

/-- The record of a line that is no JSON. -/
def lineRecord (inputId : String) (id : Nat) (report : Report) (line : Bytes) : Json.Value :=
  .object (commonFields id .input InputCause.parse.name report ++
    [("input_id", .string inputId), ("raw_message", .string (String.ofList (Base64.encode line)))])

/-- An object that keeps a line, which is alone in the batch with this number. -/
def KeepsLine (inputId : String) (id : Nat) (line : Bytes) (o : ObjectPath × Bytes) : Prop :=
  ∃ s now fault, Json.read line = .error fault ∧
    o.1 = Sink.objectPath s ⟨id, .input [Intake.failureOf inputId now line fault]⟩ ∧
    o.2 = Utf8.encodeChars
      ((lineRecord inputId id (Intake.failureOf inputId now line fault).report line).chars ++ ['\n'])

private theorem keepsLine_of_isObject {inputId : String} {id : Nat} {line : Bytes} {f : InputFailure}
    {o : ObjectPath × Bytes} (hf : Lines.Reports inputId line f) (ho : Sink.IsObject ⟨id, .input [f]⟩ o) :
    KeepsLine inputId id line o := by
  obtain ⟨now, fault, hfault, rfl⟩ := hf
  obtain ⟨⟨s, hpath⟩, hoctets⟩ := ho
  refine ⟨s, now, fault, hfault, hpath, hoctets.trans ?_⟩
  simp [octets, document, records, inputRecord, lineRecord, Intake.failureOf]

/-- What is stored of failures that are reported one by one keeps their lines, each with its number. -/
theorem forall₂_keepsLine {inputId : String} {lines : List Bytes} {failures : List InputFailure}
    {objects : List (ObjectPath × Bytes)} (hf : List.Forall₂ (Lines.Reports inputId) lines failures)
    (ho : List.Forall₂ Sink.IsObject (inputBatches failures) objects) :
    List.Forall₂ (fun l o => KeepsLine inputId l.2 l.1 o) (lines.zipIdx 1) objects := by
  obtain ⟨hlen, hreports⟩ := List.forall₂_iff_get.1 hf
  obtain ⟨hlen', hkept⟩ := List.forall₂_iff_get.1 ho
  rw [inputBatches, List.length_mapIdx] at hlen'
  refine List.forall₂_iff_get.2 ⟨by rw [List.length_zipIdx, hlen, hlen'], fun n hn hn' => ?_⟩
  have hin : n < failures.length := hlen' ▸ hn'
  have hobject := hkept n (by rwa [inputBatches, List.length_mapIdx]) hn'
  have hreport := hreports n (hlen ▸ hin) hin
  simp only [List.get_eq_getElem, inputBatches, List.getElem_mapIdx, List.getElem_zipIdx] at hobject hreport ⊢
  rw [Nat.add_comm 1 n]
  exact keepsLine_of_isObject hreport hobject

end DeadLetter

namespace Program

variable {c : Config} {m : Metrics.Controller} {s : Surroundings} {d : Depot} {intake : Intake} {p q : Program}

/-- A program that has done everything has the result of its input. -/
private theorem result?_of_done {i : Intake} (hagenda : q.agenda = []) (hintake : q.intake? = some i)
    (hlast : q.world.tasks.getLast? = some (.finished (.service (.ok ())))) :
    q.result? = some (match i.result? with
      | some (.error f) => .error (.stream f)
      | _ => .ok ()) := by
  unfold result?
  rw [hlast, hagenda, hintake]
  simp only [List.isEmpty_nil, if_true, Option.bind_some]
  rcases hresult : i.result? with _ | (f | stats) <;> rfl

/-- The input is that of the third task. -/
private theorem intake?_of_tasks {e e' : Except ServiceError Unit} {i : Intake}
    (h : q.world.tasks[0]? = some (.finished (.service e))) (h' : q.world.tasks[1]? = some (.finished (.service e')))
    (hi : q.world.tasks[2]? = some (.finished (.intake i))) : q.intake? = some i := by
  rcases htasks : q.world.tasks with _ | ⟨t0, _ | ⟨t1, _ | ⟨t2, rest⟩⟩⟩ <;> rw [htasks] at h h' hi
  · simp at h
  · simp at h'
  · simp at hi
  · obtain rfl := Option.some.inj h
    obtain rfl := Option.some.inj h'
    obtain rfl := Option.some.inj hi
    simp [intake?, htasks]

/-- When a program has a result, everything on its agenda has been done, and the result is that of the input. -/
private theorem of_result? {w₀ : World} {actions : List Action} {r : Except ProgramError Unit}
    (hc : Course w₀ (jobs intake) actions q) (hh : World.Healthy (Action.jobs actions) q.world)
    (hp : World.Provenance (Action.jobs actions) q.world) (hr : q.result? = some r) :
    Action.jobs actions = jobs intake ∧ q.world.service.state = .terminated ∧
      q.world.service.consumer.isSome = true ∧
      ∃ i, q.intake? = some i ∧ q.world.tasks[2]? = some (.finished (.intake i)) ∧
        r = match i.result? with
          | some (.error f) => .error (.stream f)
          | _ => .ok () := by
  have hlast : q.agenda = [] ∧ q.world.IsDone (q.world.tasks.length - 1) := by
    unfold result? at hr
    rw [List.getLast?_eq_getElem?] at hr
    split at hr
    · next e he => exact absurd he (hh.faultless _ e)
    · next t _ ht =>
      split at hr
      · next hempty => exact ⟨by simpa using hempty, t, ht⟩
      · simp at hr
    · simp at hr
  have hjobs : Action.jobs actions = jobs intake := by simpa [hlast.1] using hc.jobs
  have hfive : q.world.tasks.length = 5 := by rw [hc.length, hjobs]; rfl
  have hanswer : ∀ k j, (jobs intake)[k]? = some j → k < 5 →
      ∃ t, q.world.tasks[k]? = some (.finished t) ∧ j.Serves q.world.config q.world.queue.accepted (.finished t) := by
    intro k j hj hk
    have hdone : q.world.IsDone k := by
      by_cases hlt : k + 1 < 5
      · rw [hc.world]
        exact hc.orderly.isDone_of_lt (by rw [hjobs]; exact hlt)
      · obtain rfl : k = q.world.tasks.length - 1 := by omega
        exact hlast.2
    obtain ⟨t, ht⟩ := hdone
    exact ⟨t, ht, hp.serves k j _ (hjobs ▸ hj) ht⟩
  obtain ⟨_, h0, e0, rfl⟩ := hanswer 0 .start rfl (by decide)
  obtain ⟨_, h1, e1, rfl⟩ := hanswer 1 .awaitRunning rfl (by decide)
  obtain ⟨_, h2, i, rfl⟩ := hanswer 2 (.read intake) rfl (by decide)
  obtain ⟨_, h4, e4, rfl⟩ := hanswer 4 .awaitTerminated rfl (by decide)
  have hintake := intake?_of_tasks h0 h1 h2
  have hspawned : q.world.service.consumer.isSome = true := by simpa using hh.spawned _ h0
  cases e4 with
  | error e => exact absurd h4 (hh.faultless 4 e)
  | ok u =>
    refine ⟨hjobs, hh.ended h4, hspawned, i, hintake, h2, ?_⟩
    have hend := result?_of_done hlast.1 hintake (by rw [List.getLast?_eq_getElem?, hfive, h4])
    exact Option.some.inj (hr.symm.trans hend)

/-- The input has been read before the service is told to stop, so that whatever was accepted is dispatched. -/
private theorem dispatched_eq_accepted {w₀ : World} {actions : List Action} {i : Intake}
    (h : World.Orderly w₀ (jobs intake) actions) (hf : World.Fresh w₀) (hid : w₀.nextId = 1) (hi : intake.Fresh)
    (hjobs : Action.jobs actions = jobs intake)
    (hread : (w₀.run actions).tasks[2]? = some (.finished (.intake i)))
    (hgone : (w₀.run actions).service.consumer = some (.gone false)) :
    (w₀.run actions).dispatched = (w₀.run actions).queue.accepted := by
  have hbefore : ∀ limit, .receive limit ∉ jobs intake := by simp [jobs]
  have hrec : ∀ a ∈ actions, a.beginsReceiver = false := h.beginsReceiver hbefore
  have hflow := (World.Flow.fresh hf).run hrec
  have hsplit : Action.jobs actions = [.start, .awaitRunning, .read intake] ++ .stop :: [.awaitTerminated] := hjobs
  obtain ⟨first, rest, rfl, hfirst⟩ := Action.exists_eq_of_jobs_eq hsplit
  -- What the reading task has answered then is what it answers in the end, with the same number of failures.
  obtain ⟨t, ht⟩ := h.inTurn first .stop rest rfl 2 (by rw [hfirst]; exact Nat.le_refl 3)
  have hsame := World.run_finished ht (.spawn .stop :: rest)
  rw [← World.run_append] at hsame
  obtain rfl : t = .intake i := by simpa [hsame] using hread
  have hreader := World.Reader.run h.left hf hid hi fun k j => silent_of_jobs
  have hreader' := World.Reader.run h hf hid hi fun k j => silent_of_jobs
  have hall := hreader.accepted_eq hreader' (World.run_append .. ▸ World.run_grows ..) ht hread
  have hdispatched := World.dispatched_of_accepted_before_stop hf hrec hgone rfl (by simp [hfirst])
  rw [hall] at hdispatched
  exact hflow.sole.dispatched_prefix.eq_of_length_le hdispatched.length_le

/-- What the program `p` has done with its input `intake` when it is `q` and has returned, the input being `i` then
and its store being that of the provider: of the lines that it has dealt with, those that are JSON have been written,
and those that are not are in the store, in one object each and in the order of the input; and `cut` is what was
written of a line at which the output failed. -/
structure Accounts (p q : Program) (provider : Provider) (intake i : Intake) (lines : List Bytes) (cut : Bytes)
    (objects : List (ObjectPath × Bytes)) : Prop where
  read : q.intake? = some i
  written : i.output.written = intake.output.written ++ Lines.output lines ++ cut
  kept : List.Forall₂ (fun l o => DeadLetter.KeepsLine intake.inputId l.2 l.1 o) ((Lines.undecodable lines).zipIdx 1)
    objects
  distinct : (objects.map (·.1)).Nodup
  stored : provider.putAll p.world.workplace.depot objects = .ok q.world.workplace.depot
  found : ∀ o ∈ objects, provider.get q.world.workplace.depot o.1 = .ok o.2
  stats : i.stats = ⟨(Lines.decoded lines).length, objects.length⟩
  dispatched : q.world.dispatched = q.world.queue.accepted
  drained : q.world.queue.buffer = []
  terminated : q.world.service.state = .terminated

/-- Which lines of all have been dealt with, by how the program has ended. -/
def Covers (all lines : List Bytes) (cut : Bytes) (i : Intake) : Except ProgramError Unit → Prop
  | .ok () =>
    i.phase = .finished (.ok i.stats) ∧ cut = [] ∧ Intake.ReadTo all lines i.unread ∧
      (i.shutdown = false → lines = all)
  | .error (.stream f) => i.phase = .finished (.error f) ∧ Intake.Broke all lines cut i f
  | .error _ => False

private theorem covers_of_progress {i : Intake} {lines : List Bytes} {fs : List InputFailure} {cut : Bytes}
    {r : Except StreamFault IntakeStats} (hp : intake.Progress lines fs cut i) (hr : i.phase = .finished r) :
    Covers (Lines.ofBytes intake.unread) lines cut i
      (match i.result? with
        | some (.error f) => .error (.stream f)
        | _ => .ok ()) := by
  have hholds := hp.holds
  rw [hr] at hholds
  simp only [Intake.result?, hr]
  cases r with
  | ok stats =>
    obtain ⟨hcut, rfl, hlines, hno⟩ := hholds
    exact ⟨hr, hcut, hlines, hno⟩
  | error f => exact ⟨hr, hholds⟩

/-- What a run has dispatched and stored is what its input accounts for. -/
private theorem accounts_of_progress {i : Intake} {lines : List Bytes} {fs : List InputFailure} {cut : Bytes}
    {k : Sink} {url : String} {options : StoreOptions} {jobs : List Job}
    (hopen : d.openStore url options = .ok (k.provider, p.world.workplace.depot)) (hread : q.intake? = some i)
    (hp : intake.Progress lines fs cut i) (hf : World.Flow jobs q.world)
    (hstored : k.Stored p.world.workplace.depot q.world.dispatched q.world.workplace.depot)
    (hdispatched : q.world.dispatched = q.world.queue.accepted)
    (haccepted : q.world.queue.accepted = inputBatches fs) (hterm : q.world.service.state = .terminated) :
    ∃ objects, Accounts p q k.provider intake i lines cut objects := by
  obtain ⟨objects, hput, hkept⟩ := hstored
  have hdistinct := Sink.nodup_of_isObject (World.nodup_dispatched hf) hkept
  have hplain : ∀ o ∈ objects, k.provider.IsPlain o.1 := by
    intro o ho
    obtain ⟨b, ⟨s, hpath⟩, -⟩ := Sink.exists_isObject hkept ho
    rw [hpath]
    exact Depot.isPlain_of_openStore hopen (Sink.not_mem_objectPath s b)
  have horder := hf.sole.order
  rw [hdispatched, haccepted] at hkept
  have hcount : objects.length = fs.length := by
    rw [← hkept.length_eq, inputBatches, List.length_mapIdx]
  exact ⟨objects,
    { read := hread
      written := hp.written
      kept := DeadLetter.forall₂_keepsLine hp.reported hkept
      distinct := hdistinct
      stored := hput
      found := fun o ho => Provider.get_of_putAll hput hdistinct hplain ho
      stats := by rw [hcount, ← hp.failed, ← hp.forwarded]
      dispatched := hdispatched
      drained := by simpa [hdispatched] using horder
      terminated := hterm }⟩

/-- When a program with a sink for input failures has returned, and its store has taken whatever was put, each line
that it has dealt with and that is not blank is in exactly one place. -/
theorem every_line_is_in_one_place {dl : DeadLetterConfig} {moves : List Move} {r : Except ProgramError Unit}
    (hset : setUp c m s d intake = .ready p) (hdl : c.deadLetter = some dl)
    (htypes : dl.failureTypes = [] ∨ .input ∈ dl.failureTypes) (hi : intake.Fresh)
    (hm : ∀ m ∈ moves, m.isInner = true)
    (hputs : ∀ provider depot, d.openStore dl.path dl.storageOptions = .ok (provider, depot) →
      ∀ first move, first ++ [move] <+: moves →
        World.Takes provider (p.run first).world (p.run (first ++ [move])).world)
    (hr : (p.run moves).result? = some r) :
    ∃ provider i lines cut objects,
      d.openStore dl.path dl.storageOptions = .ok (provider, p.world.workplace.depot) ∧
        Accounts p (p.run moves) provider intake i lines cut objects ∧
        Covers (Lines.ofBytes intake.unread) lines cut i r := by
  obtain ⟨provider, seat, hopen, hbegins⟩ := begins_of_setUp hset hdl
  have hf := hbegins.fresh
  have hzero := hbegins.handlerErrors_eq_zero htypes hi hm (hputs provider _ hopen)
  obtain ⟨actions, hc, hflow, hhealthy, hreads, hcrash, hs⟩ := hbegins.archiving htypes hi hm
  obtain ⟨hjobs, hterm, hsome, i, hintake, hread, rfl⟩ := of_result? hc hhealthy hflow.provenance hr
  -- The consumer has gone, and nothing that was accepted is left behind.
  obtain ⟨phase, hphase⟩ := Option.isSome_iff_exists.1 hsome
  have hstarted := hflow.lifecycle.hasStarted_of_consumer hphase
  have hended : (p.run moves).world.service.consumer ≠ some (.gone true) := by
    intro hgone
    simp [World.hasCrashed, hgone, ConsumerPhase.hasCrashed] at hcrash
  have hgone : (p.run moves).world.service.consumer = some (.gone false) := by
    rw [hc.world] at hstarted hterm hended ⊢
    exact World.gone_of_terminated hf hstarted hterm hended
  have hdispatched : (p.run moves).world.dispatched = (p.run moves).world.queue.accepted := by
    rw [hc.world] at hread hgone ⊢
    exact dispatched_eq_accepted hc.orderly hf hbegins.nextId hi hjobs hread hgone
  simp only [World.Reader, hread, TaskPhase.Reads] at hreads
  obtain ⟨lines, fs, cut, result, hprogress, hfinished, haccepted⟩ := hreads
  obtain ⟨done, hdone, hstored⟩ := hs.stored hzero
  have hnone : (p.run moves).world.unkept = [] := by
    rw [World.unkept, hgone]
    rfl
  rw [hnone, List.append_nil] at hdone
  subst hdone
  obtain ⟨objects, haccounts⟩ :=
    accounts_of_progress hopen hintake hprogress hflow hstored hdispatched haccepted hterm
  exact ⟨provider, i, lines, cut, objects, hopen, haccounts, covers_of_progress hprogress hfinished⟩

/-- Two lines that are no JSON, one that is, and a blank one, in three reads, after which the input breaks in the
middle of a line. -/
def brokenInput : Intake where
  inputId := "stdin"
  feed :=
    { arrivals :=
        [.read [0x7B, 0x7D, 0x0A, 0x62] false, .read [0x0A, 0x20, 0x0D, 0x0A] false, .read [0x63, 0x0A, 0x5B] false]
      sequel := .fault }
  output := {}

/-- A remote store. -/
def letters : DeadLetterConfig where
  path := "gs://letters/kept"
  failureTypes := [.input]
  role := .custom

/-- Room for one batch, and no patience at the end. -/
def tightConfig : Config where
  failureHandling := { queueCapacity := 1, shutdownAwait := 0 }
  deadLetter := some letters
  metrics := { enabled := false }

/-- Its objects have their names below `kept`. -/
def remoteStore : Provider := ⟨.remote "gs://@letters", ⟨["kept"]⟩, "gs://letters/kept"⟩

/-- The stores as an earlier process has left them, with an object in the remote one. -/
def usedStores : Depot where
  elsewhere := Memory.empty.put ⟨["gs://@letters", "kept", "input", "20250101-000000.000000-1-00000001.ndjson"]⟩ [0x0A]

def tightProgram : Program where
  world :=
    { config := tightConfig.failureHandling
      queue := { capacity := 1, free := 1 }
      workplace :=
        { registry :=
            { fallback := .log, custom := [.deadLetter { provider := remoteStore, types := letters.failureTypes }] }
          depot := usedStores } }
  agenda := jobs brokenInput

/-- Everybody gets many turns. -/
def manyTurns : List Move :=
  List.flatten (List.replicate 60
    [.proceed, .act (.task 0), .act (.task 1), .act (.task 2), .act (.task 3), .act (.task 4), .act .consumer,
      .act (.call 0)])

/-- The error of the input is returned when both lines are in the store. -/
theorem every_line_is_in_one_place_in_tightProgram :
    setUp tightConfig {} {} usedStores brokenInput = .ready tightProgram ∧
      (tightProgram.run manyTurns).result? = some (.error (.stream .read)) ∧
      ((tightProgram.run manyTurns).world.dispatched.map (·.id)) = [1, 2] ∧
      (tightProgram.run manyTurns).world.workplace.depot.elsewhere.objects.length = 3 ∧
      ∃ provider i lines cut objects,
        usedStores.openStore letters.path letters.storageOptions =
            .ok (provider, tightProgram.world.workplace.depot) ∧
          Accounts tightProgram (tightProgram.run manyTurns) provider brokenInput i lines cut objects ∧
          Covers (Lines.ofBytes brokenInput.unread) lines cut i (.error (.stream .read)) := by
  have hopen : usedStores.openStore letters.path letters.storageOptions =
      .ok (remoteStore, tightProgram.world.workplace.depot) := by decide +kernel
  have hset : setUp tightConfig {} {} usedStores brokenInput = .ready tightProgram := by
    have hsink : Sink.ofConfig usedStores letters =
        .ok ({ provider := remoteStore, types := letters.failureTypes }, tightProgram.world.workplace.depot) := by
      rw [Sink.ofConfig, hopen]
    have hregistry : Registry.ofConfig usedStores tightConfig =
        .ok (tightProgram.world.workplace.registry, tightProgram.world.workplace.depot) := by
      simp only [Registry.ofConfig, tightConfig, hsink]
      rfl
    rw [setUp, hregistry]
    rfl
  have hfresh : brokenInput.Fresh := ⟨rfl, rfl, Feed.endsOnce_of_not_mem (by decide)⟩
  have hmoves : ∀ m ∈ manyTurns, m.isInner = true := by decide +kernel
  have hnone : ∀ m ∈ manyTurns, m.refuses = false := by decide +kernel
  have hbackend : ∀ root, remoteStore.backend ≠ .directory root := by simp [remoteStore]
  have hputs : ∀ provider depot, usedStores.openStore letters.path letters.storageOptions = .ok (provider, depot) →
      ∀ first move, first ++ [move] <+: manyTurns →
        World.Takes provider (tightProgram.run first).world (tightProgram.run (first ++ [move])).world := by
    intro provider depot hopened first move hfirst
    obtain ⟨rfl, rfl⟩ : remoteStore = provider ∧ tightProgram.world.workplace.depot = depot := by
      simpa [hopen] using hopened
    have hleft := (List.prefix_append first [move]).trans hfirst
    refine takes_of_backend hset rfl (.inr (by decide)) hfresh hopen hbackend
      (fun m hm => hmoves m (hleft.subset hm)) (fun first' hfirst' => run_refusal rfl fun m hm => hnone m ?_) _
    exact (hfirst'.trans hleft).subset hm
  have hresult : (tightProgram.run manyTurns).result? = some (.error (.stream .read)) := by decide +kernel
  refine ⟨hset, hresult, by decide +kernel, by decide +kernel, ?_⟩
  exact every_line_is_in_one_place hset rfl (.inr (by decide)) hfresh hmoves hputs hresult

end Program

end FailurePipeline
