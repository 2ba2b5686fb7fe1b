import FailurePipeline.Proofs.DeadLetter.Calls

/-!
# Every batch that is kept stays

However calls that keep batches come in between one another, and whichever puts fail, the stores hold in the end
what they held before and one object for each call that has succeeded (`Archive.Kept`).  Only the number of the
batch tells the objects apart; the clock may stand still or go back.
-/

namespace FailurePipeline

namespace Archive

variable {a₀ a a' : Archive} {m : KeepMove} {moves : List KeepMove}

/-! ### One call alone -/

private theorem step_setCall {c : Keep} {k : Sink} (hlt : m.call < a.calls.length) (hk : a.sinks[c.sink]? = some k)
    (p : KeepPhase) :
    (a.setCall m.call c p).step m =
      match p with
      | .naming => a.setCall m.call c (.putting (Sink.objectPath m.surroundings c.batch))
      | .putting path =>
        match k.provider.offer m.surroundings.refusal a.depot path (DeadLetter.octets c.batch) with
        | .ok depot => { a with depot := depot }.setCall m.call c (.measuring path)
        | .error e => a.setCall m.call c (.finished path (.error (.write path.text e)))
      | .measuring path =>
        { a with recorder := a.recorder.emit (Sink.written c.batch) }.setCall m.call c (.counting path)
      | .counting path =>
        { a with sinks := a.sinks.set c.sink (k.count c.batch) }.setCall m.call c (.finished path (.ok ()))
      | .finished path r => a.setCall m.call c (.finished path r) := by
  have hself : (a.setCall m.call c p).calls[m.call]? = some { c with phase := p } := List.getElem?_set_self hlt
  have hsink : (a.setCall m.call c p).sinks[c.sink]? = some k := hk
  have hset : ∀ p', (a.setCall m.call c p).calls.set m.call { c with phase := p' } =
      a.calls.set m.call { c with phase := p' } := fun p' => List.set_set ..
  rw [step, hself]
  simp only [hsink]
  cases p with
  | naming => simp only [setCall, List.set_set]
  | putting path =>
    have hdepot : (a.setCall m.call c (.putting path)).depot = a.depot := rfl
    simp only [hdepot]
    cases k.provider.offer m.surroundings.refusal a.depot path (DeadLetter.octets c.batch) <;>
      simp only [setCall, List.set_set]
  | measuring path => simp only [setCall, List.set_set]
  | counting path => simp only [setCall, List.set_set]
  | finished path r => rfl

/-- A call that nobody comes in between keeps its batch as a sink does. -/
theorem run_alone {c : Keep} {k : Sink} (hc : a.calls[m.call]? = some c) (hk : a.sinks[c.sink]? = some k)
    (hp : c.phase = .naming) :
    a.run (List.replicate 4 m) =
      match k.write m.surroundings a.depot a.recorder c.batch with
      | .ok (k', depot, recorder) =>
        { a with sinks := a.sinks.set c.sink k', depot := depot, recorder := recorder }.setCall m.call c
          (.finished (Sink.objectPath m.surroundings c.batch) (.ok ()))
      | .error e => a.setCall m.call c (.finished (Sink.objectPath m.surroundings c.batch) (.error e)) := by
  have hlt := (List.getElem?_eq_some_iff.1 hc).1
  have hself : a.setCall m.call c .naming = a := by
    have hsame : { c with phase := .naming } = c := by rw [← hp]
    have hcalls : a.calls.set m.call c = a.calls := by
      obtain ⟨_, rfl⟩ := List.getElem?_eq_some_iff.1 hc
      exact List.set_getElem_self hlt
    rw [setCall, hsame, hcalls]
  have hrun : a.run (List.replicate 4 m) = ((((a.setCall m.call c .naming).step m).step m).step m).step m := by
    rw [hself]
    rfl
  rw [hrun, step_setCall hlt hk, step_setCall hlt hk]
  simp only [Sink.write, Sink.store]
  cases hput : k.provider.offer m.surroundings.refusal a.depot (Sink.objectPath m.surroundings c.batch)
      (DeadLetter.octets c.batch) with
  | error e => simp only [step_setCall hlt hk]
  | ok depot =>
    have hmeasured := step_setCall (a := { a with depot := depot }) hlt hk
      (.measuring (Sink.objectPath m.surroundings c.batch))
    have hcounted := step_setCall
      (a := { a with depot := depot, recorder := a.recorder.emit (Sink.written c.batch) }) hlt hk
      (.counting (Sink.objectPath m.surroundings c.batch))
    simp only at hmeasured hcounted
    simp only [hmeasured, hcounted]

/-! ### Calls that fail -/

/-- An object that has been put is not taken back. -/
private theorem isStored_of_isStep (h : IsStep a m a') {i : Nat} {c : Keep} (hi : a.calls[i]? = some c)
    (hs : c.phase.isStored = true) : ∃ c', a'.calls[i]? = some c' ∧ c'.phase.isStored = true := by
  have hset : ∀ {b : Archive} {c' : Keep} {p : KeepPhase}, a.calls[m.call]? = some c' →
      b.calls = (a.setCall m.call c' p).calls → (c'.phase.isStored = true → p.isStored = true) →
      ∃ c'', b.calls[i]? = some c'' ∧ c''.phase.isStored = true := by
    intro b c' p hc hcalls hp
    rw [hcalls, setCall]
    by_cases him : i = m.call
    · subst him
      obtain rfl : c = c' := Option.some.inj (hi.symm.trans hc)
      exact ⟨_, List.getElem?_set_self (List.getElem?_eq_some_iff.1 hc).1, hp hs⟩
    · exact ⟨c, by rw [List.getElem?_set_ne (Ne.symm him), hi], hs⟩
  cases h with
  | idle => exact ⟨c, hi, hs⟩
  | name c' hc hp => exact hset hc rfl (by simp [hp, KeepPhase.isStored])
  | put c' k path depot hc hk hp hput => exact hset hc rfl fun _ => rfl
  | refuse c' path e hc hp => exact hset hc rfl (by simp [hp, KeepPhase.isStored])
  | measure c' path hc hp => exact hset hc rfl fun _ => rfl
  | count c' k path hc hk hp => exact hset hc rfl fun _ => rfl

private theorem isStored_run {i : Nat} {c : Keep} (hi : a.calls[i]? = some c) (hs : c.phase.isStored = true)
    (moves : List KeepMove) : ∃ c', (a.run moves).calls[i]? = some c' ∧ c'.phase.isStored = true := by
  induction moves generalizing a c with
  | nil => exact ⟨c, hi, hs⟩
  | cons m ms ih =>
    obtain ⟨c', hi', hs'⟩ := isStored_of_isStep (isStep_step a m) hi hs
    exact ih hi' hs'

/-- A step that changes more than its call is one of a call that has put its object. -/
private theorem harmless_of_isStep (h : IsStep a m a') :
    (a'.depot = a.depot ∧ a'.sinks = a.sinks ∧ a'.recorder = a.recorder) ∨
      ∃ c, a'.calls[m.call]? = some c ∧ c.phase.isStored = true := by
  have hset : ∀ {b : Archive} {c : Keep} {p : KeepPhase}, a.calls[m.call]? = some c →
      b.calls = (a.setCall m.call c p).calls → p.isStored = true →
      ∃ c', b.calls[m.call]? = some c' ∧ c'.phase.isStored = true := by
    intro b c p hc hcalls hp
    rw [hcalls]
    exact ⟨_, List.getElem?_set_self (List.getElem?_eq_some_iff.1 hc).1, hp⟩
  cases h with
  | idle => exact .inl ⟨rfl, rfl, rfl⟩
  | name => exact .inl ⟨rfl, rfl, rfl⟩
  | refuse => exact .inl ⟨rfl, rfl, rfl⟩
  | put c k path depot hc => exact .inr (hset hc rfl rfl)
  | measure c path hc => exact .inr (hset hc rfl rfl)
  | count c k path hc => exact .inr (hset hc rfl rfl)

/-- Whatever a call does that fails in the end, it does to itself. -/
theorem harmless_of_failed {pre post : List KeepMove} {c : Keep}
    (hc : (a.run (pre ++ m :: post)).calls[m.call]? = some c) (hf : c.phase.isStored = false) :
    ((a.run pre).step m).depot = (a.run pre).depot ∧ ((a.run pre).step m).sinks = (a.run pre).sinks ∧
      ((a.run pre).step m).recorder = (a.run pre).recorder := by
  rcases harmless_of_isStep (isStep_step (a.run pre) m) with h | ⟨c', hc', hs⟩
  · exact h
  · -- The object would still be there.
    obtain ⟨c'', hc'', hs'⟩ := isStored_run hc' hs post
    have hrun : a.run (pre ++ m :: post) = ((a.run pre).step m).run post := by
      rw [run, List.foldl_append]
      rfl
    rw [hrun, hc''] at hc
    cases hc
    simp [hf] at hs'

/-! ### All calls together -/

/-- What a run has done when all calls have finished. -/
structure Kept (a₀ : Archive) (moves : List KeepMove) : Prop where
  /-- Every object is in the directory of its type, under a name that says when it was named and which batch it is. -/
  named : ∀ c ∈ (a₀.run moves).calls, ∃ s ∈ moves.map (·.surroundings),
    c.phase.path? = some (Sink.objectPath s c.batch) ∧
      (Sink.objectPath s c.batch).parts = [c.batch.type.name, String.ofList (Sink.fileName s c.batch.id)]
  /-- A call that has succeeded has put exactly its document, where nothing was, and it is there still. -/
  stored : ∀ c ∈ (a₀.run moves).calls, c.phase.isOk = true → ∃ address, c.address? a₀.providers = some address ∧
    a₀.depot.find? address = none ∧ (a₀.run moves).depot.find? address = some (DeadLetter.octets c.batch)
  /-- No two calls have their objects at one address. -/
  distinct : ∀ (i j : Nat) c c' address, (a₀.run moves).calls[i]? = some c → (a₀.run moves).calls[j]? = some c' →
    c.address? a₀.providers = some address → c'.address? a₀.providers = some address → i = j
  /-- What was there is there still, and nothing else has come. -/
  others : ∀ address,
    (∀ c ∈ (a₀.run moves).calls, c.phase.isOk = true → c.address? a₀.providers ≠ some address) →
    (a₀.run moves).depot.find? address = a₀.depot.find? address
  calls : (a₀.run moves).calls.map (fun c => (c.sink, c.batch)) = a₀.calls.map fun c => (c.sink, c.batch)
  providers : (a₀.run moves).providers = a₀.providers
  counts : Counts a₀ (a₀.run moves)
  records : (a₀.run moves).recorder.count .deadLetterRecords % Metrics.Recorder.wordSize =
    (a₀.recorder.count .deadLetterRecords + (a₀.run moves).total (·.phase.isOk) Batch.size) %
      Metrics.Recorder.wordSize
  octets : (a₀.run moves).recorder.count .deadLetterOctets % Metrics.Recorder.wordSize =
    (a₀.recorder.count .deadLetterOctets +
      (a₀.run moves).total (·.phase.isOk) fun b => (DeadLetter.octets b).length) % Metrics.Recorder.wordSize
  /-- A call that has not succeeded says that the put of its object has failed, and why. -/
  failed : ∀ c ∈ (a₀.run moves).calls, c.phase.isOk = false →
    ∃ path source, c.phase = .finished path (.error (.write path.text source))
  /-- No step of a call that fails changes a store, a sink or the recorder. -/
  harmless : ∀ pre m post, moves = pre ++ m :: post → ∀ c, (a₀.run moves).calls[m.call]? = some c →
    c.phase.isOk = false →
    ((a₀.run pre).step m).depot = (a₀.run pre).depot ∧ ((a₀.run pre).step m).sinks = (a₀.run pre).sinks ∧
      ((a₀.run pre).step m).recorder = (a₀.run pre).recorder

private theorem invariants_run (hnew : ∀ c ∈ a₀.calls, c.phase = .naming)
    (hids : (a₀.calls.map (·.batch.id)).Nodup) (moves : List KeepMove) :
    Keeps a₀ (moves.map (·.surroundings)) (a₀.run moves) ∧ Counts a₀ (a₀.run moves) ∧
      Grows a₀ (a₀.run moves) .deadLetterRecords Batch.size ∧
      Grows a₀ (a₀.run moves) .deadLetterOctets fun b => (DeadLetter.octets b).length := by
  have hsteps : ∀ {clocks : List Surroundings} {a : Archive} (ms : List KeepMove),
      (∀ m ∈ ms, m.surroundings ∈ clocks) → Keeps a₀ clocks a → Counts a₀ a →
      Grows a₀ a .deadLetterRecords Batch.size →
      Grows a₀ a .deadLetterOctets (fun b => (DeadLetter.octets b).length) →
      Keeps a₀ clocks (a.run ms) ∧ Counts a₀ (a.run ms) ∧ Grows a₀ (a.run ms) .deadLetterRecords Batch.size ∧
        Grows a₀ (a.run ms) .deadLetterOctets fun b => (DeadLetter.octets b).length := by
    intro clocks a ms
    induction ms generalizing a with
    | nil => exact fun _ hk hc hr ho => ⟨hk, hc, hr, ho⟩
    | cons m ms ih =>
      intro hclocks hk hc hr ho
      have hm := isStep_step a m
      exact ih (fun m' hm' => hclocks m' (List.mem_cons_of_mem m hm'))
        (hk.step hids (hclocks m List.mem_cons_self) hm) (hc.step hm) (hr.step (fun _ => rfl) hm)
        (ho.step (fun _ => rfl) hm)
  exact hsteps moves (fun m hm => List.mem_map_of_mem hm) (.fresh hnew) (.fresh hnew) (.fresh hnew) (.fresh hnew)

/-- When all calls have finished, each in whatever steps between those of the others, the stores hold what they held
before and one object for each call that has succeeded. -/
theorem every_batch_is_kept (hnew : ∀ c ∈ a₀.calls, c.phase = .naming)
    (hids : (a₀.calls.map (·.batch.id)).Nodup) (hdone : ∀ c ∈ (a₀.run moves).calls, c.phase.isFinished = true)
    (hfree : ∀ c ∈ (a₀.run moves).calls, (c.address? a₀.providers).bind a₀.depot.find? = none) :
    Kept a₀ moves := by
  obtain ⟨hk, hcounts, hrecords, hoctets⟩ := invariants_run hnew hids moves
  -- A call that has finished has put its object if it has succeeded, and else it has not.
  have hsame : ∀ c ∈ (a₀.run moves).calls,
      c.phase.isStored = c.phase.isOk ∧ c.phase.isMeasured = c.phase.isOk := by
    intro c hc
    have hfin := hdone c hc
    cases hp : c.phase with
    | finished path r => cases r <;> exact ⟨rfl, rfl⟩
    | _ => simp [hp, KeepPhase.isFinished] at hfin
  have htotal : ∀ f, (a₀.run moves).total (·.phase.isMeasured) f = (a₀.run moves).total (·.phase.isOk) f := by
    intro f
    refine congrArg List.sum (List.map_congr_left fun c hc => ?_)
    simp only [(hsame c hc).2]
  refine ⟨fun c hc => ?_, fun c hc hok => ?_, fun i j c c' address hi hj => hk.eq_of_address? hids hi hj,
    fun address hno => ?_, hk.calls, hk.providers, hcounts, ?_, ?_, fun c hc hok => ?_, ?_⟩
  · obtain ⟨i, hi⟩ := List.getElem?_of_mem hc
    cases hp : c.phase with
    | finished path r =>
      obtain ⟨s, hs, rfl⟩ := hk.named i c path hi (by rw [hp]; rfl)
      exact ⟨s, hs, rfl, Sink.objectPath_parts s c.batch⟩
    | _ => simpa [hp, KeepPhase.isFinished] using hdone c hc
  · obtain ⟨i, hi⟩ := List.getElem?_of_mem hc
    obtain ⟨address, ha, hfind⟩ := hk.stored i c hi ((hsame c hc).1.trans hok)
    exact ⟨address, ha, by simpa [ha] using hfree c hc, hfind⟩
  · refine hk.others address fun i c hi hs => ?_
    have hc := List.mem_of_getElem? hi
    exact hno c hc ((hsame c hc).1 ▸ hs)
  · rw [← htotal]
    exact hrecords
  · rw [← htotal]
    exact hoctets
  · obtain ⟨i, hi⟩ := List.getElem?_of_mem hc
    cases hp : c.phase with
    | finished path r =>
      cases r with
      | ok u => simp [hp, KeepPhase.isOk] at hok
      | error e =>
        obtain ⟨source, rfl⟩ := hk.failed i c path e hi hp
        exact ⟨path, source, rfl⟩
    | _ => simpa [hp, KeepPhase.isFinished] using hdone c hc
  · intro pre m post hsplit c hc hok
    subst hsplit
    exact harmless_of_failed hc ((hsame c (List.mem_of_getElem? hc)).1.trans hok)

private def oldObject : ObjectPath := ⟨["input", "20250101-000000.000000-1-00000007.ndjson"]⟩

/-- Two sinks over one store in memory that an earlier process has used, and a third over another store.  One number
has more than eight digits, and ends like another one. -/
def sharedStore : Archive :=
  { sinks := [{ provider := ⟨.memory 0, ⟨["kept"]⟩, "memory:///kept"⟩ },
      { provider := ⟨.memory 0, ⟨["kept"]⟩, "memory:///kept"⟩, types := [.input], stats := { input := 5 } },
      { provider := ⟨.memory 1, .root, "memory:///"⟩ }]
    depot := { memories := [Memory.empty.put (ObjectPath.below ⟨["kept"]⟩ oldObject) [0x0A], .empty] }
    calls := [{ sink := 0, batch := ⟨7, .input [⟨.parse, ⟨"", "", ⟨0, 0⟩⟩, [0xFF], "tcp"⟩]⟩ },
      { sink := 1, batch := ⟨100000007, .input [⟨.parse, ⟨"\n", "", ⟨0, 0⟩⟩, [], ""⟩]⟩ },
      { sink := 0, batch := ⟨8, .processing []⟩ },
      { sink := 2, batch := ⟨9, .indexing [⟨.unknown, ⟨"", "", ⟨0, 0⟩⟩, none, "graylog_0"⟩]⟩ }] }

/-- The calls take turns, all of them name their objects in one microsecond, and the last put is refused. -/
def inTurns : List KeepMove :=
  [{ call := 0 }, { call := 1 }, { call := 2 }, { call := 3 }, { call := 2 }, { call := 1 }, { call := 0 },
    { call := 3, surroundings := { refusal := some (.store .other) } }, { call := 1 }, { call := 0 }, { call := 2 },
    { call := 0 }, { call := 2 }, { call := 1 }]

/-- What the first call keeps. -/
def firstDocument : String :=
  "\x7b\"batch_id\":7,\"failure_type\":\"input\",\"cause\":\"InputParse\",\"message\":\"\",\"details\":\"\"," ++
    "\"timestamp\":\"1970-01-01T00:00:00Z\",\"input_id\":\"tcp\",\"raw_message\":\"/w==\"\x7d\n"

/-- The objects of three calls join the one that was there. -/
theorem every_batch_is_kept_in_sharedStore :
    (∀ c ∈ sharedStore.calls, c.phase = .naming) ∧ (sharedStore.calls.map (·.batch.id)).Nodup ∧
      (∀ c ∈ (sharedStore.run inTurns).calls, c.phase.isFinished = true) ∧
      (∀ c ∈ (sharedStore.run inTurns).calls,
        (c.address? sharedStore.providers).bind sharedStore.depot.find? = none) ∧
      Kept sharedStore inTurns ∧
      (sharedStore.run inTurns).calls.map (·.phase.isOk) = [true, true, true, false] ∧
      (sharedStore.run inTurns).depot.memories.map (·.objects.length) = [4, 0] ∧
      (sharedStore.run inTurns).depot.find?
        (.object 0 ⟨["kept", "input", "19700101-000000.000000-1-00000007.ndjson"]⟩) =
          some (Utf8.encode firstDocument) ∧
      (sharedStore.run inTurns).sinks.map (·.stats.of .input) = [1, 6, 0] := by
  have hnew : ∀ c ∈ sharedStore.calls, c.phase = .naming := by simp [sharedStore]
  have hids : (sharedStore.calls.map (·.batch.id)).Nodup := by decide
  have hdone : ∀ c ∈ (sharedStore.run inTurns).calls, c.phase.isFinished = true := by decide +kernel
  have hfree : ∀ c ∈ (sharedStore.run inTurns).calls,
      (c.address? sharedStore.providers).bind sharedStore.depot.find? = none := by decide +kernel
  exact ⟨hnew, hids, hdone, hfree, every_batch_is_kept hnew hids hdone hfree, by decide +kernel,
    by decide +kernel, by decide +kernel, by decide +kernel⟩

end Archive

end FailurePipeline
