import FailurePipeline.DeadLetter.Archive
import FailurePipeline.Proofs.DeadLetter.ObjectName
import FailurePipeline.Proofs.Lists
import FailurePipeline.Proofs.Metrics.Counting
import FailurePipeline.Proofs.Storage.Addresses

/-!
# Calls that keep batches

Every step of an `Archive` is one of the `Archive.IsStep`s.  Whatever their order, the stores hold one object for
each call that has put one (`Archive.Keeps`), the sinks have counted what the finished calls kept
(`Archive.Counts`), and the counters have grown by what was measured (`Archive.Grows`).
-/

namespace FailurePipeline

namespace DeadLetterStats

/-- How many failures of a type have been kept. -/
def of (s : DeadLetterStats) : FailureType → Nat
  | .indexing => s.indexing
  | .processing => s.processing
  | .input => s.input

theorem of_add (s : DeadLetterStats) (t t' : FailureType) (count : Nat) :
    (s.add t count).of t' = s.of t' + if t = t' then count else 0 := by
  cases t <;> cases t' <;> rfl

end DeadLetterStats

namespace KeepPhase

/-- The path of the object, once it has been named. -/
def path? : KeepPhase → Option ObjectPath
  | .naming => none
  | .putting path | .measuring path | .counting path | .finished path _ => some path

/-- Whether the object has been put. -/
def isStored : KeepPhase → Bool
  | .measuring _ | .counting _ | .finished _ (.ok _) => true
  | _ => false

def isMeasured : KeepPhase → Bool
  | .counting _ | .finished _ (.ok _) => true
  | _ => false

/-- Whether a call has succeeded. -/
def isOk : KeepPhase → Bool
  | .finished _ (.ok _) => true
  | _ => false

def isFinished : KeepPhase → Bool
  | .finished .. => true
  | _ => false

end KeepPhase

/-- The address of the object of a call, once it has been named. -/
def Keep.address? (providers : List Provider) (c : Keep) : Option Address :=
  providers[c.sink]?.bind fun p => c.phase.path?.bind p.address?

namespace Archive

def providers (a : Archive) : List Provider := a.sinks.map (·.provider)

/-- The sum of a quantity over the batches of the calls that have a property. -/
def total (a : Archive) (q : Keep → Bool) (f : Batch → Nat) : Nat :=
  (a.calls.map fun c => if q c then f c.batch else 0).sum

/-- What a step can be. -/
inductive IsStep (a : Archive) (m : KeepMove) : Archive → Prop
  | idle : IsStep a m a
  | name (c : Keep) (hc : a.calls[m.call]? = some c) (hp : c.phase = .naming) :
    IsStep a m (a.setCall m.call c (.putting (Sink.objectPath m.surroundings c.batch)))
  | put (c : Keep) (k : Sink) (path : ObjectPath) (depot : Depot) (hc : a.calls[m.call]? = some c)
    (hk : a.sinks[c.sink]? = some k) (hp : c.phase = .putting path)
    (hput : k.provider.put a.depot path (DeadLetter.octets c.batch) = .ok depot) :
    IsStep a m ({ a with depot := depot }.setCall m.call c (.measuring path))
  | refuse (c : Keep) (path : ObjectPath) (e : StorageError) (hc : a.calls[m.call]? = some c)
    (hp : c.phase = .putting path) : IsStep a m (a.setCall m.call c (.finished path (.error (.write path.text e))))
  | measure (c : Keep) (path : ObjectPath) (hc : a.calls[m.call]? = some c) (hp : c.phase = .measuring path) :
    IsStep a m ({ a with recorder := a.recorder.emit (Sink.written c.batch) }.setCall m.call c (.counting path))
  | count (c : Keep) (k : Sink) (path : ObjectPath) (hc : a.calls[m.call]? = some c)
    (hk : a.sinks[c.sink]? = some k) (hp : c.phase = .counting path) :
    IsStep a m ({ a with sinks := a.sinks.set c.sink (k.count c.batch) }.setCall m.call c (.finished path (.ok ())))

theorem isStep_step (a : Archive) (m : KeepMove) : IsStep a m (a.step m) := by
  rw [step]
  split
  · exact .idle
  · next c hc =>
    split
    · exact .idle
    · next k hk =>
      split
      · next hp => exact .name c hc hp
      · next path hp =>
        split
        · next depot hput => exact .put c k path depot hc hk hp (Provider.put_of_offer hput)
        · next e _ => exact .refuse c path e hc hp
      · next path hp => exact .measure c path hc hp
      · next path hp => exact .count c k path hc hk hp
      · exact .idle

variable {a₀ a a' : Archive} {m : KeepMove} {c : Keep}

/-- Another call stays as it is, and the call that goes on keeps its sink and its batch. -/
private theorem getElem?_setCall (hc : a.calls[m.call]? = some c) (p : KeepPhase) {j : Nat} {c' : Keep}
    (h : (a.setCall m.call c p).calls[j]? = some c') :
    (j = m.call ∧ c' = { c with phase := p }) ∨ (j ≠ m.call ∧ a.calls[j]? = some c') := by
  have hlt := (List.getElem?_eq_some_iff.1 hc).1
  rw [setCall, List.getElem?_set] at h
  split at h
  · next hj => exact .inl ⟨hj.symm, by simpa [hlt] using h.symm⟩
  · next hj => exact .inr ⟨Ne.symm hj, h⟩

/-- What a step does to a sum is what it does to the summand of its call. -/
private theorem total_setCall (hc : a.calls[m.call]? = some c) (p : KeepPhase) (q : Keep → Bool) (f : Batch → Nat) :
    (a.setCall m.call c p).total q f + (if q c then f c.batch else 0) =
      a.total q f + if q { c with phase := p } then f c.batch else 0 :=
  sum_map_set_add hc { c with phase := p } fun c => if q c then f c.batch else 0

/-- No step changes which calls there are, for which sinks and batches. -/
private theorem map_setCall {α : Type} (hc : a.calls[m.call]? = some c) (p : KeepPhase) {f : Keep → α}
    (hf : f { c with phase := p } = f c) : (a.setCall m.call c p).calls.map f = a.calls.map f := by
  refine List.ext_getElem? fun j => ?_
  rw [List.getElem?_map, List.getElem?_map, setCall, List.getElem?_set]
  split
  · next hj =>
    subst hj
    rw [if_pos (List.getElem?_eq_some_iff.1 hc).1, hc, Option.map_some, Option.map_some, hf]
  · rfl

/-- What the calls have done to the stores, seen by these clocks. -/
structure Keeps (a₀ : Archive) (clocks : List Surroundings) (a : Archive) : Prop where
  calls : a.calls.map (fun c => (c.sink, c.batch)) = a₀.calls.map fun c => (c.sink, c.batch)
  providers : a.providers = a₀.providers
  named : ∀ (i : Nat) c path, a.calls[i]? = some c → c.phase.path? = some path →
    ∃ s ∈ clocks, path = Sink.objectPath s c.batch
  failed : ∀ (i : Nat) c path e, a.calls[i]? = some c → c.phase = .finished path (.error e) →
    ∃ source, e = .write path.text source
  stored : ∀ (i : Nat) c, a.calls[i]? = some c → c.phase.isStored = true →
    ∃ address, c.address? a₀.providers = some address ∧ a.depot.find? address = some (DeadLetter.octets c.batch)
  others : ∀ address,
    (∀ (i : Nat) c, a.calls[i]? = some c → c.phase.isStored = true → c.address? a₀.providers ≠ some address) →
    a.depot.find? address = a₀.depot.find? address

namespace Keeps

variable {clocks : List Surroundings}

theorem fresh (hnew : ∀ c ∈ a₀.calls, c.phase = .naming) : Keeps a₀ clocks a₀ := by
  have hphase : ∀ {i : Nat} {c : Keep}, a₀.calls[i]? = some c → c.phase = .naming := fun hi =>
    hnew _ (List.mem_of_getElem? hi)
  refine ⟨rfl, rfl, fun i c path hi h => ?_, fun i c path e hi h => ?_, fun i c hi h => ?_, fun _ _ => rfl⟩
  · simp [hphase hi, KeepPhase.path?] at h
  · simp [hphase hi] at h
  · simp [hphase hi, KeepPhase.isStored] at h

/-- Calls for batches with different numbers have their objects at different addresses. -/
theorem eq_of_address? (hk : Keeps a₀ clocks a) (hids : (a₀.calls.map (·.batch.id)).Nodup) {i j : Nat} {c c' : Keep}
    (hi : a.calls[i]? = some c) (hj : a.calls[j]? = some c') {address : Address}
    (h : c.address? a₀.providers = some address) (h' : c'.address? a₀.providers = some address) : i = j := by
  obtain ⟨p, -, hp⟩ := Option.bind_eq_some_iff.1 h
  obtain ⟨p', -, hp'⟩ := Option.bind_eq_some_iff.1 h'
  obtain ⟨path, hpath, haddress⟩ := Option.bind_eq_some_iff.1 hp
  obtain ⟨path', hpath', haddress'⟩ := Option.bind_eq_some_iff.1 hp'
  obtain ⟨s, -, rfl⟩ := hk.named i c path hi hpath
  obtain ⟨s', -, rfl⟩ := hk.named j c' path' hj hpath'
  have hlast := Provider.eq_of_address?_eq haddress haddress' (by simp [Sink.objectPath_parts])
    (by simp [Sink.objectPath_parts])
  simp only [Sink.objectPath_parts, List.getLast?_cons_cons, List.getLast?_singleton, Option.some.injEq] at hlast
  have hid : c.batch.id = c'.batch.id := Sink.id_eq_of_fileName_eq (String.ofList_injective hlast)
  have hall : a.calls.map (·.batch.id) = a₀.calls.map (·.batch.id) := by
    have hmap := congrArg (List.map fun e : Nat × Batch => e.2.id) hk.calls
    rwa [List.map_map, List.map_map] at hmap
  rw [← hall] at hids
  have hlt := (List.getElem?_eq_some_iff.1 hi).1
  refine (List.getElem?_inj (by simpa using hlt) hids).1 ?_
  simp [hi, hj, hid]

/-- A call goes on without touching a store. -/
private theorem of_same (hk : Keeps a₀ clocks a) (hc : a.calls[m.call]? = some c) {p : KeepPhase}
    (hcalls : a'.calls = (a.setCall m.call c p).calls) (hproviders : a'.providers = a.providers)
    (hdepot : a'.depot = a.depot) (hstored : p.isStored = c.phase.isStored)
    (hpath : c.phase.isStored = true → p.path? = c.phase.path?)
    (hnamed : ∀ path, p.path? = some path → ∃ s ∈ clocks, path = Sink.objectPath s c.batch)
    (hfailed : ∀ path e, p = .finished path (.error e) → ∃ source, e = .write path.text source) :
    Keeps a₀ clocks a' := by
  have hsame : ∀ {j : Nat} {c' : Keep}, a'.calls[j]? = some c' →
      (j = m.call ∧ c' = { c with phase := p }) ∨ (j ≠ m.call ∧ a.calls[j]? = some c') := by
    intro j c' hj
    rw [hcalls] at hj
    exact getElem?_setCall hc p hj
  have haddress : c.phase.isStored = true →
      Keep.address? a₀.providers { c with phase := p } = c.address? a₀.providers := by
    intro h
    rw [Keep.address?, Keep.address?, hpath h]
  refine ⟨?_, hproviders.trans hk.providers, fun j c' path hj hp => ?_, fun j c' path e hj hp => ?_,
    fun j c' hj hs => ?_, fun address hfree => ?_⟩
  · rw [hcalls, ← hk.calls]
    exact map_setCall hc p rfl
  · rcases hsame hj with ⟨rfl, rfl⟩ | ⟨-, hj⟩
    · exact hnamed path hp
    · exact hk.named j c' path hj hp
  · rcases hsame hj with ⟨rfl, rfl⟩ | ⟨-, hj⟩
    · exact hfailed path e hp
    · exact hk.failed j c' path e hj hp
  · rw [hdepot]
    rcases hsame hj with ⟨rfl, rfl⟩ | ⟨-, hj⟩
    · have hs' : c.phase.isStored = true := hstored ▸ hs
      obtain ⟨address, ha, hfind⟩ := hk.stored m.call c hc hs'
      exact ⟨address, (haddress hs').trans ha, hfind⟩
    · exact hk.stored j c' hj hs
  · rw [hdepot]
    refine hk.others address fun j c' hj hs => ?_
    by_cases hjm : j = m.call
    · subst hjm
      obtain rfl : c = c' := Option.some.inj (hc.symm.trans hj)
      have hnew : a'.calls[m.call]? = some { c with phase := p } := by
        rw [hcalls, setCall, List.getElem?_set_self (List.getElem?_eq_some_iff.1 hc).1]
      rw [← haddress hs]
      exact hfree m.call _ hnew (hstored.trans hs)
    · have hold : a'.calls[j]? = some c' := by
        rw [hcalls, setCall, List.getElem?_set_ne (Ne.symm hjm), hj]
      exact hfree j c' hold hs

/-- A call puts its object, where none of the others has one. -/
private theorem put (hk : Keeps a₀ clocks a) (hids : (a₀.calls.map (·.batch.id)).Nodup) {k : Sink}
    {path : ObjectPath} {depot : Depot} (hc : a.calls[m.call]? = some c) (hsink : a.sinks[c.sink]? = some k)
    (hp : c.phase = .putting path)
    (hput : k.provider.put a.depot path (DeadLetter.octets c.batch) = .ok depot) :
    Keeps a₀ clocks ({ a with depot := depot }.setCall m.call c (.measuring path)) := by
  obtain ⟨address, haddress, hfind⟩ := Provider.find?_of_put hput
  have hprovider : a₀.providers[c.sink]? = some k.provider := by
    rw [← hk.providers, Archive.providers, List.getElem?_map, hsink]
    rfl
  have hnow : c.address? a₀.providers = some address := by
    simp [Keep.address?, hprovider, hp, KeepPhase.path?, haddress]
  have hnew : Keep.address? a₀.providers { c with phase := .measuring path } = some address := by
    simp [Keep.address?, hprovider, KeepPhase.path?, haddress]
  have hnamed : ∃ s ∈ clocks, path = Sink.objectPath s c.batch :=
    hk.named m.call c path hc (by rw [hp]; rfl)
  have hsame : ∀ {j : Nat} {c' : Keep},
      ({ a with depot := depot }.setCall m.call c (.measuring path)).calls[j]? = some c' →
      (j = m.call ∧ c' = { c with phase := .measuring path }) ∨ (j ≠ m.call ∧ a.calls[j]? = some c') :=
    getElem?_setCall (a := a) hc _
  refine ⟨?_, hk.providers, fun j c' path' hj hp' => ?_, fun j c' path' e hj hp' => ?_, fun j c' hj hs => ?_,
    fun other hfree => ?_⟩
  · rw [← hk.calls]
    exact map_setCall (a := a) hc _ rfl
  · rcases hsame hj with ⟨rfl, rfl⟩ | ⟨-, hj⟩
    · cases hp'
      exact hnamed
    · exact hk.named j c' path' hj hp'
  · rcases hsame hj with ⟨rfl, rfl⟩ | ⟨-, hj⟩
    · cases hp'
    · exact hk.failed j c' path' e hj hp'
  · rcases hsame hj with ⟨rfl, rfl⟩ | ⟨hjm, hj⟩
    · exact ⟨address, hnew, (hfind address).trans (if_pos rfl)⟩
    · obtain ⟨address', ha', hfind'⟩ := hk.stored j c' hj hs
      -- Addresses say the numbers of batches, so that no other object is written over.
      have hne : address' ≠ address := by
        rintro rfl
        exact hjm (hk.eq_of_address? hids hj hc ha' hnow)
      exact ⟨address', ha', ((hfind address').trans (if_neg hne)).trans hfind'⟩
  · have hne : other ≠ address := by
      rintro rfl
      refine hfree m.call { c with phase := .measuring path } ?_ rfl hnew
      rw [setCall, List.getElem?_set_self (List.getElem?_eq_some_iff.1 hc).1]
    refine ((hfind other).trans (if_neg hne)).trans (hk.others other fun j c' hj hs => ?_)
    have hjm : j ≠ m.call := by
      rintro rfl
      obtain rfl : c = c' := Option.some.inj (hc.symm.trans hj)
      simp [hp, KeepPhase.isStored] at hs
    refine hfree j c' ?_ hs
    rw [setCall, List.getElem?_set_ne (Ne.symm hjm)]
    exact hj

theorem step (hk : Keeps a₀ clocks a) (hids : (a₀.calls.map (·.batch.id)).Nodup) (hm : m.surroundings ∈ clocks)
    (h : IsStep a m a') : Keeps a₀ clocks a' := by
  cases h with
  | idle => exact hk
  | name c hc hp =>
    refine hk.of_same hc rfl rfl rfl (by rw [hp]; rfl) (by rw [hp]; nofun) ?_ nofun
    exact fun path h => ⟨m.surroundings, hm, (Option.some.inj h).symm⟩
  | put c k path depot hc hsink hp hput => exact hk.put hids hc hsink hp hput
  | refuse c path e hc hp =>
    refine hk.of_same hc rfl rfl rfl (by rw [hp]; rfl) (by rw [hp]; nofun) ?_ ?_
    · exact fun path' h => hk.named m.call c path' hc (by rw [hp]; exact h)
    · rintro path' e' ⟨⟩
      exact ⟨e, rfl⟩
  | measure c path hc hp =>
    refine hk.of_same hc rfl rfl rfl (by rw [hp]; rfl) (by rw [hp]; exact fun _ => rfl) ?_ nofun
    exact fun path' h => hk.named m.call c path' hc (by rw [hp]; exact h)
  | count c k path hc hsink hp =>
    refine hk.of_same hc rfl ?_ rfl (by rw [hp]; rfl) (by rw [hp]; exact fun _ => rfl) ?_ nofun
    · refine List.ext_getElem? fun j => ?_
      simp only [Archive.providers, setCall, List.getElem?_map, List.getElem?_set]
      split
      · next hj =>
        subst hj
        rw [if_pos (List.getElem?_eq_some_iff.1 hsink).1, hsink]
        rfl
      · rfl
    · exact fun path' h => hk.named m.call c path' hc (by rw [hp]; exact h)

end Keeps

/-! ### Sums -/

/-- The calls that have succeeded in a sink with batches of a type. -/
def succeedsIn (j : Nat) (t : FailureType) (c : Keep) : Bool :=
  decide (c.phase.isOk = true ∧ c.sink = j ∧ c.batch.type = t)

/-- Every sink has counted, for each type, the failures of the calls that have succeeded. -/
def Counts (a₀ a : Archive) : Prop :=
  ∀ (j : Nat) k, a.sinks[j]? = some k → ∃ k₀, a₀.sinks[j]? = some k₀ ∧
    ∀ t, k.stats.of t = k₀.stats.of t + a.total (succeedsIn j t) Batch.size

/-- A counter has grown by a sum over the calls that have been measured, modulo the size of a word. -/
def Grows (a₀ a : Archive) (key : Metrics.Key) (f : Batch → Nat) : Prop :=
  a.recorder.count key % Metrics.Recorder.wordSize =
    (a₀.recorder.count key + a.total (·.phase.isMeasured) f) % Metrics.Recorder.wordSize

private theorem total_of_none {q : Keep → Bool} (h : ∀ c ∈ a.calls, q c = false) (f : Batch → Nat) :
    a.total q f = 0 := by
  have hzero : (a.calls.map fun c => if q c then f c.batch else 0) = a.calls.map fun _ => 0 :=
    List.map_congr_left fun c hc => by simp [h c hc]
  rw [total, hzero, List.map_const', List.sum_replicate_nat, Nat.mul_zero]

/-- A step that leaves a property of its call alone leaves the sums alone. -/
private theorem total_setCall_of_eq (hc : a.calls[m.call]? = some c) {p : KeepPhase} {q : Keep → Bool}
    (h : q { c with phase := p } = q c) (f : Batch → Nat) : (a.setCall m.call c p).total q f = a.total q f := by
  have := total_setCall hc p q f
  rw [h] at this
  omega

namespace Counts

theorem fresh (hnew : ∀ c ∈ a₀.calls, c.phase = .naming) : Counts a₀ a₀ := by
  intro j k hk
  refine ⟨k, hk, fun t => ?_⟩
  have hnone : ∀ c ∈ a₀.calls, succeedsIn j t c = false := fun c hc => by
    simp [succeedsIn, hnew c hc, KeepPhase.isOk]
  rw [total_of_none hnone, Nat.add_zero]

private theorem of_same (ha : Counts a₀ a) (hc : a.calls[m.call]? = some c) {p : KeepPhase}
    (hsinks : a'.sinks = a.sinks) (hcalls : a'.calls = (a.setCall m.call c p).calls)
    (hp : p.isOk = c.phase.isOk) : Counts a₀ a' := by
  intro j k hk
  rw [hsinks] at hk
  obtain ⟨k₀, hk₀, hstats⟩ := ha j k hk
  refine ⟨k₀, hk₀, fun t => ?_⟩
  have hsame : a'.total (succeedsIn j t) Batch.size = a.total (succeedsIn j t) Batch.size := by
    rw [Archive.total, hcalls]
    exact total_setCall_of_eq hc (by simp [succeedsIn, hp]) Batch.size
  rw [hsame, hstats t]

private theorem count (ha : Counts a₀ a) (hc : a.calls[m.call]? = some c) {k : Sink} {path : ObjectPath}
    (hsink : a.sinks[c.sink]? = some k) (hp : c.phase = .counting path) :
    Counts a₀ ({ a with sinks := a.sinks.set c.sink (k.count c.batch) }.setCall m.call c
      (.finished path (.ok ()))) := by
  intro j k' hk'
  have hsum : ∀ t, ({ a with sinks := a.sinks.set c.sink (k.count c.batch) }.setCall m.call c
        (.finished path (.ok ()))).total (succeedsIn j t) Batch.size =
      a.total (succeedsIn j t) Batch.size + if c.sink = j ∧ c.batch.type = t then c.batch.size else 0 := by
    intro t
    have hset := total_setCall hc (.finished path (.ok ())) (succeedsIn j t) Batch.size
    have hold : succeedsIn j t c = false := by simp [succeedsIn, hp, KeepPhase.isOk]
    have hnew : succeedsIn j t { c with phase := .finished path (.ok ()) } =
        decide (c.sink = j ∧ c.batch.type = t) := by simp [succeedsIn, KeepPhase.isOk]
    simp only [hold, hnew, Bool.false_eq_true, if_false, Nat.add_zero, decide_eq_true_eq] at hset
    exact hset
  rw [setCall, List.getElem?_set] at hk'
  split at hk'
  · next hj =>
    subst hj
    rw [if_pos (List.getElem?_eq_some_iff.1 hsink).1] at hk'
    obtain rfl := Option.some.inj hk'
    obtain ⟨k₀, hk₀, hstats⟩ := ha c.sink k hsink
    refine ⟨k₀, hk₀, fun t => ?_⟩
    rw [hsum t, Sink.count, DeadLetterStats.of_add, hstats t, Nat.add_assoc]
    simp
  · next hj =>
    obtain ⟨k₀, hk₀, hstats⟩ := ha j k' hk'
    refine ⟨k₀, hk₀, fun t => ?_⟩
    rw [hsum t, hstats t]
    simp [hj]

theorem step (ha : Counts a₀ a) (h : IsStep a m a') : Counts a₀ a' := by
  cases h with
  | idle => exact ha
  | name c hc hp => exact ha.of_same hc rfl rfl (by rw [hp]; rfl)
  | put c k path depot hc hsink hp hput => exact ha.of_same hc rfl rfl (by rw [hp]; rfl)
  | refuse c path e hc hp => exact ha.of_same hc rfl rfl (by rw [hp]; rfl)
  | measure c path hc hp => exact ha.of_same hc rfl rfl (by rw [hp]; rfl)
  | count c k path hc hsink hp => exact ha.count hc hsink hp

end Counts

namespace Grows

variable {key : Metrics.Key} {f : Batch → Nat}

theorem fresh (hnew : ∀ c ∈ a₀.calls, c.phase = .naming) : Grows a₀ a₀ key f := by
  have hnone : ∀ c ∈ a₀.calls, c.phase.isMeasured = false := fun c hc => by simp [hnew c hc, KeepPhase.isMeasured]
  rw [Grows, total_of_none hnone, Nat.add_zero]

private theorem of_same (hg : Grows a₀ a key f) (hc : a.calls[m.call]? = some c) {p : KeepPhase}
    (hrecorder : a'.recorder = a.recorder) (hcalls : a'.calls = (a.setCall m.call c p).calls)
    (hp : p.isMeasured = c.phase.isMeasured) : Grows a₀ a' key f := by
  have hsame : a'.total (·.phase.isMeasured) f = a.total (·.phase.isMeasured) f := by
    rw [Archive.total, hcalls]
    exact total_setCall_of_eq (q := (·.phase.isMeasured)) hc hp f
  rw [Grows, hrecorder, hsame]
  exact hg

/-- A counter that adds a quantity of each batch that is written grows by the sum over the calls. -/
theorem step (hg : Grows a₀ a key f) (hadds : ∀ b, (Sink.written b).additions key = [f b]) (h : IsStep a m a') :
    Grows a₀ a' key f := by
  cases h with
  | idle => exact hg
  | name c hc hp => exact hg.of_same hc rfl rfl (by rw [hp]; rfl)
  | put c k path depot hc hsink hp hput => exact hg.of_same hc rfl rfl (by rw [hp]; rfl)
  | refuse c path e hc hp => exact hg.of_same hc rfl rfl (by rw [hp]; rfl)
  | count c k path hc hsink hp => exact hg.of_same hc rfl rfl (by rw [hp]; rfl)
  | measure c path hc hp =>
    have hcount : (a.recorder.emit (Sink.written c.batch)).count key =
        Metrics.wrapAdd (a.recorder.count key) (f c.batch) := by
      rw [Metrics.Recorder.count_emit, hadds]
      rfl
    have hsum : (a.setCall m.call c (.counting path)).total (·.phase.isMeasured) f =
        a.total (·.phase.isMeasured) f + f c.batch := by
      have hset := total_setCall hc (.counting path) (·.phase.isMeasured) f
      simpa [hp, KeepPhase.isMeasured] using hset
    change (a.recorder.emit (Sink.written c.batch)).count key % Metrics.Recorder.wordSize =
      (a₀.recorder.count key + (a.setCall m.call c (.counting path)).total (·.phase.isMeasured) f) %
        Metrics.Recorder.wordSize
    rw [hcount, hsum, Metrics.wrapAdd, Nat.mod_mod, ← Nat.add_assoc, Nat.add_mod, hg, ← Nat.add_mod]

end Grows

end Archive

end FailurePipeline
