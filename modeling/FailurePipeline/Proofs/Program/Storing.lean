import FailurePipeline.Proofs.DeadLetter.ObjectName
import FailurePipeline.Proofs.Dispatch.Keeping
import FailurePipeline.Proofs.Pipeline.Panics
import FailurePipeline.Proofs.Program.Reading
import FailurePipeline.Proofs.Storage.Objects

/-!
# Every dispatched batch is in the store

Where one handler keeps all batches, the batches that have been dispatched are in the store, one object for each
and in their order, but for the one whose handler is still at work (`World.Storing`), as long as no put fails.
Nothing makes the consumer panic then (`World.Storing.run`).
-/

namespace FailurePipeline

namespace Sink

/-- An object of a batch, put at some time. -/
def IsObject (b : Batch) (o : ObjectPath × Bytes) : Prop :=
  (∃ s, o.1 = objectPath s b) ∧ o.2 = DeadLetter.octets b

/-- The stores hold one object for each batch, put one after the other, and nothing else has been put. -/
def Stored (k : Sink) (d₀ : Depot) (batches : List Batch) (d : Depot) : Prop :=
  ∃ objects, k.provider.putAll d₀ objects = .ok d ∧ List.Forall₂ IsObject batches objects

/-- One more batch is put. -/
theorem Stored.concat {k : Sink} {d₀ d d' : Depot} {batches : List Batch} (h : k.Stored d₀ batches d)
    {s : Surroundings} {b : Batch} (hb : k.store s d b = .ok d') : k.Stored d₀ (batches ++ [b]) d' := by
  obtain ⟨objects, hput, hall⟩ := h
  have hlast : List.Forall₂ IsObject [b] [(objectPath s b, DeadLetter.octets b)] := .cons ⟨⟨s, rfl⟩, rfl⟩ .nil
  refine ⟨objects ++ [(objectPath s b, DeadLetter.octets b)], ?_, List.rel_append hall hlast⟩
  rw [Provider.putAll_concat hput]
  unfold store at hb
  split at hb
  · next depot hoffer =>
    cases hb
    exact Provider.put_of_offer hoffer
  · simp at hb

variable {batches : List Batch} {objects : List (ObjectPath × Bytes)}

theorem exists_isObject (h : List.Forall₂ IsObject batches objects) {o : ObjectPath × Bytes} (ho : o ∈ objects) :
    ∃ b, IsObject b o := by
  induction h with
  | nil => simp at ho
  | cons hfirst _ ih =>
    rcases List.mem_cons.1 ho with rfl | ho
    · exact ⟨_, hfirst⟩
    · exact ih ho

/-- Batches with different numbers have objects under different paths. -/
theorem nodup_of_isObject (hids : (batches.map (·.id)).Nodup) (h : List.Forall₂ IsObject batches objects) :
    (objects.map (·.1)).Nodup := by
  obtain ⟨hlen, hkept⟩ := List.forall₂_iff_get.1 h
  refine List.pairwise_iff_getElem.2 fun i j hi hj hij hsame => ?_
  rw [List.length_map] at hi hj
  obtain ⟨⟨s, hs⟩, -⟩ := hkept i (hlen ▸ hi) hi
  obtain ⟨⟨s', hs'⟩, -⟩ := hkept j (hlen ▸ hj) hj
  simp only [List.get_eq_getElem, List.getElem_map] at hs hs' hsame
  have hid := id_eq_of_objectPath_eq (hs.symm.trans (hsame.trans hs'))
  have hne := List.pairwise_iff_getElem.1 hids i j (by rw [List.length_map, hlen]; exact hi)
    (by rw [List.length_map, hlen]; exact hj) hij
  simp only [List.getElem_map] at hne
  exact hne hid

end Sink

/-- The batch under way, as long as no handler has dealt with it. -/
def ConsumerPhase.unkept : ConsumerPhase → List Batch
  | .dispatching d _ => d.unkept
  | _ => []

namespace World

variable {w w' : World} {seat : Seat} {k : Sink} {d₀ : Depot}

def unkept (w : World) : List Batch := (w.service.consumer.map (·.unkept)).getD []

/-- The store takes what a step puts into it, which is the batch under way if it is dealt with in the step. -/
def Takes (provider : Provider) (w w' : World) : Prop :=
  ∀ b ∈ w.unkept, b ∉ w'.unkept → ∃ depot,
    provider.offer w.surroundings.refusal w.workplace.depot (Sink.objectPath w.surroundings b)
      (DeadLetter.octets b) = .ok depot

/-- All batches are dispatched to the handler at one place, and are in the store when it has dealt with them, as
long as no put has failed. -/
structure Storing (seat : Seat) (k : Sink) (d₀ : Depot) (w : World) : Prop where
  guards : w.workplace.registry.Guards seat k
  calls : ∀ d mode, w.service.consumer = some (.dispatching d mode) → d.CallsOnly seat ∧ d.batch ∈ w.dispatched
  stored : w.workplace.stats.handlerErrors = 0 →
    ∃ done, done ++ w.unkept = w.dispatched ∧ k.Stored d₀ done w.workplace.depot

namespace Storing

private theorem unkept_of_isFree {p : ConsumerPhase} (hp : w.service.consumer = some p) (hfree : p.IsFree) :
    w.unkept = [] := by
  cases p with
  | dispatching d mode =>
    have hd : d.phase = .finished := hfree
    simp [unkept, hp, ConsumerPhase.unkept, Dispatch.unkept, hd]
  | _ => simp [unkept, hp, ConsumerPhase.unkept]

/-- Where no batch is dispatched before or after a step, the stores are left alone. -/
private theorem of_quiet (hs : Storing seat k d₀ w) (hsame : w'.unkept = w.unkept)
    (hno : ∀ d mode, w'.service.consumer ≠ some (.dispatching d mode)) (hplace : w.OnlyMeasures w')
    (hd : w'.dispatched = w.dispatched) : Storing seat k d₀ w' := by
  obtain ⟨recorder, hplace⟩ := hplace
  refine ⟨hplace ▸ hs.guards, fun d mode h => absurd h (hno d mode), ?_⟩
  rw [hsame, hd, hplace]
  exact hs.stored

/-- The consumer begins to dispatch a batch. -/
private theorem of_dispatch (hs : Storing seat k d₀ w) (hbefore : w.unkept = []) {b : Batch} {mode : ConsumerMode}
    (hp' : w'.service.consumer = some (.dispatching { batch := b } mode)) (hplace : w.OnlyMeasures w')
    (hd : w'.dispatched = w.dispatched ++ [b]) : Storing seat k d₀ w' := by
  obtain ⟨recorder, hplace⟩ := hplace
  refine ⟨hplace ▸ hs.guards, fun d mode' h => ?_, fun hzero => ?_⟩
  · cases hp'.symm.trans h
    rw [hd]
    exact ⟨trivial, List.mem_append_right _ List.mem_cons_self⟩
  · rw [hplace] at hzero ⊢
    obtain ⟨done, hdone, hstored⟩ := hs.stored hzero
    have hafter : w'.unkept = [b] := by rw [unkept, hp']; rfl
    refine ⟨done, ?_, hstored⟩
    rw [hafter, hd, ← hdone, hbefore, List.append_nil]

private theorem of_goesOn (hs : Storing seat k d₀ w) {d : Dispatch} {mode : ConsumerMode}
    (hp : w.service.consumer = some (.dispatching d mode)) (hb : d.batch.isEmpty = false)
    (hk : k.supports d.batch.type = true)
    (hp' : w'.service.consumer = some (.dispatching (d.step w.surroundings w.workplace).2 mode))
    (hplace : w'.workplace = (d.step w.surroundings w.workplace).1) (hd : w'.dispatched = w.dispatched) :
    Storing seat k d₀ w' := by
  obtain ⟨hcalls, hmem⟩ := hs.calls d mode hp
  obtain ⟨hr, hdepot, he, hcalls', hun⟩ := Dispatch.step_keeps (s := w.surroundings) hs.guards hb hk hcalls
  refine ⟨hplace ▸ hr ▸ hs.guards, fun d' mode' h => ?_, fun hzero => ?_⟩
  · cases hp'.symm.trans h
    rw [hd]
    exact ⟨hcalls', (d.step_batch w.surroundings w.workplace) ▸ hmem⟩
  · rw [hplace] at hzero ⊢
    obtain ⟨done, hdone, hstored⟩ := hs.stored (he ▸ hzero)
    have hsame : w'.unkept = w.unkept := by
      rw [unkept, unkept, hp, hp']
      exact hun
    refine ⟨done, ?_, hdepot ▸ hstored⟩
    rw [hsame, hd, hdone]

private theorem of_calls (hs : Storing seat k d₀ w) {i : Nat} {d : Dispatch} {mode : ConsumerMode}
    (hp : w.service.consumer = some (.dispatching d mode))
    (hp' : w'.service.consumer = some (.dispatching (d.stepCall w.surroundings w.workplace i).2 mode))
    (hplace : w'.workplace = (d.stepCall w.surroundings w.workplace i).1) (hd : w'.dispatched = w.dispatched) :
    Storing seat k d₀ w' := by
  obtain ⟨hcalls, hmem⟩ := hs.calls d mode hp
  obtain ⟨hr, hcalls', hbatch, hcase⟩ := Dispatch.stepCall_keeps (s := w.surroundings) hs.guards hcalls i
  refine ⟨hplace ▸ hr, fun d' mode' h => ?_, fun hzero => ?_⟩
  · cases hp'.symm.trans h
    rw [hd]
    exact ⟨hcalls', hbatch ▸ hmem⟩
  · have hbefore : w.unkept = d.unkept := by rw [unkept, hp]; rfl
    have hafter : w'.unkept = (d.stepCall w.surroundings w.workplace i).2.unkept := by rw [unkept, hp']; rfl
    rw [hplace] at hzero ⊢
    rw [hafter, hd]
    cases hcase with
    | leave hun hdepot he =>
      obtain ⟨done, hdone, hstored⟩ := hs.stored (he ▸ hzero)
      refine ⟨done, ?_, hdepot ▸ hstored⟩
      rw [hun, ← hbefore, hdone]
    | put hun hun' hput he =>
      obtain ⟨done, hdone, hstored⟩ := hs.stored (he ▸ hzero)
      refine ⟨done ++ [d.batch], ?_, hstored.concat hput⟩
      rw [hun', List.append_nil, ← hun, ← hbefore, hdone]
    | fail e hun hun' hput he => omega

theorem of_dispatchStep (hs : Storing seat k d₀ w)
    (hgood : ∀ b ∈ w.dispatched, b.isEmpty = false ∧ k.supports b.type = true) (hcalm : w'.hasCrashed = false)
    (h : w.DispatchStep w') : Storing seat k d₀ w' := by
  cases h with
  | apart hc hplace hd =>
    rcases hc with hc | ⟨hnone, hc⟩
    · obtain ⟨recorder, hplace⟩ := hplace
      refine ⟨hplace ▸ hs.guards, hd ▸ hc ▸ hs.calls, ?_⟩
      rw [unkept, hc, hd, hplace]
      exact hs.stored
    · refine hs.of_quiet ?_ (by simp [hc]) hplace hd
      simp [unkept, hnone, hc, ConsumerPhase.unkept]
  | rest p p' hp hfree hp' hfree' hno hplace hd =>
    have hsame : w'.unkept = w.unkept := by rw [unkept_of_isFree hp hfree, unkept_of_isFree hp' hfree']
    exact hs.of_quiet hsame (ne_dispatching hp' hno) hplace hd
  | begins p b mode hp hfree hp' hplace hd => exact hs.of_dispatch (unkept_of_isFree hp hfree) hp' hplace hd
  | goesOn d mode hp hp' hplace hd =>
    obtain ⟨hb, hk⟩ := hgood d.batch (hs.calls d mode hp).2
    exact hs.of_goesOn hp hb hk hp' hplace hd
  | calls i d mode hp hp' hplace hd => exact hs.of_calls hp hp' hplace hd
  | panics hp' hplace hd =>
    rcases hp' with hp' | hp' <;> simp [hasCrashed, hp', ConsumerPhase.hasCrashed] at hcalm

/-- No step counts an error of a handler where the store takes what it puts. -/
theorem step_handlerErrors (hs : Storing seat k d₀ w) (hl : Lifecycle w)
    (hgood : ∀ b ∈ w.dispatched, b.isEmpty = false ∧ k.supports b.type = true) {a : Action}
    (htakes : Takes k.provider w (w.step a)) :
    (w.step a).workplace.stats.handlerErrors = w.workplace.stats.handlerErrors := by
  have hsame : w.OnlyMeasures (w.step a) →
      (w.step a).workplace.stats.handlerErrors = w.workplace.stats.handlerErrors := by
    rintro ⟨recorder, hplace⟩
    rw [hplace]
  cases dispatchStep hl a with
  | apart _ hplace => exact hsame hplace
  | rest _ _ _ _ _ _ _ hplace => exact hsame hplace
  | begins _ _ _ _ _ _ hplace => exact hsame hplace
  | panics _ hplace => exact hsame hplace
  | goesOn d mode hp hp' hplace =>
    obtain ⟨hcalls, hmem⟩ := hs.calls d mode hp
    obtain ⟨hb, hk⟩ := hgood d.batch hmem
    rw [hplace]
    exact (Dispatch.step_keeps hs.guards hb hk hcalls).2.2.1
  | calls i d mode hp hp' hplace =>
    have hcalls := (hs.calls d mode hp).1
    rw [hplace]
    cases (Dispatch.stepCall_keeps (s := w.surroundings) hs.guards hcalls i).2.2.2 with
    | leave hun hd he => exact he
    | put hun hun' hput he => exact he
    | fail e hun hun' hput he =>
      have hbefore : w.unkept = [d.batch] := by
        rw [unkept, hp]
        exact hun
      have hafter : (w.step a).unkept = [] := by
        rw [unkept, hp']
        exact hun'
      obtain ⟨depot, hok⟩ := htakes d.batch (by simp [hbefore]) (by simp [hafter])
      rw [Sink.store, hok] at hput
      simp at hput

end Storing

/-! ### The run -/

theorem Storing.fresh (hf : Fresh w) (hg : w.workplace.registry.Guards seat k) :
    Storing seat k w.workplace.depot w := by
  refine ⟨hg, fun d mode h => ?_, fun _ => ⟨[], ?_, [], rfl, .nil⟩⟩
  · simp [hf.service] at h
  · simp [unkept, dispatched, hf.service]

/-- In an orderly run nothing panics, and all batches go to the handler, which supports them. -/
theorem Storing.run {w₀ : World} {agenda : List Job} {actions : List Action} (h : Orderly w₀ agenda actions)
    (hf : Fresh w₀) (hg : w₀.workplace.registry.Guards seat k) (hag : ∀ limit, .receive limit ∉ agenda)
    (hgood : ∀ first, Orderly w₀ agenda first → ∀ b ∈ (w₀.run first).queue.accepted,
      b.isEmpty = false ∧ k.supports b.type = true) :
    (w₀.run actions).hasCrashed = false ∧ Storing seat k w₀.workplace.depot (w₀.run actions) := by
  refine h.induction (P := fun v => v.hasCrashed = false ∧ Storing seat k w₀.workplace.depot v)
    ⟨by simp [hasCrashed, hf.service], .fresh hf hg⟩ ?_
  rintro actions a ha ⟨hcrash, hs⟩
  have hflow := (Flow.fresh hf).run (ha.left.beginsReceiver hag)
  have hbatch : ∀ b ∈ (w₀.run actions).dispatched, b.isEmpty = false ∧ k.supports b.type = true :=
    fun b hb => hgood actions ha.left b (hflow.sole.dispatched_prefix.subset hb)
  have hnot : a ≠ .crash := by
    rintro rfl
    rcases ha.inner .crash (List.mem_append_right _ List.mem_cons_self) with hin | ⟨j, hj⟩
    · simp [Action.isInner] at hin
    · simp at hj
  -- A panic from within could only come from a dispatch, and the only handler that is called does not panic.
  have hcrash' : ((w₀.run actions).step a).hasCrashed = false := by
    refine step_hasCrashed (by rw [hflow.sole.source]; rfl) (fun d mode p hd hp => ?_) hcrash hnot
    have hcalls := (hs.calls d mode hd).1
    simp [Dispatch.CallsOnly, hp] at hcalls
  exact ⟨hcrash', hs.of_dispatchStep hbatch hcrash' (dispatchStep hflow.lifecycle a)⟩

end World

end FailurePipeline
