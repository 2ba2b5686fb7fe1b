import FailurePipeline.Proofs.Pipeline.Acknowledgments
import FailurePipeline.Proofs.Pipeline.Owners
import FailurePipeline.Proofs.Pipeline.Shutdown
import Mathlib.Data.List.Nodup

/-!
# Every failed message has one owner

A report on a failed message answers whether the message goes on down the pipeline.  If it does, the service
never acknowledges it on account of this report; if it does not, the service acknowledges it once for each of
its errors, all in one call of the acknowledger, whatever the handlers and the acknowledger do.
-/

namespace FailurePipeline

namespace Submission

/-- The message that a report is about. -/
def message? : Submission → Option Message
  | .processing m _ | .unknown m _ => some m
  | .indexing _ | .input _ => none

variable {s : Submission} {c : HandlingConfig} {now : Instant} {fs : Failures}

private theorem flagged_processingFailures (c : HandlingConfig) (now : Instant) (m : Message)
    (errors : List ProcessingError) :
    (Failures.processing (processingFailures c now m errors)).flagged =
      if c.keepFailedMessageDuplicate then [] else List.replicate errors.length m := by
  induction errors with
  | nil => simp [processingFailures]
  | cons e es ih =>
    simp only [processingFailures, List.map_cons, Failures.flagged_processing_cons] at ih ⊢
    cases hk : c.keepFailedMessageDuplicate <;> simp_all [List.replicate_succ]

/-- A message that does not go on is flagged once for each error. -/
theorem flagged_of_kept (h : s.failures? c now = some fs) (hg : s.goesOn? c = some false) :
    ∃ m, s.message? = some m ∧ 1 ≤ s.errors.length ∧ fs.flagged = List.replicate s.errors.length m := by
  have hlength : s.errors.isEmpty = false → 1 ≤ s.errors.length := by
    intro he
    cases hs : s.errors with
    | nil => simp [hs] at he
    | cons e es => simp
  cases s with
  | indexing _ => simp [goesOn?] at hg
  | input _ => simp [goesOn?] at hg
  | processing m es =>
    simp only [goesOn?, Option.some.injEq, Bool.or_eq_false_iff] at hg
    simp only [failures?, hg.1, Bool.or_false, Bool.false_eq_true, if_false, Option.some.injEq] at h
    exact ⟨m, rfl, hlength hg.1.2, by rw [← h, flagged_processingFailures, hg.2]; rfl⟩
  | unknown m details =>
    simp only [goesOn?, Option.some.injEq, Bool.or_eq_false_iff] at hg
    simp only [failures?, hg.1, Bool.or_false, Bool.false_eq_true, if_false, Option.some.injEq] at h
    exact ⟨m, rfl, hlength hg.1.2, by rw [← h, flagged_processingFailures, hg.2]; rfl⟩

/-- Nothing is flagged by a report whose message goes on, or that is about no message. -/
theorem flagged_of_goesOn (h : s.failures? c now = some fs) (hg : s.goesOn? c ≠ some false) :
    fs.flagged = [] := by
  cases s with
  | indexing failures =>
    simp only [failures?] at h
    split at h
    · simp at h
    · simp [← Option.some.inj h, Failures.flagged]
  | input f =>
    simp only [failures?, Option.some.injEq] at h
    simp [← h, Failures.flagged]
  | processing m es =>
    simp only [failures?] at h
    split at h
    · simp at h
    · next hn =>
      have hkeep : c.keepFailedMessageDuplicate = true := by simpa [goesOn?, hn] using hg
      rw [← Option.some.inj h, flagged_processingFailures, hkeep]
      rfl
  | unknown m details =>
    simp only [failures?] at h
    split at h
    · simp at h
    · next hn =>
      have hkeep : c.keepFailedMessageDuplicate = true := by simpa [goesOn?, hn] using hg
      rw [← Option.some.inj h, flagged_processingFailures, hkeep]
      rfl

/-- A message that does not go on makes a batch. -/
theorem failures?_ne_none_of_kept (now : Instant) (hg : s.goesOn? c = some false) : s.failures? c now ≠ none := by
  cases s <;> simp only [goesOn?, Option.some.injEq, Bool.or_eq_false_iff, reduceCtorEq] at hg <;>
    simp [failures?, hg.1]

end Submission

/-- Whether a job reports failures, or starts, stops or awaits the service. -/
def Job.isCall : Job → Bool
  | .submit _ | .start | .stop | .awaitRunning | .awaitTerminated => true
  | .send _ | .read _ | .receive _ => false

/-- Of these jobs, only reports own batches. -/
theorem Job.eq_submit_of_owns {j : Job} {c : HandlingConfig} {accepted : List Batch} {p : TaskPhase} {id : Nat}
    (hj : j.isCall = true) (hp : j.Serves c accepted p) (ho : p.owns id = true) : ∃ s, j = .submit s := by
  cases j with
  | submit s => exact ⟨s, rfl⟩
  | send failures => simp [isCall] at hj
  | read i => simp [isCall] at hj
  | receive limit => simp [isCall] at hj
  | stop =>
    cases p <;> simp only [Serves] at hp <;> simp [TaskPhase.owns, hp] at ho
  | _ =>
    cases p <;> simp only [Serves] at hp <;> try simp [TaskPhase.owns] at ho
    obtain ⟨e, rfl⟩ := hp
    simp at ho

namespace Dispatch

/-- Batches that acknowledge something do so under their own numbers. -/
theorem map_fst_acknowledgmentsOf (bs : List Batch) :
    (bs.flatMap acknowledgmentsOf).map (·.1) = (bs.filter (!·.flagged.isEmpty)).map (·.id) := by
  induction bs with
  | nil => rfl
  | cons b bs ih =>
    cases hf : b.flagged.isEmpty <;> simp [acknowledgmentsOf, hf, ih]

theorem mem_flatMap_acknowledgmentsOf {bs : List Batch} {ack : Nat × List Message}
    (h : ack ∈ bs.flatMap acknowledgmentsOf) : ∃ b ∈ bs, b.flagged ≠ [] ∧ ack = (b.id, b.flagged) := by
  obtain ⟨b, hb, hack⟩ := List.mem_flatMap.1 h
  unfold acknowledgmentsOf at hack
  split at hack
  · simp at hack
  · next hf => exact ⟨b, hb, by simpa using hf, by simpa using hack⟩

end Dispatch

namespace World

variable {w₀ : World} {before after : List Action}

/-- Failures are reported and nothing else is sent, and each report is over before somebody begins to stop the
service. -/
structure Reporting (w₀ : World) (before after : List Action) : Prop where
  calls : ∀ j ∈ Action.jobs (before ++ after), j.isCall = true
  unstopped : .stop ∉ Action.jobs before
  ended : ∀ (i : Nat) s, (Action.jobs before)[i]? = some (.submit s) →
    ∃ r, (w₀.run before).tasks[i]? = some (.finished r)
  late : ∀ s, .submit s ∉ Action.jobs after

namespace Reporting

theorem beginsReceiver (hr : Reporting w₀ before after) : ∀ a ∈ before ++ after, a.beginsReceiver = false := by
  intro a ha
  cases a with
  | spawn j =>
    have hcall := hr.calls j (List.mem_filterMap.2 ⟨_, ha, rfl⟩)
    cases j <;> first | rfl | simp [Job.isCall] at hcall
  | _ => rfl

theorem isRead (hr : Reporting w₀ before after) : ∀ j ∈ Action.jobs (before ++ after), j.isRead = false := by
  intro j hj
  have hcall := hr.calls j hj
  cases j <;> first | rfl | simp [Job.isCall] at hcall

theorem jobs_before {i : Nat} {j : Job} (h : (Action.jobs before)[i]? = some j) :
    (Action.jobs (before ++ after))[i]? = some j := by
  rw [Action.jobs_append]
  exact (List.getElem?_append_left (List.getElem?_eq_some_iff.1 h).1).trans h

/-- Every report is made before somebody begins to stop the service. -/
theorem before_of_submit (hr : Reporting w₀ before after) {i : Nat} {s : Submission}
    (h : (Action.jobs (before ++ after))[i]? = some (.submit s)) : (Action.jobs before)[i]? = some (.submit s) := by
  rw [Action.jobs_append] at h
  by_cases hlt : i < (Action.jobs before).length
  · rwa [List.getElem?_append_left hlt] at h
  · rw [List.getElem?_append_right (Nat.le_of_not_lt hlt)] at h
    exact absurd (List.mem_of_getElem? h) (hr.late s)

end Reporting

/-- What a report has come to: no batch, or one that is accepted. -/
def Reported (w : World) (s : Submission) (i : Nat) : Prop :=
  (w.tasks[i]? = some (.finished (.reported none (s.goesOn? w.config))) ∧
      ∃ now, s.failures? w.config now = none) ∨
    ∃ b ∈ w.queue.accepted, w.tasks[i]? = some (.finished (.reported (some b.id) (s.goesOn? w.config))) ∧
      ∃ now, s.failures? w.config now = some b.failures

theorem Provenance.reported {jobs : List Job} {w : World} (hp : Provenance jobs w) {i : Nat} {s : Submission}
    {r : TaskResult} (hj : jobs[i]? = some (.submit s)) (hi : w.tasks[i]? = some (.finished r)) :
    w.Reported s i := by
  rcases hp.serves i _ _ hj hi with ⟨rfl, hnone⟩ | ⟨b, hb, rfl, hsome⟩
  · exact .inl ⟨hi, hnone⟩
  · exact .inr ⟨b, hb, hi, hsome⟩

namespace Reporting

theorem flow (hr : Reporting w₀ before after) (hf : Fresh w₀) :
    Flow (Action.jobs (before ++ after)) (w₀.run (before ++ after)) :=
  (Flow.fresh hf).run hr.beginsReceiver

theorem owners (hr : Reporting w₀ before after) (hf : Fresh w₀) : Owners (w₀.run (before ++ after)) := by
  obtain ⟨capacity, hq⟩ := hf.queue
  exact (Owners.fresh hq hf.tasks).run (.fresh hf.service hf.tasks) hr.isRead

/-- The reports are over before the service is stopped, and what they have come to stays. -/
theorem reported (hr : Reporting w₀ before after) (hf : Fresh w₀) {i : Nat} {s : Submission}
    (hj : (Action.jobs before)[i]? = some (.submit s)) :
    (w₀.run before).Reported s i ∧ (w₀.run (before ++ after)).Reported s i := by
  obtain ⟨r, hi⟩ := hr.ended i s hj
  have hnow := (Provenance.fresh hf.service hf.tasks).run before
  have hthen := (hr.flow hf).provenance
  rw [run_append] at hthen
  exact ⟨hnow.reported hj hi, run_append w₀ before after ▸ hthen.reported (jobs_before hj) (run_finished hi after)⟩

/-- An accepted batch comes from a report. -/
theorem report_of_accepted (hr : Reporting w₀ before after) (hf : Fresh w₀) {b : Batch}
    (hb : b ∈ (w₀.run (before ++ after)).queue.accepted) :
    ∃ (i : Nat) (s : Submission), (Action.jobs before)[i]? = some (.submit s) ∧
      (w₀.run (before ++ after)).tasks[i]? =
        some (.finished (.reported (some b.id) (s.goesOn? (w₀.run (before ++ after)).config))) ∧
      ∃ now, s.failures? (w₀.run (before ++ after)).config now = some b.failures := by
  have hflow := hr.flow hf
  obtain ⟨i, p, hi, hs⟩ := (hr.owners hf).taken b hb
  obtain ⟨j, hj, hserves⟩ := hflow.provenance.job hi
  have hcall := hr.calls j (List.mem_of_getElem? hj)
  have howns : p.owns b.id = true := by
    simp only [TaskPhase.hasSent, Bool.and_eq_true] at hs
    exact hs.1
  obtain ⟨s, rfl⟩ := Job.eq_submit_of_owns hcall hserves howns
  have hbefore := hr.before_of_submit hj
  refine ⟨i, s, hbefore, ?_⟩
  rcases (hr.reported hf hbefore).2 with ⟨hnone, -⟩ | ⟨b', hb', hsome, hfailures⟩
  · obtain rfl := Option.some.inj (hi.symm.trans hnone)
    simp [TaskPhase.owns] at howns
  · obtain rfl := Option.some.inj (hi.symm.trans hsome)
    have hid : b'.id = b.id := by simpa [TaskPhase.owns] using howns
    obtain rfl : b' = b := List.inj_on_of_nodup_map hflow.numbered.nodup hb' hb hid
    exact ⟨hsome, hfailures⟩

/-- A report whose message does not go on has made a batch, which was accepted before the service was stopped. -/
theorem batch_of_kept (hr : Reporting w₀ before after) (hf : Fresh w₀) {l id : Nat}
    (hl : (w₀.run (before ++ after)).tasks[l]? = some (.finished (.reported (some id) (some false)))) :
    ∃ b ∈ (w₀.run before).queue.accepted, b.id = id ∧ b.flagged.isEmpty = false := by
  obtain ⟨j, hj, hserves⟩ := (hr.flow hf).provenance.job hl
  have hcall := hr.calls j (List.mem_of_getElem? hj)
  have howns : (TaskPhase.finished (.reported (some id) (some false))).owns id = true := by simp [TaskPhase.owns]
  obtain ⟨s, rfl⟩ := Job.eq_submit_of_owns hcall hserves howns
  rcases (hr.reported hf (hr.before_of_submit hj)).1 with ⟨hi, -⟩ | ⟨b, hb, hi, now, hsome⟩
  all_goals
    have hi' := run_finished hi after
    rw [← run_append, hl] at hi'
  · simp at hi'
  · simp only [Option.some.injEq, TaskPhase.finished.injEq, TaskResult.reported.injEq] at hi'
    obtain ⟨m, -, hone, hflagged⟩ := Submission.flagged_of_kept hsome hi'.2.symm
    refine ⟨b, hb, hi'.1.symm, ?_⟩
    rw [Batch.flagged, hflagged]
    cases hlen : s.errors.length with
    | zero => omega
    | succ n => rfl

/-- A number that a task has got accepted belongs to no task that begins later. -/
theorem not_accepted_of_begins_later (hr : Reporting w₀ before after) (hf : Fresh w₀) {first rest : List Action}
    (hsplit : before = first ++ rest) {k : Nat} {p : TaskPhase} (hlater : (Action.jobs first).length ≤ k)
    (hk : (w₀.run (before ++ after)).tasks[k]? = some p) {b : Batch} (hb : p.owns b.id = true) :
    b ∉ (w₀.run first).queue.accepted := by
  intro hmem
  obtain ⟨capacity, hq⟩ := hf.queue
  have hruns : before ++ after = first ++ (rest ++ after) := by rw [hsplit, List.append_assoc]
  have hread := hruns ▸ hr.isRead
  rw [Action.jobs_append] at hread
  have hfirst := (Provenance.fresh hf.service hf.tasks).run first
  have howners := (Owners.fresh hq hf.tasks).run (.fresh hf.service hf.tasks)
    fun j hj => hread j (List.mem_append_left _ hj)
  obtain ⟨i, q, hi, hs⟩ := howners.taken b hmem
  obtain ⟨q', hi', hs'⟩ := run_hasSent hfirst (by simpa using hread) hi hs
  rw [← run_append, ← hruns] at hi'
  have howns : q'.owns b.id = true := by
    simp only [TaskPhase.hasSent, Bool.and_eq_true] at hs'
    exact hs'.1
  have hlt : i < (Action.jobs first).length := by
    have := (List.getElem?_eq_some_iff.1 hi).1
    rwa [hfirst.length] at this
  have := (hr.owners hf).eq_of_owns hi' hk howns hb
  omega

end Reporting

/-- How reports and calls of the acknowledger belong together, which are told by the numbers of their batches. -/
structure Settled (c : HandlingConfig) (jobs : List Job) (acks : List (Nat × List Message)) (w : World) : Prop where
  nodup : (acks.map (·.1)).Nodup
  inOrder : (acks.map (·.1)).Sublist w.acceptedIds
  own : ∀ (i k id : Nat) g g', w.tasks[i]? = some (.finished (.reported (some id) g)) →
    w.tasks[k]? = some (.finished (.reported (some id) g')) → i = k
  answered : ∀ (i : Nat) s, jobs[i]? = some (.submit s) → ∃ batch,
    w.tasks[i]? = some (.finished (.reported batch (s.goesOn? c))) ∧
      (s.goesOn? c = some false → ∃ id m, batch = some id ∧ s.message? = some m ∧ 1 ≤ s.errors.length ∧
        (id, List.replicate s.errors.length m) ∈ acks) ∧
      (s.goesOn? c ≠ some false → ∀ id, batch = some id → id ∉ acks.map (·.1))
  caused : ∀ ack ∈ acks, ∃ (i : Nat) (s : Submission) (m : Message), jobs[i]? = some (.submit s) ∧
    s.goesOn? c = some false ∧ w.tasks[i]? = some (.finished (.reported (some ack.1) (some false))) ∧
    s.message? = some m ∧ ack.2 = List.replicate s.errors.length m

namespace Reporting

/-- A report is answered as its policy says, and its batch acknowledges the message or nothing. -/
private theorem answered (hr : Reporting w₀ before after) (hf : Fresh w₀)
    (hall : (w₀.run before).queue.accepted <+: (w₀.run (before ++ after)).dispatched) {i : Nat} {s : Submission}
    (hj : (Action.jobs before)[i]? = some (.submit s)) : ∃ batch,
    (w₀.run (before ++ after)).tasks[i]? = some (.finished (.reported batch (s.goesOn? w₀.config))) ∧
      (s.goesOn? w₀.config = some false → ∃ id m, batch = some id ∧ s.message? = some m ∧ 1 ≤ s.errors.length ∧
        (id, List.replicate s.errors.length m) ∈
          (w₀.run (before ++ after)).dispatched.flatMap Dispatch.acknowledgmentsOf) ∧
      (s.goesOn? w₀.config ≠ some false → ∀ id, batch = some id →
        id ∉ ((w₀.run (before ++ after)).dispatched.flatMap Dispatch.acknowledgmentsOf).map (·.1)) := by
  have hflow := hr.flow hf
  -- Either the report has made no batch, or its batch was accepted before the stop and has been dispatched.
  rcases (hr.reported hf hj).1 with ⟨hi, now, hnone⟩ | ⟨b, hb, hi, now, hsome⟩
  all_goals
    have hi' := run_finished hi after
    rw [← run_append, run_config] at hi'
  · rw [run_config] at hnone
    refine ⟨none, hi', fun hg => ?_, fun _ id hid => by simp at hid⟩
    exact absurd hnone (Submission.failures?_ne_none_of_kept now hg)
  · rw [run_config] at hsome
    have hdispatched := hall.subset hb
    refine ⟨some b.id, hi', fun hg => ?_, fun hg id hid hmem => ?_⟩
    · obtain ⟨m, hm, hone, hflagged⟩ := Submission.flagged_of_kept hsome hg
      refine ⟨b.id, m, rfl, hm, hone, List.mem_flatMap.2 ⟨b, hdispatched, ?_⟩⟩
      have hb' : b.flagged = List.replicate s.errors.length m := hflagged
      simp [Dispatch.acknowledgmentsOf, hb', Nat.ne_of_gt hone]
    · obtain rfl := Option.some.inj hid
      obtain ⟨ack, hack, hfst⟩ := List.mem_map.1 hmem
      obtain ⟨b', hb', hne, rfl⟩ := Dispatch.mem_flatMap_acknowledgmentsOf hack
      obtain rfl : b' = b := List.inj_on_of_nodup_map (nodup_dispatched hflow) hb' hdispatched hfst
      exact hne (Submission.flagged_of_goesOn hsome hg)

/-- A call of the acknowledger stems from a report whose message does not go on. -/
private theorem caused (hr : Reporting w₀ before after) (hf : Fresh w₀) {ack : Nat × List Message}
    (hack : ack ∈ (w₀.run (before ++ after)).dispatched.flatMap Dispatch.acknowledgmentsOf) :
    ∃ (i : Nat) (s : Submission) (m : Message), (Action.jobs before)[i]? = some (.submit s) ∧
      s.goesOn? w₀.config = some false ∧
      (w₀.run (before ++ after)).tasks[i]? = some (.finished (.reported (some ack.1) (some false))) ∧
      s.message? = some m ∧ ack.2 = List.replicate s.errors.length m := by
  obtain ⟨b, hb, hne, rfl⟩ := Dispatch.mem_flatMap_acknowledgmentsOf hack
  obtain ⟨i, s, hj, hi, now, hsome⟩ :=
    hr.report_of_accepted hf ((hr.flow hf).sole.dispatched_prefix.subset hb)
  rw [run_config] at hi hsome
  have hg : s.goesOn? w₀.config = some false := by
    by_cases hg : s.goesOn? w₀.config = some false
    · exact hg
    · exact absurd (Submission.flagged_of_goesOn hsome hg) hne
  obtain ⟨m, hm, -, hflagged⟩ := Submission.flagged_of_kept hsome hg
  exact ⟨i, s, m, hj, hg, hg ▸ hi, hm, hflagged⟩

/-- When everything accepted before the stop has been dispatched, all reports are settled. -/
theorem settled (hr : Reporting w₀ before after) (hf : Fresh w₀)
    (hall : (w₀.run before).queue.accepted <+: (w₀.run (before ++ after)).dispatched) :
    Settled w₀.config (Action.jobs before)
      ((w₀.run (before ++ after)).dispatched.flatMap Dispatch.acknowledgmentsOf) (w₀.run (before ++ after)) where
  nodup := by
    rw [Dispatch.map_fst_acknowledgmentsOf]
    exact (List.filter_sublist.map _).nodup (nodup_dispatched (hr.flow hf))
  inOrder := by
    rw [Dispatch.map_fst_acknowledgmentsOf]
    exact (List.filter_sublist.trans (hr.flow hf).sole.dispatched_prefix.sublist).map _
  own i k id g g' hi hk := by
    have hown : ∀ g, (TaskPhase.finished (.reported (some id) g)).owns id = true := by simp [TaskPhase.owns]
    exact (hr.owners hf).eq_of_owns hi hk (hown g) (hown g')
  answered _ _ hj := hr.answered hf hall hj
  caused _ hack := hr.caused hf hack

/-- Two acknowledgments come in the order of their reports. -/
theorem acknowledges_in_order (hr : Reporting w₀ before after) (hf : Fresh w₀)
    (hall : (w₀.run before).queue.accepted <+: (w₀.run (before ++ after)).dispatched)
    {first rest : List Action} (hsplit : before = first ++ rest) {i k id id' : Nat}
    (hi : (w₀.run first).tasks[i]? = some (.finished (.reported (some id) (some false))))
    (hlater : (Action.jobs first).length ≤ k)
    (hk : (w₀.run (before ++ after)).tasks[k]? = some (.finished (.reported (some id') (some false)))) :
    [id, id'].Sublist (((w₀.run (before ++ after)).dispatched.flatMap Dispatch.acknowledgmentsOf).map (·.1)) := by
  have hflow := hr.flow hf
  have hruns : before ++ after = first ++ (rest ++ after) := by rw [hsplit, List.append_assoc]
  have hi' := run_finished hi (rest ++ after)
  rw [← run_append, ← hruns] at hi'
  obtain ⟨b, hb, rfl, hne⟩ := hr.batch_of_kept hf hi'
  obtain ⟨b', hb', rfl, hne'⟩ := hr.batch_of_kept hf hk
  have hfirst := mem_acceptedIds_of_reported ((Provenance.fresh hf.service hf.tasks).run first) hi
  have howns : (TaskPhase.finished (.reported (some b'.id) (some false))).owns b'.id = true := by
    simp [TaskPhase.owns]
  have hlast := hr.not_accepted_of_begins_later hf hsplit hlater hk howns
  have hgrows : (w₀.run first).queue.accepted <+: (w₀.run (before ++ after)).queue.accepted := by
    rw [hruns, run_append]
    exact run_grows _ _
  obtain ⟨b₁, hb₁, hid⟩ := List.mem_map.1 hfirst
  have hsame : b₁ = b := List.inj_on_of_nodup_map hflow.numbered.nodup (hgrows.subset hb₁)
    (hflow.sole.dispatched_prefix.subset (hall.subset hb)) hid
  -- The first batch was accepted when the second report had not even begun.
  have hpair := sublist_dispatched hflow.sole hgrows (hsame ▸ hb₁) (hall.subset hb') hlast
  rw [Dispatch.map_fst_acknowledgmentsOf]
  simpa [hne, hne'] using (hpair.filter (!·.flagged.isEmpty)).map (·.id)

end Reporting

/-- Every failed message has one owner.  When a service that was started is terminated without a panic, a report
on a message has answered that the message goes on just if failures of processing are not submitted, there are no
errors, or duplicates are kept; and then no call of the acknowledger stems from it.  Otherwise one call does, with
the message once for each error.  No call stems from anything else, and the calls come in the order of the
reports. -/
theorem every_message_has_one_owner (hf : Fresh w₀) (hr : Reporting w₀ before after)
    (hstart : (w₀.run (before ++ after)).hasStarted = true)
    (hterm : (w₀.run (before ++ after)).service.state = .terminated)
    (hended : (w₀.run (before ++ after)).service.consumer ≠ some (.gone true)) :
    let w := w₀.run (before ++ after)
    ∃ acks, w.acknowledged = w₀.acknowledged ++ acks ∧ Settled w₀.config (Action.jobs before) acks w ∧
      (∀ first rest, before = first ++ rest → ∀ (i k id id' : Nat),
        (w₀.run first).tasks[i]? = some (.finished (.reported (some id) (some false))) →
        (Action.jobs first).length ≤ k →
        w.tasks[k]? = some (.finished (.reported (some id') (some false))) → [id, id'].Sublist (acks.map (·.1))) ∧
      ∀ s : Submission,
        (s.message? ≠ none → s.goesOn? w₀.config =
          some (!w₀.config.submitProcessingFailures || s.errors.isEmpty || w₀.config.keepFailedMessageDuplicate)) ∧
        (s.message? = none → s.goesOn? w₀.config = none) := by
  intro w
  have hgone := gone_of_terminated hf hstart hterm hended
  have hall := dispatched_of_accepted_before_stop hf hr.beginsReceiver hgone rfl hr.unstopped
  have hacks := ((Acknowledges.fresh hf.service).run (.fresh hf.service hf.tasks) (before ++ after)).of_gone hgone
  refine ⟨_, hacks, hr.settled hf hall, fun first rest hsplit i k id id' hi hlater hk => ?_, fun s => ?_⟩
  · exact hr.acknowledges_in_order hf hall hsplit hi hlater hk
  · cases s <;> simp [Submission.message?, Submission.goesOn?]

/-- Failures of processing are submitted and no duplicates are kept; the acknowledger always fails. -/
def strictPipeline : World where
  config := { shutdownAwait := 0, submitProcessingFailures := true, keepFailedMessageDuplicate := false }
  queue := { capacity := 8, free := 8 }
  workplace := { registry := { fallback := .log }, acknowledger := { outcome := fun _ => .error "unavailable" } }

def fourReports : List Submission :=
  [.processing ⟨"a"⟩ [⟨.extractor, "", ""⟩, ⟨.unknown, "", ""⟩], .processing ⟨"b"⟩ [], badLine, .unknown ⟨"c"⟩ ""]

/-- The service is started, and four producers take turns to report. -/
def reportAll : List Action :=
  List.flatten
    [[.spawn .start, .task 0, .task 0], fourReports.map (.spawn <| .submit ·),
      List.flatten (List.replicate 4 [.task 1, .task 2, .task 3, .task 4])]

/-- The service is stopped, and the consumer goes on until it is gone. -/
def stopAndDrain : List Action :=
  List.flatten [[.spawn .stop, .task 5, .task 5], List.flatten (List.replicate 40 [.consumer, .call 0])]

/-- Of four reports, the first and the last have their messages acknowledged, the first one twice in one call. -/
theorem every_message_has_one_owner_in_strictPipeline :
    Fresh strictPipeline ∧ Reporting strictPipeline reportAll stopAndDrain ∧
      (strictPipeline.run (reportAll ++ stopAndDrain)).service.state = .terminated ∧
      (strictPipeline.run (reportAll ++ stopAndDrain)).acknowledged = [(1, [⟨"a"⟩, ⟨"a"⟩]), (3, [⟨"c"⟩])] ∧
      Settled strictPipeline.config (Action.jobs reportAll) [(1, [⟨"a"⟩, ⟨"a"⟩]), (3, [⟨"c"⟩])]
        (strictPipeline.run (reportAll ++ stopAndDrain)) := by
  have hf : Fresh strictPipeline := ⟨⟨8, rfl⟩, rfl, rfl, rfl⟩
  have hbefore : Action.jobs reportAll = .start :: fourReports.map .submit := rfl
  have hafter : Action.jobs stopAndDrain = [.stop] := rfl
  have hfinished : ((strictPipeline.run reportAll).tasks.all fun | .finished _ => true | _ => false) = true := by
    decide +kernel
  have hr : Reporting strictPipeline reportAll stopAndDrain := by
    refine ⟨?_, ?_, fun i s hi => ?_, fun s => ?_⟩
    · rw [Action.jobs_append, hbefore, hafter]
      simp [fourReports, Job.isCall]
    · rw [hbefore]
      simp
    · have hp := (Provenance.fresh hf.service hf.tasks).run reportAll
      have hlt : i < (strictPipeline.run reportAll).tasks.length := by
        rw [hp.length]
        exact (List.getElem?_eq_some_iff.1 hi).1
      have hover := List.all_eq_true.1 hfinished _ (List.getElem_mem hlt)
      rw [List.getElem?_eq_getElem hlt]
      split at hover
      · next r hp => exact ⟨r, by rw [hp]⟩
      · simp at hover
    · rw [hafter]
      simp
  have hstart : (strictPipeline.run (reportAll ++ stopAndDrain)).hasStarted = true := by decide +kernel
  have hterm : (strictPipeline.run (reportAll ++ stopAndDrain)).service.state = .terminated := by decide +kernel
  have hended : (strictPipeline.run (reportAll ++ stopAndDrain)).service.consumer ≠ some (.gone true) := by
    decide +kernel
  have hacks : (strictPipeline.run (reportAll ++ stopAndDrain)).acknowledged =
      [(1, [⟨"a"⟩, ⟨"a"⟩]), (3, [⟨"c"⟩])] := by decide +kernel
  obtain ⟨acks, hall, hsettled, -⟩ := every_message_has_one_owner hf hr hstart hterm hended
  have hsame : acks = [(1, [⟨"a"⟩, ⟨"a"⟩]), (3, [⟨"c"⟩])] := by
    rw [hacks] at hall
    exact hall.symm
  exact ⟨hf, hr, hterm, hacks, hsame ▸ hsettled⟩

end World

end FailurePipeline
