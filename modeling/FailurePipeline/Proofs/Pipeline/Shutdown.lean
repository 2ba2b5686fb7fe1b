import FailurePipeline.Proofs.Pipeline.Drain

/-!
# A shutdown loses no batch

Whatever the order in which producers, the consumer and those who start and stop the service go on, batches are
dispatched in the order in which they were accepted, each at most once; and when the service has ended without a
panic, what was not dispatched was accepted after the last timed poll was over.
-/

namespace FailurePipeline

namespace World

variable {w₀ : World} {actions : List Action}

/-- A batch that was accepted when another one was not yet is dispatched before it. -/
theorem sublist_dispatched {w v : World} (hw : Sole w) (hgrows : v.queue.accepted <+: w.queue.accepted)
    {b b' : Batch} (hb : b ∈ v.queue.accepted) (hb' : b' ∈ w.dispatched) (hnot : b' ∉ v.queue.accepted) :
    [b, b'].Sublist w.dispatched := by
  rcases List.prefix_or_prefix_of_prefix hw.dispatched_prefix hgrows with h | h
  · exact absurd (h.subset hb') hnot
  · obtain ⟨rest, hrest⟩ := h
    rw [← hrest] at hb' ⊢
    have hmem : b' ∈ rest := (List.mem_append.1 hb').resolve_left hnot
    exact (List.singleton_sublist.2 hb).append (List.singleton_sublist.2 hmem)

/-- What a task has reported has been accepted. -/
theorem mem_acceptedIds_of_reported {jobs : List Job} {w : World} (hp : Provenance jobs w) {i id : Nat}
    {goesOn : Option Bool} (hi : w.tasks[i]? = some (.finished (.reported (some id) goesOn))) :
    id ∈ w.acceptedIds := by
  obtain ⟨j, -, hserves⟩ := hp.job hi
  cases j <;> simp only [Job.Serves] at hserves
  · obtain ⟨b, hb, hr, -⟩ := hserves
    cases hr
    exact List.mem_map_of_mem hb
  · rcases hserves with ⟨hr, -⟩ | ⟨b, hb, hr, -⟩
    · simp at hr
    · cases hr
      exact List.mem_map_of_mem hb
  all_goals simp at hserves

private theorem flow_after (hf : Fresh w₀) (ha : ∀ a ∈ actions, a.beginsReceiver = false)
    {first rest : List Action} (hsplit : actions = first ++ rest) : Flow (Action.jobs first) (w₀.run first) :=
  (Flow.fresh hf).run fun b hb => ha b (hsplit ▸ List.mem_append_left _ hb)

/-- The consumer of a service that was started and is terminated has gone. -/
theorem gone_of_terminated (hf : Fresh w₀) (hstart : (w₀.run actions).hasStarted = true)
    (hterm : (w₀.run actions).service.state = .terminated)
    (hended : (w₀.run actions).service.consumer ≠ some (.gone true)) :
    (w₀.run actions).service.consumer = some (.gone false) :=
  ((Lifecycle.fresh hf.service hf.tasks).run actions).gone_of_terminated hstart hterm hended

/-- A consumer that has gone without a panic has dispatched what was accepted until its last poll was over. -/
theorem dispatched_of_gone (hf : Fresh w₀) (ha : ∀ a ∈ actions, a.beginsReceiver = false)
    (hgone : (w₀.run actions).service.consumer = some (.gone false)) :
    ∃ pre a post, actions = pre ++ a :: post ∧ LastPoll w₀ pre a (w₀.run actions) ∧
      (w₀.run actions).dispatched = (w₀.run pre).queue.accepted := by
  obtain ⟨pre, a, post, hsplit, hlast⟩ := exists_lastPoll hf ha hgone rfl
  refine ⟨pre, a, post, hsplit, hlast, ?_⟩
  have horder := (flow_after hf ha hsplit).sole.order
  rw [hlast.empty, List.append_nil] at horder
  rw [← horder, dispatched, dispatched, hlast.last, hlast.expired]
  simp [ConsumerEvent.dispatched?]

/-- Nothing that was accepted before somebody began to stop the service came after the last poll. -/
private theorem accepted_before_lastPoll (hf : Fresh w₀) (ha : ∀ a ∈ actions, a.beginsReceiver = false)
    {pre post first rest : List Action} {a : Action} (hlast : LastPoll w₀ pre a (w₀.run actions))
    (hsplit : actions = pre ++ a :: post) (hfirst : actions = first ++ rest) (hstop : .stop ∉ Action.jobs first) :
    (w₀.run first).queue.accepted <+: (w₀.run pre).queue.accepted := by
  rcases List.append_eq_append_iff.1 (hfirst.symm.trans hsplit) with ⟨more, hmore, -⟩ | ⟨more, hmore, -⟩
  · rw [hmore, run_append]
    exact run_grows _ more
  · -- The poll would have come first, and polls with a time limit only come after a stop.
    obtain ⟨deadline, count, since, hexpecting, -⟩ := hlast.due
    have hflow := flow_after hf ha hsplit
    have htold := hflow.provenance.told (hflow.closes _ hexpecting rfl)
    refine absurd ?_ hstop
    rw [hmore, Action.jobs_append]
    exact List.mem_append_left _ htold

/-- What was accepted before somebody began to stop the service has been dispatched when the consumer has gone. -/
theorem dispatched_of_accepted_before_stop (hf : Fresh w₀) (ha : ∀ a ∈ actions, a.beginsReceiver = false)
    (hgone : (w₀.run actions).service.consumer = some (.gone false)) {first rest : List Action}
    (hfirst : actions = first ++ rest) (hstop : .stop ∉ Action.jobs first) :
    (w₀.run first).queue.accepted <+: (w₀.run actions).dispatched := by
  obtain ⟨pre, a, post, hsplit, hlast, hall⟩ := dispatched_of_gone hf ha hgone
  rw [hall]
  exact accepted_before_lastPoll hf ha hlast hsplit hfirst hstop

theorem nodup_dispatched {jobs : List Job} {w : World} (hw : Flow jobs w) : (w.dispatched.map (·.id)).Nodup :=
  (hw.sole.dispatched_prefix.map _).sublist.nodup hw.numbered.nodup

def badLine : Submission := .input ⟨.parse, ⟨"", "", ⟨0, 0⟩⟩, [], ""⟩

end World

end FailurePipeline
