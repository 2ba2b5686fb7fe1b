import FailurePipeline.Proofs.Pipeline.Numbers
import FailurePipeline.Proofs.Pipeline.Patience
import FailurePipeline.Proofs.Pipeline.Permits

/-!
# Nobody overtakes in the line of the senders

A sender comes to the line at its end and leaves it with its batch in the queue, or without; nothing else changes the
order.  So as long as a sender waits, nobody gets in front of it (`keeps_turn`), and a batch that was given up is
never heard of again (`forgotten`).
-/

namespace FailurePipeline

namespace World

variable {w : World}

/-- Somebody is in the line of the senders, with nobody in front that is not among these. -/
def Behind (w : World) (front : List Agent) (a : Agent) : Prop :=
  ∃ front' back, w.queue.senders = front' ++ a :: back ∧ front'.Sublist front

variable {front : List Agent} {a : Agent}

/-- As long as somebody stays in line, nobody comes in front. -/
theorem Behind.step (hp : Permits w) (h : Behind w front a) (action : Action)
    (hstay : a ∈ (w.step action).queue.senders) : Behind (w.step action) front a := by
  obtain ⟨front', back, hline, hsub⟩ := h
  rcases (w.step_queue action).senders hp.balanced with hsame | ⟨c, hmore | hless⟩
  · exact ⟨front', back, hsame.trans hline, hsub⟩
  · exact ⟨front', back ++ [c], by rw [hmore, hline, List.append_assoc, List.cons_append], hsub⟩
  · have hne : a ≠ c := by
      rintro rfl
      rw [hless] at hstay
      exact hp.nodup.not_mem_erase hstay
    by_cases hfront : c ∈ front'
    · refine ⟨front'.erase c, back, ?_, List.erase_sublist.trans hsub⟩
      rw [hless, hline, List.erase_append_left _ hfront]
    · refine ⟨front', back.erase c, ?_, hsub⟩
      rw [hless, hline, List.erase_append_right _ hfront, List.erase_cons_tail (by simpa using hne)]

/-! ### A turn from its beginning to its end -/

variable {i : Nat} {b : Batch} {after : AfterSend}

/-- A sending that waits for its turn, or may take it, goes on waiting, gets its batch accepted, or is given up. -/
theorem step_turn (hi : w.tasks[i]? = some (.sending .queued b after)) (a : Action) :
    (w.step a).tasks[i]? = some (.sending .queued b after) ∨ b.id ∈ (w.step a).acceptedIds ∨
      (w.step a).tasks[i]? = some .abandoned := by
  have hlt := (List.getElem?_eq_some_iff.1 hi).1
  refine step_cases (P := fun v => v.tasks[i]? = some (.sending .queued b after) ∨ b.id ∈ v.acceptedIds ∨
    v.tasks[i]? = some .abandoned) w a (fun j _ => .inl ?_) (fun k v _ h => ?_) (fun v _ h => .inl ?_)
    fun _ _ _ _ => .inl hi
  · rw [(w.spawn_frame j).2.2.2.2.2.2, List.getElem?_append_left hlt, hi]
  · obtain rfl | hne := eq_or_ne k i
    · have hown : ∀ {p}, w.tasks[k]? = some p → p.isQueued = false → False := by
        intro p hp hno
        obtain rfl : .sending .queued b after = p := Option.some.inj (hi.symm.trans hp)
        simp [TaskPhase.isQueued] at hno
      cases h with
      | idle => exact .inl hi
      | push b' after' h hg =>
        cases Option.some.inj (hi.symm.trans h)
        exact .inr (.inl (by simp [setTask, acceptedIds]))
      | abandonQueued => exact .inr (.inr (List.getElem?_set_self hlt))
      | _ => exact (hown (by assumption) rfl).elim
    · rcases h.tasks with rfl | ⟨q, q', -, -, ht⟩
      · exact .inl hi
      · exact .inl (by rw [ht, List.getElem?_set_ne hne, hi])
  · rw [h.frame.1, hi]

/-- A sending is in line with nobody in front but these, or its turn is over. -/
inductive Turn (w : World) (front : List Agent) (i : Nat) (b : Batch) : Prop
  | waits (after : AfterSend) (h : w.tasks[i]? = some (.sending .queued b after)) (hb : Behind w front (.task i))
  | accepted (h : b.id ∈ w.acceptedIds)
  | abandoned (h : w.tasks[i]? = some .abandoned)

theorem acceptedIds_step {id : Nat} (h : id ∈ w.acceptedIds) (a : Action) : id ∈ (w.step a).acceptedIds :=
  ((w.step_grows a).map (·.id)).subset h

theorem Turn.step (hp : Permits w) (h : Turn w front i b) (a : Action) : Turn (w.step a) front i b := by
  cases h with
  | waits after h hb =>
    rcases step_turn h a with hstays | haccepted | habandoned
    · have hin : .task i ∈ (w.step a).queue.senders := by
        rw [(hp.step a).senders, isSender_task hstays]
        rfl
      exact .waits after hstays (hb.step hp a hin)
    · exact .accepted haccepted
    · exact .abandoned habandoned
  | accepted h => exact .accepted (acceptedIds_step h a)
  | abandoned h => exact .abandoned (step_over h rfl a)

theorem Turn.run (hp : Permits w) (h : Turn w front i b) (actions : List Action) :
    Turn (w.run actions) front i b := by
  induction actions generalizing w with
  | nil => exact h
  | cons a as ih => exact ih (hp.step a) (h.step hp a)

/-- As long as a batch is not in the queue, nobody comes in front of its sending. -/
theorem keeps_turn (hp : Permits w) (hn : Numbered w) (hi : w.tasks[i]? = some (.sending .queued b after))
    (hb : Behind w front (.task i)) {later : List Action} {after' : AfterSend}
    (hi' : (w.run later).tasks[i]? = some (.sending .queued b after')) : Behind (w.run later) front (.task i) := by
  cases (Turn.waits after hi hb).run hp later with
  | waits after h hb => exact hb
  | accepted h =>
    have hcarries : (TaskPhase.sending .queued b after').carries b.id = true := beq_self_eq_true b.id
    exact absurd h ((hn.run later).of_carries hi' hcarries).2.1
  | abandoned h => simp [hi'] at h

/-- Whoever comes to hold a permit has not overtaken anybody. -/
theorem granted_in_turn (hp : Permits w) (hn : Numbered w) (hi : w.tasks[i]? = some (.sending .queued b after))
    {c : Agent} (hline : [.task i, c].Sublist w.queue.senders) {later : List Action} {after' : AfterSend}
    (hi' : (w.run later).tasks[i]? = some (.sending .queued b after')) (hc : c ∈ (w.run later).queue.granted) :
    .task i ∈ (w.run later).queue.granted := by
  obtain ⟨start, rest, hsenders, hin, hrest⟩ := List.cons_sublist_iff.1 hline
  obtain ⟨front, between, rfl⟩ := List.append_of_mem hin
  rw [List.append_assoc, List.cons_append] at hsenders
  have hbehind : c ∉ front := by
    intro hfront
    have hnodup := hp.nodup
    rw [hsenders, List.nodup_append] at hnodup
    have hback : c ∈ .task i :: (between ++ rest) :=
      List.mem_cons_of_mem _ (List.mem_append_right _ (List.singleton_sublist.1 hrest))
    exact hnodup.2.2 c hfront c hback rfl
  obtain ⟨front', back, hline', hsub⟩ := keeps_turn hp hn hi ⟨front, _, hsenders, .refl _⟩ hi'
  rcases List.append_eq_append_iff.1 hline' with ⟨more, rfl, -⟩ | ⟨more, hgranted, hmore⟩
  · exact absurd (hsub.subset (List.mem_append_left _ hc)) hbehind
  · cases more with
    | nil =>
      rw [hgranted, List.append_nil] at hc
      exact absurd (hsub.subset hc) hbehind
    | cons a more =>
      obtain ⟨rfl, -⟩ := List.cons.inj hmore
      simp [hgranted]

/-! ### Sendings that are given up -/

/-- A task whose batch is not in the queue goes out of the line, if it is there. -/
theorem step_abandon (hp : Permits w) {p : SendPhase} (hi : w.tasks[i]? = some (.sending p b after))
    (hr : p ≠ .recording) :
    w.step (.abandon i) = { w with queue := w.queue.withdraw (.task i) }.setTask i .abandoned := by
  cases p with
  | asking =>
    have hout : .task i ∉ w.queue.senders := by
      rw [hp.senders, isSender_task hi]
      exact Bool.false_ne_true
    rw [Queue.withdraw_of_not_mem hout]
    simp [step, abandonTask, hi]
  | queued => simp [step, abandonTask, hi]
  | recording => exact absurd rfl hr

/-- The batch of a sending that is given up before it is in the queue is nowhere any more. -/
private theorem shares_abandon (hp : Permits w) (hn : Numbered w) {p : SendPhase}
    (hi : w.tasks[i]? = some (.sending p b after)) (hr : p ≠ .recording) :
    b.id < w.nextId ∧ (w.step (.abandon i)).shares b.id = 0 := by
  have hcarries := TaskPhase.carries_sending hr b after
  obtain ⟨hgiven, hpending, hone⟩ := hn.of_carries hi hcarries
  have hset := countP_set_add_toNat hi .abandoned (·.carries b.id)
  rw [hone, hcarries] at hset
  have hnone : (w.tasks.set i .abandoned).countP (·.carries b.id) = 0 := Nat.succ.inj hset
  refine ⟨hgiven, ?_⟩
  rw [step_abandon hp hi hr]
  simp only [shares, acceptedIds, setTask, Queue.withdraw_accepted, hnone]
  exact List.count_eq_zero.2 hpending

/-- What is left of a sending when it is given up, and ever after. -/
structure Forgotten (w : World) (i : Nat) (b : Batch) : Prop where
  /-- No batch comes into the queue or goes out of it. -/
  batches : (w.step (.abandon i)).queue.buffer = w.queue.buffer ∧
    (w.step (.abandon i)).queue.accepted = w.queue.accepted ∧
    (w.step (.abandon i)).queue.delivered = w.queue.delivered
  /-- The others in line stay as they are. -/
  line : (w.step (.abandon i)).queue.senders = w.queue.senders.erase (.task i)
  /-- The batch is never accepted, and nobody holds a permit for it or waits for one. -/
  never : ∀ later, b.id ∉ ((w.step (.abandon i)).run later).acceptedIds ∧
    .task i ∉ ((w.step (.abandon i)).run later).queue.senders

theorem forgotten (hp : Permits w) (hn : Numbered w) {p : SendPhase}
    (hi : w.tasks[i]? = some (.sending p b after)) (hr : p ≠ .recording) : Forgotten w i b := by
  have hstep := step_abandon hp hi hr
  obtain ⟨hgiven, hnone⟩ := shares_abandon hp hn hi hr
  have hover : (w.step (.abandon i)).tasks[i]? = some .abandoned := by
    rw [hstep]
    exact List.getElem?_set_self (List.getElem?_eq_some_iff.1 hi).1
  refine ⟨?_, ?_, fun later => ⟨?_, ?_⟩⟩
  · simp [hstep, setTask]
  · rw [hstep]
    exact Queue.senders_withdraw ..
  · have hzero := shares_run (hstep ▸ hgiven) hnone later
    exact List.count_eq_zero.1 (Nat.eq_zero_of_add_eq_zero_right hzero)
  · rw [((hp.step (.abandon i)).run later).senders, isSender_task (run_over hover rfl later)]
    exact Bool.false_ne_true

end World

end FailurePipeline
