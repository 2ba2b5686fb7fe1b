import FailurePipeline.Proofs.Dispatch.Effects
import FailurePipeline.Proofs.Dispatch.Moves
import FailurePipeline.Proofs.Dispatch.Routing
import FailurePipeline.Proofs.Lists

/-!
# The run of a dispatch

A dispatch goes on by turns: a call of a handler goes one step on, or the dispatch itself does.  Every sequence
of turns is a run, so that a statement on all runs covers every order in which the calls begin and end.
`Dispatch.verdicts` tells how the calls of a run ended.

`Underway` is what a run preserves, phase by phase (`Underway.turn`): which calls have begun and ended, that
nothing is acknowledged before all have ended, and what has been counted.
-/

namespace FailurePipeline

namespace Dispatch

inductive Turn where
  /-- A step of the call at a place. -/
  | call (index : Nat) (s : Surroundings)
  /-- A step other than that of a call. -/
  | own (s : Surroundings)

/-- The place of a handler, and how its call ended. -/
abbrev Verdict := Seat × Outcome HandlerError

def turn (p : Workplace × Dispatch) : Turn → Workplace × Dispatch
  | .call i s => p.2.stepCall s p.1 i
  | .own s => p.2.step s p.1

def run (p : Workplace × Dispatch) (turns : List Turn) : Workplace × Dispatch := turns.foldl turn p

/-- How a call ends, if it ends with this turn. -/
def verdict? (p : Workplace × Dispatch) : Turn → Option Verdict
  | .own _ => none
  | .call i s =>
    match p.2.phase with
    | .calling calls =>
      match calls[i]? with
      | some ⟨seat, .running began call⟩ =>
        if (⟨seat, .running began call⟩ : Call).canStep s p.1 then
          some (seat, p.1.outcome s seat call p.2.batch)
        else none
      | _ => none
    | _ => none

/-- How the calls end that end in a run. -/
def verdicts : (p : Workplace × Dispatch) → List Turn → List Verdict
  | _, [] => []
  | p, t :: ts => (verdict? p t).toList ++ verdicts (turn p t) ts

end Dispatch

/-- How the next call of a handler is bound to end.  Of a handler that keeps batches it is not known. -/
def Handler.bound? (h : Handler) : Option (Outcome HandlerError) :=
  match h.work with
  | .scripted _ outcome => some (outcome h.calls)
  | .log => some .ok
  | .deadLetter _ => none

namespace Dispatch

/-! ### Lists of calls -/

private theorem map_seat_set {calls : List Call} {i : Nat} {c : Call} (hi : calls[i]? = some c)
    (phase : CallPhase) : (calls.set i { c with phase := phase }).map (·.seat) = calls.map (·.seat) := by
  obtain ⟨hlt, rfl⟩ := List.getElem?_eq_some_iff.1 hi
  have hlt' : i < (calls.map (·.seat)).length := by simpa using hlt
  rw [List.map_set]
  simpa using List.set_getElem_self hlt'

private theorem eq_of_seat_eq {calls : List Call} (hn : (calls.map (·.seat)).Nodup) {i j : Nat} {c c' : Call}
    (hi : calls[i]? = some c) (hj : calls[j]? = some c') (h : c.seat = c'.seat) : i = j := by
  have hi' : (calls.map (·.seat))[i]? = some c.seat := by simp [hi]
  have hj' : (calls.map (·.seat))[j]? = some c.seat := by simp [hj, h]
  have hlt := (List.getElem?_eq_some_iff.1 hi').1
  exact (List.getElem?_inj hlt hn).1 (hi'.trans hj'.symm)

/-! ### What holds while handlers are called -/

/-- A call that has not begun finds its handler as it was, and one under way has the number of its first call.
-/
structure Fits (w₀ w : Workplace) (c : Call) : Prop where
  handlers : ∃ h₀ h, w₀.registry.get? c.seat = some h₀ ∧ w.registry.get? c.seat = some h ∧ SameWork h₀.work h.work ∧
    match c.phase with
    | .ready => h.calls = h₀.calls
    | .running _ call => call = h₀.calls
    | .ended => True

def hasBegun (c : Call) : Bool := c.phase != .ready

def hasEnded (c : Call) : Bool := c.phase == .ended

/-- What has happened since the workplace was `w₀`: the notes and verdicts, and the calls as they are. -/
structure Calling (w₀ w : Workplace) (b : Batch) (notes : List Note) (vs : List Verdict)
    (calls : List Call) : Prop where
  seats : ∀ s, (calls.map (·.seat)).count s = if w₀.registry.claims b s then 1 else 0
  fits : ∀ (i : Nat) (c : Call), calls[i]? = some c → Fits w₀ w c
  journal : w.journal = w₀.journal ++ notes
  began : ∀ s id, notes.count (.began s id) =
    calls.countP fun c => id == b.id && c.seat == s && hasBegun c
  ended : ∀ s id, notes.count (.ended s id) =
    calls.countP fun c => id == b.id && c.seat == s && hasEnded c
  quiet : Note.acknowledgments notes = []
  verdicts : ∀ s, (vs.map (·.1)).count s = calls.countP fun c => c.seat == s && hasEnded c
  bound : ∀ v ∈ vs, ∀ h, w₀.registry.get? v.1 = some h → ∀ o, h.bound? = some o → v.2 = o
  stats : w.stats =
    { w₀.stats with handlerErrors := w₀.stats.handlerErrors + vs.countP (!·.2.isOk) }
  acknowledger : w.acknowledger = w₀.acknowledger

theorem Calling.nodup {w₀ w : Workplace} {b : Batch} {notes : List Note} {vs : List Verdict}
    {calls : List Call} (h : Calling w₀ w b notes vs calls) : (calls.map (·.seat)).Nodup := by
  rw [List.nodup_iff_count]
  intro s
  rw [h.seats s]
  split <;> omega

/-! ### A call begins -/

private theorem began_beq (s s' : Seat) (id id' : Nat) :
    (Note.began s id == Note.began s' id') = (id' == id && s == s') := by
  rw [Bool.eq_iff_iff]
  simp only [beq_iff_eq, Note.began.injEq, Bool.and_eq_true]
  constructor <;> rintro ⟨rfl, rfl⟩ <;> exact ⟨rfl, rfl⟩

private theorem ended_beq (s s' : Seat) (id id' : Nat) :
    (Note.ended s id == Note.ended s' id') = (id' == id && s == s') := by
  rw [Bool.eq_iff_iff]
  simp only [beq_iff_eq, Note.ended.injEq, Bool.and_eq_true]
  constructor <;> rintro ⟨rfl, rfl⟩ <;> exact ⟨rfl, rfl⟩

private theorem hasBegun_ready (s : Seat) : hasBegun ⟨s, .ready⟩ = false := rfl

private theorem hasBegun_running (s : Seat) (t n : Nat) : hasBegun ⟨s, .running t n⟩ = true := rfl

private theorem hasBegun_ended (s : Seat) : hasBegun ⟨s, .ended⟩ = true := rfl

private theorem hasEnded_ready (s : Seat) : hasEnded ⟨s, .ready⟩ = false := rfl

private theorem hasEnded_running (s : Seat) (t n : Nat) : hasEnded ⟨s, .running t n⟩ = false := rfl

private theorem hasEnded_ended (s : Seat) : hasEnded ⟨s, .ended⟩ = true := rfl

private theorem Fits.frame {w₀ w w' : Workplace} {c : Call} (h : Fits w₀ w c)
    (hr : w'.registry.get? c.seat = w.registry.get? c.seat) : Fits w₀ w' c := by
  obtain ⟨h₀, k, e₀, e, hw, hp⟩ := h
  exact ⟨h₀, k, e₀, by rw [hr, e], hw, hp⟩

/-- One call goes on, which concerns no handler but its own. -/
private theorem Calling.fits_set {w₀ w w' : Workplace} {b : Batch} {notes : List Note} {vs : List Verdict}
    {calls : List Call} (hc : Calling w₀ w b notes vs calls) {i : Nat} {c : Call} (hi : calls[i]? = some c)
    {phase : CallPhase} (hself : Fits w₀ w' { c with phase := phase })
    (hframe : ∀ s, s ≠ c.seat → w'.registry.get? s = w.registry.get? s) (j : Nat) (c' : Call)
    (hj : (calls.set i { c with phase := phase })[j]? = some c') : Fits w₀ w' c' := by
  rw [List.getElem?_set] at hj
  split at hj
  · split at hj
    · cases hj
      exact hself
    · simp at hj
  · next hij => exact (hc.fits j c' hj).frame (hframe _ fun hseat => hij (eq_of_seat_eq hc.nodup hi hj hseat.symm))

theorem Calling.begin {w₀ w : Workplace} {b : Batch} {notes : List Note} {vs : List Verdict}
    {calls : List Call} (hc : Calling w₀ w b notes vs calls) {i : Nat} {seat : Seat}
    (hi : calls[i]? = some ⟨seat, .ready⟩) (s : Surroundings) :
    ∃ notes', Calling w₀ (w.beginCall seat b).1 b notes' vs
      (calls.set i ⟨seat, .running s.now (w.beginCall seat b).2⟩) := by
  obtain ⟨h₀, h, e₀, e, hwork, hcalls⟩ := hc.fits i _ hi
  simp only [Workplace.beginCall_eq e]
  have hadd := countP_set_add hi ⟨seat, .running s.now h.calls⟩
  have hopen := Workplace.count_of_remarks fun n (hn : n ∈ Workplace.openingNotes h b) =>
    Workplace.isRemark_of_mem_openingNotes hn
  refine ⟨notes ++ .began seat b.id :: Workplace.openingNotes h b, ?seats, hc.fits_set hi ?fits fun s' hne => ?frame,
    ?journal, fun s' id => ?began, fun s' id => ?ended, ?quiet, fun s' => ?verdicts, hc.bound, hc.stats,
    hc.acknowledger⟩
  case seats =>
    rw [map_seat_set hi]
    exact hc.seats
  case fits => exact ⟨h₀, { h with calls := h.calls + 1 }, e₀, by simp [Registry.get?_set e], hwork, hcalls⟩
  case frame => simp [Registry.get?_set e, hne]
  case journal => simp [hc.journal]
  case began =>
    -- The new note is the one of the call that has begun now.
    have hcount := hadd fun c => id == b.id && c.seat == s' && hasBegun c
    simp only [hasBegun_ready, hasBegun_running, Bool.and_false, Bool.and_true] at hcount
    rw [List.count_append, List.count_cons, began_beq, hopen s' id |>.1, hc.began]
    simp only [Bool.false_eq_true, if_false] at hcount
    omega
  case ended =>
    have hcount := hadd fun c => id == b.id && c.seat == s' && hasEnded c
    simp only [hasEnded_ready, hasEnded_running, Bool.and_false] at hcount
    rw [List.count_append, List.count_cons, hopen s' id |>.2.1, hc.ended]
    simp only [reduceCtorEq, beq_iff_eq, Bool.false_eq_true, if_false] at hcount ⊢
    omega
  case quiet =>
    rw [Note.acknowledgments_append, hc.quiet]
    exact (hopen seat b.id).2.2
  case verdicts =>
    have hcount := hadd fun c => c.seat == s' && hasEnded c
    simp only [hasEnded_ready, hasEnded_running, Bool.and_false] at hcount
    rw [hc.verdicts]
    simp only [Bool.false_eq_true, if_false] at hcount
    omega

/-! ### A call ends -/

/-- A handler that does not keep batches ends its call as it was bound to. -/
private theorem outcome_eq_of_bound {w : Workplace} {s : Surroundings} {b : Batch} {seat : Seat} {call : Nat}
    {h₀ h : Handler} (hwork : SameWork h₀.work h.work) (hcall : call = h₀.calls)
    (e : w.registry.get? seat = some h) {o : Outcome HandlerError} (ho : h₀.bound? = some o) :
    w.outcome s seat call b = o := by
  cases hwork with
  | keeps k₀ k e₀ _ => simp [Handler.bound?, e₀] at ho
  | same e' =>
    cases hw : h₀.work with
    | scripted delay f =>
      rw [w.outcome_of_scripted s seat call b e (e'.trans hw), hcall]
      simpa [Handler.bound?, hw] using ho
    | log =>
      rw [w.outcome_of_log s seat call b e (e'.trans hw)]
      simpa [Handler.bound?, hw] using ho
    | deadLetter k => simp [Handler.bound?, hw] at ho

theorem Calling.finish {w₀ w : Workplace} {b : Batch} {notes : List Note} {vs : List Verdict}
    {calls : List Call} (hc : Calling w₀ w b notes vs calls) {i : Nat} {seat : Seat} {began call : Nat}
    (hi : calls[i]? = some ⟨seat, .running began call⟩) (s : Surroundings) :
    ∃ notes', Calling w₀ (w.endCall s seat began call b) b notes'
      (vs ++ [(seat, w.outcome s seat call b)]) (calls.set i ⟨seat, .ended⟩) := by
  obtain ⟨h₀, h, e₀, e, hwork, hcall⟩ := hc.fits i _ hi
  obtain ⟨name, hjournal⟩ := w.endCall_journal s seat call began b
  obtain ⟨work, hwork', hget⟩ := w.perform_registry s seat call b e
  have hadd := countP_set_add hi ⟨seat, .ended⟩
  have hremark := Workplace.count_of_remarks fun n
      (hn : n ∈ Workplace.complaint b name (w.outcome s seat call b)) =>
    Workplace.isRemark_of_mem_complaint hn
  -- Of all calls one is set, so that each count changes by what this one adds or takes.
  refine ⟨notes ++ .ended seat b.id :: Workplace.complaint b name (w.outcome s seat call b), ?seats,
    hc.fits_set hi ?fits fun s' hne => ?frame, ?journal, fun s' id => ?began, fun s' id => ?ended, ?quiet,
    fun s' => ?verdicts, fun v hv k hk o ho => ?bound, ?stats, ?acknowledger⟩
  case seats =>
    rw [map_seat_set hi]
    exact hc.seats
  case fits =>
    refine ⟨h₀, { h with work := work }, e₀, ?_, hwork.trans hwork', trivial⟩
    rw [Workplace.endCall_registry, hget]
    simp
  case frame =>
    rw [Workplace.endCall_registry, hget]
    simp [hne]
  case journal => rw [hjournal, hc.journal, List.append_assoc]
  case began =>
    have hcount := hadd fun c => id == b.id && c.seat == s' && hasBegun c
    simp only [hasBegun_ended, hasBegun_running, Bool.and_true] at hcount
    rw [List.count_append, List.count_cons, (hremark s' id).1, hc.began]
    simp only [reduceCtorEq, beq_iff_eq, if_false]
    omega
  case ended =>
    have hcount := hadd fun c => id == b.id && c.seat == s' && hasEnded c
    simp only [hasEnded_ended, hasEnded_running, Bool.and_false, Bool.and_true] at hcount
    rw [List.count_append, List.count_cons, ended_beq, (hremark s' id).2.1, hc.ended]
    simp only [Bool.false_eq_true, if_false] at hcount
    omega
  case quiet =>
    rw [Note.acknowledgments_append, hc.quiet]
    exact (hremark seat b.id).2.2
  case verdicts =>
    have hcount := hadd fun c => c.seat == s' && hasEnded c
    simp only [hasEnded_ended, hasEnded_running, Bool.and_false, Bool.and_true] at hcount
    rw [List.map_append, List.count_append, hc.verdicts]
    simp only [List.map_cons, List.map_nil, List.count_singleton, Bool.false_eq_true, if_false] at hcount ⊢
    omega
  case bound =>
    rcases List.mem_append.1 hv with hv | hv
    · exact hc.bound v hv k hk o ho
    · obtain rfl := List.mem_singleton.1 hv
      obtain rfl : k = h₀ := by simpa [hk] using e₀
      exact outcome_eq_of_bound hwork hcall e ho
  case stats =>
    have hlast : (w.outcome s seat call b).faults = [(seat, w.outcome s seat call b)].countP (!·.2.isOk) := by
      cases w.outcome s seat call b <;> rfl
    rw [Workplace.endCall_stats, hc.stats, List.countP_append, hlast]
    simp only [Nat.add_assoc]
  case acknowledger => rw [Workplace.endCall_acknowledger, hc.acknowledger]

/-! ### Phase by phase -/

/-- What the calls have left behind: each handler that claims the batch was called once, and nothing was
acknowledged before all calls had ended. -/
structure Called (w₀ w : Workplace) (b : Batch) (vs : List Verdict) (calls rest : List Note) : Prop where
  journal : w.journal = w₀.journal ++ calls ++ rest
  began : ∀ s id, calls.count (.began s id) = if id == b.id && w₀.registry.claims b s then 1 else 0
  ended : ∀ s id, calls.count (.ended s id) = if id == b.id && w₀.registry.claims b s then 1 else 0
  quiet : Note.acknowledgments calls = []
  verdicts : ∀ s, (vs.map (·.1)).count s = if w₀.registry.claims b s then 1 else 0
  bound : ∀ v ∈ vs, ∀ h, w₀.registry.get? v.1 = some h → ∀ o, h.bound? = some o → v.2 = o

/-- The counters once all calls have ended. -/
def calledStats (w₀ : Workplace) (b : Batch) (vs : List Verdict) : DispatchStats :=
  { w₀.stats with
      dropped := w₀.stats.dropped + if w₀.registry.isClaimed b then 0 else 1
      handlerErrors := w₀.stats.handlerErrors + vs.countP (!·.2.isOk) }

/-- How the acknowledger is bound to end its next call. -/
def acknowledgeOutcome (w₀ : Workplace) : Outcome String := w₀.acknowledger.outcome w₀.acknowledger.calls

/-- The counters once the flagged messages have been dealt with. -/
def acknowledgedStats (w₀ : Workplace) (b : Batch) (vs : List Verdict) : DispatchStats :=
  if b.flagged.isEmpty then calledStats w₀ b vs
  else if (acknowledgeOutcome w₀).isOk then
    { calledStats w₀ b vs with acknowledged := w₀.stats.acknowledged + b.flagged.length }
  else { calledStats w₀ b vs with acknowledgeErrors := w₀.stats.acknowledgeErrors + 1 }

/-- The calls of the acknowledger that a batch causes. -/
def acknowledgmentsOf (b : Batch) : List (Nat × List Message) :=
  if b.flagged.isEmpty then [] else [(b.id, b.flagged)]

/-- What holds in each phase of the dispatch of a batch that began when the workplace was `w₀`. -/
def Underway (w₀ : Workplace) (b : Batch) (w : Workplace) (vs : List Verdict) : DispatchPhase → Prop
  | .routing => w = w₀ ∧ vs = []
  | .calling calls => w₀.registry.isClaimed b ∧ ∃ notes, Calling w₀ w b notes vs calls
  | .acknowledging =>
    (∃ calls, Called w₀ w b vs calls []) ∧ w.stats = calledStats w₀ b vs ∧ w.acknowledger = w₀.acknowledger
  | .awaiting _ call =>
    (∃ calls, Called w₀ w b vs calls [.acknowledging b.id b.flagged]) ∧ b.flagged.isEmpty = false ∧
      w.stats = calledStats w₀ b vs ∧ w.acknowledger.outcome call = acknowledgeOutcome w₀
  | .counting =>
    ∃ calls rest, Called w₀ w b vs calls rest ∧ Note.acknowledgments rest = acknowledgmentsOf b ∧
      (∀ s id, .began s id ∉ rest ∧ .ended s id ∉ rest) ∧ w.stats = acknowledgedStats w₀ b vs
  | .finished =>
    ∃ calls rest, Called w₀ w b vs calls rest ∧ Note.acknowledgments rest = acknowledgmentsOf b ∧
      (∀ s id, .began s id ∉ rest ∧ .ended s id ∉ rest) ∧
      w.stats = { acknowledgedStats w₀ b vs with processed := w₀.stats.processed + 1 }
  | .crashed _ => False

variable {w₀ w : Workplace} {b : Batch} {vs : List Verdict}

/-- The calls of a route all begin as they should. -/
private theorem Calling.of_seats {seats : List Seat}
    (hc : ∀ s, seats.count s = if w₀.registry.claims b s then 1 else 0) :
    Calling w₀ w₀ b [] [] (seats.map ({ seat := · })) := by
  have hready : ∀ c ∈ seats.map (fun s => ({ seat := s } : Call)), hasBegun c = false ∧ hasEnded c = false := by
    intro c hmem
    obtain ⟨s, -, rfl⟩ := List.mem_map.1 hmem
    exact ⟨rfl, rfl⟩
  constructor
  · intro s
    rw [List.map_map]
    exact (congrArg (List.count s) (List.map_id seats)).trans (hc s)
  · intro i c hi
    obtain ⟨s, hs, rfl⟩ := List.mem_map.1 (List.mem_of_getElem? hi)
    have hclaims : w₀.registry.claims b s = true := by
      have hpos := List.count_pos_iff.2 hs
      rw [hc s] at hpos
      split at hpos
      · assumption
      · omega
    obtain ⟨h, e⟩ := Registry.get?_of_claims hclaims
    exact ⟨h, h, e, e, .same rfl, rfl⟩
  · simp
  · intro s id
    rw [List.count_nil, eq_comm, List.countP_eq_zero]
    intro c hmem
    simp [(hready c hmem).1]
  · intro s id
    rw [List.count_nil, eq_comm, List.countP_eq_zero]
    intro c hmem
    simp [(hready c hmem).2]
  · rfl
  · intro s
    rw [List.map_nil, List.count_nil, eq_comm, List.countP_eq_zero]
    intro c hmem
    simp [(hready c hmem).2]
  · intro v hv
    simp at hv
  · simp
  · rfl

private theorem countP_ended {calls : List Call} (h : ∀ c ∈ calls, c.phase = .ended) (p : Bool) (s : Seat)
    {q : Call → Bool} (hq : ∀ c, c.phase = .ended → q c = true) :
    (calls.countP fun c => p && c.seat == s && q c) = if p then (calls.map (·.seat)).count s else 0 := by
  have hcongr : (calls.countP fun c => p && c.seat == s && q c) = calls.countP fun c => p && c.seat == s := by
    refine List.countP_congr fun c hc => ?_
    simp [hq c (h c hc)]
  rw [hcongr]
  cases p with
  | false => simp
  | true =>
    simp only [Bool.true_and, if_true, List.count, List.countP_map]
    rfl

private theorem Calling.called {notes : List Note} {calls : List Call} (hc : Calling w₀ w b notes vs calls)
    (h : ∀ c ∈ calls, c.phase = .ended) : Called w₀ w b vs notes [] := by
  have hbegun : ∀ c : Call, c.phase = .ended → hasBegun c = true := by
    intro c hp
    simp [hasBegun, hp]
  have hended : ∀ c : Call, c.phase = .ended → hasEnded c = true := by
    intro c hp
    simp [hasEnded, hp]
  constructor
  · simp [hc.journal]
  · intro s id
    rw [hc.began, countP_ended h _ s hbegun, hc.seats s]
    cases id == b.id <;> simp
  · intro s id
    rw [hc.ended, countP_ended h _ s hended, hc.seats s]
    cases id == b.id <;> simp
  · exact hc.quiet
  · intro s
    have := countP_ended h true s hended
    simp only [Bool.true_and, if_true] at this
    rw [hc.verdicts, this, hc.seats s]
  · exact hc.bound

private theorem Called.append {calls rest more : List Note} {w' : Workplace} (hc : Called w₀ w b vs calls rest)
    (hj : w'.journal = w.journal ++ more) : Called w₀ w' b vs calls (rest ++ more) where
  journal := by rw [hj, hc.journal, List.append_assoc]
  began := hc.began
  ended := hc.ended
  quiet := hc.quiet
  verdicts := hc.verdicts
  bound := hc.bound

private theorem Called.moved {calls rest : List Note} {w' : Workplace} (hc : Called w₀ w b vs calls rest)
    (hj : w'.journal = w.journal) : Called w₀ w' b vs calls rest := by
  have hj' : w'.journal = w.journal ++ [] := by rw [hj, List.append_nil]
  simpa using hc.append hj'

private theorem claims_eq_false_of_unclaimed (h : w₀.registry.isClaimed b = false) (s : Seat) :
    w₀.registry.claims b s = false := by
  rw [Bool.eq_false_iff] at h ⊢
  exact fun hs => h (Registry.isClaimed_iff.2 ⟨s, hs⟩)

/-- A batch without handlers goes on as if all calls had ended. -/
private theorem underway_drop (ha : w₀.registry.Answers b) (hr : w₀.registry.resolve b = .ok .unroutable) :
    Underway w₀ b (w₀.drop b) [] .acknowledging := by
  obtain ⟨route, hroute, hcount⟩ := Registry.count_seats_of_resolve ha
  obtain rfl : route = .unroutable := Except.ok.inj (hroute.symm.trans hr)
  have hclaimed : w₀.registry.isClaimed b = false := (Registry.seats_eq_nil_iff hcount).1 rfl
  have hnone := claims_eq_false_of_unclaimed hclaimed
  refine ⟨⟨[], ?_⟩, ?_, rfl⟩
  · constructor
    · simp [Workplace.drop, Workplace.emit]
    · simp [hnone]
    · simp [hnone]
    · rfl
    · simp [hnone]
    · simp
  · simp [Workplace.drop, Workplace.emit, calledStats, hclaimed]

/-- The calls of the handlers that take a batch are ready. -/
private theorem underway_calling (ha : w₀.registry.Answers b) {r : Route} (hr : w₀.registry.resolve b = .ok r)
    (hne : r ≠ .unroutable) : Underway w₀ b w₀ [] (.calling (r.seats.map ({ seat := · }))) := by
  obtain ⟨route, hroute, hcount⟩ := Registry.count_seats_of_resolve ha
  obtain rfl : route = r := Except.ok.inj (hroute.symm.trans hr)
  have hclaimed : w₀.registry.isClaimed b = true := by
    have hnot := Registry.seats_ne_nil_of_resolve hroute hne
    rw [Ne, Registry.seats_eq_nil_iff hcount] at hnot
    simpa using hnot
  exact ⟨hclaimed, [], Calling.of_seats hcount⟩

/-- The messages are acknowledged, if there are any. -/
private theorem Underway.acknowledge {calls : List Note} (hc : Called w₀ w b vs calls [])
    (hf : b.flagged.isEmpty = false) (hstats : w.stats = calledStats w₀ b vs)
    (hack : w.acknowledger = w₀.acknowledger) (began : Nat) :
    Underway w₀ b (w.beginAcknowledge b).1 vs (.awaiting began (w.beginAcknowledge b).2) := by
  have hjournal : (w.beginAcknowledge b).1.journal = w.journal ++ [.acknowledging b.id b.flagged] := rfl
  refine ⟨⟨calls, hc.append hjournal⟩, hf, hstats, ?_⟩
  simp [Workplace.beginAcknowledge, Workplace.note, acknowledgeOutcome, hack]

/-- What the acknowledger answers leads to remarks and a count only. -/
private theorem Underway.answer {began call : Nat} (h : Underway w₀ b w vs (.awaiting began call)) :
    Underway w₀ b (w.endAcknowledge call b) vs .counting := by
  obtain ⟨⟨calls, hc⟩, hf, hstats, hack⟩ := h
  have hremark := Workplace.count_of_remarks fun n
      (hn : n ∈ Workplace.acknowledgeComplaint b (w.acknowledger.outcome call)) =>
    Workplace.isRemark_of_mem_acknowledgeComplaint hn
  refine ⟨calls, _, hc.append (Workplace.endAcknowledge_journal w call b), ?_, ?_, ?_⟩
  · rw [Note.acknowledgments_append, (hremark .fallback b.id).2.2]
    simp [acknowledgmentsOf, hf, Note.acknowledgments]
  · intro s id
    have h₁ := List.count_eq_zero.1 (hremark s id).1
    have h₂ := List.count_eq_zero.1 (hremark s id).2.1
    simp [h₁, h₂]
  · rw [Workplace.endAcknowledge_stats, hack, hstats]
    simp [acknowledgedStats, hf, calledStats]

/-- What holds of a dispatch under way holds after any of its own steps. -/
private theorem Underway.step (ha : w₀.registry.Answers b) (hb : b.isEmpty = false) {d : Dispatch}
    (hd : d.batch = b) (h : Underway w₀ b w vs d.phase) (s : Surroundings) :
    (d.step s w).2.batch = b ∧ Underway w₀ b (d.step s w).1 vs (d.step s w).2.phase := by
  subst hd
  cases d.step_move s w with
  | idle _ hw hd =>
    rw [hw, hd]
    exact ⟨rfl, h⟩
  | skip _ he => simp [hb] at he
  | crash p hphase _ hr =>
    rw [hphase] at h
    obtain ⟨rfl, rfl⟩ := h
    -- Handlers that answer when they are asked leave no way to crash.
    obtain ⟨route, hroute, -⟩ := Registry.count_seats_of_resolve ha
    simp [hroute] at hr
  | drop hphase _ hr hw hd =>
    rw [hphase] at h
    obtain ⟨rfl, rfl⟩ := h
    rw [hw, hd]
    exact ⟨rfl, underway_drop ha hr⟩
  | route r hphase _ hr hne hw hd =>
    rw [hphase] at h
    obtain ⟨rfl, rfl⟩ := h
    rw [hw, hd]
    exact ⟨rfl, underway_calling ha hr hne⟩
  | gather calls hphase hall hw hd =>
    rw [hphase] at h
    obtain ⟨hclaimed, notes, hc⟩ := h
    rw [hw, hd]
    refine ⟨rfl, ⟨notes, hc.called hall⟩, ?_, hc.acknowledger⟩
    simp [hc.stats, calledStats, hclaimed]
  | pass hphase hf hw hd =>
    rw [hphase] at h
    obtain ⟨⟨calls, hc⟩, hstats, hack⟩ := h
    rw [hw, hd]
    refine ⟨rfl, calls, [], hc, ?_, by simp, ?_⟩
    · simp [acknowledgmentsOf, hf]
    · simp [acknowledgedStats, hf, hstats]
  | acknowledge hphase hf hw hd =>
    rw [hphase] at h
    obtain ⟨⟨calls, hc⟩, hstats, hack⟩ := h
    rw [hw, hd]
    exact ⟨rfl, .acknowledge hc hf hstats hack s.now⟩
  | answer began call hphase hw hd =>
    rw [hphase] at h
    rw [hw, hd]
    exact ⟨rfl, h.answer⟩
  | count hphase hw hd =>
    rw [hphase] at h
    obtain ⟨calls, rest, hc, hacks, hquiet, hstats⟩ := h
    rw [hw, hd]
    refine ⟨rfl, calls, rest, hc.moved rfl, hacks, hquiet, ?_⟩
    simp only [Workplace.countProcessed, hstats]
    simp only [acknowledgedStats, calledStats]
    split
    · rfl
    · split <;> rfl

private theorem verdict?_of_idle {d : Dispatch} {s : Surroundings} {i : Nat} (h : d.canStepCall s w i = false) :
    verdict? (w, d) (.call i s) = none := by
  rw [verdict?]
  split
  · next calls hphase =>
    have hcalls : d.phase = .calling calls := hphase
    split
    · next seat began call hi => simpa [canStepCall, hcalls, hi] using h
    · rfl
  · rfl

/-- What holds of a dispatch under way holds after any step of one of its calls. -/
private theorem Underway.stepCall {d : Dispatch} (hd : d.batch = b) (h : Underway w₀ b w vs d.phase)
    (s : Surroundings) (i : Nat) :
    (d.stepCall s w i).2.batch = b ∧
      Underway w₀ b (d.stepCall s w i).1 (vs ++ (verdict? (w, d) (.call i s)).toList)
        (d.stepCall s w i).2.phase := by
  subst hd
  cases d.stepCall_move s w i with
  | idle hcan hw hd =>
    rw [hw, hd, verdict?_of_idle hcan, Option.toList_none, List.append_nil]
    exact ⟨rfl, h⟩
  | begins calls seat hphase hi hw hd =>
    have hverdict : verdict? (w, d) (.call i s) = none := by simp [verdict?, hphase, hi]
    rw [hphase] at h
    obtain ⟨hclaimed, notes, hc⟩ := h
    obtain ⟨notes', hc'⟩ := hc.begin hi s
    rw [hw, hd, hverdict, Option.toList_none, List.append_nil]
    exact ⟨rfl, hclaimed, notes', hc'⟩
  | ends calls seat began call hphase hi hcan hw hd =>
    have hverdict : verdict? (w, d) (.call i s) = some (seat, w.outcome s seat call d.batch) := by
      simp [verdict?, hphase, hi, hcan]
    rw [hphase] at h
    obtain ⟨hclaimed, notes, hc⟩ := h
    obtain ⟨notes', hc'⟩ := hc.finish hi s
    rw [hw, hd, hverdict, Option.toList_some]
    exact ⟨rfl, hclaimed, notes', hc'⟩

theorem Underway.turn (ha : w₀.registry.Answers b) (hb : b.isEmpty = false) {d : Dispatch}
    (hd : d.batch = b) (h : Underway w₀ b w vs d.phase) (t : Turn) :
    (turn (w, d) t).2.batch = b ∧
      Underway w₀ b (turn (w, d) t).1 (vs ++ (verdict? (w, d) t).toList) (turn (w, d) t).2.phase := by
  cases t with
  | call i s => exact h.stepCall hd s i
  | own s =>
    rw [verdict?, Option.toList_none, List.append_nil]
    exact h.step ha hb hd s

theorem Underway.run (ha : w₀.registry.Answers b) (hb : b.isEmpty = false) {d : Dispatch}
    (hd : d.batch = b) (h : Underway w₀ b w vs d.phase) (turns : List Turn) :
    (run (w, d) turns).2.batch = b ∧
      Underway w₀ b (run (w, d) turns).1 (vs ++ Dispatch.verdicts (w, d) turns) (run (w, d) turns).2.phase := by
  induction turns generalizing w d vs with
  | nil => simpa [Dispatch.run, Dispatch.verdicts] using ⟨hd, h⟩
  | cons t ts ih =>
    obtain ⟨hd', h'⟩ := h.turn ha hb hd t
    have := ih hd' h'
    rwa [List.append_assoc] at this

end Dispatch

end FailurePipeline
