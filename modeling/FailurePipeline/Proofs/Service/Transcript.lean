import FailurePipeline.Proofs.Pipeline.Acknowledgments
import Mathlib.Data.List.Induction

/-!
# What the consumer notes

As long as it does not panic, the consumer follows one course, whatever its source is: it takes batches until it
sees a shutdown or hears that nothing more can come, then draws batches with a time limit, and ends at the first
poll that brings none.  `Follows` ties what it has noted, and what it has used up of a scripted source, to such a
`Course`, phase by phase.
-/

namespace FailurePipeline

/-- Why the consumer takes no more batches without a time limit. -/
inductive SteadyEnd where
  /-- It saw a shutdown, perhaps with a batch asked for already. -/
  | shutdown (asked : Bool)
  /-- Nothing more can come. -/
  | exhausted
  deriving Repr, DecidableEq

namespace SteadyEnd

/-- What the consumer notes in its last turn. -/
def events : SteadyEnd → List ConsumerEvent
  | .shutdown false => [.sawShutdown]
  | .shutdown true => [.asked, .sawShutdown]
  | .exhausted => [.asked, .exhausted]

/-- What the source answers in the last turn. -/
def answers : SteadyEnd → List Handout
  | .shutdown _ => []
  | .exhausted => [.nothing]

end SteadyEnd

/-- How far a consumer has come. -/
structure Course where
  /-- The batches that came without a time limit. -/
  received : List Batch := []
  ending : Option SteadyEnd := none
  /-- The batches that came within the time limit. -/
  drawn : List Batch := []
  /-- Whether a timed poll brought nothing. -/
  expired : Bool := false

namespace Course

/-- The turns in which batches come without a time limit. -/
def turns (bs : List Batch) : List ConsumerEvent := bs.flatMap fun b => [.asked, .received b, .dispatched b]

/-- The polls that bring batches within the time limit. -/
def polls (limit : Nat) (bs : List Batch) : List ConsumerEvent :=
  bs.flatMap fun b => [.polled limit, .drew b, .dispatched b]

/-- What the consumer has noted on its course. -/
def events (limit : Nat) (c : Course) : List ConsumerEvent :=
  turns c.received ++ (c.ending.elim [] SteadyEnd.events ++ (polls limit c.drawn ++
    if c.expired then [.polled limit, .expired] else []))

/-- What the source has answered without a time limit. -/
def heard (c : Course) : List Handout := c.received.map .batch ++ c.ending.elim [] SteadyEnd.answers

/-- The timed answers of a script and those that are left of it.  A script that is over brings nothing. -/
def Polled (c : Course) (timed left : List Handout) : Prop :=
  c.drawn.map .batch ++ (if c.expired then [Handout.nothing] else []) ++ left = timed ∨
    (c.expired = true ∧ c.drawn.map .batch = timed ∧ left = [])

/-- Where a consumer may be on its course. -/
def Fits (c : Course) : Option ConsumerPhase → Prop
  | none | some .launching => c = {}
  | some (.turning _) | some .asking | some .waiting | some (.dispatching _ .steady) =>
    c.ending = none ∧ c.drawn = [] ∧ c.expired = false
  | some .closing => c.ending.isSome ∧ c.drawn = [] ∧ c.expired = false
  | some (.polling count _) | some (.expecting _ count _) | some (.dispatching _ (.draining count _)) =>
    c.ending.isSome ∧ c.drawn.length = count ∧ c.expired = false
  | some (.summing count _) => c.ending.isSome ∧ c.drawn.length = count ∧ c.expired = true
  | some (.leaving _) | some (.gone _) => c.ending.isSome ∧ c.expired = true

variable {limit : Nat} {c : Course} {b : Batch} {timed left : List Handout}

private theorem turns_concat (bs : List Batch) (b : Batch) :
    turns (bs ++ [b]) = turns bs ++ [.asked, .received b, .dispatched b] := by simp [turns]

private theorem polls_concat (limit : Nat) (bs : List Batch) (b : Batch) :
    polls limit (bs ++ [b]) = polls limit bs ++ [.polled limit, .drew b, .dispatched b] := by simp [polls]

/-! ### Going on -/

def receive (c : Course) (b : Batch) : Course := { c with received := c.received ++ [b] }

def close (c : Course) (e : SteadyEnd) : Course := { c with ending := some e }

def draw (c : Course) (b : Batch) : Course := { c with drawn := c.drawn ++ [b] }

def expire (c : Course) : Course := { c with expired := true }

theorem events_receive (he : c.ending = none) (hd : c.drawn = []) (hx : c.expired = false) :
    (c.receive b).events limit = c.events limit ++ [.asked, .received b, .dispatched b] := by
  simp [events, receive, turns_concat, polls, he, hd, hx]

theorem events_close (he : c.ending = none) (hd : c.drawn = []) (hx : c.expired = false) (e : SteadyEnd) :
    (c.close e).events limit = c.events limit ++ e.events := by
  simp [events, close, polls, he, hd, hx]

theorem events_draw (hx : c.expired = false) :
    (c.draw b).events limit = c.events limit ++ [.polled limit, .drew b, .dispatched b] := by
  simp [events, draw, polls_concat, hx]

theorem events_expire (hx : c.expired = false) :
    c.expire.events limit = c.events limit ++ [.polled limit, .expired] := by
  simp [events, expire, hx]

theorem heard_receive (he : c.ending = none) : (c.receive b).heard = c.heard ++ [.batch b] := by
  simp [heard, receive, he]

theorem heard_close (he : c.ending = none) (e : SteadyEnd) : (c.close e).heard = c.heard ++ e.answers := by
  simp [heard, close, he]

/-- As long as no poll has brought nothing, a script is used up batch by batch. -/
theorem polled_iff (hx : c.expired = false) : c.Polled timed left ↔ c.drawn.map .batch ++ left = timed := by
  simp [Polled, hx]

theorem Polled.draw (h : c.Polled timed (.batch b :: left)) (hx : c.expired = false) :
    (c.draw b).Polled timed left := by
  rw [polled_iff hx] at h
  exact (polled_iff (c := c.draw b) hx).2 (by simpa [Course.draw] using h)

theorem Polled.expire (h : c.Polled timed (.nothing :: left)) (hx : c.expired = false) :
    c.expire.Polled timed left := by
  rw [polled_iff hx] at h
  exact .inl (by simpa [Course.expire] using h)

theorem Polled.expire_nil (h : c.Polled timed []) (hx : c.expired = false) : c.expire.Polled timed [] := by
  rw [polled_iff hx, List.append_nil] at h
  exact .inr ⟨rfl, h, rfl⟩

end Course

namespace ConsumerPhase

/-- What the consumer has noted of the turn, or of the poll, that it is in. -/
def pending (limit : Nat) : Option ConsumerPhase → List ConsumerEvent
  | some (.turning true) | some .asking | some .waiting => [.asked]
  | some (.expecting ..) => [.polled limit]
  | _ => []

end ConsumerPhase

/-- The answers that scripted sources are given in a run. -/
def Action.supplies (actions : List Action) : List Handout :=
  actions.filterMap fun
    | .supply h => some h
    | _ => none

namespace World

variable {w₀ w w' : World} {c : Course} {supplied : List Handout}

/-- The consumer follows a course.  Of a scripted source, the answers on the course have been used up, and no
others. -/
structure Follows (w₀ : World) (supplied : List Handout) (w : World) (c : Course) : Prop where
  config : w.config = w₀.config
  phase : c.Fits w.service.consumer
  events : w.service.events =
    c.events w₀.config.shutdownAwait ++ ConsumerPhase.pending w₀.config.shutdownAwait w.service.consumer
  script : ∀ steady timed, w₀.source = .scripted steady timed →
    ∃ steady' timed', w.source = .scripted steady' timed' ∧ c.heard ++ steady' = steady ++ supplied ∧
      c.Polled timed timed'
  /-- Only a queue makes the consumer wait in a timed poll. -/
  waits : ∀ deadline count since, w.service.consumer = some (.expecting deadline count since) → w.source = .queue
  told : ∀ asked, c.ending = some (.shutdown asked) → w.service.shutdown = true

namespace Follows

theorem fresh (hv : w₀.service = {}) : Follows w₀ [] w₀ {} where
  config := rfl
  phase := by rw [hv]; rfl
  events := by rw [hv]; rfl
  script steady timed hs := ⟨steady, timed, hs, by simp [Course.heard], .inl (by simp)⟩
  waits deadline count since h := by simp [hv] at h
  told asked h := by simp at h

variable {p p' : ConsumerPhase}

/-- What a script must still be after a step. -/
def KeepsScript (c c' : Course) (w w' : World) : Prop :=
  ∀ steady timed answers script, w.source = .scripted steady timed → c.heard ++ steady = answers →
    c.Polled script timed → ∃ steady' timed', w'.source = .scripted steady' timed' ∧
      c'.heard ++ steady' = answers ∧ c'.Polled script timed'

private theorem keepsScript_of_same (hs : w'.source = w.source) {c' : Course} (hh : c'.heard = c.heard)
    (hp : ∀ script timed, c.Polled script timed → c'.Polled script timed) : KeepsScript c c' w w' := by
  intro steady timed answers script hsrc hheard hpolled
  exact ⟨steady, timed, hs.trans hsrc, hh ▸ hheard, hp _ _ hpolled⟩

private theorem keepsScript_of_queue (hs : w.source = .queue) {c' : Course} : KeepsScript c c' w w' := by
  intro steady timed answers script hsrc
  simp [hs] at hsrc

section Script

variable {a : Handout} {steady timed : List Handout} {c' : Course}

private theorem keepsScript_of_heard (hs : w.source = .scripted (a :: steady) timed)
    (hs' : w'.source = .scripted steady timed) (hh : c'.heard = c.heard ++ [a])
    (hp : ∀ script, c.Polled script timed → c'.Polled script timed) : KeepsScript c c' w w' := by
  intro steady₁ timed₁ answers script hsrc hanswers hscript
  rw [hs] at hsrc
  cases hsrc
  exact ⟨steady, timed, hs', by simp [hh, ← hanswers], hp _ hscript⟩

private theorem keepsScript_of_polled (hs : w.source = .scripted steady (a :: timed))
    (hs' : w'.source = .scripted steady timed) (hh : c'.heard = c.heard)
    (hp : ∀ script, c.Polled script (a :: timed) → c'.Polled script timed) : KeepsScript c c' w w' := by
  intro steady₁ timed₁ answers script hsrc hanswers hscript
  rw [hs] at hsrc
  cases hsrc
  exact ⟨steady, timed, hs', hh ▸ hanswers, hp _ hscript⟩

/-- A script that is over brings nothing, and stays over. -/
private theorem keepsScript_of_over (hs : w.source = .scripted steady []) (hs' : w'.source = w.source)
    (hx : c.expired = false) : KeepsScript c c.expire w w' := by
  intro steady₁ timed₁ answers script hsrc hanswers hscript
  rw [hs] at hsrc
  cases hsrc
  exact ⟨steady, [], hs'.trans hs, hanswers, hscript.expire_nil hx⟩

end Script

/-- The consumer goes on along its course. -/
private theorem goOn (hf : Follows w₀ supplied w c) (c' : Course) (noted : List ConsumerEvent)
    (hp : w.service.consumer = some p) (hp' : w'.service.consumer = some p') (hc : w'.config = w.config)
    (hsh : w'.service.shutdown = w.service.shutdown)
    (hev : w'.service.events = w.service.events ++ noted) (hfit : c'.Fits (some p'))
    (hcourse : c'.events w₀.config.shutdownAwait ++ ConsumerPhase.pending w₀.config.shutdownAwait (some p') =
      c.events w₀.config.shutdownAwait ++ ConsumerPhase.pending w₀.config.shutdownAwait (some p) ++ noted)
    (hscript : KeepsScript c c' w w')
    (hwait : (∃ deadline count since, p' = .expecting deadline count since) → w'.source = .queue)
    (htold : ∀ asked, c'.ending = some (.shutdown asked) → c.ending = some (.shutdown asked) ∨
      w.service.shutdown = true) : Follows w₀ supplied w' c' where
  config := hc.trans hf.config
  phase := hp' ▸ hfit
  events := by rw [hev, hf.events, hp, hp', hcourse]
  script steady timed h := by
    obtain ⟨steady', timed', hsrc, hheard, hpolled⟩ := hf.script steady timed h
    exact hscript steady' timed' _ _ hsrc hheard hpolled
  waits deadline count since h := hwait ⟨deadline, count, since, Option.some.inj (hp'.symm.trans h)⟩
  told asked h := by
    rw [hsh]
    rcases htold asked h with h | h
    · exact hf.told asked h
    · exact h

section Moves

variable {d : Dispatch} {count since : Nat} {noted : List ConsumerEvent}

/-- The consumer enters a phase without noting anything and without using anything up. -/
private theorem enter (hf : Follows w₀ supplied w c) (hp : w.service.consumer = some p)
    (hp' : w'.service.consumer = some p') (hc : w'.config = w.config) (hs : w'.source = w.source)
    (hsh : w'.service.shutdown = w.service.shutdown) (hev : w'.service.events = w.service.events)
    (hfit : c.Fits (some p) → c.Fits (some p'))
    (hpend : ConsumerPhase.pending w₀.config.shutdownAwait (some p') =
      ConsumerPhase.pending w₀.config.shutdownAwait (some p))
    (hno : ∀ deadline count since, p' ≠ .expecting deadline count since) : ∃ c', Follows w₀ supplied w' c' := by
  refine ⟨c, hf.goOn c [] hp hp' hc hsh (by rw [hev, List.append_nil]) (hfit (hp ▸ hf.phase))
    (by rw [hpend, List.append_nil]) (keepsScript_of_same hs rfl fun _ _ h => h) ?_ fun _ h => .inl h⟩
  rintro ⟨deadline, count, since, h⟩
  exact absurd h (hno _ _ _)

/-- A batch comes without a time limit. -/
private theorem receive (hf : Follows w₀ supplied w c) (b : Batch) (hp : w.service.consumer = some .asking)
    (hp' : w'.service.consumer = some (.dispatching d .steady)) (hc : w'.config = w.config)
    (hsh : w'.service.shutdown = w.service.shutdown)
    (hev : w'.service.events = w.service.events ++ [.received b, .dispatched b])
    (hscript : KeepsScript c (c.receive b) w w') : Follows w₀ supplied w' (c.receive b) := by
  obtain ⟨he, hd, hx⟩ : c.Fits (some .asking) := hp ▸ hf.phase
  refine hf.goOn (c.receive b) _ hp hp' hc hsh hev ⟨he, hd, hx⟩ ?_ hscript (by simp) fun _ h => .inl h
  rw [Course.events_receive he hd hx]
  simp [ConsumerPhase.pending]

/-- The consumer stops to take batches without a time limit. -/
private theorem close (hf : Follows w₀ supplied w c) (e : SteadyEnd) (hp : w.service.consumer = some p)
    (hp' : w'.service.consumer = some .closing) (hopen : c.ending = none ∧ c.drawn = [] ∧ c.expired = false)
    (hc : w'.config = w.config) (hsh : w'.service.shutdown = w.service.shutdown)
    (hev : w'.service.events = w.service.events ++ noted)
    (hnoted : e.events = ConsumerPhase.pending w₀.config.shutdownAwait (some p) ++ noted)
    (hscript : KeepsScript c (c.close e) w w') (htold : ∀ asked, e = .shutdown asked → w.service.shutdown = true) :
    Follows w₀ supplied w' (c.close e) := by
  obtain ⟨he, hd, hx⟩ := hopen
  refine hf.goOn (c.close e) noted hp hp' hc hsh hev ⟨rfl, hd, hx⟩ ?_ hscript (by simp)
    fun asked h => .inr (htold asked (Option.some.inj h))
  rw [Course.events_close he hd hx, hnoted]
  simp [ConsumerPhase.pending]

/-- A batch comes within the time limit. -/
private theorem draw (hf : Follows w₀ supplied w c) (b : Batch) (hp : w.service.consumer = some p)
    (hp' : w'.service.consumer = some (.dispatching d (.draining (count + 1) since)))
    (hdraining : c.ending.isSome ∧ c.drawn.length = count ∧ c.expired = false) (hc : w'.config = w.config)
    (hsh : w'.service.shutdown = w.service.shutdown) (hev : w'.service.events = w.service.events ++ noted)
    (hnoted : [.polled w₀.config.shutdownAwait, .drew b, .dispatched b] =
      ConsumerPhase.pending w₀.config.shutdownAwait (some p) ++ noted)
    (hscript : KeepsScript c (c.draw b) w w') : Follows w₀ supplied w' (c.draw b) := by
  obtain ⟨he, hd, hx⟩ := hdraining
  refine hf.goOn (c.draw b) noted hp hp' hc hsh hev ⟨he, by simp [Course.draw, hd], hx⟩ ?_ hscript (by simp)
    fun _ h => .inl h
  rw [Course.events_draw hx, hnoted]
  simp [ConsumerPhase.pending]

/-- A timed poll brings nothing. -/
private theorem expire (hf : Follows w₀ supplied w c) (hp : w.service.consumer = some p)
    (hp' : w'.service.consumer = some (.summing count since))
    (hdraining : c.ending.isSome ∧ c.drawn.length = count ∧ c.expired = false) (hc : w'.config = w.config)
    (hsh : w'.service.shutdown = w.service.shutdown) (hev : w'.service.events = w.service.events ++ noted)
    (hnoted : [.polled w₀.config.shutdownAwait, .expired] =
      ConsumerPhase.pending w₀.config.shutdownAwait (some p) ++ noted)
    (hscript : KeepsScript c c.expire w w') : Follows w₀ supplied w' c.expire := by
  obtain ⟨he, hd, hx⟩ := hdraining
  refine hf.goOn c.expire noted hp hp' hc hsh hev ⟨he, hd, rfl⟩ ?_ hscript (by simp) fun _ h => .inl h
  rw [Course.events_expire hx, hnoted]
  simp [ConsumerPhase.pending]

end Moves

/-- Every move of the consumer leads on along its course, unless it panics. -/
theorem consumerMove (hf : Follows w₀ supplied w c) (h : ConsumerMove w w') (hcrash : w'.hasCrashed = false) :
    ∃ c', Follows w₀ supplied w' c' := by
  have hfits : ∀ {p}, w.service.consumer = some p → c.Fits (some p) := fun hp => hp ▸ hf.phase
  have hlimit : w.config.shutdownAwait = w₀.config.shutdownAwait := by rw [hf.config]
  have hcrashed : ∀ {q}, w'.service.consumer = some q → q.hasCrashed = true → False := by
    intro q hq hx
    simp [hasCrashed, hq, hx] at hcrash
  -- The course grows where a batch is received or drawn, where the asking ends, and at the last poll.
  cases h with
  | idle => exact ⟨c, hf⟩
  | launch h =>
    have hfit : c.Fits (some .launching) → c.Fits (some (.turning false)) := by
      intro hc
      rw [Course.Fits] at hc
      rw [hc]
      exact ⟨rfl, rfl, rfl⟩
    split <;> exact hf.enter h rfl rfl rfl rfl rfl hfit rfl (by simp)
  | seeShutdown asked h hs =>
    refine ⟨_, hf.close (.shutdown asked) h rfl (hfits h) rfl rfl rfl (by cases asked <;> rfl)
      (keepsScript_of_same rfl ?_ fun _ _ h => h) fun _ _ => hs⟩
    simp [Course.heard_close (hfits h).1, SteadyEnd.answers]
  | ask asked h hs =>
    cases asked with
    | true => exact hf.enter h rfl rfl rfl rfl rfl id rfl (by simp)
    | false =>
      have hopen := hfits h
      exact ⟨c, hf.goOn c [.asked] h rfl rfl rfl rfl hopen (by simp [ConsumerPhase.pending])
        (keepsScript_of_same rfl rfl fun _ _ h => h) (by simp) fun _ h => .inl h⟩
  | receive b q h hs ht =>
    refine ⟨_, hf.receive b h rfl rfl rfl ?_ (keepsScript_of_queue hs)⟩
    simp [dispatchNext, World.enter, Service.enter, log, Service.log, emitDepth, emit]
  | hear a steady timed h hs =>
    have he := (hfits h).1
    cases a with
    | batch b =>
      refine ⟨_, hf.receive b h rfl rfl rfl ?_
        (keepsScript_of_heard hs rfl (Course.heard_receive he) fun _ h => h)⟩
      simp [dispatchNext, World.enter, Service.enter, log, Service.log]
    | nothing =>
      exact ⟨_, hf.close .exhausted h rfl (hfits h) rfl rfl rfl rfl
        (keepsScript_of_heard hs rfl (Course.heard_close he _) fun _ h => h) (by simp)⟩
    | panic p => exact (hcrashed rfl rfl).elim
  | wait h | hang _ h | wake h | goOn _ h | drainOn _ _ _ h | leave _ h =>
    exact hf.enter h rfl rfl rfl rfl rfl id rfl (by simp)
  | dispatch d mode h | call i d mode h =>
    cases mode <;> exact hf.enter h rfl rfl rfl rfl rfl id rfl (by simp)
  | close h =>
    have hfit : ∀ since, c.Fits (some .closing) → c.Fits (some (.polling 0 since)) := by
      rintro since ⟨he, hd, hx⟩
      exact ⟨he, by rw [hd]; rfl, hx⟩
    split <;> exact hf.enter h rfl rfl rfl rfl rfl (hfit _) rfl (by simp)
  | poll count since h hs =>
    have hdraining := hfits h
    refine ⟨c, hf.goOn c [.polled w₀.config.shutdownAwait] h rfl rfl rfl ?_ hdraining
      (by simp [ConsumerPhase.pending]) (keepsScript_of_queue hs) (fun _ => hs) fun _ h => .inl h⟩
    rw [← hlimit]
    rfl
  | pollScript a steady timed count since h hs =>
    have hx := (hfits h).2.2
    cases a with
    | batch b =>
      refine ⟨_, hf.draw b h rfl (hfits h) rfl rfl ?_ rfl
        (keepsScript_of_polled hs rfl rfl fun _ hp => hp.draw hx)⟩
      simp [dispatchNext, World.enter, Service.enter, log, Service.log, hlimit]
    | nothing =>
      refine ⟨_, hf.expire h rfl (hfits h) rfl rfl ?_ rfl
        (keepsScript_of_polled hs rfl rfl fun _ hp => hp.expire hx)⟩
      simp [World.enter, Service.enter, log, Service.log, hlimit]
    | panic p => exact (hcrashed rfl rfl).elim
  | pollEnd steady count since h hs =>
    refine ⟨_, hf.expire h rfl (hfits h) rfl rfl ?_ rfl (keepsScript_of_over hs rfl (hfits h).2.2)⟩
    simp [World.enter, Service.enter, log, Service.log, hlimit]
  | draw deadline count since b q h ht =>
    refine ⟨_, hf.draw b h rfl (hfits h) rfl rfl ?_ rfl (keepsScript_of_queue (hf.waits _ _ _ h))⟩
    simp [dispatchNext, World.enter, Service.enter, log, Service.log, emitDepth, emit]
  | expire deadline count since h ht hd =>
    exact ⟨_, hf.expire h rfl (hfits h) rfl rfl rfl rfl (keepsScript_of_queue (hf.waits _ _ _ h))⟩
  | sum count since h => exact hf.enter h rfl rfl rfl rfl rfl (fun hc => ⟨hc.1, hc.2.2⟩) rfl (by simp)
  | fall | crash => exact (hcrashed rfl rfl).elim

/-- What others do leaves the course of the consumer as it is; a consumer that is spawned begins one. -/
private theorem of_others (hf : Follows w₀ supplied w c) (hc : w'.config = w.config) (hs : w'.source = w.source)
    (hev : w'.service.events = w.service.events)
    (hsh : w.service.shutdown = true → w'.service.shutdown = true)
    (hp : w'.service.consumer = w.service.consumer ∨
      w.service.consumer = none ∧ w'.service.consumer = some .launching) : Follows w₀ supplied w' c where
  config := hc.trans hf.config
  phase := by
    have hphase := hf.phase
    rcases hp with hp | ⟨hnone, hp⟩
    · rw [hp]
      exact hphase
    · rw [hnone] at hphase
      rw [hp]
      exact hphase
  events := by
    have hevents := hf.events
    rcases hp with hp | ⟨hnone, hp⟩
    · rw [hev, hp, hevents]
    · rw [hnone] at hevents
      rw [hev, hp, hevents]
      rfl
  script steady timed h := by
    rw [hs]
    exact hf.script steady timed h
  waits deadline count since h := by
    rcases hp with hp | ⟨-, hp⟩
    · rw [hs]
      exact hf.waits deadline count since (hp ▸ h)
    · simp [hp] at h
  told asked h := hsh (hf.told asked h)

theorem taskMove (hf : Follows w₀ supplied w c) (hl : Lifecycle w) {i : Nat} (h : TaskMove w i w') :
    Follows w₀ supplied w' c := by
  obtain ⟨hs, hc, -, hev, hp⟩ := h.frame
  refine hf.of_others hc hs hev h.grows.1 ?_
  rcases hp with hp | ⟨hi, hp⟩
  · exact .inl hp
  · exact .inr ⟨hl.consumer_eq_none hi, hp⟩

private theorem supply (hf : Follows w₀ supplied w c) (a : Handout) :
    Follows w₀ (supplied ++ [a]) (w.supply a) c := by
  have hsource : (w.source = .queue ∧ w.supply a = w) ∨ ∃ steady timed, w.source = .scripted steady timed ∧
      w.supply a = { w with source := .scripted (steady ++ [a]) timed } := by
    cases hs : w.source with
    | queue => exact .inl ⟨rfl, by simp [World.supply, hs]⟩
    | scripted steady timed => exact .inr ⟨steady, timed, rfl, by simp [World.supply, hs]⟩
  rcases hsource with ⟨hq, hsame⟩ | ⟨steady, timed, hs, hnew⟩
  · rw [hsame]
    refine ⟨hf.config, hf.phase, hf.events, fun steady timed h => ?_, hf.waits, hf.told⟩
    obtain ⟨steady', timed', hsrc, -⟩ := hf.script steady timed h
    simp [hq] at hsrc
  · rw [hnew]
    refine ⟨hf.config, hf.phase, hf.events, fun steady₀ timed₀ h => ?_, fun deadline count since h => ?_, hf.told⟩
    · obtain ⟨steady', timed', hsrc, hheard, hpolled⟩ := hf.script steady₀ timed₀ h
      rw [hs] at hsrc
      cases hsrc
      exact ⟨steady ++ [a], timed, rfl, by rw [← List.append_assoc, hheard, List.append_assoc], hpolled⟩
    · have := hf.waits deadline count since h
      simp [hs] at this

/-- A step leads the consumer on along its course, unless it panics. -/
theorem step (hf : Follows w₀ supplied w c) (hl : Lifecycle w) (a : Action)
    (hcrash : (w.step a).hasCrashed = false) :
    ∃ c', Follows w₀ (supplied ++ Action.supplies [a]) (w.step a) c' := by
  have hnone : ∀ {v : World} {a : Action}, Action.supplies [a] = [] → (∃ c', Follows w₀ supplied v c') →
      ∃ c', Follows w₀ (supplied ++ Action.supplies [a]) v c' := by
    intro v a ha h
    rw [ha, List.append_nil]
    exact h
  cases a with
  | spawn j =>
    obtain ⟨hs, hc, -, -, hv, -, -⟩ := w.spawn_frame j
    exact hnone rfl ⟨c, hf.of_others hc hs (by rw [World.step, hv])
      (fun h => by rw [World.step, hv]; exact h) (by simp [World.step, hv])⟩
  | task i => exact hnone rfl ⟨c, hf.taskMove hl (stepTask_move w i)⟩
  | abandon i => exact hnone rfl ⟨c, hf.taskMove hl (abandonTask_move w i)⟩
  | consumer => exact hnone rfl (hf.consumerMove (stepConsumer_move w) hcrash)
  | call i => exact hnone rfl (hf.consumerMove (stepCall_move w i) hcrash)
  | crash => exact hnone rfl (hf.consumerMove (crashConsumer_move w) hcrash)
  | supply h => exact ⟨c, hf.supply h⟩
  | pass ms => exact hnone rfl ⟨c, hf.config, hf.phase, hf.events, hf.script, hf.waits, hf.told⟩
  | clock wall => exact hnone rfl ⟨c, hf.config, hf.phase, hf.events, hf.script, hf.waits, hf.told⟩
  | refuse reason => exact hnone rfl ⟨c, hf.config, hf.phase, hf.events, hf.script, hf.waits, hf.told⟩

end Follows

/-! ### Runs -/

/-- A consumer that has panicked does not recover. -/
theorem hasCrashed_of_consumerMove (h : ConsumerMove w w') (hc : w.hasCrashed = true) : w'.hasCrashed = true := by
  have hno : ∀ {p}, w.service.consumer = some p → p.hasCrashed = false → False := by
    intro p hp hx
    simp [hasCrashed, hp, hx] at hc
  cases h with
  | idle => exact hc
  | leave crashed h =>
    cases crashed with
    | true => rfl
    | false => exact (hno h rfl).elim
  | crash p h hl hg => rfl
  | _ => exact (hno (by assumption) rfl).elim

theorem hasCrashed_step (hl : Lifecycle w) (a : Action) (hc : w.hasCrashed = true) :
    (w.step a).hasCrashed = true := by
  refine step_cases (P := fun v => v.hasCrashed = true) w a (fun j _ => ?_) (fun i v _ h => ?_)
    (fun v _ h => hasCrashed_of_consumerMove h hc) fun _ _ _ _ => hc
  · rw [hasCrashed, (w.spawn_frame j).2.2.2.2.1]
    exact hc
  · obtain ⟨-, -, -, -, hp | ⟨hi, -⟩⟩ := h.frame
    · rw [hasCrashed, hp]
      exact hc
    · simp [hasCrashed, hl.consumer_eq_none hi] at hc

/-- The consumer of a new service follows a course in every run, as long as it does not panic. -/
theorem exists_follows (hv : w₀.service = {}) (ht : w₀.tasks = []) {actions : List Action}
    (hcrash : (w₀.run actions).hasCrashed = false) :
    ∃ c, Follows w₀ (Action.supplies actions) (w₀.run actions) c := by
  induction actions using List.reverseRecOn with
  | nil => exact ⟨{}, .fresh hv⟩
  | append_singleton as a ih =>
    have hlife := (Lifecycle.fresh hv ht).run as
    rw [run_concat] at hcrash ⊢
    have hbefore : (w₀.run as).hasCrashed = false := by
      cases hc : (w₀.run as).hasCrashed with
      | false => rfl
      | true => simp [hasCrashed_step hlife a hc] at hcrash
    obtain ⟨c, hf⟩ := ih hbefore
    have hsupplies : Action.supplies (as ++ [a]) = Action.supplies as ++ Action.supplies [a] :=
      List.filterMap_append
    rw [hsupplies]
    exact hf.step hlife a hcrash

/-- A consumer that has gone without a panic has come to the end of its course. -/
theorem exists_course_of_gone (hv : w₀.service = {}) (ht : w₀.tasks = []) {actions : List Action}
    (hgone : (w₀.run actions).service.consumer = some (.gone false)) :
    ∃ c : Course, c.ending.isSome = true ∧ c.expired = true ∧
      (w₀.run actions).service.events = c.events w₀.config.shutdownAwait := by
  have hcrash : (w₀.run actions).hasCrashed = false := by simp [hasCrashed, hgone, ConsumerPhase.hasCrashed]
  obtain ⟨c, hf⟩ := exists_follows hv ht hcrash
  have hphase := hf.phase
  have hevents := hf.events
  rw [hgone] at hphase hevents
  exact ⟨c, hphase.1, hphase.2, hevents.trans (List.append_nil _)⟩

end World

end FailurePipeline
