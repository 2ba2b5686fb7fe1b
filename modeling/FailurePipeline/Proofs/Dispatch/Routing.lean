import FailurePipeline.Handler.Registry

/-!
# Who takes a batch

`Registry.claims` says which places of a registry a batch goes to, handler by handler: a custom handler claims
it if it is enabled and supports it, and the fallback claims what no custom handler does.  When every handler
answers, `Registry.resolve` finds exactly these places, each of them once (`count_seats_of_resolve`).
-/

namespace FailurePipeline

/-- Whether a handler says that it is enabled and that it supports a batch. -/
def Handler.accepts (h : Handler) (b : Batch) : Bool :=
  match h.enabled, h.supports b with
  | .ok true, .ok true => true
  | _, _ => false

/-- A handler that does not panic when it is asked about a batch. -/
structure Handler.Answers (h : Handler) (b : Batch) : Prop where
  enabled : ∃ e, h.enabled = .ok e
  supports : ∃ s, h.supports b = .ok s

theorem Handler.takes_of_answers {h : Handler} {b : Batch} (ha : h.Answers b) :
    h.takes b = .ok (h.accepts b) := by
  obtain ⟨⟨e, he⟩, s, hs⟩ := ha
  cases e <;> cases s <;> simp [takes, accepts, he, hs]

namespace Registry

/-- The handlers of a registry all answer. -/
def Answers (r : Registry) (b : Batch) : Prop := ∀ h ∈ r.fallback :: r.custom, h.Answers b

/-- Whether a batch goes to the handler at a place. -/
def claims (r : Registry) (b : Batch) : Seat → Bool
  | .custom i => (r.custom[i]?).any (·.accepts b)
  | .fallback => !r.custom.any (·.accepts b) && r.fallback.accepts b

theorem Answers.fallback {r : Registry} {b : Batch} (h : r.Answers b) : r.fallback.Answers b :=
  h _ List.mem_cons_self

theorem Answers.custom {r : Registry} {b : Batch} (h : r.Answers b) : ∀ c ∈ r.custom, c.Answers b :=
  fun c hc => h c (List.mem_cons_of_mem _ hc)

/-! ### Asking the custom handlers -/

/-- The numbers, from `k` on, of the handlers that accept a batch. -/
private def accepting (b : Batch) (k : Nat) (hs : List Handler) : List Nat :=
  ((hs.zipIdx k).filter (·.1.accepts b)).map (·.2)

private theorem accepting_cons (b : Batch) (k : Nat) (h : Handler) (hs : List Handler) :
    accepting b k (h :: hs) =
      if h.accepts b then k :: accepting b (k + 1) hs else accepting b (k + 1) hs := by
  simp only [accepting, List.zipIdx_cons, List.filter_cons]
  split <;> rfl

private theorem le_of_mem_accepting {b : Batch} {k i : Nat} {hs : List Handler}
    (h : i ∈ accepting b k hs) : k ≤ i := by
  simp only [accepting, List.mem_map, List.mem_filter] at h
  obtain ⟨p, ⟨hp, -⟩, rfl⟩ := h
  exact List.le_snd_of_mem_zipIdx hp

private theorem select_eq {b : Batch} {hs : List Handler} (ha : ∀ h ∈ hs, h.Answers b) (k : Nat) :
    select b k hs = .ok (accepting b k hs) := by
  induction hs generalizing k with
  | nil => rfl
  | cons h hs ih =>
    have hh := Handler.takes_of_answers (ha h List.mem_cons_self)
    have hr := ih (fun c hc => ha c (List.mem_cons_of_mem _ hc)) (k + 1)
    simp only [select, hh, hr, bind, Except.bind, accepting_cons]

private theorem count_accepting (b : Batch) (hs : List Handler) (k i : Nat) :
    (accepting b k hs).count (k + i) = if (hs[i]?).any (·.accepts b) then 1 else 0 := by
  induction hs generalizing k i with
  | nil => rfl
  | cons h hs ih =>
    rw [accepting_cons]
    cases i with
    | zero =>
      have h0 : (accepting b (k + 1) hs).count k = 0 := by
        rw [List.count_eq_zero]
        intro hk
        have := le_of_mem_accepting hk
        omega
      simp only [Nat.add_zero, List.getElem?_cons_zero, Option.any_some]
      split <;> simp [h0]
    | succ i =>
      have hi := ih (k + 1) i
      rw [show k + 1 + i = k + (i + 1) by omega] at hi
      simp only [List.getElem?_cons_succ]
      split
      · rw [List.count_cons, hi]
        simp
      · exact hi

private theorem accepting_eq_nil_iff (b : Batch) (hs : List Handler) (k : Nat) :
    accepting b k hs = [] ↔ hs.any (·.accepts b) = false := by
  induction hs generalizing k with
  | nil => simp [accepting]
  | cons h hs ih =>
    rw [accepting_cons, List.any_cons, Bool.or_eq_false_iff]
    split
    · next hh => simp [hh]
    · next hh => simp [hh, ih]

/-! ### Where a batch goes -/

private theorem any_getElem?_eq_false {b : Batch} {hs : List Handler} (h : hs.any (·.accepts b) = false)
    (i : Nat) : (hs[i]?).any (·.accepts b) = false := by
  rw [List.any_eq_false] at h
  cases hi : hs[i]? with
  | none => rfl
  | some c => simpa using h c (List.mem_of_getElem? hi)

private theorem count_map_custom (is : List Nat) (s : Seat) :
    (is.map Seat.custom).count s = match s with
      | .custom i => is.count i
      | .fallback => 0 := by
  cases s with
  | fallback => simp [List.count_eq_zero]
  | custom i =>
    induction is with
    | nil => rfl
    | cons j is ih =>
      simp only [List.map_cons, List.count_cons, ih]
      by_cases hji : j = i <;> simp [hji]

/-- When every handler answers, a batch goes once to each place that claims it and nowhere else. -/
theorem count_seats_of_resolve {r : Registry} {b : Batch} (ha : r.Answers b) :
    ∃ route, r.resolve b = .ok route ∧ ∀ s, route.seats.count s = if r.claims b s then 1 else 0 := by
  have hsel := select_eq ha.custom 0
  have hfall := Handler.takes_of_answers ha.fallback
  by_cases hany : r.custom.any (·.accepts b) = true
  · have hne : accepting b 0 r.custom ≠ [] := by
      rw [Ne, accepting_eq_nil_iff]
      simp [hany]
    refine ⟨.custom (accepting b 0 r.custom), ?_, ?_⟩
    · simp [resolve, hsel, hne, bind, Except.bind]
    · intro s
      rw [Route.seats, count_map_custom]
      cases s with
      | fallback => simp [claims, hany]
      | custom i =>
        have hi := count_accepting b r.custom 0 i
        rw [Nat.zero_add] at hi
        exact hi
  · have hnone : r.custom.any (·.accepts b) = false := by simpa using hany
    have hnil := (accepting_eq_nil_iff b r.custom 0).2 hnone
    refine ⟨if r.fallback.accepts b then .fallback else .unroutable, ?_, ?_⟩
    · simp [resolve, hsel, hnil, hfall, bind, Except.bind]
    · intro s
      cases s with
      | fallback => cases hf : r.fallback.accepts b <;> simp [Route.seats, claims, hnone, hf]
      | custom i =>
        have hi := any_getElem?_eq_false hnone i
        cases hf : r.fallback.accepts b <;> simp [Route.seats, claims, hi]

/-- Only a batch without a route has no seats. -/
theorem seats_ne_nil_of_resolve {r : Registry} {b : Batch} {route : Route} (h : r.resolve b = .ok route)
    (hne : route ≠ .unroutable) : route.seats ≠ [] := by
  rw [resolve] at h
  cases hs : select b 0 r.custom with
  | error p => simp [hs, bind, Except.bind] at h
  | ok is =>
    simp only [hs, bind, Except.bind] at h
    split at h
    · cases ht : r.fallback.takes b with
      | error p => simp [ht] at h
      | ok taken => cases taken <;> simp [ht] at h <;> subst h <;> simp [Route.seats] at hne ⊢
    · next hn =>
      cases h
      simpa [Route.seats] using hn

theorem get?_of_claims {r : Registry} {b : Batch} {s : Seat} (h : r.claims b s = true) :
    ∃ c, r.get? s = some c := by
  cases s with
  | fallback => exact ⟨_, rfl⟩
  | custom i =>
    cases hi : r.custom[i]? with
    | none => simp [claims, hi] at h
    | some c => exact ⟨c, hi⟩

/-- Whether any handler takes a batch. -/
def isClaimed (r : Registry) (b : Batch) : Bool := r.seats.any (r.claims b)

theorem isClaimed_iff {r : Registry} {b : Batch} : r.isClaimed b = true ↔ ∃ s, r.claims b s = true := by
  rw [isClaimed, List.any_eq_true]
  constructor
  · rintro ⟨s, -, hs⟩
    exact ⟨s, hs⟩
  · rintro ⟨s, hs⟩
    refine ⟨s, ?_, hs⟩
    cases s with
    | fallback => simp [seats]
    | custom i =>
      have hi : i < r.custom.length := by
        by_cases hi : i < r.custom.length
        · exact hi
        · simp [claims, List.getElem?_eq_none (Nat.le_of_not_lt hi)] at hs
      simp [seats, hi]

/-- A batch has no handler exactly if no place claims it. -/
theorem seats_eq_nil_iff {r : Registry} {b : Batch} {route : Route}
    (hc : ∀ s, route.seats.count s = if r.claims b s then 1 else 0) :
    route.seats = [] ↔ r.isClaimed b = false := by
  rw [Bool.eq_false_iff, Ne, isClaimed_iff]
  constructor
  · rintro h ⟨s, hs⟩
    have := hc s
    simp [h, hs] at this
  · intro h
    cases hr : route.seats with
    | nil => rfl
    | cons s rest =>
      have hs : r.claims b s = false := by
        rw [Bool.eq_false_iff]
        exact fun hs => h ⟨s, hs⟩
      have := hc s
      simp [hr, hs] at this

end Registry

end FailurePipeline
