import FailurePipeline.Proofs.Storage.Addresses
import Mathlib.Data.List.Nodup

/-!
# A provider is a private map

Several providers may share one store in memory, each below a path of its own.  A provider answers like a plain
map from relative paths to octets: it sees nothing but the objects properly below its path, and changes nothing
else (`provider_is_private_map`).  A path is below another one part by part, so that `dlq2/x` is not below `dlq`.
-/

namespace FailurePipeline

namespace ObjectPath

variable {base base' p q : ObjectPath}

/-- Whether one of two paths is the other one, or above it. -/
def Nested (p q : ObjectPath) : Prop := p.parts <+: q.parts ∨ q.parts <+: p.parts

instance (p q : ObjectPath) : Decidable (Nested p q) := inferInstanceAs (Decidable (_ ∨ _))

theorem relative?_eq_some_iff : base.relative? p = some q ↔ p = base.below q ∧ q.parts ≠ [] := by
  obtain ⟨base⟩ := base
  obtain ⟨p⟩ := p
  obtain ⟨q⟩ := q
  simp only [relative?, below, List.isPrefixOf_iff_prefix, Option.ite_none_right_eq_some, Option.some.injEq,
    mk.injEq]
  constructor
  · rintro ⟨⟨⟨rest, rfl⟩, hlt⟩, hq⟩
    rw [List.drop_left] at hq
    subst hq
    refine ⟨rfl, fun hnil => ?_⟩
    simp [hnil] at hlt
  · rintro ⟨rfl, hq⟩
    refine ⟨⟨List.prefix_append _ _, ?_⟩, List.drop_left⟩
    have hpos := List.length_pos_of_ne_nil hq
    rw [List.length_append]
    omega

theorem relative?_below (hq : q.parts ≠ []) : base.relative? (base.below q) = some q :=
  relative?_eq_some_iff.2 ⟨rfl, hq⟩

theorem root_below (q : ObjectPath) : root.below q = q := rfl

/-- Nothing below a path is below another one, unless they are nested. -/
theorem relative?_below_of_not_nested (h : ¬ Nested base base') (q : ObjectPath) :
    base.relative? (base'.below q) = none := by
  rw [Option.eq_none_iff_forall_ne_some]
  intro r hr
  have hparts := congrArg parts (relative?_eq_some_iff.1 hr).1
  have hfirst : base.parts <+: base'.parts ++ q.parts := ⟨r.parts, hparts.symm⟩
  exact h (List.prefix_or_prefix_of_prefix hfirst (List.prefix_append _ _))

theorem mem_sort {ps : List ObjectPath} : q ∈ sort ps ↔ q ∈ ps := (List.mergeSort_perm _ _).mem_iff

theorem nodup_sort {ps : List ObjectPath} (h : ps.Nodup) : (sort ps).Nodup := (List.mergeSort_perm _ _).nodup_iff.2 h

theorem pairwise_sort (ps : List ObjectPath) : (sort ps).Pairwise (·.text ≤ ·.text) := by
  have htrans : ∀ a b c : ObjectPath, decide (a.text ≤ b.text) = true → decide (b.text ≤ c.text) = true →
      decide (a.text ≤ c.text) = true := by
    intro a b c hab hbc
    simp only [decide_eq_true_eq] at hab hbc ⊢
    exact String.le_trans hab hbc
  have htotal : ∀ a b : ObjectPath, (decide (a.text ≤ b.text) || decide (b.text ≤ a.text)) = true := by
    intro a b
    simpa using String.le_total a.text b.text
  simpa [sort] using List.pairwise_mergeSort htrans htotal ps

end ObjectPath

namespace Memory

open ObjectPath (relative?_eq_some_iff)

variable {m : Memory} {base p q : ObjectPath} {octets : Bytes}

/-- What is seen of a store from a path: the octets at every path properly below it. -/
def seen (m : Memory) (base q : ObjectPath) : Option Bytes := if q.parts = [] then none else m.get? (base.below q)

/-- What a path is called from another one that it is below, with what is there. -/
private def relocate (base : ObjectPath) (o : ObjectPath × Bytes) : Option (ObjectPath × Bytes) :=
  (base.relative? o.1).map fun q => (q, o.2)

private theorem map_fst_filterMap_relocate (base : ObjectPath) (os : List (ObjectPath × Bytes)) :
    (os.filterMap (relocate base)).map Prod.fst = (os.map Prod.fst).filterMap base.relative? := by
  rw [List.map_filterMap, List.filterMap_map]
  refine congrArg (List.filterMap · os) (funext fun o => ?_)
  simp [relocate, Function.comp_def]

private theorem nodup_relative? {ps : List ObjectPath} (h : ps.Nodup) (base : ObjectPath) :
    (ps.filterMap base.relative?).Nodup := by
  refine List.Nodup.filterMap (fun a a' b hb hb' => ?_) h
  rw [(relative?_eq_some_iff.1 hb).1, (relative?_eq_some_iff.1 hb').1]

/-- A store with the objects that are properly below a path, under their relative paths. -/
def under (m : Memory) (base : ObjectPath) : Memory where
  objects := m.objects.filterMap (relocate base)
  distinct := by
    rw [map_fst_filterMap_relocate]
    exact nodup_relative? m.distinct base

theorem get?_eq_some_iff : m.get? p = some octets ↔ (p, octets) ∈ m.objects := by
  have hdistinct := m.distinct
  rw [get?]
  generalize m.objects = os at hdistinct ⊢
  induction os with
  | nil => simp
  | cons o os ih =>
    obtain ⟨q, old⟩ := o
    rw [List.map_cons, List.nodup_cons] at hdistinct
    by_cases h : q = p
    · subst h
      have hno : (q, octets) ∉ os := fun hmem => hdistinct.1 (List.mem_map.2 ⟨_, hmem, rfl⟩)
      simp [hno, eq_comm]
    · simp [h, Ne.symm h, ih hdistinct.2]

theorem get?_under (m : Memory) (base q : ObjectPath) : (m.under base).get? q = m.seen base q := by
  refine Option.ext fun octets => ?_
  rw [get?_eq_some_iff, seen, Option.ite_none_left_eq_some, get?_eq_some_iff, under, List.mem_filterMap]
  constructor
  · rintro ⟨o, ho, hq⟩
    obtain ⟨q', hq', heq⟩ := Option.map_eq_some_iff.1 hq
    obtain ⟨rfl, rfl⟩ := Prod.mk.inj heq
    obtain ⟨hbelow, hne⟩ := relative?_eq_some_iff.1 hq'
    exact ⟨hne, hbelow ▸ ho⟩
  · rintro ⟨hne, ho⟩
    exact ⟨_, ho, by rw [relocate, ObjectPath.relative?_below hne]; rfl⟩

/-- What is listed below a path are the paths at which something is seen from there. -/
theorem mem_list_iff : q ∈ m.list base ↔ (m.seen base q).isSome = true := by
  rw [Option.isSome_iff_exists]
  simp only [seen, Option.ite_none_left_eq_some, get?_eq_some_iff, list, List.mem_filterMap, relative?_eq_some_iff]
  constructor
  · rintro ⟨⟨p, octets⟩, ho, rfl, hne⟩
    exact ⟨octets, hne, ho⟩
  · rintro ⟨octets, hne, ho⟩
    exact ⟨_, ho, rfl, hne⟩

theorem nodup_list (m : Memory) (base : ObjectPath) : (m.list base).Nodup := by
  have hlist : m.list base = (m.objects.map Prod.fst).filterMap base.relative? := by
    rw [list, List.filterMap_map]
    rfl
  rw [hlist]
  exact nodup_relative? m.distinct base

theorem list_under (m : Memory) (base : ObjectPath) : (m.under base).list .root = m.list base := by
  rw [list, list, under, List.filterMap_filterMap]
  refine congrArg (List.filterMap · m.objects) (funext fun o => ?_)
  cases hr : base.relative? o.1 with
  | none => simp [relocate, hr]
  | some q =>
    have hroot : ObjectPath.root.relative? q = some q := ObjectPath.relative?_below (relative?_eq_some_iff.1 hr).2
    simp [relocate, hr, hroot]

private theorem filterMap_relocate_write_below (hq : q.parts ≠ []) (os : List (ObjectPath × Bytes)) :
    (write (base.below q) octets os).filterMap (relocate base) = write q octets (os.filterMap (relocate base)) := by
  have hself : relocate base (base.below q, octets) = some (q, octets) := by
    rw [relocate, ObjectPath.relative?_below hq]
    rfl
  induction os with
  | nil => simp [write, hself]
  | cons o os ih =>
    obtain ⟨p, old⟩ := o
    by_cases hp : p = base.below q
    · subst hp
      simp [write, relocate, ObjectPath.relative?_below hq]
    · cases hr : base.relative? p with
      | none => simp [write, hp, relocate, hr, ih]
      | some q' =>
        have hne : q' ≠ q := by
          rintro rfl
          exact hp (relative?_eq_some_iff.1 hr).1
        have hsome : relocate base (p, old) = some (q', old) := by simp [relocate, hr]
        simp [write, hp, hsome, hne, ih]

private theorem filterMap_relocate_write_of_none (hp : base.relative? p = none) (os : List (ObjectPath × Bytes)) :
    (write p octets os).filterMap (relocate base) = os.filterMap (relocate base) := by
  have hself : ∀ o, relocate base (p, o) = none := fun o => by simp [relocate, hp]
  induction os with
  | nil => simp [write, hself]
  | cons o os ih =>
    obtain ⟨p', old⟩ := o
    by_cases h : p' = p
    · subst h
      simp [write, hself]
    · simp [write, h, List.filterMap_cons, ih]

/-- A put below a path is a put of the objects below it. -/
theorem under_put (hq : q.parts ≠ []) (m : Memory) (octets : Bytes) :
    (m.put (base.below q) octets).under base = (m.under base).put q octets :=
  eq_of_objects_eq (filterMap_relocate_write_below hq m.objects)

/-- A put anywhere else changes nothing below the path. -/
theorem under_put_of_none (hp : base.relative? p = none) (m : Memory) (octets : Bytes) :
    (m.put p octets).under base = m.under base :=
  eq_of_objects_eq (filterMap_relocate_write_of_none hp m.objects)

theorem seen_put (hq : q.parts ≠ []) (m : Memory) (octets : Bytes) :
    (m.put (base.below q) octets).seen base = Function.update (m.seen base) q (some octets) := by
  funext q'
  rw [← get?_under, under_put hq]
  by_cases h : q' = q
  · rw [h, get?_put_self, Function.update_self]
  · rw [get?_put_of_ne _ _ h, Function.update_of_ne h, get?_under]

end Memory

/-! ### Requests and replies -/

/-- What can be asked of a provider. -/
inductive Request where
  | put (path : ObjectPath) (octets : Bytes)
  | get (path : ObjectPath)
  | list
  deriving Repr, DecidableEq, Inhabited

inductive Reply where
  | put (r : Except StorageError Unit)
  | get (r : Except StorageError Bytes)
  | list (r : Except StorageError (List ObjectPath))
  deriving DecidableEq

namespace Request

/-- Whether the path of a request, if it has one, has parts. -/
def IsProper : Request → Prop
  | .put path _ | .get path => path.parts ≠ []
  | .list => True

instance : DecidablePred IsProper
  | .put path _ | .get path => inferInstanceAs (Decidable (path.parts ≠ []))
  | .list => inferInstanceAs (Decidable True)

/-- What a plain map is after a request. -/
def update (f : ObjectPath → Option Bytes) : Request → ObjectPath → Option Bytes
  | .put path octets => Function.update f path (some octets)
  | .get _ | .list => f

/-- Whether a reply is that of a plain map. -/
def Fits (f : ObjectPath → Option Bytes) : Request → Reply → Prop
  | .put _ _, reply => reply = .put (.ok ())
  | .get path, reply => reply = .get ((f path).elim (.error (.store .notFound)) .ok)
  | .list, reply => ∃ paths, reply = .list (.ok paths) ∧ paths.Nodup ∧ paths.Pairwise (·.text ≤ ·.text) ∧
    ∀ q, q ∈ paths ↔ (f q).isSome = true

end Request

/-- Replies to requests are, one by one, those of a plain map that holds at first what is given. -/
inductive AsPlainMap : (ObjectPath → Option Bytes) → List Request → List Reply → Prop
  | nil (f : ObjectPath → Option Bytes) : AsPlainMap f [] []
  | cons {f : ObjectPath → Option Bytes} {r : Request} {reply : Reply} {rs : List Request} {replies : List Reply}
    (first : r.Fits f reply) (rest : AsPlainMap (r.update f) rs replies) : AsPlainMap f (r :: rs) (reply :: replies)

namespace Provider

/-- What a provider answers to a request, and the stores after it. -/
def answer (p : Provider) (d : Depot) : Request → Reply × Depot
  | .put path octets =>
    match p.put d path octets with
    | .ok d' => (.put (.ok ()), d')
    | .error e => (.put (.error e), d)
  | .get path => (.get (p.get d path), d)
  | .list => (.list (p.list d), d)

/-- The requests to a provider, among those to several ones. -/
def requests (p : Provider) (calls : List (Provider × Request)) : List Request :=
  calls.filterMap fun c => if c.1 = p then some c.2 else none

theorem requests_map (p : Provider) (rs : List Request) : p.requests (rs.map (p, ·)) = rs := by
  rw [requests, List.filterMap_map, List.filterMap_eq_map_iff_forall_eq_some.2, List.map_id]
  simp

/-- Whether two providers share no store, or paths in it that are not nested. -/
def Apart (p p' : Provider) : Prop :=
  ∀ slot, p.backend = .memory slot → p'.backend = .memory slot → ¬ p.base.Nested p'.base

end Provider

namespace Depot

/-- The stores after requests to several providers, one after the other. -/
def after (d : Depot) (calls : List (Provider × Request)) : Depot := calls.foldl (fun d c => (c.1.answer d c.2).2) d

/-- What one of the providers replies. -/
def replies (p : Provider) : Depot → List (Provider × Request) → List Reply
  | _, [] => []
  | d, (p', r) :: calls =>
    let (reply, d) := p'.answer d r
    if p' = p then reply :: replies p d calls else replies p d calls

/-- Nothing but a store in memory. -/
def single (m : Memory) : Depot := { memories := [m] }

end Depot

namespace Provider

variable {p p' : Provider} {d : Depot} {slot : Nat} {m : Memory} {r : Request}

/-- The provider of all of the only store. -/
def whole : Provider := { backend := .memory 0, base := .root, url := "memory:///" }

private theorem answer_put_of_memory (hb : p.backend = .memory slot) (hm : d.memories[slot]? = some m)
    (path : ObjectPath) (octets : Bytes) :
    p.answer d (.put path octets) =
      (.put (.ok ()), { d with memories := d.memories.set slot (m.put (p.base.below path) octets) }) := by
  simp only [answer, put, hb, hm, qualify]

/-- A provider answers a request as the provider of all of a store does that has only what is below its path, and
goes on to do so. -/
private theorem answer_eq_whole (hb : p.backend = .memory slot) (hm : d.memories[slot]? = some m)
    (hr : r.IsProper) :
    ∃ m', (p.answer d r).2.memories[slot]? = some m' ∧
      whole.answer (.single (m.under p.base)) r = ((p.answer d r).1, .single (m'.under p.base)) := by
  cases r with
  | put path octets =>
    have hwhole : whole.answer (.single (m.under p.base)) (.put path octets) =
        (.put (.ok ()), .single ((m.under p.base).put path octets)) := rfl
    refine ⟨m.put (p.base.below path) octets, ?_, ?_⟩
    · rw [answer_put_of_memory hb hm]
      exact List.getElem?_set_self (List.getElem?_eq_some_iff.1 hm).1
    · rw [hwhole, answer_put_of_memory hb hm, Memory.under_put hr]
  | get path =>
    refine ⟨m, hm, ?_⟩
    simp only [answer, get, hb, hm, qualify, whole, Depot.single, List.getElem?_cons_zero, ObjectPath.root_below,
      Memory.get?_under, Memory.seen, if_neg hr]
  | list =>
    refine ⟨m, hm, ?_⟩
    simp only [answer, list, hb, hm, whole, Depot.single, List.getElem?_cons_zero, Memory.list_under]

/-- A provider answers a request as a plain map, and then sees what that has become. -/
private theorem answer_fits (hb : p.backend = .memory slot) (hm : d.memories[slot]? = some m) (hr : r.IsProper) :
    r.Fits (m.seen p.base) (p.answer d r).1 ∧
      ∃ m', (p.answer d r).2.memories[slot]? = some m' ∧ m'.seen p.base = r.update (m.seen p.base) := by
  cases r with
  | put path octets =>
    rw [answer_put_of_memory hb hm]
    exact ⟨rfl, _, List.getElem?_set_self (List.getElem?_eq_some_iff.1 hm).1, Memory.seen_put hr m octets⟩
  | get path =>
    refine ⟨?_, m, hm, rfl⟩
    simp only [Request.Fits, answer, get, hb, hm, qualify, Memory.seen, if_neg hr]
  | list =>
    refine ⟨⟨ObjectPath.sort (m.list p.base), ?_, ObjectPath.nodup_sort (m.nodup_list p.base),
      ObjectPath.pairwise_sort _, fun q => ?_⟩, m, hm, rfl⟩
    · simp only [answer, list, hb, hm]
    · rw [ObjectPath.mem_sort, Memory.mem_list_iff]

/-- A provider that is apart leaves everything below the path alone. -/
private theorem under_of_apart (hb : p.backend = .memory slot) (hm : d.memories[slot]? = some m)
    (ha : p.Apart p') (r : Request) :
    ∃ m', (p'.answer d r).2.memories[slot]? = some m' ∧ m'.under p.base = m.under p.base := by
  cases r with
  | get path => exact ⟨m, hm, rfl⟩
  | list => exact ⟨m, hm, rfl⟩
  | put path octets =>
    cases hput : p'.put d path octets with
    | error e =>
      simp only [answer, hput]
      exact ⟨m, hm, rfl⟩
    | ok d' =>
      simp only [answer, hput]
      cases puts_of_put hput with
      | directory => exact ⟨m, hm, rfl⟩
      | remote => exact ⟨m, hm, rfl⟩
      | memory slot' m₁ hb' hm₁ =>
        by_cases hs : slot' = slot
        · subst hs
          obtain rfl : m₁ = m := Option.some.inj (hm₁.symm.trans hm)
          refine ⟨_, List.getElem?_set_self (List.getElem?_eq_some_iff.1 hm).1, ?_⟩
          exact Memory.under_put_of_none (ObjectPath.relative?_below_of_not_nested (ha _ hb hb') path) m₁ octets
        · exact ⟨m, (List.getElem?_set_ne hs).trans hm, rfl⟩

/-! ### Runs of requests -/

variable {calls : List (Provider × Request)}

theorem requests_cons_self (p : Provider) (r : Request) (calls : List (Provider × Request)) :
    p.requests ((p, r) :: calls) = r :: p.requests calls := by simp [requests]

theorem requests_cons_of_ne (h : p' ≠ p) (r : Request) (calls : List (Provider × Request)) :
    p.requests ((p', r) :: calls) = p.requests calls := by simp [requests, h]

/-- Whatever providers apart from it are asked in between, a provider replies like the provider of all of a store that
has at first only what is below its path. -/
theorem replies_eq_whole (hb : p.backend = .memory slot) (hm : d.memories[slot]? = some m)
    (hproper : ∀ r ∈ p.requests calls, r.IsProper) (hapart : ∀ c ∈ calls, c.1 = p ∨ p.Apart c.1) :
    d.replies p calls = (Depot.single (m.under p.base)).replies whole ((p.requests calls).map (whole, ·)) := by
  induction calls generalizing d m with
  | nil => rfl
  | cons c calls ih =>
    obtain ⟨p', r⟩ := c
    have hrest : ∀ c ∈ calls, c.1 = p ∨ p.Apart c.1 := fun c hc => hapart c (List.mem_cons_of_mem _ hc)
    by_cases h : p' = p
    · subst h
      rw [requests_cons_self] at hproper ⊢
      obtain ⟨m', hm', hwhole⟩ := answer_eq_whole hb hm (hproper r List.mem_cons_self)
      have := ih hm' (fun r' hr' => hproper r' (List.mem_cons_of_mem _ hr')) hrest
      simp [Depot.replies, hwhole, this]
    · rw [requests_cons_of_ne h] at hproper ⊢
      obtain ⟨m', hm', hunder⟩ := under_of_apart hb hm ((hapart _ List.mem_cons_self).resolve_left h) r
      rw [← hunder, ← ih hm' hproper hrest]
      simp [Depot.replies, h]

/-- If nobody else is asked anything, a provider replies like a plain map. -/
private theorem replies_asPlainMap_alone (hb : p.backend = .memory slot) (hm : d.memories[slot]? = some m)
    {rs : List Request} (hproper : ∀ r ∈ rs, r.IsProper) :
    AsPlainMap (m.seen p.base) rs (d.replies p (rs.map (p, ·))) := by
  induction rs generalizing d m with
  | nil => exact .nil _
  | cons r rs ih =>
    obtain ⟨hfits, m', hm', hseen⟩ := answer_fits hb hm (hproper r List.mem_cons_self)
    have hrest := ih hm' fun r' hr' => hproper r' (List.mem_cons_of_mem _ hr')
    simp only [List.map_cons, Depot.replies, if_true]
    exact .cons hfits (hseen ▸ hrest)

/-- Whatever providers apart from it are asked in between, a provider replies like a plain map. -/
theorem replies_asPlainMap (hb : p.backend = .memory slot) (hm : d.memories[slot]? = some m)
    (hproper : ∀ r ∈ p.requests calls, r.IsProper) (hapart : ∀ c ∈ calls, c.1 = p ∨ p.Apart c.1) :
    AsPlainMap (m.seen p.base) (p.requests calls) (d.replies p calls) := by
  have hseen : (m.under p.base).seen whole.base = m.seen p.base := by
    funext q
    by_cases hq : q.parts = []
    · rw [Memory.seen, Memory.seen, if_pos hq, if_pos hq]
    · rw [Memory.seen, if_neg hq, whole, ObjectPath.root_below, Memory.get?_under]
  rw [replies_eq_whole hb hm hproper hapart, ← hseen]
  exact replies_asPlainMap_alone rfl rfl hproper

/-- Nothing changes but what is put. -/
theorem find?_after {address : Address}
    (h : ∀ c ∈ calls, ∀ path octets, c.2 = .put path octets → c.1.address? path ≠ some address) :
    (d.after calls).find? address = d.find? address := by
  induction calls generalizing d with
  | nil => rfl
  | cons c calls ih =>
    obtain ⟨p', r⟩ := c
    have hfirst : (p'.answer d r).2.find? address = d.find? address := by
      cases r with
      | get path => rfl
      | list => rfl
      | put path octets =>
        cases hput : p'.put d path octets with
        | error e => simp only [answer, hput]
        | ok d' =>
          obtain ⟨address', haddress, hall⟩ := find?_of_put hput
          have hne : address ≠ address' := by
            rintro rfl
            exact h _ List.mem_cons_self path octets rfl haddress
          simp only [answer, hput]
          rw [hall, if_neg hne]
    exact (ih fun c hc => h c (List.mem_cons_of_mem _ hc)).trans hfirst

/-- What it means for a provider, which may be one of several, to be a map of its own. -/
structure IsPrivateMap (p : Provider) (d : Depot) (m : Memory) (calls : List (Provider × Request)) : Prop where
  /-- Its replies are those of a plain map of the objects that are below its path at first. -/
  asPlainMap : AsPlainMap (m.seen p.base) (p.requests calls) (d.replies p calls)
  /-- A provider of all of a store that has only those objects replies the same. -/
  asWhole : d.replies p calls =
    (Depot.single (m.under p.base)).replies whole ((p.requests calls).map (whole, ·))
  /-- It replies the same if nobody else is asked anything. -/
  alone : d.replies p calls = d.replies p ((p.requests calls).map (p, ·))
  /-- If nobody else is asked anything, all stays as it is but the objects properly below its path. -/
  outside : ∀ address, (∀ q, q.parts ≠ [] → p.address? q ≠ some address) →
    (d.after ((p.requests calls).map (p, ·))).find? address = d.find? address

/-- A provider of a store in memory is a map of its own, whatever the store has at first and whatever it is asked
about paths that have parts, also if providers of other stores, or of paths of the same store that are not nested
with its own, are asked anything in between. -/
theorem provider_is_private_map (hb : p.backend = .memory slot) (hm : d.memories[slot]? = some m)
    (hproper : ∀ r ∈ p.requests calls, r.IsProper) (hapart : ∀ c ∈ calls, c.1 = p ∨ p.Apart c.1) :
    p.IsPrivateMap d m calls := by
  refine ⟨replies_asPlainMap hb hm hproper hapart, replies_eq_whole hb hm hproper hapart, ?_,
    fun address houtside => find?_after fun c hc path octets hput => ?_⟩
  · have hown : ∀ c ∈ (p.requests calls).map (p, ·), c.1 = p ∨ p.Apart c.1 := by
      intro c hc
      obtain ⟨r, -, rfl⟩ := List.mem_map.1 hc
      exact .inl rfl
    have hown' : ∀ r ∈ p.requests ((p.requests calls).map (p, ·)), r.IsProper := by rwa [requests_map]
    rw [replies_eq_whole hb hm hproper hapart, replies_eq_whole hb hm hown' hown, requests_map]
  · obtain ⟨r, hr, rfl⟩ := List.mem_map.1 hc
    simp only at hput
    subst hput
    exact houtside path (hproper _ hr)

/-- A store with an object below `dlq`, one that is called just like that, and one below `dlq2`. -/
def crowdedStore : Memory where
  objects := [(⟨["dlq"]⟩, [1]), (⟨["dlq2", "x"]⟩, [2]), (⟨["dlq", "a"]⟩, [3])]
  distinct := by decide

def dlqProvider : Provider := { backend := .memory 0, base := ⟨["dlq"]⟩, url := "memory:///dlq" }

def dlq2Provider : Provider := { backend := .memory 0, base := ⟨["dlq2"]⟩, url := "memory:///dlq2" }

/-- Two providers share a store, and both put an object under `a`. -/
def sharedCalls : List (Provider × Request) :=
  [(dlqProvider, .get ⟨["x"]⟩), (dlq2Provider, .put ⟨["a"]⟩ [4]), (dlqProvider, .get ⟨["a"]⟩),
    (dlqProvider, .put (.ofText "b*c") [5]), (dlqProvider, .put ⟨["a"]⟩ [6]), (dlq2Provider, .get ⟨["a"]⟩),
    (dlqProvider, .get ⟨["a"]⟩), (dlqProvider, .list)]

/-- The first provider sees what it put itself, and lists it under the path it gave. -/
theorem provider_is_private_map_in_sharedCalls :
    dlqProvider.backend = .memory 0 ∧ (Depot.single crowdedStore).memories[0]? = some crowdedStore ∧
      (∀ r ∈ dlqProvider.requests sharedCalls, r.IsProper) ∧
      (∀ c ∈ sharedCalls, c.1 = dlqProvider ∨ dlqProvider.Apart c.1) ∧
      dlqProvider.IsPrivateMap (.single crowdedStore) crowdedStore sharedCalls ∧
      (Depot.single crowdedStore).replies dlqProvider sharedCalls =
        [.get (.error (.store .notFound)), .get (.ok [3]), .put (.ok ()), .put (.ok ()), .get (.ok [6]),
          .list (.ok [⟨["a"]⟩, ⟨["b%2Ac"]⟩])] := by
  have hproper : ∀ r ∈ dlqProvider.requests sharedCalls, r.IsProper := by decide +kernel
  have hapart : ∀ c ∈ sharedCalls, c.1 = dlqProvider ∨ dlqProvider.Apart c.1 := by
    have htwo : ∀ c ∈ sharedCalls, c.1 = dlqProvider ∨ c.1 = dlq2Provider := by decide +kernel
    have hnested : ¬ dlqProvider.base.Nested dlq2Provider.base := by decide +kernel
    intro c hc
    refine (htwo c hc).imp_right fun h => ?_
    rw [h]
    exact fun _ _ _ => hnested
  refine ⟨rfl, rfl, hproper, hapart, provider_is_private_map rfl rfl hproper hapart, ?_⟩
  have hsort : ObjectPath.sort [⟨["a"]⟩, ⟨["b%2Ac"]⟩] = [⟨["a"]⟩, ⟨["b%2Ac"]⟩] :=
    List.mergeSort_of_pairwise (by decide +kernel)
  rw [← hsort]
  rfl

end Provider

end FailurePipeline
