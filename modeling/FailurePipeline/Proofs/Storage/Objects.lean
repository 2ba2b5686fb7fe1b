import FailurePipeline.Proofs.Storage.Trees
import FailurePipeline.Storage.Provider

/-!
# Objects that are kept

Whatever keeps the objects of a provider, an object that has been put under a path is found there as long as
the path is not written again (`Provider.get_of_putAll`).  This holds of all paths that do not go back up, and no
provider that has been opened does so by itself (`Depot.isPlain_of_openStore`).
-/

namespace FailurePipeline

namespace Memory

variable {m : Memory} {p p' : ObjectPath} {octets : Bytes}

private theorem find?_write_self (p : ObjectPath) (octets : Bytes) (os : List (ObjectPath × Bytes)) :
    (write p octets os).find? (·.1 = p) = some (p, octets) := by
  induction os with
  | nil => simp [write]
  | cons o os ih =>
    obtain ⟨q, old⟩ := o
    by_cases h : q = p
    · simp [write, h]
    · simp [write, h, ih]

private theorem find?_write_of_ne (octets : Bytes) (os : List (ObjectPath × Bytes)) (hne : p' ≠ p) :
    (write p octets os).find? (·.1 = p') = os.find? (·.1 = p') := by
  induction os with
  | nil => simp [write, Ne.symm hne]
  | cons o os ih =>
    obtain ⟨q, old⟩ := o
    by_cases h : q = p
    · subst h
      simp [write, Ne.symm hne]
    · simp only [write, h, if_false, List.find?_cons, ih]

theorem get?_put_self (m : Memory) (p : ObjectPath) (octets : Bytes) : (m.put p octets).get? p = some octets := by
  simp [get?, put, find?_write_self]

theorem get?_put_of_ne (m : Memory) (octets : Bytes) (hne : p' ≠ p) : (m.put p octets).get? p' = m.get? p' := by
  simp only [get?, put, find?_write_of_ne octets m.objects hne]

end Memory

namespace Provider

/-- Whether the way to an object never goes back up. -/
def IsPlain (p : Provider) (path : ObjectPath) : Prop :=
  match p.backend with
  | .directory root => ".." ∉ DirectoryStore.place root (p.qualify path)
  | .memory _ | .remote _ => True

variable {p : Provider} {d d' : Depot} {path path' : ObjectPath} {octets octets' : Bytes}

theorem qualify_inj (h : p.qualify path = p.qualify path') : path = path' := by
  have hparts := congrArg ObjectPath.parts h
  simp only [qualify, ObjectPath.below, List.append_cancel_left_eq] at hparts
  cases path
  cases path'
  simpa using hparts

theorem qualifyIn_inj {store : String} (h : p.qualifyIn store path = p.qualifyIn store path') : path = path' := by
  have hparts := congrArg ObjectPath.parts h
  simp only [qualifyIn, ObjectPath.below, List.append_cancel_left_eq] at hparts
  exact qualify_inj (congrArg ObjectPath.mk hparts)

/-- What a put that succeeds makes of the stores: it writes to the provider's own. -/
inductive Puts (p : Provider) (d : Depot) (path : ObjectPath) (octets : Bytes) : Depot → Prop
  | directory (root : List String) (disk : FileTree) (hb : p.backend = .directory root)
    (hput : DirectoryStore.put d.disk root (p.qualify path) octets = .ok disk) :
    Puts p d path octets { d with disk := disk }
  | memory (slot : Nat) (m : Memory) (hb : p.backend = .memory slot) (hm : d.memories[slot]? = some m) :
    Puts p d path octets { d with memories := d.memories.set slot (m.put (p.qualify path) octets) }
  | remote (store : String) (hb : p.backend = .remote store) :
    Puts p d path octets { d with elsewhere := d.elsewhere.put (p.qualifyIn store path) octets }

theorem puts_of_put (h : p.put d path octets = .ok d') : p.Puts d path octets d' := by
  unfold put at h
  split at h
  · next root hb =>
    split at h
    · next disk hput =>
      cases h
      exact .directory root disk hb hput
    · simp at h
  · next slot hb =>
    split at h
    · next m hm =>
      cases h
      exact .memory slot m hb hm
    · simp at h
  · next store hb =>
    cases h
    exact .remote store hb

/-- A store that keeps an object did not refuse it. -/
theorem put_of_offer {refusal : Option StorageError} (h : p.offer refusal d path octets = .ok d') :
    p.put d path octets = .ok d' := by
  unfold offer at h
  split at h
  · simp at h
  · exact h

/-- What has been put is found. -/
theorem get_put_self (h : p.put d path octets = .ok d') (hp : p.IsPlain path) : p.get d' path = .ok octets := by
  cases puts_of_put h with
  | directory root disk hb hput =>
    simp only [IsPlain, hb] at hp
    simp only [get, hb]
    exact DirectoryStore.get_put_self hput hp
  | memory slot m hb hm =>
    simp [get, hb, List.getElem?_set_self (List.getElem?_eq_some_iff.1 hm).1, Memory.get?_put_self]
  | remote store hb => simp [get, hb, Memory.get?_put_self]

/-- What is under another path stays. -/
theorem get_put_of_ne (h : p.put d path octets = .ok d') (hne : path' ≠ path) (hp : p.IsPlain path')
    (hget : p.get d path' = .ok octets') : p.get d' path' = .ok octets' := by
  have hne' : p.qualify path' ≠ p.qualify path := fun he => hne (qualify_inj he)
  cases puts_of_put h with
  | directory root disk hb hput =>
    simp only [IsPlain, hb] at hp
    simp only [get, hb] at hget ⊢
    refine DirectoryStore.get_put_of_ne hput (fun he => hne' ?_) hp hget
    have hparts := List.append_cancel_left he
    cases hq : p.qualify path
    cases hq' : p.qualify path'
    rw [hq, hq'] at hparts
    exact congrArg ObjectPath.mk hparts
  | memory slot m hb hm =>
    simp only [get, hb, hm] at hget ⊢
    have hself := List.getElem?_set_self (a := m.put (p.qualify path) octets) (List.getElem?_eq_some_iff.1 hm).1
    simpa [hself, Memory.get?_put_of_ne m octets hne'] using hget
  | remote store hb =>
    simp only [get, hb] at hget ⊢
    rwa [Memory.get?_put_of_ne d.elsewhere octets fun he => hne (qualifyIn_inj he)]

/-- Keeps objects one after the other. -/
def putAll (p : Provider) (d : Depot) : List (ObjectPath × Bytes) → Except StorageError Depot
  | [] => .ok d
  | (path, octets) :: rest =>
    match p.put d path octets with
    | .ok d => p.putAll d rest
    | .error e => .error e

theorem putAll_concat {objects : List (ObjectPath × Bytes)} (h : p.putAll d objects = .ok d') :
    p.putAll d (objects ++ [(path, octets)]) = p.put d' path octets := by
  induction objects generalizing d with
  | nil =>
    cases h
    simp only [List.nil_append, putAll]
    split <;> simp_all
  | cons o rest ih =>
    simp only [List.cons_append, putAll] at h ⊢
    split at h
    · exact ih h
    · simp at h

private theorem get_putAll_of_not_mem {objects : List (ObjectPath × Bytes)} (h : p.putAll d objects = .ok d')
    (hp : p.IsPlain path) (hno : path ∉ objects.map (·.1)) (hget : p.get d path = .ok octets) :
    p.get d' path = .ok octets := by
  induction objects generalizing d with
  | nil =>
    cases h
    exact hget
  | cons o rest ih =>
    simp only [List.map_cons, List.mem_cons, not_or] at hno
    simp only [putAll] at h
    split at h
    · next d₁ hput => exact ih h hno.2 (get_put_of_ne hput hno.1 hp hget)
    · simp at h

/-- A put makes and drops no store in memory. -/
theorem memories_length_of_put (h : p.put d path octets = .ok d') : d'.memories.length = d.memories.length := by
  cases puts_of_put h with
  | directory => rfl
  | memory => exact List.length_set
  | remote => rfl

theorem memories_length_of_putAll {objects : List (ObjectPath × Bytes)} (h : p.putAll d objects = .ok d') :
    d'.memories.length = d.memories.length := by
  induction objects generalizing d with
  | nil =>
    cases h
    rfl
  | cons o rest ih =>
    simp only [putAll] at h
    split at h
    · next d₁ hput => exact (ih h).trans (memories_length_of_put hput)
    · simp at h

/-- Whether a provider keeps its objects in no directory, but in a store in memory that there is or in a remote one. -/
def IsMap (p : Provider) (d : Depot) : Prop :=
  match p.backend with
  | .directory _ => False
  | .memory slot => slot < d.memories.length
  | .remote _ => True

theorem IsMap.of_length_eq (h : p.IsMap d) (hlength : d'.memories.length = d.memories.length) : p.IsMap d' := by
  unfold IsMap at h ⊢
  split at h <;> simp_all

/-- A store that is a map takes whatever is put. -/
theorem IsMap.exists_put (h : p.IsMap d) (path : ObjectPath) (octets : Bytes) :
    ∃ d', p.put d path octets = .ok d' := by
  unfold IsMap at h
  split at h
  · exact h.elim
  · next slot hb =>
    simp only [put, hb, List.getElem?_eq_getElem h]
    exact ⟨_, rfl⟩
  · next store hb =>
    simp only [put, hb]
    exact ⟨_, rfl⟩

/-- Objects that are put under different paths are all found. -/
theorem get_of_putAll {objects : List (ObjectPath × Bytes)} (h : p.putAll d objects = .ok d')
    (hdistinct : (objects.map (·.1)).Nodup) (hp : ∀ o ∈ objects, p.IsPlain o.1) {o : ObjectPath × Bytes}
    (ho : o ∈ objects) : p.get d' o.1 = .ok o.2 := by
  induction objects generalizing d with
  | nil => simp at ho
  | cons first rest ih =>
    rw [List.map_cons, List.nodup_cons] at hdistinct
    simp only [putAll] at h
    split at h
    · next d₁ hput =>
      rcases List.mem_cons.1 ho with rfl | ho
      · have hplain := hp o List.mem_cons_self
        exact get_putAll_of_not_mem h hplain hdistinct.1 (get_put_self hput hplain)
      · exact ih h hdistinct.2 (fun o' ho' => hp o' (List.mem_cons_of_mem _ ho')) ho
    · simp at h

end Provider

/-! ### Opening a store -/

theorem ObjectPath.not_mem_of_read? {text : List Char} {p : ObjectPath} (h : read? text = some p) :
    ".." ∉ p.parts := by
  unfold read? at h
  generalize (if text.head? = some '/' then text.tail else text) = trimmed at h
  simp only at h
  split at h
  · cases h
    simp [root]
  · generalize (if trimmed.getLast? = some '/' then trimmed.dropLast else trimmed).splitOnP (· == '/') = parts at h
    split at h
    · next hall =>
      cases h
      intro hmem
      obtain ⟨part, hpart, htext⟩ := List.mem_map.1 hmem
      have hok := List.all_eq_true.1 hall part hpart
      have hdots : part = ['.', '.'] := by rw [← String.toList_ofList (l := part), htext]; rfl
      simp [isPart, hdots] at hok
    · simp at h

namespace Location

private theorem eq_of_kind? {url : Url} {options : StoreOptions} {place : ObjectPath → Location} {path : List Char}
    (h : kind? url options = some (place, path)) :
    place = .files ∨ place = .memory ∨ ∃ store, place = .remote store := by
  have hremote : ∀ {isReachable : Bool} {path' : List Char}, remote? isReachable url path' = some (place, path) →
      ∃ store, place = .remote store := by
    intro isReachable path' hr
    unfold remote? at hr
    split at hr
    · simp only [Option.some.injEq, Prod.mk.injEq] at hr
      exact ⟨_, hr.1.symm⟩
    · simp at hr
  unfold kind? at h
  split at h <;> try exact .inr (.inr (hremote h))
  · simp only [Option.some.injEq, Prod.mk.injEq] at h
    exact .inl h.1.symm
  · simp only [Option.some.injEq, Prod.mk.injEq] at h
    exact .inr (.inl h.1.symm)
  · split at h <;> exact .inr (.inr (hremote h))
  · simp at h

theorem not_mem_of_ofUrl {text : String} {options : StoreOptions} {base : ObjectPath}
    (h : ofUrl text options = .ok (.files base)) : ".." ∉ base.parts := by
  unfold ofUrl at h
  split at h
  · simp at h
  · split at h
    · simp at h
    · split at h
      · simp at h
      · split at h
        · simp at h
        · next place path hkind =>
          split at h
          · next read hread =>
            rcases eq_of_kind? hkind with rfl | rfl | ⟨store, rfl⟩ <;> simp at h
            subst h
            obtain ⟨s, -, hs⟩ := Option.bind_eq_some_iff.1 hread
            exact ObjectPath.not_mem_of_read? hs
          · simp at h

end Location

namespace Depot

variable {d d' : Depot} {url : String} {options : StoreOptions} {p : Provider}

/-- What opening a store at a location comes to: the provider, and the stores there are afterwards. -/
inductive Opens (d : Depot) (url : String) (options : StoreOptions) : Provider → Depot → Prop
  | directory (path : String) (disk : FileTree) (root : List String)
    (hurl : Location.ofUrl url options = .ok (.directory path)) (hdisk : d.disk.makeDirectories path = .ok disk)
    (hpath : path.isEmpty = false) (hroot : disk.walk [] (FileTree.names path) = .ok root) :
    Opens d url options ⟨.directory root, .root, "file://" ++ path⟩ { d with disk := disk }
  | files (base : ObjectPath) (hurl : Location.ofUrl url options = .ok (.files base)) :
    Opens d url options ⟨.directory [], base, url⟩ d
  | memory (base : ObjectPath) (hurl : Location.ofUrl url options = .ok (.memory base)) :
    Opens d url options ⟨.memory d.memories.length, base, url⟩ { d with memories := d.memories ++ [.empty] }
  | remote (store : String) (base : ObjectPath) (hurl : Location.ofUrl url options = .ok (.remote store base)) :
    Opens d url options ⟨.remote store, base, url⟩ d

theorem opens_of_openStore (h : d.openStore url options = .ok (p, d')) : d.Opens url options p d' := by
  unfold openStore at h
  split at h
  · simp at h
  · next path hurl =>
    split at h
    · simp at h
    · next disk hdisk =>
      split at h
      · simp at h
      · next hpath =>
        split at h
        · next root hroot =>
          cases h
          exact .directory path disk root hurl hdisk (by simpa using hpath) hroot
        · simp at h
  · next base hurl =>
    cases h
    exact .files base hurl
  · next base hurl =>
    cases h
    exact .memory base hurl
  · next store base hurl =>
    cases h
    exact .remote store base hurl

/-- A provider that has been opened goes back up for no path that does not do so itself. -/
theorem isPlain_of_openStore (h : d.openStore url options = .ok (p, d')) {path : ObjectPath}
    (hpath : ".." ∉ path.parts) : p.IsPlain path := by
  cases opens_of_openStore h with
  | directory _ _ root _ _ _ hroot =>
    have hup := FileTree.not_mem_of_walk hroot (by simp)
    simp [Provider.IsPlain, DirectoryStore.place, Provider.qualify, ObjectPath.below, ObjectPath.root, hup, hpath]
  | files base hurl =>
    have hup := Location.not_mem_of_ofUrl hurl
    simp [Provider.IsPlain, DirectoryStore.place, Provider.qualify, ObjectPath.below, hup, hpath]
  | memory => trivial
  | remote => trivial

/-- A store that has been opened, unless it is a directory, is a map. -/
theorem isMap_of_openStore (h : d.openStore url options = .ok (p, d')) (hb : ∀ root, p.backend ≠ .directory root) :
    p.IsMap d' := by
  cases opens_of_openStore h with
  | directory _ _ root => exact absurd rfl (hb root)
  | files => exact absurd rfl (hb [])
  | memory => simp [Provider.IsMap]
  | remote => trivial

end Depot

end FailurePipeline
