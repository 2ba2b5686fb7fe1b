import FailurePipeline.Proofs.Storage.Objects

/-!
# What a put changes

Every object of every store has an `Address`.  A put that succeeds leaves its octets at the address of its path,
and every other object of every store as it was (`Provider.find?_of_put`), whatever directories it makes.
-/

namespace FailurePipeline

namespace FileTree

variable {t t' : FileTree} {place : List String}

/-- The octets of the file at a place, if there is one. -/
def file? (t : FileTree) (place : List String) : Option Bytes :=
  match t.entry? place with
  | some (.file octets) => some octets
  | _ => none

theorem file?_set_directory (ht : t.entry? place = none) (place' : List String) :
    (t.set place .directory).file? place' = t.file? place' := by
  by_cases h : place' = place
  · subst h
    have hne : place' ≠ [] := by
      rintro rfl
      simp at ht
    simp [file?, entry?_set_self t .directory hne, ht]
  · rw [file?, entry?_set_of_ne t .directory h, file?]

private theorem file?_of_makeDirectory {ns : List String} (h : t.makeDirectory ns = .ok t')
    (place' : List String) : t'.file? place' = t.file? place' := by
  obtain ⟨place, -, hnone, rfl⟩ := eq_of_makeDirectory h
  exact file?_set_directory hnone place'

/-- Directories that are made leave all files alone. -/
theorem file?_of_makeReversed {reversed : List String} (h : t.makeReversed reversed = .ok t')
    (place' : List String) : t'.file? place' = t.file? place' := by
  induction reversed generalizing t' with
  | nil =>
    cases h
    rfl
  | cons last before ih =>
    simp only [makeReversed] at h
    split at h
    · next t₁ hmake =>
      cases h
      exact file?_of_makeDirectory hmake place'
    · split at h
      · simp at h
      · next t₁ hbefore =>
        split at h
        · next t₂ hmake =>
          cases h
          exact (file?_of_makeDirectory hmake place').trans (ih hbefore)
        · split at h
          · cases h
            exact ih hbefore
          · simp at h
    · split at h
      · cases h
        rfl
      · simp at h

theorem file?_set_file (t : FileTree) (octets : Bytes) (hne : place ≠ []) (place' : List String) :
    (t.set place (.file octets)).file? place' = if place' = place then some octets else t.file? place' := by
  split
  · next h => rw [h, file?, entry?_set_self t (.file octets) hne]
  · next h => rw [file?, entry?_set_of_ne t (.file octets) h, file?]

end FileTree

/-- A directory store writes the file at the place of the path, and no other. -/
theorem DirectoryStore.file?_of_put {t t' : FileTree} {root : List String} {p : ObjectPath} {octets : Bytes}
    (h : put t root p octets = .ok t') (place' : List String) :
    t'.file? place' = if place' = place root p then some octets else t.file? place' := by
  obtain ⟨-, name, t₁, hlast, -, hmake, -, rfl⟩ := eq_of_put h
  have hne : place root p ≠ [] := by
    intro hnil
    have hparts : p.parts = [] := (List.append_eq_nil_iff.1 hnil).2
    simp [hparts] at hlast
  rw [FileTree.file?_set_file t₁ octets hne, FileTree.file?_of_makeReversed hmake]

/-! ### Addresses -/

/-- Where an object is: at a place of the file system, or under a path of a store in memory or of the remote ones. -/
inductive Address where
  | file (place : List String)
  | object (slot : Nat) (path : ObjectPath)
  | elsewhere (path : ObjectPath)
  deriving Repr, DecidableEq, Inhabited

/-- What is kept at an address. -/
def Depot.find? (d : Depot) : Address → Option Bytes
  | .file place => d.disk.file? place
  | .object slot path => d.memories[slot]?.bind (·.get? path)
  | .elsewhere path => d.elsewhere.get? path

namespace Provider

variable {p : Provider} {path : ObjectPath}

/-- Where a provider keeps the object under a path. -/
def address? (p : Provider) (path : ObjectPath) : Option Address :=
  match p.backend with
  | .directory root => some (.file (DirectoryStore.place root (p.qualify path)))
  | .memory slot => some (.object slot (p.qualify path))
  | .remote store => some (.elsewhere (p.qualifyIn store path))

/-- What has been put is at the address of its path, and everything else is where it was. -/
theorem find?_of_put {d d' : Depot} {octets : Bytes} (h : p.put d path octets = .ok d') :
    ∃ address, p.address? path = some address ∧
      ∀ other, d'.find? other = if other = address then some octets else d.find? other := by
  cases puts_of_put h with
  | directory root disk hb hput =>
    refine ⟨.file (DirectoryStore.place root (p.qualify path)), by rw [address?, hb], fun other => ?_⟩
    cases other with
    | file place' => simp [Depot.find?, DirectoryStore.file?_of_put hput]
    | object slot path' => simp [Depot.find?]
    | elsewhere path' => simp [Depot.find?]
  | memory slot m hb hm =>
    refine ⟨.object slot (p.qualify path), by rw [address?, hb], fun other => ?_⟩
    cases other with
    | file place' => simp [Depot.find?]
    | object slot' path' =>
      have hlt := (List.getElem?_eq_some_iff.1 hm).1
      by_cases hs : slot' = slot
      · subst hs
        simp only [Depot.find?, List.getElem?_set_self hlt, Option.bind_some, hm]
        by_cases hp : path' = p.qualify path
        · simp [hp, Memory.get?_put_self]
        · simp [hp, Memory.get?_put_of_ne m octets hp]
      · simp [Depot.find?, hs, Ne.symm hs]
    | elsewhere path' => simp [Depot.find?]
  | remote store hb =>
    refine ⟨.elsewhere (p.qualifyIn store path), by rw [address?, hb], fun other => ?_⟩
    cases other with
    | file place' => simp [Depot.find?]
    | object slot' path' => simp [Depot.find?]
    | elsewhere path' =>
      by_cases hp : path' = p.qualifyIn store path
      · simp [Depot.find?, hp, Memory.get?_put_self]
      · simp [Depot.find?, hp, Memory.get?_put_of_ne d.elsewhere octets hp]

/-- The address of an object ends in the last part of its path. -/
theorem eq_of_address?_eq {p' : Provider} {path' : ObjectPath} {address : Address}
    (h : p.address? path = some address) (h' : p'.address? path' = some address) (hne : path.parts ≠ [])
    (hne' : path'.parts ≠ []) : path.parts.getLast? = path'.parts.getLast? := by
  have hlast : ∀ {first rest : List String}, rest ≠ [] → (first ++ rest).getLast? = rest.getLast? := by
    intro first rest hrest
    rw [List.getLast?_append, List.getLast?_eq_some_getLast hrest]
    rfl
  have hplace : ∀ {q : Provider} {r : List String} {o : ObjectPath}, o.parts ≠ [] →
      (DirectoryStore.place r (q.qualify o)).getLast? = o.parts.getLast? := by
    intro q r o ho
    rw [DirectoryStore.place, qualify, ObjectPath.below, ← List.append_assoc, hlast ho]
  have hpath : ∀ {q : Provider} {o : ObjectPath}, o.parts ≠ [] →
      (q.qualify o).parts.getLast? = o.parts.getLast? := fun ho => hlast ho
  have hremote : ∀ {q : Provider} {store : String} {o : ObjectPath}, o.parts ≠ [] →
      (q.qualifyIn store o).parts.getLast? = o.parts.getLast? := by
    intro q store o ho
    rw [qualifyIn, qualify, ObjectPath.below, ObjectPath.below, ← List.append_assoc, hlast ho]
  unfold address? at h h'
  split at h <;> split at h' <;> cases h <;> simp only [Option.some.injEq, reduceCtorEq, Address.file.injEq,
    Address.object.injEq, Address.elsewhere.injEq] at h'
  · rw [← hplace hne, ← hplace hne', h']
  · rw [← hpath hne, ← hpath hne', h'.2]
  · rw [← hremote hne, ← hremote hne', h']

end Provider

end FailurePipeline
