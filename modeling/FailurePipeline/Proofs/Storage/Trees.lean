import FailurePipeline.Storage.Directory

/-!
# Files that stay

Making directories leaves every entry of a tree where it is, and writing a file leaves all directories and all
other files (`FileTree.KeepsDirectories`).  So the file that a directory store has put under a path is found
there until the same path is written again.
-/

namespace FailurePipeline

namespace FileTree

variable {t t' t'' : FileTree} {place place' ns : List String}

@[simp] theorem entry?_nil (t : FileTree) : t.entry? [] = some .directory := rfl

theorem entry?_set_self (t : FileTree) (e : FileEntry) (hne : place ≠ []) :
    FileTree.entry? (t.set place e) place = some e := by
  have hempty : place.isEmpty = false := by simpa using hne
  have hnone : (t.entries.filter (·.1 != place)).find? (·.1 == place) = none := by
    rw [List.find?_eq_none]
    intro entry hentry
    simpa using (List.mem_filter.1 hentry).2
  simp [ entry?, set, hempty, List.find?_append, hnone]

theorem entry?_set_of_ne (t : FileTree) (e : FileEntry) (hne : place' ≠ place) :
    FileTree.entry? (t.set place e) place' = t.entry? place' := by
  unfold set
  split
  · rfl
  · have hfind : (t.entries.filter (·.1 != place)).find? (·.1 == place') = t.entries.find? (·.1 == place') := by
      rw [List.find?_filter]
      congr 1
      funext entry
      by_cases h : entry.1 = place'
      · simp [h, hne]
      · simp [h]
    have hlast : ((place, e).1 == place') = false := by simpa using Ne.symm hne
    simp [ entry?, List.find?_append, hfind, hlast]

/-- Every directory of the first tree is one of the second. -/
def KeepsDirectories (t t' : FileTree) : Prop :=
  ∀ place, t.entry? place = some .directory → t'.entry? place = some .directory

/-- Everything in the first tree is in the second. -/
def Extends (t t' : FileTree) : Prop := ∀ place e, t.entry? place = some e → t'.entry? place = some e

theorem Extends.keepsDirectories (h : Extends t t') : KeepsDirectories t t' := fun place => h place .directory

theorem Extends.trans (h : Extends t t') (h' : Extends t' t'') : Extends t t'' :=
  fun place e he => h' place e (h place e he)

/-- An entry that takes the place of a file, or of nothing, takes no directory away. -/
theorem keepsDirectories_set (e : FileEntry) (hnot : t.entry? place ≠ some .directory) :
    KeepsDirectories t (t.set place e) := by
  intro place' hdir
  have hne : place' ≠ place := by
    rintro rfl
    exact hnot hdir
  rwa [entry?_set_of_ne _ _ hne]

/-- Names lead to the same place when there are more directories. -/
theorem walk_of_keepsDirectories (h : KeepsDirectories t t') {base : List String}
    (hw : t.walk base ns = .ok place) : t'.walk base ns = .ok place := by
  induction ns generalizing base with
  | nil => exact hw
  | cons n rest ih =>
    rw [walk] at hw ⊢
    split
    · next hup =>
      rw [if_pos hup] at hw
      exact ih hw
    · next hup =>
      rw [if_neg hup] at hw
      split
      · next hlong => simp [if_pos hlong] at hw
      · next hlong =>
        rw [if_neg hlong] at hw
        split
        · next hlast => rwa [if_pos hlast] at hw
        · next hlast =>
          rw [if_neg hlast] at hw
          split at hw
          · next hdir =>
            rw [h _ hdir]
            exact ih hw
          · simp at hw
          · simp at hw

/-- Names that do not go back up lead to where they say. -/
theorem eq_of_walk {base : List String} (hw : t.walk base ns = .ok place) (hup : ".." ∉ ns) :
    place = base ++ ns := by
  induction ns generalizing base with
  | nil =>
    cases hw
    simp
  | cons n rest ih =>
    have hn : (n == "..") = false := by
      rw [beq_eq_false_iff_ne]
      exact fun he => hup (by simp [he])
    have hrest : ".." ∉ rest := fun hmem => hup (List.mem_cons_of_mem n hmem)
    simp only [walk, hn, Bool.false_eq_true, if_false] at hw
    split at hw
    · simp at hw
    · split at hw
      · next hlast =>
        cases hw
        simp [List.isEmpty_iff.1 hlast]
      · split at hw
        · rw [ih hw hrest]
          simp
        · simp at hw
        · simp at hw

/-- No place has a name that goes back up. -/
theorem not_mem_of_walk {base : List String} (hw : t.walk base ns = .ok place) (hb : ".." ∉ base) :
    ".." ∉ place := by
  induction ns generalizing base with
  | nil =>
    cases hw
    exact hb
  | cons n rest ih =>
    rw [walk] at hw
    split at hw
    · exact ih hw fun hmem => hb (List.dropLast_subset _ hmem)
    · next hup =>
      have hnext : ".." ∉ base ++ [n] := by
        simp only [List.mem_append, List.mem_singleton, not_or]
        exact ⟨hb, fun he => hup (by simp [← he])⟩
      split at hw
      · simp at hw
      · split at hw
        · cases hw
          exact hnext
        · split at hw
          · exact ih hw hnext
          · simp at hw
          · simp at hw

/-- One name more leads on from a directory. -/
theorem walk_concat {base : List String} {name : String} (hw : t.walk base ns = .ok place)
    (hdir : t.entry? place = some .directory) (hup : ".." ∉ ns ++ [name]) (hlong : name.utf8ByteSize ≤ maxName) :
    t.walk base (ns ++ [name]) = .ok (place ++ [name]) := by
  have hname : (name == "..") = false := by
    rw [beq_eq_false_iff_ne]
    exact fun he => hup (by simp [he])
  induction ns generalizing base with
  | nil =>
    cases hw
    simp [walk, hname, Nat.not_lt.2 hlong]
  | cons n rest ih =>
    have hn : (n == "..") = false := by
      rw [beq_eq_false_iff_ne]
      exact fun he => hup (by simp [he])
    have hrest : ".." ∉ rest ++ [name] := fun hmem => hup (List.mem_cons_of_mem n hmem)
    simp only [walk, List.cons_append, hn, Bool.false_eq_true, if_false] at hw ⊢
    split at hw
    · simp at hw
    · next hshort =>
      rw [if_neg hshort, if_neg (by simp)]
      split at hw
      · next hlast =>
        cases hw
        have hnil := List.isEmpty_iff.1 hlast
        rw [hdir, hnil]
        simp [walk, hname, Nat.not_lt.2 hlong]
      · split at hw
        · exact ih hw hrest
        · simp at hw
        · simp at hw

theorem lookup_eq_ok_iff {e : FileEntry} :
    t.lookup ns = .ok e ↔ ∃ place, t.walk [] ns = .ok place ∧ t.entry? place = some e := by
  unfold lookup
  cases hw : t.walk [] ns with
  | error f => simp
  | ok place => cases he : t.entry? place <;> simp [he]

/-! ### Making directories -/

/-- A directory is made where there was nothing. -/
theorem eq_of_makeDirectory (h : t.makeDirectory ns = .ok t') :
    ∃ place, t.walk [] ns = .ok place ∧ t.entry? place = none ∧ t' = t.set place .directory := by
  unfold makeDirectory at h
  split at h
  · simp at h
  · next place hw =>
    split at h
    · simp at h
    · next hnone =>
      cases h
      exact ⟨place, hw, hnone, rfl⟩

theorem extends_of_makeDirectory (h : t.makeDirectory ns = .ok t') : Extends t t' := by
  obtain ⟨place, hw, hnone, rfl⟩ := eq_of_makeDirectory h
  intro place' e he
  by_cases hp : place' = place
  · simp [hp, hnone] at he
  · rwa [entry?_set_of_ne _ _ hp]

private theorem lookup_of_makeDirectory (h : t.makeDirectory ns = .ok t') : t'.lookup ns = .ok .directory := by
  have hext := extends_of_makeDirectory h
  obtain ⟨place, hw, hnone, rfl⟩ := eq_of_makeDirectory h
  refine lookup_eq_ok_iff.2 ⟨place, walk_of_keepsDirectories hext.keepsDirectories hw, ?_⟩
  refine entry?_set_self t .directory fun hnil => ?_
  simp [hnil] at hnone

/-- Directories that have been made are there, and everything else still is. -/
theorem of_makeReversed {reversed : List String} (h : t.makeReversed reversed = .ok t') :
    Extends t t' ∧ t'.lookup reversed.reverse = .ok .directory := by
  -- The directory is made at the first or at the second attempt, or was there.
  induction reversed generalizing t' with
  | nil =>
    cases h
    exact ⟨fun _ _ he => he, rfl⟩
  | cons last before ih =>
    simp only [makeReversed] at h
    split at h
    · next t₁ hmake =>
      cases h
      exact ⟨extends_of_makeDirectory hmake, lookup_of_makeDirectory hmake⟩
    · split at h
      · simp at h
      · next t₁ hbefore =>
        have hext := (ih hbefore).1
        split at h
        · next t₂ hmake =>
          cases h
          exact ⟨hext.trans (extends_of_makeDirectory hmake), lookup_of_makeDirectory hmake⟩
        · split at h
          · next hl =>
            cases h
            exact ⟨hext, hl⟩
          · simp at h
    · split at h
      · next hl =>
        cases h
        exact ⟨fun _ _ he => he, hl⟩
      · simp at h

end FileTree

namespace DirectoryStore

open FileTree

variable {t t' : FileTree} {root : List String} {p p' : ObjectPath} {octets octets' : Bytes}

/-- A directory store makes the directories above a file, and then the file. -/
theorem eq_of_put (h : put t root p octets = .ok t') :
    isObject p = true ∧ ∃ name t₁, p.parts.getLast? = some name ∧ name.utf8ByteSize ≤ maxName ∧
      t.makeReversed (place root p).dropLast.reverse = .ok t₁ ∧
      t₁.entry? (place root p) ≠ some .directory ∧ t' = t₁.set (place root p) (.file octets) := by
  unfold put at h
  split at h
  · next name hobj hlast =>
    split at h
    · simp at h
    · next hshort =>
      split at h
      · simp at h
      · next t₁ hmake =>
        split at h
        · simp at h
        · next hnot =>
          cases h
          exact ⟨hobj, name, t₁, hlast, by omega, hmake, hnot, rfl⟩
  · simp at h

theorem keepsDirectories_of_put (h : put t root p octets = .ok t') : KeepsDirectories t t' := by
  obtain ⟨-, name, t₁, -, -, hmake, hnot, rfl⟩ := eq_of_put h
  exact fun place' hdir => keepsDirectories_set _ hnot place' ((of_makeReversed hmake).1 _ _ hdir)

/-- What has been put is found. -/
theorem get_put_self (h : put t root p octets = .ok t') (hup : ".." ∉ place root p) :
    get t' root p = .ok octets := by
  obtain ⟨hobj, name, t₁, hlast, hshort, hmake, hnot, rfl⟩ := eq_of_put h
  have hdir : t₁.lookup (place root p).dropLast = .ok .directory := by
    simpa using (of_makeReversed hmake).2
  have hne : place root p ≠ [] := by
    intro hnil
    simp [hnil] at hnot
  have hsplit : place root p = (place root p).dropLast ++ [name] := by
    have hlast' : (place root p).getLast? = some name := by
      rw [place, List.getLast?_append, hlast]
      rfl
    rw [List.getLast?_eq_some_getLast hne] at hlast'
    rw [← Option.some.inj hlast', List.dropLast_concat_getLast]
  have hkeeps := keepsDirectories_set (.file octets) hnot
  obtain ⟨above, hwalk, hentry⟩ := lookup_eq_ok_iff.1 hdir
  have hup' : ".." ∉ (place root p).dropLast ++ [name] := hsplit ▸ hup
  have habove : above = (place root p).dropLast := by
    simpa using eq_of_walk hwalk fun hmem => hup' (List.mem_append_left _ hmem)
  have hfull := walk_concat (walk_of_keepsDirectories hkeeps hwalk) (hkeeps _ hentry) hup' hshort
  rw [habove, ← hsplit] at hfull
  have hlookup : (t₁.set (place root p) (.file octets)).lookup (place root p) = .ok (.file octets) :=
    lookup_eq_ok_iff.2 ⟨_, hfull, entry?_set_self _ _ hne⟩
  simp [get, hobj, hlookup]

/-- What is under another path stays. -/
theorem get_put_of_ne (h : put t root p octets = .ok t') (hne : place root p' ≠ place root p)
    (hup : ".." ∉ place root p') (hget : get t root p' = .ok octets') : get t' root p' = .ok octets' := by
  have hkeeps := keepsDirectories_of_put h
  obtain ⟨-, name, t₁, -, -, hmake, -, rfl⟩ := eq_of_put h
  unfold get at hget ⊢
  split at hget
  · next hobj =>
    rw [if_pos hobj]
    have hlookup : t.lookup (place root p') = .ok (.file octets') := by
      split at hget <;> simp_all
    obtain ⟨place', hwalk, hentry⟩ := lookup_eq_ok_iff.1 hlookup
    have hplace : place' = place root p' := by simpa using eq_of_walk hwalk hup
    have hentry' : FileTree.entry? (t₁.set (place root p) (.file octets)) place' = some (.file octets') := by
      rw [entry?_set_of_ne _ _ (hplace ▸ hne)]
      exact (of_makeReversed hmake).1 _ _ hentry
    rw [lookup_eq_ok_iff.2 ⟨place', walk_of_keepsDirectories hkeeps hwalk, hentry'⟩]
  · simp at hget

end DirectoryStore

end FailurePipeline
