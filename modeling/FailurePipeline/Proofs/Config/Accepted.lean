import FailurePipeline.Config.File

/-!
# What an accepted configuration holds

Whatever a text says, the numbers of a configuration that is read from it are words of 64 bits, and there is room for
a batch (`Config.Accepted.isBounded`).  An invariant of a record that every field keeps holds of the record as it is
decoded (`Yaml.Document.fields_induction`).
-/

namespace FailurePipeline

namespace Yaml

namespace Plain

variable {limit n : Nat} {cs : List Char}

private theorem digits?_le {base : Nat} (h : digits? base limit cs = some n) : n ≤ limit := by
  obtain ⟨ds, -, hds⟩ := Option.bind_eq_some_iff.1 h
  split at hds
  · simp at hds
  · simpa using (Option.filter_eq_some_iff.1 hds).2

/-- A number that is read is not above the limit. -/
theorem natural?_le (h : natural? limit cs = some n) : n ≤ limit := by
  have hdecimal : ∀ {unsigned : List Char} {c : Bool},
      (if c then none else digits? 10 limit unsigned) = some n → n ≤ limit := by
    intro unsigned c hc
    split at hc
    · simp at hc
    · exact digits?_le hc
  unfold natural? at h
  simp only at h
  split at h
  · split at h
    · split at h
      · simp at h
      · split at h
        · next hds =>
          cases h
          exact digits?_le hds
        · exact hdecimal h
    · exact hdecimal h
  · exact hdecimal h

end Plain

/-! ### Decoding -/

variable {α β σ : Type}

private theorem bind_eq_ok {x : Decoded α} {f : α → Decoded β} {b : β} (h : x >>= f = .ok b) :
    ∃ a, x = .ok a ∧ f a = .ok b := by
  cases x with
  | error e => simp [bind, Except.bind] at h
  | ok a => exact ⟨a, rfl, h⟩

private theorem of_placing {path : String} {mark : Mark} {x : Decoded α} {a : α}
    (h : placing path mark x = .ok a) : x = .ok a := by
  unfold placing at h
  split at h
  · simp at h
  · exact h

private theorem mismatch_ne_ok (path expected : String) (n : Node) (a : α) : mismatch path expected n ≠ .ok a := by
  cases n <;> simp [mismatch]

/-- What holds at first and is kept by every step holds at the end of a fold that is not refused. -/
private theorem foldlM_induction {P : σ → Prop} {step : σ → α → Decoded σ}
    (hstep : ∀ s a s', P s → step s a = .ok s' → P s') {entries : List α} {init s : σ} (hinit : P init)
    (h : entries.foldlM step init = .ok s) : P s := by
  induction entries generalizing init with
  | nil =>
    cases h
    exact hinit
  | cons a as ih =>
    rw [List.foldlM_cons] at h
    obtain ⟨s', hs', hrest⟩ := bind_eq_ok h
    exact ih (hstep init a s' hinit hs') hrest

namespace Document

variable {d : Document} {n : Node} {path : String}

theorem word_le {expected : String} {k : Nat} (h : d.word path n expected = .ok k) : k ≤ Plain.word := by
  unfold word at h
  simp only at h
  split at h
  · split at h
    · next hk =>
      cases h
      split at hk
      · exact Plain.natural?_le hk
      · simp at hk
    · exact absurd h (mismatch_ne_ok path expected _ k)
  · exact absurd h (mismatch_ne_ok path expected _ k)

/-- What holds of a record at first and is kept by setting each of its fields holds of the record that is decoded. -/
theorem fields_induction {P : σ → Prop} {name : String} {known : List String}
    {set : σ → (field path : String) → Node → Decoded σ} {init s : σ} {seen : List String} {mark : Mark}
    (hset : ∀ s field path n s', P s → set s field path n = .ok s' → P s') (hinit : P init)
    (h : d.fields path name known set init n = .ok (s, seen, mark)) : P s := by
  obtain ⟨⟨place, entries⟩, -, h⟩ := bind_eq_ok h
  obtain ⟨⟨s', seen'⟩, hfold, h⟩ := bind_eq_ok h
  cases h
  -- The fold carries the names of the fields that have been read, too; the invariant is about the record alone.
  refine foldlM_induction (P := fun acc : σ × List String => P acc.1) ?_ hinit (of_placing hfold)
  rintro ⟨s, seen⟩ ⟨key, value⟩ acc hs hstep
  obtain ⟨field, -, hstep⟩ := bind_eq_ok hstep
  simp only at hstep
  split at hstep
  · simp at hstep
  · split at hstep
    · simp [refuse] at hstep
    · obtain ⟨s', hs', hstep⟩ := bind_eq_ok hstep
      cases hstep
      exact hset s field _ value s' hs hs'

end Document

end Yaml

/-- The numbers of the settings are words of 64 bits. -/
def HandlingConfig.IsBounded (c : HandlingConfig) : Prop :=
  c.queueCapacity ≤ Yaml.Plain.word ∧ c.shutdownAwait ≤ Yaml.Plain.word

namespace Config

open Yaml (Document Node Decoded)

variable {d : Document} {n : Node} {path : String} {c : Config}

private theorem isBounded_default : ({} : HandlingConfig).IsBounded := ⟨by decide, by decide⟩

private theorem setHandling_isBounded {h h' : HandlingConfig} {field : String} (hb : h.IsBounded)
    (hset : setHandling d h field path n = .ok h') : h'.IsBounded := by
  unfold setHandling at hset
  split at hset
  · obtain ⟨k, hk, hset⟩ := Yaml.bind_eq_ok hset
    cases hset
    exact ⟨Document.word_le hk, hb.2⟩
  · split at hset
    · obtain ⟨k, hk, hset⟩ := Yaml.bind_eq_ok hset
      cases hset
      exact ⟨hb.1, Document.word_le hk⟩
    · split at hset
      · obtain ⟨k, -, hset⟩ := Yaml.bind_eq_ok hset
        cases hset
        exact hb
      · obtain ⟨k, -, hset⟩ := Yaml.bind_eq_ok hset
        cases hset
        exact hb

private theorem decodeHandling_isBounded {h : HandlingConfig} (hd : decodeHandling d path n = .ok h) :
    h.IsBounded := by
  obtain ⟨⟨s, seen, mark⟩, hfields, hd⟩ := Yaml.bind_eq_ok hd
  cases hd
  exact Document.fields_induction (fun _ _ _ _ _ => setHandling_isBounded) isBounded_default hfields

private theorem setConfig_isBounded {c' : Config} {field : String} (hb : c.failureHandling.IsBounded)
    (hset : setConfig d c field path n = .ok c') : c'.failureHandling.IsBounded := by
  unfold setConfig at hset
  split at hset
  · obtain ⟨h, hh, hset⟩ := Yaml.bind_eq_ok hset
    cases hset
    exact decodeHandling_isBounded hh
  · split at hset
    · obtain ⟨k, -, hset⟩ := Yaml.bind_eq_ok hset
      cases hset
      exact hb
    · obtain ⟨k, -, hset⟩ := Yaml.bind_eq_ok hset
      cases hset
      exact hb

theorem decodeRoot_isBounded (h : decodeRoot d n = .ok c) : c.failureHandling.IsBounded := by
  obtain ⟨⟨s, seen, mark⟩, hfields, h⟩ := Yaml.bind_eq_ok h
  cases h
  exact Document.fields_induction (P := fun c : Config => c.failureHandling.IsBounded)
    (fun _ _ _ _ _ => setConfig_isBounded) isBounded_default hfields

theorem decode_isBounded {text : String} (h : decode text = .ok c) : c.failureHandling.IsBounded := by
  unfold decode at h
  split at h
  · next hd =>
    cases h
    obtain ⟨a, ha, hd⟩ := Yaml.bind_eq_ok hd
    split at hd
    · cases hd
      exact decodeRoot_isBounded ha
    · simp at hd
  · simp at h

theorem capacity_pos_of_validate (h : c.validate = .ok ()) : 0 < c.failureHandling.queueCapacity := by
  unfold validate at h
  split at h
  · simp at h
  · omega

/-! ### Accepted configurations -/

/-- A configuration that has been read from a text or a file and has not been refused. -/
inductive Accepted (env : Environment) (c : Config) : Prop
  | text (text : String) (h : parse env text = .ok c)
  | file (readFile : String → Except String Bytes) (path : String) (h : ofFile env readFile path = .ok c)

namespace Accepted

variable {env : Environment}

/-- A file holds a text. -/
theorem exists_text (h : Accepted env c) : ∃ text, parse env text = .ok c := by
  cases h with
  | text text h => exact ⟨text, h⟩
  | file readFile path h =>
    unfold ofFile at h
    split at h
    · split at h
      · simp at h
      · split at h
        · next text _ => exact ⟨text, h⟩
        · simp at h
    · simp at h

/-- There is room for a batch, and the numbers are words of 64 bits. -/
theorem isBounded (h : Accepted env c) :
    0 < c.failureHandling.queueCapacity ∧ c.failureHandling.IsBounded := by
  obtain ⟨text, h⟩ := h.exists_text
  unfold parse at h
  split at h
  · simp at h
  · next resolved _ =>
    cases hdecode : decode resolved with
    | error e => simp [hdecode, bind, Except.bind] at h
    | ok c' =>
      cases hvalidate : c'.validate with
      | error e => simp [hdecode, hvalidate, bind, Except.bind] at h
      | ok u =>
        simp only [hdecode, hvalidate, bind, Except.bind, Except.ok.injEq] at h
        subst h
        exact ⟨capacity_pos_of_validate hvalidate, decode_isBounded hdecode⟩

end Accepted

end Config

end FailurePipeline
