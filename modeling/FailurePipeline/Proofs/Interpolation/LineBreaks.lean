import FailurePipeline.Config.Document
import FailurePipeline.Proofs.Interpolation.Meaning

/-!
# Line breaks that come with values

An interpolated text has no more of any kind of character than the text had and the values of its variables bring
(`countP_interpolate`).  Values with a line feed or a carriage return are refused, so that these two never become
more.  A reader of YAML ends a line at three other characters too, and those a value may bring
(`line_breaks_come_with_values`): it can so add a key to a configuration (`value_adds_a_key`).
-/

namespace FailurePipeline

namespace Interpolation

/-- How many line breaks there are in a text for a reader of YAML. -/
def breaks (cs : List Char) : Nat := cs.countP Yaml.isBreak

/-- The variable that a token refers to. -/
def Token.reference? : Token → Option (List Char)
  | .bare name | .braced name _ => some name
  | .character _ | .dollar => none

/-- The value of the variable that a token refers to. -/
def Token.brought (env : Environment) (t : Token) : List Char :=
  ((t.reference?.bind fun name => env.text? (String.ofList name)).map String.toList).getD []

/-- All that the variables of a text bring, in its order. -/
def brought (env : Environment) (text : String) : List Char := (tokens text.toList).flatMap (Token.brought env)

variable {env : Environment} {t : Token} {text out : String}

/-! ### One token -/

/-- A default is a part of its token. -/
private theorem default_sublist {name cs : List Char} {fallback : Fallback}
    (h : fallback = .ifUnset cs ∨ fallback = .ifUnsetOrEmpty cs) : cs.Sublist (Token.braced name fallback).chars := by
  rcases h with rfl | rfl
  · have hinfix : cs <:+: '$' :: '\x7b' :: name ++ '-' :: cs ++ ['\x7d'] :=
      ⟨'$' :: '\x7b' :: name ++ ['-'], ['\x7d'], by simp⟩
    exact hinfix.sublist
  · have hinfix : cs <:+: '$' :: '\x7b' :: name ++ ':' :: '-' :: cs ++ ['\x7d'] :=
      ⟨'$' :: '\x7b' :: name ++ [':', '-'], ['\x7d'], by simp⟩
    exact hinfix.sublist

/-- What stands for a token is the value that it brings, or a part of its own text. -/
theorem output_cases (env : Environment) (t : Token) :
    t.output env = t.brought env ∨ (t.output env).Sublist t.chars := by
  have hmeans : t.Means env (t.value env) := Token.means_iff.2 rfl
  have hempty : ∀ u, t.value env = .error u → (t.output env).Sublist t.chars := by
    intro u hu
    simp [Token.output, hu]
  have hout : ∀ cs, t.value env = .ok cs → t.output env = cs := by
    intro cs hcs
    simp [Token.output, hcs]
  generalize t.value env = o at hmeans hempty hout
  cases hmeans with
  | character c => exact .inr (hout _ rfl ▸ .refl _)
  | dollar => exact .inr (hout _ rfl ▸ List.sublist_cons_self ..)
  | bare h =>
    cases h with
    | lineBreak => exact .inr (hempty _ rfl)
    | notSet => exact .inr (hempty _ rfl)
    | value hv => exact .inl (by simp [hout _ rfl, Token.brought, Token.reference?, hv])
    | unset hv hf => simp at hf
    | empty hv hf => simp at hf
  | braced h =>
    cases h with
    | lineBreak => exact .inr (hempty _ rfl)
    | notSet => exact .inr (hempty _ rfl)
    | value hv => exact .inl (by simp [hout _ rfl, Token.brought, Token.reference?, hv])
    | unset hv hf => exact .inr (hout _ rfl ▸ default_sublist hf)
    | empty hv hf => exact .inr (hout _ rfl ▸ default_sublist (.inr hf))

/-- A variable whose reference is resolved brings no line feed and no carriage return. -/
theorem not_mem_brought {cs : List Char} (h : t.value env = .ok cs) : '\n' ∉ t.brought env ∧ '\r' ∉ t.brought env := by
  have hmeans : t.Means env (.ok cs) := Token.means_iff.2 h.symm
  have hyields : ∀ {name : List Char} {fallback : Fallback}, Yields env (String.ofList name) fallback (.ok cs) →
      t.reference? = some name → '\n' ∉ t.brought env ∧ '\r' ∉ t.brought env := by
    intro name fallback hy hname
    cases hy with
    | value hv hb => simpa [Token.brought, hname, hv, HasLineBreak] using hb
    | unset hv => simp [Token.brought, hname, hv]
    | empty hv => simp [Token.brought, hname, hv]
  cases hmeans with
  | character c => simp [Token.brought, Token.reference?]
  | dollar => simp [Token.brought, Token.reference?]
  | bare hy => exact hyields hy rfl
  | braced hy => exact hyields hy rfl

/-! ### All tokens -/

/-- An interpolation that succeeds has resolved every token. -/
theorem interpolate_eq_ok (h : interpolate env text = .ok out) :
    out.toList = (tokens text.toList).flatMap (Token.output env) ∧
      ∀ t ∈ tokens text.toList, ∃ cs, t.value env = .ok cs := by
  rw [interpolate, interpolateChars] at h
  cases herrors : (tokens text.toList).filterMap (Token.error? env) with
  | cons u us => simp [herrors, Except.map] at h
  | nil =>
    simp only [herrors, Except.map, Except.ok.injEq] at h
    refine ⟨by rw [← h, String.toList_ofList], fun t ht => ?_⟩
    have hnone := List.filterMap_eq_nil_iff.1 herrors t ht
    cases hv : t.value env with
    | ok cs => exact ⟨cs, rfl⟩
    | error u => simp [Token.error?, hv] at hnone

variable (p : Char → Bool)

private theorem countP_output (ts : List Token) :
    (ts.flatMap (Token.output env)).countP p ≤
      (ts.flatMap Token.chars).countP p + (ts.flatMap (Token.brought env)).countP p := by
  induction ts with
  | nil => simp
  | cons t ts ih =>
    simp only [List.flatMap_cons, List.countP_append]
    have hone : (t.output env).countP p ≤ t.chars.countP p + (t.brought env).countP p := by
      rcases output_cases env t with hbrought | hown
      · rw [hbrought]
        omega
      · have := hown.countP_le (p := p)
        omega
    omega

/-- Of every kind of character there are no more than in the text and in what its variables bring. -/
theorem countP_interpolate (h : interpolate env text = .ok out) :
    out.toList.countP p ≤ text.toList.countP p + (brought env text).countP p := by
  have hall := @countP_output env p (tokens text.toList)
  rwa [← (interpolate_eq_ok h).1, (decomposition_tokens text.toList).chars] at hall

/-- Line feeds and carriage returns never become more.  All line breaks together become more by those that the
variables bring at most, and these are of the three other kinds. -/
theorem line_breaks_come_with_values (h : interpolate env text = .ok out) :
    out.toList.count '\n' ≤ text.toList.count '\n' ∧ out.toList.count '\r' ≤ text.toList.count '\r' ∧
      breaks out.toList ≤ breaks text.toList + breaks (brought env text) ∧
      ∀ c ∈ brought env text, Yaml.isBreak c = true → c = '\u0085' ∨ c = '\u2028' ∨ c = '\u2029' := by
  have hnone : '\n' ∉ brought env text ∧ '\r' ∉ brought env text := by
    have htoken : ∀ t ∈ tokens text.toList, '\n' ∉ t.brought env ∧ '\r' ∉ t.brought env := by
      intro t ht
      obtain ⟨cs, hcs⟩ := (interpolate_eq_ok h).2 t ht
      exact not_mem_brought hcs
    constructor
    · intro hmem
      obtain ⟨t, ht, hc⟩ := List.mem_flatMap.1 hmem
      exact (htoken t ht).1 hc
    · intro hmem
      obtain ⟨t, ht, hc⟩ := List.mem_flatMap.1 hmem
      exact (htoken t ht).2 hc
  have hcount : ∀ c : Char, c ∉ brought env text → out.toList.count c ≤ text.toList.count c := by
    intro c hc
    have hle := countP_interpolate (· == c) h
    have hzero : (brought env text).countP (· == c) = 0 := List.count_eq_zero.2 hc
    rwa [hzero] at hle
  refine ⟨hcount _ hnone.1, hcount _ hnone.2, countP_interpolate Yaml.isBreak h, fun c hc hbreak => ?_⟩
  have hn : c ≠ '\n' := fun he => hnone.1 (he ▸ hc)
  have hr : c ≠ '\r' := fun he => hnone.2 (he ▸ hc)
  simpa [Yaml.isBreak, hn, hr, or_assoc] using hbreak

/-- An address with a line separator in it, and behind it a section of its own. -/
def twoLineAddress : Environment := fun name =>
  if name = "ADDRESS" then some (Utf8.encode "localhost:80\u2028failure_handling:\u2028  queue_capacity: 7") else none

/-- A configuration with a reference, of two lines. -/
def twoLines : String := "metrics:\n  address: $ADDRESS"

/-- What comes of the two lines. -/
def fourLines : String := "metrics:\n  address: localhost:80\u2028failure_handling:\u2028  queue_capacity: 7"

/-- Two line breaks are added, and the value brings as many. -/
theorem line_breaks_come_with_values_in_fourLines :
    interpolate twoLineAddress twoLines = .ok fourLines ∧
      breaks fourLines.toList ≤ breaks twoLines.toList + breaks (brought twoLineAddress twoLines) ∧
      breaks (brought twoLineAddress twoLines) = 2 := by
  have h : interpolate twoLineAddress twoLines = .ok fourLines := by decide +kernel
  exact ⟨h, (line_breaks_come_with_values h).2.2.1, by decide +kernel⟩

/-- With the lines that the value adds comes a key that the text does not have. -/
theorem value_adds_a_key :
    interpolate twoLineAddress twoLines = .ok fourLines ∧ ¬ breaks fourLines.toList ≤ breaks twoLines.toList ∧
      (Config.parse twoLineAddress twoLines).toOption.map (·.failureHandling.queueCapacity) = some 7 :=
  ⟨by decide +kernel, by decide +kernel, by decide +kernel⟩

end Interpolation

end FailurePipeline
