import FailurePipeline.Proofs.Interpolation.Grammar
import FailurePipeline.Proofs.Text.Utf8
import Mathlib.Data.List.Forall2

/-!
# What a text with references comes to

Each token of a text has one outcome, by what its variable is set to (`Token.Means`).  The interpolation of the
text reports every outcome that is an error, in the order of the text; where there is none it puts the outcomes
one behind the other, and looks at none of them again (`interpolate_follows_grammar`).
-/

namespace FailurePipeline

/-- A variable has a text if it is set to the octets of this text. -/
theorem Environment.text?_eq_some_iff {env : Environment} {name text : String} :
    env.text? name = some text ↔ env name = some (Utf8.encode text) := by
  rw [text?, Option.bind_eq_some_iff]
  constructor
  · rintro ⟨octets, hset, htext⟩
    rw [hset, Utf8.eq_encodeChars_of_decode? htext, Utf8.encode]
  · intro hset
    refine ⟨_, hset, ?_⟩
    rw [Utf8.encode, Utf8.decode?_encodeChars, String.ofList_toList]

namespace Interpolation

/-- Whether a line ends in a value. -/
def HasLineBreak (value : String) : Prop := '\n' ∈ value.toList ∨ '\r' ∈ value.toList

/-- What a reference to a variable comes to.  A variable whose value is no text counts as not set, and a value with
a line break is refused whatever the default. -/
inductive Yields (env : Environment) (name : String) (fallback : Fallback) : Except Unresolved (List Char) → Prop
  | lineBreak {value : String} (hv : env.text? name = some value) (hb : HasLineBreak value) :
    Yields env name fallback (.error ⟨name, .lineBreak⟩)
  | notSet (hv : env.text? name = none) (hf : fallback = .required) :
    Yields env name fallback (.error ⟨name, .notSet⟩)
  | value {value : String} (hv : env.text? name = some value) (hb : ¬ HasLineBreak value)
    (he : value = "" → ∀ text, fallback ≠ .ifUnsetOrEmpty text) : Yields env name fallback (.ok value.toList)
  | unset {text : List Char} (hv : env.text? name = none)
    (hf : fallback = .ifUnset text ∨ fallback = .ifUnsetOrEmpty text) : Yields env name fallback (.ok text)
  | empty {text : List Char} (hv : env.text? name = some "") (hf : fallback = .ifUnsetOrEmpty text) :
    Yields env name fallback (.ok text)

/-- What a token comes to. -/
inductive Token.Means (env : Environment) : Token → Except Unresolved (List Char) → Prop
  | character (c : Char) : Means env (.character c) (.ok [c])
  | dollar : Means env .dollar (.ok ['$'])
  | bare {name : List Char} {o : Except Unresolved (List Char)} (h : Yields env (String.ofList name) .required o) :
    Means env (.bare name) o
  | braced {name : List Char} {fallback : Fallback} {o : Except Unresolved (List Char)}
    (h : Yields env (String.ofList name) fallback o) : Means env (.braced name fallback) o

variable {env : Environment}

private theorem any_isLineBreak {value : String} :
    value.toList.any isLineBreak = true ↔ HasLineBreak value := by
  simp only [List.any_eq_true, isLineBreak, Bool.or_eq_true, beq_iff_eq, HasLineBreak]
  constructor
  · rintro ⟨c, hc, rfl | rfl⟩
    · exact .inl hc
    · exact .inr hc
  · rintro (h | h)
    · exact ⟨_, h, .inl rfl⟩
    · exact ⟨_, h, .inr rfl⟩

private theorem resolve_of_yields {name : String} {fallback : Fallback} {o : Except Unresolved (List Char)}
    (h : Yields env name fallback o) : resolve env name fallback = o := by
  cases h with
  | lineBreak hv hb => simp [resolve, hv, any_isLineBreak.2 hb]
  | notSet hv hf => simp [resolve, hv, hf]
  | @value value hv hb he =>
    have hany : value.toList.any isLineBreak = false := by
      rw [Bool.eq_false_iff, ne_eq, any_isLineBreak]
      exact hb
    simp only [resolve, hv, hany, Bool.false_eq_true, if_false]
    cases fallback with
    | ifUnsetOrEmpty text =>
      have hne : value.isEmpty = false := by
        rw [Bool.eq_false_iff, ne_eq, String.isEmpty_iff]
        exact fun hempty => he hempty text rfl
      simp [hne]
    | _ => rfl
  | unset hv hf => rcases hf with rfl | rfl <;> simp [resolve, hv]
  | empty hv hf => simp [resolve, hv, hf]

private theorem yields_resolve (env : Environment) (name : String) (fallback : Fallback) :
    Yields env name fallback (resolve env name fallback) := by
  cases hv : env.text? name with
  | none =>
    cases fallback with
    | required => simpa [resolve, hv] using Yields.notSet hv rfl
    | ifUnset text => simpa [resolve, hv] using Yields.unset hv (.inl rfl)
    | ifUnsetOrEmpty text => simpa [resolve, hv] using Yields.unset hv (.inr rfl)
  | some value =>
    by_cases hb : HasLineBreak value
    · simpa [resolve, hv, any_isLineBreak.2 hb] using Yields.lineBreak hv hb
    · by_cases he : value = "" → ∀ text, fallback ≠ .ifUnsetOrEmpty text
      · have hyields := Yields.value hv hb he
        rwa [← resolve_of_yields hyields] at hyields
      · obtain ⟨rfl, hsome⟩ := Classical.not_imp.1 he
        obtain ⟨text, hf⟩ := Classical.not_forall.1 hsome
        have hyields := Yields.empty hv (Classical.not_not.1 hf)
        rwa [← resolve_of_yields hyields] at hyields

/-- Every token has one outcome. -/
theorem Token.means_iff {t : Token} {o : Except Unresolved (List Char)} : t.Means env o ↔ o = t.value env := by
  constructor
  · intro h
    cases h with
    | character c => rfl
    | dollar => rfl
    | bare h => exact (resolve_of_yields h).symm
    | braced h => exact (resolve_of_yields h).symm
  · rintro rfl
    cases t with
    | character c => exact .character c
    | dollar => exact .dollar
    | bare name => exact .bare (yields_resolve ..)
    | braced name fallback => exact .braced (yields_resolve ..)

/-- The errors among outcomes, in order. -/
def failures (outcomes : List (Except Unresolved (List Char))) : List Unresolved :=
  outcomes.filterMap fun
    | .error u => some u
    | .ok _ => none

/-- The texts among outcomes, one behind the other. -/
def written (outcomes : List (Except Unresolved (List Char))) : List Char :=
  outcomes.flatMap fun
    | .ok cs => cs
    | .error _ => []

private theorem forall₂_means_iff {ts : List Token} {outcomes : List (Except Unresolved (List Char))} :
    List.Forall₂ (Token.Means env) ts outcomes ↔ outcomes = ts.map (Token.value env) := by
  induction ts generalizing outcomes with
  | nil => simp
  | cons t ts ih => cases outcomes <;> simp [Token.means_iff, ih]

private theorem failures_map_value (ts : List Token) :
    failures (ts.map (Token.value env)) = ts.filterMap (Token.error? env) := by
  rw [failures, List.filterMap_map]
  refine List.filterMap_congr fun t _ => ?_
  simp only [Function.comp_apply, Token.error?]
  cases t.value env <;> rfl

private theorem written_map_value (ts : List Token) :
    written (ts.map (Token.value env)) = ts.flatMap (Token.output env) := by
  rw [written, List.flatMap_map]
  refine List.flatMap_congr fun t _ => ?_
  unfold Token.output
  cases t.value env <;> rfl

private theorem failures_ne_nil_iff {outcomes : List (Except Unresolved (List Char))} :
    failures outcomes ≠ [] ↔ ∃ u, .error u ∈ outcomes := by
  rw [failures, ne_eq, List.filterMap_eq_nil_iff]
  constructor
  · intro h
    obtain ⟨o, h⟩ := Classical.not_forall.1 h
    obtain ⟨ho, h⟩ := Classical.not_imp.1 h
    cases o with
    | ok cs => exact absurd rfl h
    | error u => exact ⟨u, ho⟩
  · rintro ⟨u, hu⟩ hall
    simpa using hall _ hu

/-- A text has one decomposition into tokens, and each of them has one outcome.  The interpolation fails if and only
if some token cannot be resolved, and then with one error for each such place, in order; otherwise the result is
what the tokens come to. -/
theorem interpolate_follows_grammar (env : Environment) (text : String) :
    ∃ ts outcomes, Decomposition text.toList ts ∧ (∀ ts', Decomposition text.toList ts' → ts' = ts) ∧
      ts.flatMap Token.chars = text.toList ∧
      List.Forall₂ (Token.Means env) ts outcomes ∧
      (∀ outcomes', List.Forall₂ (Token.Means env) ts outcomes' → outcomes' = outcomes) ∧
      ((∃ errors, interpolate env text = .error errors) ↔ ∃ t ∈ ts, ∃ u, t.Means env (.error u)) ∧
      interpolate env text =
        if failures outcomes = [] then .ok (String.ofList (written outcomes)) else .error (failures outcomes) := by
  have hresult : interpolate env text =
      if failures ((tokens text.toList).map (Token.value env)) = [] then
        .ok (String.ofList (written ((tokens text.toList).map (Token.value env))))
      else .error (failures ((tokens text.toList).map (Token.value env))) := by
    rw [interpolate, interpolateChars, failures_map_value, written_map_value]
    cases (tokens text.toList).filterMap (Token.error? env) <;> rfl
  have hchars := (decomposition_tokens text.toList).chars
  refine ⟨tokens text.toList, (tokens text.toList).map (Token.value env), decomposition_tokens _,
    fun _ => decomposition_iff.1, hchars, forall₂_means_iff.2 rfl, fun _ => forall₂_means_iff.1, ?_, hresult⟩
  have hsome : (∃ t ∈ tokens text.toList, ∃ u, t.Means env (.error u)) ↔
      failures ((tokens text.toList).map (Token.value env)) ≠ [] := by
    simp only [Token.means_iff, failures_ne_nil_iff, List.mem_map]
    constructor
    · rintro ⟨t, ht, u, hu⟩
      exact ⟨u, t, ht, hu.symm⟩
    · rintro ⟨u, t, ht, hu⟩
      exact ⟨t, ht, u, hu.symm⟩
  rw [hsome, hresult]
  split
  · next hnone => simp [hnone]
  · next hnone => simp [hnone]

/-- A variable that is set has its value put in, with and without a default, one that is not has the default, and a
dollar sign in a value begins no reference. -/
example :
    let env : Environment := fun name => if name = "HOST" then some (Utf8.encode "db$HOST") else none
    interpolate env "$HOST \x7b$\x7bHOST:-none\x7d:$\x7bPORT:-80\x7d\x7d $$HOST" =
        .ok "db$HOST \x7bdb$HOST:80\x7d $HOST" ∧
      interpolate env "$PORT$HOST$\x7bROOT\x7d" = .error [⟨"PORT", .notSet⟩, ⟨"ROOT", .notSet⟩] := by
  decide +kernel

end Interpolation

end FailurePipeline
