import FailurePipeline.Interpolation.Resolve
import Mathlib.Data.List.TakeWhile

/-!
# The grammar of references

A text is a sequence of tokens in one way only (`Decomposition`): at a dollar sign stands the token that the
grammar allows there, with the longest name if it has no braces, and a dollar sign stands for itself only where
the grammar allows none.  The scan finds this sequence (`decomposition_iff`).
-/

namespace FailurePipeline

namespace Interpolation

/-! ### Names and defaults -/

/-- A letter, or an underscore. -/
def IsLetter (c : Char) : Prop := 'A' ≤ c ∧ c ≤ 'Z' ∨ 'a' ≤ c ∧ c ≤ 'z' ∨ c = '_'

/-- A letter, an underscore or a digit. -/
def IsLetterOrDigit (c : Char) : Prop := IsLetter c ∨ '0' ≤ c ∧ c ≤ '9'

/-- A name begins with a letter, and goes on with letters and digits. -/
def IsName (name : List Char) : Prop :=
  ∃ c cs, name = c :: cs ∧ IsLetter c ∧ ∀ d ∈ cs, IsLetterOrDigit d

/-- A name that ends here could not be longer. -/
def NameEnds (rest : List Char) : Prop := ∀ c ∈ rest.head?, ¬ IsLetterOrDigit c

theorem isNameStart_iff (c : Char) : isNameStart c = true ↔ IsLetter c := by
  have halpha : c.isAlpha = (c.isUpper || c.isLower) := rfl
  have hupper : c.isUpper = decide ('A'.val ≤ c.val ∧ c.val ≤ 'Z'.val) := rfl
  have hlower : c.isLower = (decide ('a'.val ≤ c.val) && decide (c.val ≤ 'z'.val)) := rfl
  simp only [isNameStart, halpha, hupper, hlower, IsLetter, Char.le_def, Bool.or_eq_true, Bool.and_eq_true,
    decide_eq_true_eq, beq_iff_eq, or_assoc]

theorem isNameChar_iff (c : Char) : isNameChar c = true ↔ IsLetterOrDigit c := by
  have hstart := isNameStart_iff c
  simp only [isNameStart, Bool.or_eq_true] at hstart
  simp only [isNameChar, Char.isAlphanum, Char.isDigit, IsLetterOrDigit, ← hstart, Char.le_def, Bool.or_eq_true,
    Bool.and_eq_true, decide_eq_true_eq, ge_iff_le]
  exact or_right_comm

/-- The scan takes the longest name. -/
theorem name?_append {name rest : List Char} (hname : IsName name) (hends : NameEnds rest) :
    name? (name ++ rest) = some name := by
  obtain ⟨c, cs, rfl, hc, hcs⟩ := hname
  have hall : ∀ d ∈ cs, isNameChar d = true := fun d hd => (isNameChar_iff d).2 (hcs d hd)
  have hstop : rest.takeWhile isNameChar = [] := by
    cases rest with
    | nil => rfl
    | cons d rest =>
      have hd : ¬ isNameChar d = true := fun h => hends d rfl ((isNameChar_iff d).1 h)
      exact List.takeWhile_cons_of_neg hd
  simp [name?, (isNameStart_iff c).2 hc, List.takeWhile_append_of_pos hall, hstop]

theorem name?_eq_some {cs name : List Char} (h : name? cs = some name) :
    IsName name ∧ ∃ rest, cs = name ++ rest ∧ NameEnds rest := by
  cases cs with
  | nil => simp [name?] at h
  | cons c cs =>
    simp only [name?] at h
    split at h
    · next hc =>
      obtain rfl := Option.some.inj h
      refine ⟨⟨c, _, rfl, (isNameStart_iff c).1 hc, fun d hd => ?_⟩, cs.dropWhile isNameChar, ?_, fun d hd => ?_⟩
      · exact (isNameChar_iff d).1 (List.mem_takeWhile_imp hd)
      · rw [List.cons_append, List.takeWhile_append_dropWhile]
      · intro hname
        have hstop := List.head?_dropWhile_not isNameChar cs
        rw [Option.mem_def.1 hd] at hstop
        simp [(isNameChar_iff d).2 hname] at hstop
    · simp at h

theorem default?_append {text : List Char} (h : '\x7d' ∉ text) (rest : List Char) :
    default? (text ++ '\x7d' :: rest) = some text := by
  have hall : ∀ c ∈ text, (c != '\x7d') = true := by
    intro c hc
    have hne : c ≠ '\x7d' := fun he => h (he ▸ hc)
    simpa using hne
  simp [default?, List.takeWhile_append_of_pos hall]

theorem default?_eq_some {cs text : List Char} (h : default? cs = some text) :
    '\x7d' ∉ text ∧ ∃ rest, cs = text ++ '\x7d' :: rest := by
  simp only [default?] at h
  split at h
  · next hclosed =>
    obtain rfl := Option.some.inj h
    refine ⟨fun hmem => by simpa using List.mem_takeWhile_imp hmem, ?_⟩
    have hwhole := List.takeWhile_append_dropWhile (p := (· != '\x7d')) (l := cs)
    cases hd : cs.dropWhile (· != '\x7d') with
    | nil =>
      have hall := List.dropWhile_eq_nil_iff.1 hd _ (List.contains_iff_mem.1 hclosed)
      simp at hall
    | cons c rest =>
      have hstop := List.head?_dropWhile_not (· != '\x7d') cs
      rw [hd] at hstop hwhole
      obtain rfl : c = '\x7d' := by simpa using hstop
      exact ⟨rest, hwhole.symm⟩
  · simp at h

/-! ### Tokens at a dollar sign -/

/-- A token that begins with a dollar sign and is more than this character: two dollar signs, or a reference. -/
inductive Token.IsMarked : Token → Prop
  | dollar : IsMarked .dollar
  | bare {name : List Char} (h : IsName name) : IsMarked (.bare name)
  | required {name : List Char} (h : IsName name) : IsMarked (.braced name .required)
  | ifUnset {name text : List Char} (h : IsName name) (ht : '\x7d' ∉ text) : IsMarked (.braced name (.ifUnset text))
  | ifUnsetOrEmpty {name text : List Char} (h : IsName name) (ht : '\x7d' ∉ text) :
    IsMarked (.braced name (.ifUnsetOrEmpty text))

/-- A name without braces is as long as possible; any other token shows where it ends. -/
def Token.EndsBefore (rest : List Char) : Token → Prop
  | .bare _ => NameEnds rest
  | _ => True

/-- What the scan takes after a dollar sign and a brace is a reference in braces. -/
private theorem braced?_eq_some {cs : List Char} {t : Token} {n : Nat} (h : braced? cs = some (t, n)) :
    t.IsMarked ∧ (∀ rest, t.EndsBefore rest) ∧ t.chars.length = n + 2 ∧
      ∃ rest, '$' :: '\x7b' :: cs = t.chars ++ rest := by
  unfold braced? at h
  simp only [bind, Option.bind_eq_some_iff] at h
  obtain ⟨name, hname, h⟩ := h
  obtain ⟨hn, after, rfl, -⟩ := name?_eq_some hname
  rw [List.drop_left] at h
  split at h
  · next rest =>
    obtain ⟨rfl, rfl⟩ := Prod.mk.inj (Option.some.inj h)
    exact ⟨.required hn, fun _ => trivial, by simp [Token.chars], rest, by simp [Token.chars]⟩
  · next after =>
    simp only [Option.bind_eq_some_iff] at h
    obtain ⟨text, htext, h⟩ := h
    obtain ⟨hclosed, rest, rfl⟩ := default?_eq_some htext
    obtain ⟨rfl, rfl⟩ := Prod.mk.inj (Option.some.inj h)
    refine ⟨.ifUnsetOrEmpty hn hclosed, fun _ => trivial, ?_, rest, by simp [Token.chars]⟩
    simp only [Token.chars, List.length_cons, List.length_append, List.length_nil]
    omega
  · next after =>
    simp only [Option.bind_eq_some_iff] at h
    obtain ⟨text, htext, h⟩ := h
    obtain ⟨hclosed, rest, rfl⟩ := default?_eq_some htext
    obtain ⟨rfl, rfl⟩ := Prod.mk.inj (Option.some.inj h)
    refine ⟨.ifUnset hn hclosed, fun _ => trivial, ?_, rest, by simp [Token.chars]⟩
    simp only [Token.chars, List.length_cons, List.length_append, List.length_nil]
    omega
  · simp at h

/-- What the scan takes at a dollar sign is a token of the grammar. -/
theorem afterDollar?_eq_some {cs : List Char} {t : Token} {n : Nat} (h : afterDollar? cs = some (t, n)) :
    t.IsMarked ∧ t.chars.length = n + 1 ∧ ∃ rest, '$' :: cs = t.chars ++ rest ∧ t.EndsBefore rest := by
  unfold afterDollar? at h
  split at h
  · next rest =>
    obtain ⟨rfl, rfl⟩ := Prod.mk.inj (Option.some.inj h)
    exact ⟨.dollar, rfl, rest, rfl, trivial⟩
  · next after =>
    obtain ⟨⟨t', m⟩, hbraced, he⟩ := Option.map_eq_some_iff.1 h
    obtain ⟨rfl, rfl⟩ := Prod.mk.inj he
    obtain ⟨hmarked, hends, hlength, rest, hchars⟩ := braced?_eq_some hbraced
    exact ⟨hmarked, hlength, rest, hchars, hends rest⟩
  · obtain ⟨name, hname, he⟩ := Option.map_eq_some_iff.1 h
    obtain ⟨rfl, rfl⟩ := Prod.mk.inj he
    obtain ⟨hn, rest, rfl, hends⟩ := name?_eq_some hname
    exact ⟨.bare hn, rfl, rest, rfl, hends⟩

private theorem nameEnds_of_not_letter {c : Char} {rest : List Char} (h : ¬ IsLetterOrDigit c) :
    NameEnds (c :: rest) := by
  intro d hd
  obtain rfl : c = d := by simpa using hd
  exact h

private theorem braced?_required {name : List Char} (h : IsName name) (rest : List Char) :
    braced? (name ++ '\x7d' :: rest) = some (.braced name .required, name.length + 1) := by
  have hends : NameEnds ('\x7d' :: rest) := nameEnds_of_not_letter (by simp [IsLetterOrDigit, IsLetter])
  simp [braced?, name?_append h hends, bind]

private theorem braced?_ifUnset {name text : List Char} (h : IsName name) (ht : '\x7d' ∉ text)
    (rest : List Char) :
    braced? (name ++ '-' :: (text ++ '\x7d' :: rest)) =
      some (.braced name (.ifUnset text), name.length + text.length + 2) := by
  have hends : NameEnds ('-' :: (text ++ '\x7d' :: rest)) :=
    nameEnds_of_not_letter (by simp [IsLetterOrDigit, IsLetter])
  simp [braced?, name?_append h hends, default?_append ht, bind]

private theorem braced?_ifUnsetOrEmpty {name text : List Char} (h : IsName name) (ht : '\x7d' ∉ text)
    (rest : List Char) :
    braced? (name ++ ':' :: '-' :: (text ++ '\x7d' :: rest)) =
      some (.braced name (.ifUnsetOrEmpty text), name.length + text.length + 3) := by
  have hends : NameEnds (':' :: '-' :: (text ++ '\x7d' :: rest)) :=
    nameEnds_of_not_letter (by simp [IsLetterOrDigit, IsLetter])
  simp [braced?, name?_append h hends, default?_append ht, bind]

/-- A letter after a dollar sign begins a name. -/
private theorem afterDollar?_letter {c : Char} (hc : IsLetter c) (cs : List Char) :
    afterDollar? (c :: cs) = (name? (c :: cs)).map fun name => (.bare name, name.length) := by
  unfold afterDollar?
  split
  · next heq =>
    obtain ⟨rfl, -⟩ := List.cons.inj heq
    simp [IsLetter] at hc
  · next heq =>
    obtain ⟨rfl, -⟩ := List.cons.inj heq
    simp [IsLetter] at hc
  · rfl

/-- The scan takes the token of the grammar at a dollar sign. -/
theorem afterDollar?_of_chars {cs rest : List Char} {t : Token} (ht : t.IsMarked) (hends : t.EndsBefore rest)
    (h : '$' :: cs = t.chars ++ rest) : afterDollar? cs = some (t, t.chars.length - 1) := by
  -- One case for each shape of token; the name in it tells the scan where it ends.
  cases ht with
  | dollar =>
    obtain ⟨-, rfl⟩ := List.cons.inj h
    rfl
  | @bare name hn =>
    obtain rfl : cs = name ++ rest := by simpa [Token.chars] using h
    obtain ⟨c, cs', rfl, hc, -⟩ := id hn
    rw [List.cons_append, afterDollar?_letter hc, ← List.cons_append, name?_append hn hends]
    rfl
  | @required name hn =>
    obtain rfl : cs = '\x7b' :: (name ++ '\x7d' :: rest) := by simpa [Token.chars] using h
    simp [afterDollar?, braced?_required hn, Token.chars]
  | @ifUnset name text hn hclosed =>
    obtain rfl : cs = '\x7b' :: (name ++ '-' :: (text ++ '\x7d' :: rest)) := by simpa [Token.chars] using h
    simp only [afterDollar?, braced?_ifUnset hn hclosed, Option.map_some, Token.chars, List.length_append,
      List.length_cons, List.length_nil, Option.some.injEq, Prod.mk.injEq, true_and]
    omega
  | @ifUnsetOrEmpty name text hn hclosed =>
    obtain rfl : cs = '\x7b' :: (name ++ ':' :: '-' :: (text ++ '\x7d' :: rest)) := by
      simpa [Token.chars] using h
    simp only [afterDollar?, braced?_ifUnsetOrEmpty hn hclosed, Option.map_some, Token.chars, List.length_append,
      List.length_cons, List.length_nil, Option.some.injEq, Prod.mk.injEq, true_and]
    omega

/-- Where the scan takes nothing at a dollar sign, the grammar allows no token. -/
theorem not_isMarked_of_afterDollar? {cs rest : List Char} {t : Token} (h : afterDollar? cs = none)
    (ht : t.IsMarked) : '$' :: cs ≠ t.chars ++ rest := by
  intro hchars
  by_cases hends : t.EndsBefore rest
  · simp [afterDollar?_of_chars ht hends hchars] at h
  · -- Only a name could go on, and then a longer one stands there.
    cases ht with
    | @bare name hn =>
      obtain rfl : cs = name ++ rest := by simpa [Token.chars] using hchars
      obtain ⟨c, cs', rfl, hc, -⟩ := hn
      rw [List.cons_append, afterDollar?_letter hc] at h
      simp [name?, (isNameStart_iff c).2 hc] at h
    | _ => exact hends trivial

/-! ### Texts -/

/-- The tokens of a text, from left to right. -/
inductive Decomposition : List Char → List Token → Prop
  | nil : Decomposition [] []
  | marked {t : Token} {rest : List Char} {ts : List Token} (ht : t.IsMarked) (hends : t.EndsBefore rest)
    (h : Decomposition rest ts) : Decomposition (t.chars ++ rest) (t :: ts)
  | character {c : Char} {cs : List Char} {ts : List Token}
    (hc : c = '$' → ∀ t : Token, t.IsMarked → ¬ t.chars <+: c :: cs) (h : Decomposition cs ts) :
    Decomposition (c :: cs) (.character c :: ts)

/-- The tokens of a text spell it. -/
theorem Decomposition.chars {cs : List Char} {ts : List Token} (h : Decomposition cs ts) :
    ts.flatMap Token.chars = cs := by
  induction h with
  | nil => rfl
  | marked ht hends h ih => rw [List.flatMap_cons, ih]
  | character hc h ih => rw [List.flatMap_cons, ih]; rfl

/-- The scan passes over the characters of a token that has been found. -/
private theorem tokensFrom_append (taken rest : List Char) :
    tokensFrom taken.length (taken ++ rest) = tokens rest := by
  induction taken with
  | nil => rfl
  | cons c taken ih => simpa [tokensFrom] using ih

private theorem tokens_of_afterDollar? {cs rest : List Char} {t : Token} {n : Nat}
    (h : afterDollar? cs = some (t, n)) (hchars : '$' :: cs = t.chars ++ rest) (hlength : t.chars.length = n + 1) :
    tokens ('$' :: cs) = t :: tokens rest := by
  obtain ⟨c, taken, ht⟩ := List.exists_cons_of_length_eq_add_one hlength
  rw [ht, List.cons_append] at hchars
  obtain ⟨rfl, rfl⟩ := List.cons.inj hchars
  obtain rfl : taken.length = n := by simpa [ht] using hlength
  simp [tokens, tokensFrom, h, tokensFrom_append]

private theorem tokens_character {c : Char} {cs : List Char} (h : c = '$' → afterDollar? cs = none) :
    tokens (c :: cs) = .character c :: tokens cs := by
  by_cases hc : c = '$'
  · simp [tokens, tokensFrom, hc, h hc]
  · simp [tokens, tokensFrom, hc]

/-- The scan decomposes every text. -/
theorem decomposition_tokens (cs : List Char) : Decomposition cs (tokens cs) := by
  induction hn : cs.length using Nat.strongRecOn generalizing cs with
  | ind n ih =>
    cases cs with
    | nil => exact .nil
    | cons c cs =>
      by_cases hnone : c = '$' → afterDollar? cs = none
      · rw [tokens_character hnone]
        refine .character (fun hc t ht hprefix => ?_) (ih cs.length (by simp [← hn]) cs rfl)
        obtain ⟨rest, hrest⟩ := hprefix
        subst hc
        exact not_isMarked_of_afterDollar? (hnone rfl) ht hrest.symm
      · obtain ⟨rfl, hsome⟩ := Classical.not_imp.1 hnone
        obtain ⟨⟨t, m⟩, htaken⟩ := Option.ne_none_iff_exists'.1 hsome
        obtain ⟨ht, hlength, rest, hchars, hends⟩ := afterDollar?_eq_some htaken
        rw [tokens_of_afterDollar? htaken hchars hlength, hchars]
        refine .marked ht hends (ih rest.length ?_ rest rfl)
        have hall := congrArg List.length hchars
        rw [List.length_append, hlength] at hall
        omega

/-- A text has one decomposition only, which is the one that the scan finds. -/
theorem decomposition_iff {cs : List Char} {ts : List Token} : Decomposition cs ts ↔ ts = tokens cs := by
  refine ⟨fun h => ?_, fun h => h ▸ decomposition_tokens cs⟩
  induction h with
  | nil => rfl
  | @marked t rest ts ht hends h ih =>
    obtain ⟨cs, hcs⟩ : ∃ cs, t.chars = '$' :: cs := by cases ht <;> exact ⟨_, rfl⟩
    have hchars : '$' :: (cs ++ rest) = t.chars ++ rest := by rw [hcs, List.cons_append]
    have hlength : t.chars.length = t.chars.length - 1 + 1 := by simp [hcs]
    rw [← hchars, tokens_of_afterDollar? (afterDollar?_of_chars ht hends hchars) hchars hlength, ih]
  | @character c cs ts hc h ih =>
    rw [tokens_character fun hdollar => ?_, ih]
    by_contra hsome
    obtain ⟨⟨t, n⟩, htaken⟩ := Option.ne_none_iff_exists'.1 hsome
    obtain ⟨ht, -, rest, hchars, -⟩ := afterDollar?_eq_some htaken
    subst hdollar
    exact hc rfl t ht ⟨rest, hchars.symm⟩

end Interpolation

end FailurePipeline
