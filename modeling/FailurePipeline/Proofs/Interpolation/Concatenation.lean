import FailurePipeline.Proofs.Interpolation.Grammar
import Mathlib.Data.List.DropRight

/-!
# Texts one behind the other

If no token that begins in one text goes on in the next, the tokens of both together are those of the first and
then those of the second (`Decomposition.append`), and so are the outcomes (`ofTokens_append`).  A line feed is such
a boundary, unless a reference in braces has been left open: lines are interpolated each for itself
(`lines_are_read_apart`).  A text in which every dollar sign is doubled is passed on as it was before, whatever
stands behind it (`escaping_protects_any_text`).
-/

namespace FailurePipeline

namespace Interpolation

variable {env : Environment}

/-! ### Outcomes -/

/-- The errors that an interpolation reports. -/
def reported : Except (List Unresolved) String → List Unresolved
  | .ok _ => []
  | .error us => us

/-- The outcome of two parts of a text that are read one behind the other. -/
def together : Except (List Unresolved) String → Except (List Unresolved) String → Except (List Unresolved) String
  | .ok x, .ok y => .ok (x ++ y)
  | r, r' => .error (reported r ++ reported r')

/-- What tokens come to. -/
def ofTokens (env : Environment) (ts : List Token) : Except (List Unresolved) String :=
  match ts.filterMap (Token.error? env) with
  | [] => .ok (String.ofList (ts.flatMap (Token.output env)))
  | us => .error us

theorem interpolate_eq_ofTokens (env : Environment) (text : String) :
    interpolate env text = ofTokens env (tokens text.toList) := by
  rw [interpolate, interpolateChars, ofTokens]
  cases (tokens text.toList).filterMap (Token.error? env) <;> rfl

theorem ofTokens_append (ts us : List Token) :
    ofTokens env (ts ++ us) = together (ofTokens env ts) (ofTokens env us) := by
  simp only [ofTokens, List.filterMap_append, List.flatMap_append, String.ofList_append]
  cases ts.filterMap (Token.error? env) with
  | nil => cases us.filterMap (Token.error? env) <;> simp [together, reported]
  | cons e es => cases us.filterMap (Token.error? env) <;> simp [together, reported]

/-! ### Tokens at a boundary -/

/-- No token that begins in a text goes on in what stands behind it. -/
def EndsAtBoundary (cs ds : List Char) : Prop :=
  ∀ rest, rest <:+ cs → rest ≠ [] → ∀ t : Token, t.IsMarked → t.chars <+: rest ++ ds → t.chars <+: rest

theorem EndsAtBoundary.of_suffix {rest cs ds : List Char} (h : EndsAtBoundary cs ds) (hrest : rest <:+ cs) :
    EndsAtBoundary rest ds := fun rest' hrest' => h rest' (hrest'.trans hrest)

theorem IsName.isLetterOrDigit {name : List Char} (h : IsName name) : ∀ c ∈ name, IsLetterOrDigit c := by
  obtain ⟨first, cs, rfl, hfirst, hcs⟩ := h
  intro c hc
  rcases List.mem_cons.1 hc with rfl | hc
  · exact .inl hfirst
  · exact hcs c hc

private theorem IsName.concat {name : List Char} (h : IsName name) {c : Char} (hc : IsLetterOrDigit c) :
    IsName (name ++ [c]) := by
  obtain ⟨first, cs, rfl, hfirst, hcs⟩ := h
  refine ⟨first, cs ++ [c], rfl, hfirst, fun d hd => ?_⟩
  rcases List.mem_append.1 hd with hd | hd
  · exact hcs d hd
  · rwa [List.mem_singleton.1 hd]

/-- A token that ends before the rest of a text also ends there if the text goes on. -/
private theorem endsBefore_append {t : Token} {rest ds : List Char} (ht : t.IsMarked) (hends : t.EndsBefore rest)
    (h : EndsAtBoundary (t.chars ++ rest) ds) : t.EndsBefore (rest ++ ds) := by
  cases ht with
  | @bare name hname =>
    cases rest with
    | cons c rest => exact hends
    | nil =>
      -- A letter behind the boundary would make a longer name of the last one before it.
      intro c hc hletter
      obtain ⟨ds, rfl⟩ : ∃ ds', ds = c :: ds' := List.head?_eq_some_iff.1 hc
      have hlonger : (Token.bare (name ++ [c])).chars <+: (Token.bare name).chars ++ [] :=
        h _ List.suffix_rfl (by simp [Token.chars]) _ (.bare (hname.concat hletter)) ⟨ds, by simp [Token.chars]⟩
      have hlength := hlonger.length_le
      simp only [Token.chars, List.length_cons, List.length_append, List.length_nil] at hlength
      omega
  | _ => trivial

/-- Tokens stay what they are if the text goes on behind a boundary. -/
theorem Decomposition.append {cs ds : List Char} {ts us : List Token} (h : Decomposition cs ts)
    (h' : Decomposition ds us) (hboundary : EndsAtBoundary cs ds) : Decomposition (cs ++ ds) (ts ++ us) := by
  induction h with
  | nil => exact h'
  | @marked t rest ts ht hends h ih =>
    rw [List.append_assoc, List.cons_append]
    exact .marked ht (endsBefore_append ht hends hboundary) (ih (hboundary.of_suffix (List.suffix_append ..)))
  | @character c cs ts hc h ih =>
    rw [List.cons_append, List.cons_append]
    refine .character (fun hdollar t ht hprefix => ?_) (ih (hboundary.of_suffix (List.suffix_cons ..)))
    exact hc hdollar t ht (hboundary _ List.suffix_rfl (by simp) t ht hprefix)

/-! ### Lines -/

/-- After the last closing brace of a text no reference in braces begins. -/
def ClosesBraces (text : String) : Prop := ¬ ['$', '\x7b'] <:+: text.toList.rtakeWhile (· != '\x7d')

instance (text : String) : Decidable (ClosesBraces text) := inferInstanceAs (Decidable (¬ _))

theorem ClosesBraces.mem_of_suffix {text : String} (h : ClosesBraces text) {rest : List Char}
    (hrest : '$' :: '\x7b' :: rest <:+ text.toList) : '\x7d' ∈ rest := by
  by_contra hopen
  obtain ⟨before, hbefore⟩ := hrest
  have hall : ∀ c ∈ ('$' :: '\x7b' :: rest).reverse, (c != '\x7d') = true := by
    intro c hc
    rw [bne_iff_ne]
    rintro rfl
    simp at hc
    exact hopen hc
  apply h
  rw [← hbefore, List.rtakeWhile, List.reverse_append, List.takeWhile_append_of_pos hall, List.reverse_append,
    List.reverse_reverse]
  exact ⟨_, rest, List.append_assoc ..⟩

/-- A token with a line feed in it is a reference in braces, and ends at the first closing brace. -/
private theorem Token.IsMarked.chars_cases {t : Token} (h : t.IsMarked) :
    '\n' ∉ t.chars ∨ ∃ inner, t.chars = '$' :: '\x7b' :: (inner ++ ['\x7d']) ∧ '\x7d' ∉ inner := by
  have hfeed : ¬ IsLetterOrDigit '\n' := by simp [IsLetterOrDigit, IsLetter]
  have hbrace : ¬ IsLetterOrDigit '\x7d' := by simp [IsLetterOrDigit, IsLetter]
  have hname : ∀ {name : List Char}, IsName name → '\n' ∉ name ∧ '\x7d' ∉ name := fun hn =>
    ⟨fun hmem => hfeed (hn.isLetterOrDigit _ hmem), fun hmem => hbrace (hn.isLetterOrDigit _ hmem)⟩
  cases h with
  | dollar => exact .inl (by simp [Token.chars])
  | bare hn => exact .inl (by simp [Token.chars, (hname hn).1])
  | @required name hn => exact .inr ⟨name, by simp [Token.chars], (hname hn).2⟩
  | @ifUnset name text hn ht =>
    exact .inr ⟨name ++ '-' :: text, by simp [Token.chars], by simp [(hname hn).2, ht]⟩
  | @ifUnsetOrEmpty name text hn ht =>
    exact .inr ⟨name ++ ':' :: '-' :: text, by simp [Token.chars], by simp [(hname hn).2, ht]⟩

/-- A line feed behind a text that closes its braces is not in a token that begins in the text. -/
theorem endsAtBoundary_line {text : String} (h : ClosesBraces text) (ds : List Char) :
    EndsAtBoundary text.toList ('\n' :: ds) := by
  intro rest hrest hne t ht hprefix
  obtain ⟨behind, hbehind⟩ := hprefix
  rcases List.append_eq_append_iff.1 hbehind with ⟨more, hmore, -⟩ | ⟨beyond, hover, hds⟩
  · exact ⟨more, hmore.symm⟩
  · cases beyond with
    | nil => exact ⟨[], by simp [hover]⟩
    | cons c beyond =>
      obtain ⟨rfl, -⟩ := List.cons.inj hds
      -- The line feed is in the token, which therefore began with an open brace that the text does not close.
      rcases ht.chars_cases with hnone | ⟨inner, hinner, hclosed⟩
      · exact absurd (hover ▸ List.mem_append_right rest List.mem_cons_self) hnone
      · rw [hinner] at hover
        cases rest with
        | nil => exact absurd rfl hne
        | cons d rest =>
          cases rest with
          | nil => simp at hover
          | cons e rest =>
            simp only [List.cons_append, List.cons.injEq] at hover
            obtain ⟨rfl, rfl, hover⟩ := hover
            have hmem := h.mem_of_suffix hrest
            rcases List.append_eq_append_iff.1 hover with ⟨as, -, hlast⟩ | ⟨bs, hbefore, -⟩
            · cases as with
              | nil => simp at hlast
              | cons a as => simp at hlast
            · exact absurd (hbefore ▸ List.mem_append_left bs hmem) hclosed

/-- A line is read for itself, whatever stands on the lines around it. -/
theorem tokens_line {a : String} (h : ClosesBraces a) (b : String) :
    tokens (a ++ "\n" ++ b).toList = tokens a.toList ++ .character '\n' :: tokens b.toList := by
  have hfeed : Decomposition ('\n' :: b.toList) (.character '\n' :: tokens b.toList) :=
    .character (by simp) (decomposition_tokens _)
  have htext : (a ++ "\n" ++ b).toList = a.toList ++ '\n' :: b.toList := by simp
  rw [htext]
  exact (decomposition_iff.1 ((decomposition_tokens _).append hfeed (endsAtBoundary_line h _))).symm

/-- A text without an open brace at its end and a text behind it, with a line feed in between, are interpolated each
for itself: the results are joined by the line feed, and if there are errors, those of the first text stand before
those of the second. -/
theorem lines_are_read_apart (env : Environment) {a b : String} (h : ClosesBraces a) :
    tokens (a ++ "\n" ++ b).toList = tokens a.toList ++ .character '\n' :: tokens b.toList ∧
      ((∃ out, interpolate env (a ++ "\n" ++ b) = .ok out) ↔
        (∃ x, interpolate env a = .ok x) ∧ ∃ y, interpolate env b = .ok y) ∧
      (∀ x y, interpolate env a = .ok x → interpolate env b = .ok y →
        interpolate env (a ++ "\n" ++ b) = .ok (x ++ "\n" ++ y)) ∧
      ∀ us, interpolate env (a ++ "\n" ++ b) = .error us →
        us = reported (interpolate env a) ++ reported (interpolate env b) := by
  have htokens := tokens_line h b
  have hfeed : ofTokens env (.character '\n' :: tokens b.toList) = together (.ok "\n") (interpolate env b) := by
    rw [interpolate_eq_ofTokens]
    exact ofTokens_append [.character '\n'] _
  have hall : interpolate env (a ++ "\n" ++ b) =
      together (interpolate env a) (together (.ok "\n") (interpolate env b)) := by
    rw [interpolate_eq_ofTokens env (a ++ "\n" ++ b), htokens, ofTokens_append, hfeed, ← interpolate_eq_ofTokens]
  refine ⟨htokens, ?_⟩
  rw [hall]
  cases interpolate env a with
  | ok x => cases interpolate env b <;> simp [together, reported, String.append_assoc]
  | error us => cases interpolate env b <;> simp [together, reported]

/-- Only the host is known. -/
def hostOnly : Environment := fun name => if name = "HOST" then some (Utf8.encode "localhost") else none

/-- A dollar sign at the end of a line does not reach for the name on the next one, and of two lines that each lack a
variable the first is reported first. -/
theorem lines_are_read_apart_at_dollar :
    ClosesBraces "address: $\x7bHOST:-none\x7d:$" ∧
      interpolate hostOnly ("address: $\x7bHOST:-none\x7d:$" ++ "\n" ++ "PORT: $HOST") =
        .ok ("address: localhost:$" ++ "\n" ++ "PORT: localhost") ∧
      ClosesBraces "path: $ROOT\x7d/$$$" ∧
      interpolate hostOnly ("path: $ROOT\x7d/$$$" ++ "\n" ++ "\x7bHOST\x7d: $PORT") =
        .error [⟨"ROOT", .notSet⟩, ⟨"PORT", .notSet⟩] ∧
      [⟨"ROOT", .notSet⟩, ⟨"PORT", .notSet⟩] =
        reported (interpolate hostOnly "path: $ROOT\x7d/$$$") ++
          reported (interpolate hostOnly "\x7bHOST\x7d: $PORT") := by
  have hresolved : ClosesBraces "address: $\x7bHOST:-none\x7d:$" := by decide +kernel
  have hlacking : ClosesBraces "path: $ROOT\x7d/$$$" := by decide +kernel
  have herrors : interpolate hostOnly ("path: $ROOT\x7d/$$$" ++ "\n" ++ "\x7bHOST\x7d: $PORT") =
      .error [⟨"ROOT", .notSet⟩, ⟨"PORT", .notSet⟩] := by decide +kernel
  have houtput := (lines_are_read_apart hostOnly hresolved (b := "PORT: $HOST")).2.2.1
  exact ⟨hresolved, houtput _ _ (by decide +kernel) (by decide +kernel), hlacking, herrors,
    (lines_are_read_apart hostOnly hlacking).2.2.2 _ herrors⟩

/-- A default that is left open goes on through the line feed. -/
example :
    ¬ ClosesBraces "a: $\x7bPORT:-8" ∧ interpolate hostOnly "a: $\x7bPORT:-8" = .ok "a: $\x7bPORT:-8" ∧
      interpolate hostOnly ("a: $\x7bPORT:-8" ++ "\n" ++ "b: 0\x7d") = .ok "a: 8\nb: 0" := by
  decide +kernel

/-! ### Escaped texts -/

def escapeChars (cs : List Char) : List Char := cs.flatMap fun c => if c = '$' then ['$', '$'] else [c]

/-- A text with each of its dollar signs doubled. -/
def escape (text : String) : String := String.ofList (escapeChars text.toList)

/-- The token that stands for a character and nothing else. -/
def Token.literal (c : Char) : Token := if c = '$' then .dollar else .character c

/-- From left to right the dollar signs of an escaped text stand in pairs, and none is left for what follows. -/
theorem decomposition_escapeChars {ds : List Char} {ts : List Token} (h : Decomposition ds ts) (cs : List Char) :
    Decomposition (escapeChars cs ++ ds) (cs.map Token.literal ++ ts) := by
  induction cs with
  | nil => exact h
  | cons c cs ih =>
    rw [escapeChars, List.flatMap_cons, List.append_assoc, ← escapeChars, List.map_cons, List.cons_append]
    by_cases hc : c = '$'
    · simp only [Token.literal, hc, if_true]
      exact .marked .dollar trivial ih
    · simp only [Token.literal, hc, if_false]
      exact .character (fun hdollar => absurd hdollar hc) ih

theorem ofTokens_literal (env : Environment) (cs : List Char) :
    ofTokens env (cs.map Token.literal) = .ok (String.ofList cs) := by
  have hvalue : ∀ c, (Token.literal c).value env = .ok [c] := by
    intro c
    by_cases hc : c = '$' <;> simp [Token.literal, hc, Token.value]
  have herrors : (cs.map Token.literal).filterMap (Token.error? env) = [] := by
    simp [List.filterMap_eq_nil_iff, Token.error?, hvalue]
  have houtput : (cs.map Token.literal).flatMap (Token.output env) = cs := by
    simp [List.flatMap_map, Token.output, hvalue]
  rw [ofTokens, herrors, houtput]

theorem escape_eq_self {text : String} (h : '$' ∉ text.toList) : escape text = text := by
  have hchars : escapeChars text.toList = text.toList.flatMap fun c => [c] := by
    refine List.flatMap_congr fun c hc => ?_
    rw [if_neg]
    rintro rfl
    exact h hc
  rw [escape, hchars, List.flatMap_singleton', String.ofList_toList]

/-- An escaped text is passed on as it was before, whatever it spells and whatever the variables are, and what stands
behind it is read as if it stood alone.  Without a dollar sign a text needs no escape. -/
theorem escaping_protects_any_text (env : Environment) (t s : String) :
    interpolate env (escape t ++ s) = (interpolate env s).map (t ++ ·) ∧ interpolate env (escape t) = .ok t ∧
      ('$' ∉ t.toList → interpolate env t = .ok t) := by
  have hbefore : ∀ s, interpolate env (escape t ++ s) = (interpolate env s).map (t ++ ·) := by
    intro s
    have htokens : tokens (escape t ++ s).toList = t.toList.map Token.literal ++ tokens s.toList := by
      rw [escape, String.toList_append, String.toList_ofList]
      exact (decomposition_iff.1 (decomposition_escapeChars (decomposition_tokens _) _)).symm
    rw [interpolate_eq_ofTokens, htokens, ofTokens_append, ofTokens_literal, String.ofList_toList,
      ← interpolate_eq_ofTokens]
    cases interpolate env s <;> simp [together, reported, Except.map]
  have halone : interpolate env (escape t) = .ok t := by
    have hempty := hbefore ""
    have hnothing : interpolate env "" = .ok "" := rfl
    simpa [hnothing, Except.map] using hempty
  refine ⟨hbefore s, halone, fun hnone => ?_⟩
  rwa [escape_eq_self hnone] at halone

/-- Three dollar signs and a brace spell no reference once they are escaped, and the reference behind them is read. -/
theorem escaping_protects_any_text_before_reference :
    interpolate hostOnly (escape "$$$\x7bHOST" ++ "$HOST") = .ok "$$$\x7bHOSTlocalhost" ∧
      interpolate hostOnly (escape "$$$\x7bHOST" ++ "$PORT") = .error [⟨"PORT", .notSet⟩] ∧
      '$' ∉ "HOST\x7d".toList ∧ interpolate hostOnly "HOST\x7d" = .ok "HOST\x7d" := by
  have hhost : interpolate hostOnly "$HOST" = .ok "localhost" := by decide +kernel
  have hport : interpolate hostOnly "$PORT" = .error [⟨"PORT", .notSet⟩] := by decide +kernel
  have hnone : '$' ∉ "HOST\x7d".toList := by decide +kernel
  refine ⟨?_, ?_, hnone, (escaping_protects_any_text hostOnly "HOST\x7d" "").2.2 hnone⟩
  · rw [(escaping_protects_any_text hostOnly "$$$\x7bHOST" "$HOST").1, hhost]
    rfl
  · rw [(escaping_protects_any_text hostOnly "$$$\x7bHOST" "$PORT").1, hport]
    rfl

end Interpolation

end FailurePipeline
