import FailurePipeline.Proofs.Json.Grammar.Numerals
import FailurePipeline.Proofs.Json.Grammar.Pieces
import FailurePipeline.Proofs.Json.Reading

/-!
# Documents are read

Of the documents of the grammar the reader takes exactly those that keep to its limits, each with the value that its
tree has (`Json.read_document`).  The induction is on the tree; what follows a value must not go on with a number.
-/

namespace FailurePipeline

namespace Json

open Utf8

/-! ### Blanks -/

private theorem encodeChars_space (b : Space) : ∃ o, String.utf8EncodeChar b.char = [o] ∧ isBlank o = true := by
  cases b <;> exact ⟨_, rfl, rfl⟩

/-- Blanks are skipped. -/
theorem skipBlank_gap (g : Gap) (s : Bytes) : skipBlank (encodeChars g.chars ++ s) = skipBlank s := by
  induction g with
  | nil => rfl
  | cons b g ih =>
    obtain ⟨o, ho, hblank⟩ := encodeChars_space b
    rw [Gap.chars, List.map_cons, encodeChars_cons, ho, List.append_assoc, List.singleton_append]
    exact (List.dropWhile_cons_of_pos hblank).trans ih

/-- What is skipped are blanks. -/
theorem exists_gap (s : Bytes) : ∃ g : Gap, s = encodeChars g.chars ++ skipBlank s := by
  induction s with
  | nil => exact ⟨[], rfl⟩
  | cons b s ih =>
    cases hb : isBlank b with
    | false => exact ⟨[], by rw [skipBlank_cons hb]; rfl⟩
    | true =>
      obtain ⟨g, hg⟩ := ih
      have hspace : ∃ c : Space, String.utf8EncodeChar c.char = [b] := by
        simp only [isBlank, Bool.or_eq_true, beq_iff_eq] at hb
        rcases hb with ((rfl | rfl) | rfl) | rfl
        · exact ⟨.space, rfl⟩
        · exact ⟨.lineFeed, rfl⟩
        · exact ⟨.tab, rfl⟩
        · exact ⟨.carriageReturn, rfl⟩
      obtain ⟨c, hc⟩ := hspace
      refine ⟨c :: g, ?_⟩
      have hskip : skipBlank (b :: s) = skipBlank s := List.dropWhile_cons_of_pos hb
      rw [hskip, Gap.chars, List.map_cons, encodeChars_cons, hc]
      exact congrArg (b :: ·) hg

theorem skipBlank_skipBlank (s : Bytes) : skipBlank (skipBlank s) = skipBlank s := by
  obtain ⟨g, hg⟩ := exists_gap s
  have hskip := skipBlank_gap g (skipBlank s)
  rw [← hg] at hskip
  exact hskip.symm

theorem numberEnds_gap {s : Bytes} (h : NumberEnds s) (g : Gap) : NumberEnds (encodeChars g.chars ++ s) := by
  cases g with
  | nil => exact h
  | cons b g =>
    rintro o r hs
    cases b <;> cases hs <;> decide

theorem readValue_skipBlank (depth : Nat) (s : Bytes) : readValue depth (skipBlank s) = readValue depth s := by
  rw [readValue.eq_def, readValue.eq_def]
  simp only [skipBlank_skipBlank]

theorem readValue_gap (depth : Nat) (g : Gap) (s : Bytes) :
    readValue depth (encodeChars g.chars ++ s) = readValue depth s := by
  rw [← readValue_skipBlank, skipBlank_gap, readValue_skipBlank]

/-! ### Arrays and objects -/

variable {item : Bytes → Except Fault (Value × Bytes)} {rest : Bytes} {bound : Nat}

/-- The items of an array from one of them on. -/
def itemsFrom (item : Bytes → Except Fault (Value × Bytes)) (bound : Nat) (start : Bytes) :
    Except Fault (List Value × Bytes) := do
  let (v, r) ← item start
  let (vs, r) ← readItems item bound false r
  .ok (v :: vs, r)

theorem readItems_eq {b : UInt8} {s t : Bytes} (hs : skipBlank s = b :: t) (hb : b ≠ 0x5D) (first : Bool) :
    readItems item (bound + 1) first s = nextItem first (b :: t) >>= itemsFrom item bound := by
  rw [readItems, hs]
  split
  · next heq => cases heq
  · next heq => exact absurd (List.cons.inj heq).1 hb
  · rfl

theorem readItems_end {s : Bytes} (hs : skipBlank s = 0x5D :: rest) (first : Bool) :
    readItems item (bound + 1) first s = .ok ([], rest) := by
  rw [readItems, hs]
  rfl

private theorem readItems_comma {b : UInt8} {s s' t : Bytes} (hs : skipBlank s = 0x2C :: s')
    (hs' : skipBlank s' = b :: t) (hb : b ≠ 0x5D) :
    readItems item (bound + 1) false s = itemsFrom item bound (b :: t) := by
  rw [readItems_eq hs (by decide)]
  simp only [nextItem, Bool.false_eq_true, if_false, hs']
  split
  · next heq => cases heq
  · next heq => exact absurd (List.cons.inj heq).1 hb
  · rfl

/-- The members of an object from one of them on. -/
def membersFrom (item : Bytes → Except Fault (Value × Bytes)) (bound : Nat) (start : Bytes) :
    Except Fault (List (String × Value) × Bytes) := do
  let (m, r) ← readMember item start
  let (ms, r) ← readMembers item bound false r
  .ok (m :: ms, r)

theorem readMembers_eq {b : UInt8} {s t : Bytes} (hs : skipBlank s = b :: t) (hb : b ≠ 0x7D) (first : Bool) :
    readMembers item (bound + 1) first s = nextMember first (b :: t) >>= membersFrom item bound := by
  rw [readMembers, hs]
  split
  · next heq => cases heq
  · next heq => exact absurd (List.cons.inj heq).1 hb
  · rfl

theorem readMembers_end {s : Bytes} (hs : skipBlank s = 0x7D :: rest) (first : Bool) :
    readMembers item (bound + 1) first s = .ok ([], rest) := by
  rw [readMembers, hs]
  rfl

private theorem readMembers_comma {s s' t : Bytes} (hs : skipBlank s = 0x2C :: s') (hs' : skipBlank s' = 0x22 :: t) :
    readMembers item (bound + 1) false s = membersFrom item bound (0x22 :: t) := by
  rw [readMembers_eq hs (by decide)]
  simp only [nextMember, Bool.false_eq_true, if_false, hs']
  rfl

/-! ### Trees -/

/-- A text that begins visibly, and not with the end of an array. -/
private def Begins (s : Bytes) : Prop := ∃ b t, s = b :: t ∧ 0x20 < b.toNat ∧ b ≠ 0x5D

private theorem isBlank_of_lt {b : UInt8} (h : 0x20 < b.toNat) : isBlank b = false := by
  simp only [isBlank, Bool.or_eq_false_iff, beq_eq_false_iff_ne, ne_eq, ← UInt8.toNat_inj, UInt8.reduceToNat]
  omega

private theorem Begins.skipBlank {s : Bytes} (h : Begins s) : skipBlank s = s := by
  obtain ⟨b, t, rfl, hb, -⟩ := h
  exact skipBlank_cons (isBlank_of_lt hb) t

private theorem Tree.begins (t : Tree) (rest : Bytes) : Begins (encodeChars t.chars ++ rest) := by
  have hone : ∀ {c : Char} {b : UInt8} {cs : List Char}, String.utf8EncodeChar c = [b] → 0x20 < b.toNat → b ≠ 0x5D →
      Begins (encodeChars (c :: cs) ++ rest) := by
    intro c b cs hc hb hne
    exact ⟨b, encodeChars cs ++ rest, by rw [encodeChars_cons, hc]; rfl, hb, hne⟩
  have hfigure : ∀ d, 0x20 < (figure d).toNat ∧ figure d ≠ 0x5D := by decide
  cases t with
  | word w => cases w <;> exact hone rfl (by decide) (by decide)
  | number n =>
    rw [Tree.chars, Numeral.chars]
    split
    · exact hone rfl (by decide) (by decide)
    · obtain ⟨hlow, hne⟩ := hfigure n.whole.first
      exact ⟨_, _, encodeChars_unsigned n rest, hlow, hne⟩
  | string ps => exact hone rfl (by decide) (by decide)
  | emptyArray inside => exact hone rfl (by decide) (by decide)
  | array items => exact hone rfl (by decide) (by decide)
  | emptyObject inside => exact hone rfl (by decide) (by decide)
  | object members => exact hone rfl (by decide) (by decide)

/-- The text of a tree begins with an octet that is no blank of any kind. -/
theorem Tree.exists_visible (t : Tree) : ∃ b s, encodeChars t.chars = b :: s ∧ 0x20 < b.toNat := by
  obtain ⟨b, s, hs, hb, -⟩ := t.begins []
  rw [List.append_nil] at hs
  exact ⟨b, s, hs, hb⟩

private theorem Tree.begins_gap (before : Gap) (t : Tree) (rest : Bytes) :
    Begins (Json.skipBlank (encodeChars before.chars ++ (encodeChars t.chars ++ rest))) := by
  have h := t.begins rest
  rwa [skipBlank_gap, h.skipBlank]

private theorem Items.begins (items : Items) (rest : Bytes) :
    Begins (Json.skipBlank (encodeChars items.chars ++ rest)) := by
  cases items with
  | last before value after =>
    rw [Items.chars, encodeChars_append, encodeChars_append, List.append_assoc, List.append_assoc]
    exact value.begins_gap before _
  | more before value after items =>
    rw [Items.chars, encodeChars_append, encodeChars_append, encodeChars_append, List.append_assoc, List.append_assoc,
      List.append_assoc]
    exact value.begins_gap before _

/-- A number is read as such, with its sign or without. -/
private theorem readValue_number (depth : Nat) (n : Numeral) (rest : Bytes) :
    readValue depth (encodeChars n.chars ++ rest) = readNumber n.negative (encodeChars n.unsigned ++ rest) := by
  rw [Numeral.chars]
  cases hn : n.negative with
  | true =>
    rw [if_pos rfl]
    cases depth <;> rfl
  | false =>
    rw [if_neg Bool.false_ne_true, encodeChars_unsigned]
    exact readValue_digit (isDigit_figure _) depth _

/-- The text between brackets or braces. -/
theorem encodeChars_between {a z : Char} {o p : UInt8} (ha : String.utf8EncodeChar a = [o])
    (hz : String.utf8EncodeChar z = [p]) (cs : List Char) (rest : Bytes) :
    encodeChars (a :: cs ++ [z]) ++ rest = o :: (encodeChars cs ++ p :: rest) := by
  simp [encodeChars, ha, hz]

private theorem readValue_quoted (depth : Nat) (ps : Pieces) (rest : Bytes) :
    readValue depth (encodeChars ps.quoted ++ rest) = (do
      let (text, r) ← readString (encodeChars ps.chars ++ 0x22 :: rest)
      .ok (.string text, r)) := by
  rw [Pieces.quoted, encodeChars_between (o := 0x22) (p := 0x22) rfl rfl, readValue_string]

private theorem itemsFrom_skipBlank (depth bound : Nat) (s : Bytes) :
    itemsFrom (readValue depth) bound (skipBlank s) = itemsFrom (readValue depth) bound s := by
  rw [itemsFrom, itemsFrom, readValue_skipBlank]

private theorem skipBlank_name (name : Name) (s : Bytes) :
    skipBlank (encodeChars name.chars ++ s) =
      0x22 :: (encodeChars name.pieces.chars ++ 0x22 :: (encodeChars name.after.chars ++ s)) := by
  have hquoted : encodeChars name.pieces.quoted ++ (encodeChars name.after.chars ++ s) =
      0x22 :: (encodeChars name.pieces.chars ++ 0x22 :: (encodeChars name.after.chars ++ s)) :=
    encodeChars_between rfl rfl _ _
  rw [Name.chars, encodeChars_append, encodeChars_append, List.append_assoc, List.append_assoc, skipBlank_gap, hquoted]
  rfl

private theorem Members.begins (members : Members) (rest : Bytes) :
    ∃ t, Json.skipBlank (encodeChars members.chars ++ rest) = 0x22 :: t := by
  cases members with
  | last name before value after =>
    simp only [Members.chars, encodeChars_append, List.append_assoc, List.cons_append]
    exact ⟨_, skipBlank_name name _⟩
  | more name before value after members =>
    simp only [Members.chars, encodeChars_append, List.append_assoc, List.cons_append]
    exact ⟨_, skipBlank_name name _⟩

/-- A member is read with its name, and its value as far as that is read. -/
private theorem readMember_name (name : Name) (s : Bytes) :
    (readMember item (skipBlank (encodeChars name.chars ++ 0x3A :: s))).toOption = (do
      let cs ← name.pieces.text?
      let (v, r) ← (item s).toOption
      some ((String.ofList cs, v), r)) := by
  have hcolon : skipBlank (encodeChars name.after.chars ++ 0x3A :: s) = 0x3A :: s := skipBlank_gap name.after _
  rw [skipBlank_name, readMember, List.drop_succ_cons, List.drop_zero, toOption_bind, readString_pieces]
  cases name.pieces.text? with
  | none => rfl
  | some cs =>
    simp only [Option.map_some, Option.bind_some, hcolon, toOption_bind]
    rfl

theorem encodeChars_comma (cs : List Char) : encodeChars (',' :: cs) = 0x2C :: encodeChars cs := rfl

theorem encodeChars_colon (cs : List Char) : encodeChars (':' :: cs) = 0x3A :: encodeChars cs := rfl

mutual

/-- A tree that keeps to the limits is read as its value, and no other one is read. -/
theorem Tree.read (t : Tree) (depth : Nat) (rest : Bytes) (h : NumberEnds rest) :
    (readValue depth (encodeChars t.chars ++ rest)).toOption = (t.value? depth).map fun v => (v, rest) := by
  -- Arrays and objects are read one level down, where the depth still allows for it.
  cases t with
  | word w =>
    cases depth <;> cases w <;> rfl
  | number n =>
    rw [Tree.chars, readValue_number, readNumber_numeral (h.endsAt n), Tree.value?, Option.map_map]
    rfl
  | string ps =>
    rw [Tree.chars, readValue_quoted, toOption_bind, readString_pieces, Tree.value?]
    cases ps.text? <;> rfl
  | emptyArray inside =>
    rw [Tree.chars, encodeChars_between (o := 0x5B) (p := 0x5D) rfl rfl]
    cases depth with
    | zero => rfl
    | succ depth =>
      rw [readValue_array, readItems_end (skipBlank_gap inside _)]
      rfl
  | array items =>
    rw [Tree.chars, encodeChars_between (o := 0x5B) (p := 0x5D) rfl rfl]
    cases depth with
    | zero => rfl
    | succ depth =>
      obtain ⟨b, t, hs, hb, hne⟩ := items.begins (0x5D :: rest)
      have hitems := items.read depth (encodeChars items.chars ++ 0x5D :: rest).length rest (by simp)
      rw [← itemsFrom_skipBlank, hs] at hitems
      have hfirst : nextItem true (b :: t) = .ok (b :: t) := rfl
      rw [readValue_array, readItems_eq hs hne, hfirst, toOption_bind]
      change ((itemsFrom _ _ (b :: t)).toOption.bind _) = _
      rw [hitems, Tree.value?]
      cases items.values? depth <;> rfl
  | emptyObject inside =>
    rw [Tree.chars, encodeChars_between (o := 0x7B) (p := 0x7D) rfl rfl]
    cases depth with
    | zero => rfl
    | succ depth =>
      rw [readValue_object, readMembers_end (skipBlank_gap inside _)]
      rfl
  | object members =>
    rw [Tree.chars, encodeChars_between (o := 0x7B) (p := 0x7D) rfl rfl]
    cases depth with
    | zero => rfl
    | succ depth =>
      obtain ⟨t, hs⟩ := members.begins (0x7D :: rest)
      have hmembers := members.read depth (encodeChars members.chars ++ 0x7D :: rest).length rest (by simp)
      rw [hs] at hmembers
      have hfirst : nextMember true (0x22 :: t) = .ok (0x22 :: t) := rfl
      rw [readValue_object, readMembers_eq hs (by decide), hfirst, toOption_bind]
      change ((membersFrom _ _ (0x22 :: t)).toOption.bind _) = _
      rw [hmembers, Tree.value?]
      cases members.values? depth <;> rfl

theorem Items.read (items : Items) (depth bound : Nat) (rest : Bytes)
    (h : (encodeChars items.chars).length < bound) :
    (itemsFrom (readValue depth) bound (encodeChars items.chars ++ 0x5D :: rest)).toOption =
      (items.values? depth).map fun vs => (vs, rest) := by
  -- The reader has a bound on its rounds; every item takes octets, so that there are rounds for all.
  obtain ⟨bound, rfl⟩ := Nat.exists_eq_succ_of_ne_zero (Nat.ne_zero_of_lt h)
  cases items with
  | last before value after =>
    have hafter := numberEnds_gap (numberEnds_cons (b := 0x5D) (.inr (.inl rfl)) rest) after
    have hend : skipBlank (encodeChars after.chars ++ 0x5D :: rest) = 0x5D :: rest := skipBlank_gap after _
    have hvalue := value.read depth _ hafter
    rw [Items.chars, encodeChars_append, encodeChars_append, List.append_assoc, List.append_assoc, itemsFrom,
      readValue_gap, toOption_bind, hvalue, Items.values?]
    cases value.value? depth with
    | none => rfl
    | some v =>
      change (readItems _ (bound + 1) false _ >>= _).toOption = _
      rw [readItems_end hend]
      rfl
  | more before value after items =>
    obtain ⟨b, t, hs, hb, hne⟩ := items.begins (0x5D :: rest)
    have hafter :=
      numberEnds_gap (numberEnds_cons (b := 0x2C) (.inl rfl) (encodeChars items.chars ++ 0x5D :: rest)) after
    have hcomma : skipBlank (encodeChars after.chars ++ 0x2C :: (encodeChars items.chars ++ 0x5D :: rest)) =
        0x2C :: (encodeChars items.chars ++ 0x5D :: rest) := skipBlank_gap after _
    have hvalue := value.read depth _ hafter
    have htext : encodeChars (Items.more before value after items).chars ++ 0x5D :: rest =
        encodeChars before.chars ++ (encodeChars value.chars ++
          (encodeChars after.chars ++ 0x2C :: (encodeChars items.chars ++ 0x5D :: rest))) := by
      simp only [Items.chars, encodeChars_append, encodeChars_comma, List.append_assoc, List.cons_append]
    have hlength : (encodeChars items.chars).length < bound := by
      simp only [Items.chars, encodeChars_append, encodeChars_comma, List.length_append, List.length_cons] at h
      omega
    have hitems := items.read depth bound rest hlength
    rw [← itemsFrom_skipBlank, hs] at hitems
    rw [htext, itemsFrom, readValue_gap, toOption_bind, hvalue, Items.values?]
    cases value.value? depth with
    | none => rfl
    | some v =>
      change (readItems _ (bound + 1) false _ >>= _).toOption = _
      rw [readItems_comma hcomma hs hne, toOption_bind, hitems]
      cases items.values? depth <;> rfl

theorem Members.read (members : Members) (depth bound : Nat) (rest : Bytes)
    (h : (encodeChars members.chars).length < bound) :
    (membersFrom (readValue depth) bound (skipBlank (encodeChars members.chars ++ 0x7D :: rest))).toOption =
      (members.values? depth).map fun ms => (ms, rest) := by
  obtain ⟨bound, rfl⟩ := Nat.exists_eq_succ_of_ne_zero (Nat.ne_zero_of_lt h)
  cases members with
  | last name before value after =>
    have hafter := numberEnds_gap (numberEnds_cons (b := 0x7D) (.inr (.inr rfl)) rest) after
    have hend : skipBlank (encodeChars after.chars ++ 0x7D :: rest) = 0x7D :: rest := skipBlank_gap after _
    have hvalue := value.read depth _ hafter
    have htext : encodeChars (Members.last name before value after).chars ++ 0x7D :: rest =
        encodeChars name.chars ++ 0x3A :: (encodeChars before.chars ++ (encodeChars value.chars ++
          (encodeChars after.chars ++ 0x7D :: rest))) := by
      simp only [Members.chars, encodeChars_append, encodeChars_colon, List.append_assoc, List.cons_append]
    rw [htext, membersFrom, toOption_bind, readMember_name, readValue_gap, hvalue, Members.values?]
    cases name.pieces.text? with
    | none => rfl
    | some cs =>
      cases value.value? depth with
      | none => rfl
      | some v =>
        change (readMembers _ (bound + 1) false _ >>= _).toOption = _
        rw [readMembers_end hend]
        rfl
  | more name before value after members =>
    obtain ⟨t, hs⟩ := members.begins (0x7D :: rest)
    have hafter :=
      numberEnds_gap (numberEnds_cons (b := 0x2C) (.inl rfl) (encodeChars members.chars ++ 0x7D :: rest)) after
    have hcomma : skipBlank (encodeChars after.chars ++ 0x2C :: (encodeChars members.chars ++ 0x7D :: rest)) =
        0x2C :: (encodeChars members.chars ++ 0x7D :: rest) := skipBlank_gap after _
    have hvalue := value.read depth _ hafter
    have htext : encodeChars (Members.more name before value after members).chars ++ 0x7D :: rest =
        encodeChars name.chars ++ 0x3A :: (encodeChars before.chars ++ (encodeChars value.chars ++
          (encodeChars after.chars ++ 0x2C :: (encodeChars members.chars ++ 0x7D :: rest)))) := by
      simp only [Members.chars, encodeChars_append, encodeChars_colon, encodeChars_comma, List.append_assoc,
        List.cons_append]
    have hlength : (encodeChars members.chars).length < bound := by
      simp only [Members.chars, encodeChars_append, encodeChars_colon, encodeChars_comma, List.length_append,
        List.length_cons] at h
      omega
    have hmembers := members.read depth bound rest hlength
    rw [hs] at hmembers
    rw [htext, membersFrom, toOption_bind, readMember_name, readValue_gap, hvalue, Members.values?]
    cases name.pieces.text? with
    | none => rfl
    | some cs =>
      cases value.value? depth with
      | none => rfl
      | some v =>
        change (readMembers _ (bound + 1) false _ >>= _).toOption = _
        rw [readMembers_comma hcomma hs, toOption_bind, hmembers]
        cases members.values? depth <;> rfl

end

/-- A document is read as the value of its tree, and is refused if that has none within the limits. -/
theorem read_document (t : Document) : (read t.octets).toOption = t.value.value? maxDepth := by
  have hends : NumberEnds (encodeChars t.after.chars) := by
    have hnil := numberEnds_gap (s := []) (fun b r h => by cases h) t.after
    rwa [List.append_nil] at hnil
  have hskip : skipBlank (encodeChars t.after.chars) = [] := by
    have hnil := skipBlank_gap t.after []
    rwa [List.append_nil] at hnil
  rw [Document.octets, Document.chars, encodeChars_append, encodeChars_append, List.append_assoc, read, readValue_gap,
    toOption_bind, t.value.read maxDepth _ hends]
  cases t.value.value? maxDepth with
  | none => rfl
  | some v =>
    simp only [Option.map_some, Option.bind_some, hskip]
    rfl

end Json

end FailurePipeline
