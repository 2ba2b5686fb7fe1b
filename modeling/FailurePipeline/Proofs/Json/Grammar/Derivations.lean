import FailurePipeline.Proofs.Json.Grammar.Documents

/-!
# What is read is a document

Whatever octets the reader takes are a document of the grammar, with the value that it gives (`Json.document_of_read`).
The induction is on the depth that remains, and within an array or object on the bound for its items.
-/

namespace FailurePipeline

namespace Json

open Utf8

variable {item : Bytes → Except Fault (Value × Bytes)} {bound : Nat}

/-- What a reader of values takes is a tree with blanks before it. -/
private def TakesTrees (depth : Nat) (item : Bytes → Except Fault (Value × Bytes)) : Prop :=
  ∀ {s r : Bytes} {v : Value}, item s = .ok (v, r) →
    ∃ (g : Gap) (t : Tree), s = encodeChars g.chars ++ (encodeChars t.chars ++ r) ∧ t.value? depth = some v

variable {depth : Nat} {s t r start : Bytes} {v : Value} {vs : List Value} {name : String} {ms : List (String × Value)}

theorem Gap.chars_append (g g' : Gap) : Gap.chars (g ++ g') = g.chars ++ g'.chars := List.map_append

private theorem eq_of_readWord {value : Value} {word : Bytes} (h : readWord value word s = .ok (v, r)) :
    s = word ++ r ∧ v = value := by
  induction word generalizing s with
  | nil =>
    cases h
    exact ⟨rfl, rfl⟩
  | cons w word ih =>
    cases s with
    | nil => cases h
    | cons b s =>
      rw [readWord] at h
      split at h
      · next hb =>
        obtain ⟨rfl, rfl⟩ := ih h
        exact ⟨by rw [hb]; rfl, rfl⟩
      · cases h

private theorem eq_of_nextItem {b : UInt8} (h : nextItem false (b :: t) = .ok start) :
    b = 0x2C ∧ start = skipBlank t := by
  simp only [nextItem, Bool.false_eq_true, if_false] at h
  split at h
  · next heq =>
    cases heq
    split at h
    · cases h
    · cases h
    · next heq' _ _ =>
      cases h
      exact ⟨rfl, rfl⟩
  · cases h

/-- The items of an array from one of them on. -/
private theorem items_of_itemsFrom (hitem : TakesTrees depth item)
    (hmore : ∀ {s : Bytes} {vs : List Value}, readItems item bound false s = .ok (vs, r) →
      (∃ g : Gap, s = encodeChars g.chars ++ 0x5D :: r ∧ vs = []) ∨
        ∃ (g : Gap) (items : Items), s = encodeChars g.chars ++ 0x2C :: (encodeChars items.chars ++ 0x5D :: r) ∧
          items.values? depth = some vs)
    (h : itemsFrom item bound start = .ok (vs, r)) (before : Gap) :
    ∃ items : Items, encodeChars before.chars ++ start = encodeChars items.chars ++ 0x5D :: r ∧
      items.values? depth = some vs := by
  simp only [itemsFrom, bind, Except.bind] at h
  split at h
  · cases h
  next p hv =>
  split at h
  · cases h
  next q hvs =>
  cases h
  obtain ⟨g, t, rfl, ht⟩ := hitem hv
  obtain ⟨after, hp, hq⟩ | ⟨after, items, hp, hq⟩ := hmore hvs
  · refine ⟨.last (before ++ g) t after, ?_, ?_⟩
    · rw [hp]
      simp only [Items.chars, Gap.chars_append, encodeChars_append, List.append_assoc]
    · simp [Items.values?, ht, hq]
  · refine ⟨.more (before ++ g) t after items, ?_, ?_⟩
    · rw [hp]
      simp only [Items.chars, Gap.chars_append, encodeChars_append, encodeChars_comma, List.append_assoc,
        List.cons_append]
    · simp [Items.values?, ht, hq]

private theorem items_of_readItems (hitem : TakesTrees depth item) (h : readItems item bound false s = .ok (vs, r)) :
    (∃ g : Gap, s = encodeChars g.chars ++ 0x5D :: r ∧ vs = []) ∨
      ∃ (g : Gap) (items : Items), s = encodeChars g.chars ++ 0x2C :: (encodeChars items.chars ++ 0x5D :: r) ∧
        items.values? depth = some vs := by
  induction bound generalizing s vs with
  | zero => cases h
  | succ bound ih =>
    obtain ⟨g, hg⟩ := exists_gap s
    cases hs : skipBlank s with
    | nil =>
      rw [readItems, hs] at h
      cases h
    | cons b t =>
      rw [hs] at hg
      by_cases hb : b = 0x5D
      · subst hb
        rw [readItems_end hs] at h
        cases h
        exact .inl ⟨g, hg, rfl⟩
      · rw [readItems_eq hs hb] at h
        simp only [bind, Except.bind] at h
        split at h
        · cases h
        next start hnext =>
        obtain ⟨rfl, rfl⟩ := eq_of_nextItem hnext
        obtain ⟨g', hg'⟩ := exists_gap t
        obtain ⟨items, hitems, hvs⟩ := items_of_itemsFrom hitem ih h g'
        exact .inr ⟨g, items, by rw [hg, hg', hitems], hvs⟩

/-- What stands after an opening bracket. -/
private theorem array_of_readItems (hitem : TakesTrees depth item)
    (h : readItems item (bound + 1) true s = .ok (vs, r)) :
    ∃ t : Tree, 0x5B :: s = encodeChars t.chars ++ r ∧ t.value? (depth + 1) = some (.array vs) := by
  obtain ⟨g, hg⟩ := exists_gap s
  cases hs : skipBlank s with
  | nil =>
    rw [readItems, hs] at h
    cases h
  | cons b t =>
    rw [hs] at hg
    by_cases hb : b = 0x5D
    · subst hb
      rw [readItems_end hs] at h
      cases h
      refine ⟨.emptyArray g, ?_, rfl⟩
      rw [hg]
      exact (encodeChars_between rfl rfl _ _).symm
    · rw [readItems_eq hs hb] at h
      obtain ⟨items, hitems, hvs⟩ := items_of_itemsFrom hitem (fun h => items_of_readItems hitem h) h g
      refine ⟨.array items, ?_, by rw [Tree.value?, hvs]; rfl⟩
      rw [hg, hitems]
      exact (encodeChars_between rfl rfl _ _).symm

private theorem eq_of_nextMember {b : UInt8} {first : Bool} (h : nextMember first (b :: t) = .ok start) :
    (∃ u, start = 0x22 :: u) ∧ if first then start = b :: t else b = 0x2C ∧ start = skipBlank t := by
  cases first with
  | true =>
    simp only [nextMember, if_true] at h
    split at h
    · next heq =>
      cases heq
      cases h
      exact ⟨⟨_, rfl⟩, rfl⟩
    · cases h
  | false =>
    simp only [nextMember, Bool.false_eq_true, if_false] at h
    split at h
    · next heq =>
      cases heq
      split at h
      · cases h
      · next hquote =>
        cases h
        exact ⟨⟨_, rfl⟩, rfl, hquote.symm⟩
      · cases h
      · cases h
    · cases h

private theorem name_of_readMember (hitem : TakesTrees depth item)
    (h : readMember item (0x22 :: s) = .ok ((name, v), r)) (before : Gap) :
    ∃ (n : Name) (g : Gap) (t : Tree),
      encodeChars before.chars ++ 0x22 :: s =
        encodeChars n.chars ++ 0x3A :: (encodeChars g.chars ++ (encodeChars t.chars ++ r)) ∧
      n.pieces.text? = some name.toList ∧ t.value? depth = some v := by
  simp only [readMember, List.drop_succ_cons, List.drop_zero, bind, Except.bind] at h
  split at h
  · cases h
  next p hname =>
  obtain ⟨ps, rfl, hps⟩ := pieces_of_readString hname
  split at h
  · cases h
  · next u hcolon =>
    split at h
    · cases h
    next q hv =>
    cases h
    obtain ⟨after, hafter⟩ := exists_gap p.2
    obtain ⟨g, t, rfl, ht⟩ := hitem hv
    refine ⟨⟨before, ps, after⟩, g, t, ?_, hps, ht⟩
    rw [hafter, hcolon, Name.chars, encodeChars_append, encodeChars_append, List.append_assoc, List.append_assoc,
      Pieces.quoted, encodeChars_between (o := 0x22) (p := 0x22) rfl rfl]
  · cases h

/-- The members of an object from one of them on. -/
private theorem members_of_membersFrom (hitem : TakesTrees depth item)
    (hmore : ∀ {s : Bytes} {ms : List (String × Value)}, readMembers item bound false s = .ok (ms, r) →
      (∃ g : Gap, s = encodeChars g.chars ++ 0x7D :: r ∧ ms = []) ∨
        ∃ (g : Gap) (members : Members),
          s = encodeChars g.chars ++ 0x2C :: (encodeChars members.chars ++ 0x7D :: r) ∧
            members.values? depth = some ms)
    (h : membersFrom item bound (0x22 :: s) = .ok (ms, r)) (before : Gap) :
    ∃ members : Members, encodeChars before.chars ++ 0x22 :: s = encodeChars members.chars ++ 0x7D :: r ∧
      members.values? depth = some ms := by
  simp only [membersFrom, bind, Except.bind] at h
  split at h
  · cases h
  next p hm =>
  split at h
  · cases h
  next q hms =>
  cases h
  obtain ⟨n, g, t, htext, hname, ht⟩ := name_of_readMember hitem hm before
  obtain ⟨after, hp, hq⟩ | ⟨after, members, hp, hq⟩ := hmore hms
  · refine ⟨.last n g t after, ?_, ?_⟩
    · rw [htext, hp]
      simp only [Members.chars, encodeChars_append, encodeChars_colon, List.append_assoc, List.cons_append]
    · simp [Members.values?, hname, ht, hq]
  · refine ⟨.more n g t after members, ?_, ?_⟩
    · rw [htext, hp]
      simp only [Members.chars, encodeChars_append, encodeChars_colon, encodeChars_comma, List.append_assoc,
        List.cons_append]
    · simp [Members.values?, hname, ht, hq]

private theorem members_of_readMembers (hitem : TakesTrees depth item)
    (h : readMembers item bound false s = .ok (ms, r)) :
    (∃ g : Gap, s = encodeChars g.chars ++ 0x7D :: r ∧ ms = []) ∨
      ∃ (g : Gap) (members : Members), s = encodeChars g.chars ++ 0x2C :: (encodeChars members.chars ++ 0x7D :: r) ∧
        members.values? depth = some ms := by
  induction bound generalizing s ms with
  | zero => cases h
  | succ bound ih =>
    obtain ⟨g, hg⟩ := exists_gap s
    cases hs : skipBlank s with
    | nil =>
      rw [readMembers, hs] at h
      cases h
    | cons b t =>
      rw [hs] at hg
      by_cases hb : b = 0x7D
      · subst hb
        rw [readMembers_end hs] at h
        cases h
        exact .inl ⟨g, hg, rfl⟩
      · rw [readMembers_eq hs hb] at h
        simp only [bind, Except.bind] at h
        split at h
        · cases h
        next start hnext =>
        obtain ⟨⟨u, rfl⟩, rfl, hstart⟩ := eq_of_nextMember hnext
        obtain ⟨g', hg'⟩ := exists_gap t
        obtain ⟨members, hmembers, hms⟩ := members_of_membersFrom hitem ih h g'
        exact .inr ⟨g, members, by rw [hg, hg', ← hstart, hmembers], hms⟩

/-- What stands after an opening brace. -/
private theorem object_of_readMembers (hitem : TakesTrees depth item)
    (h : readMembers item (bound + 1) true s = .ok (ms, r)) :
    ∃ t : Tree, 0x7B :: s = encodeChars t.chars ++ r ∧ t.value? (depth + 1) = some (.object ms) := by
  obtain ⟨g, hg⟩ := exists_gap s
  cases hs : skipBlank s with
  | nil =>
    rw [readMembers, hs] at h
    cases h
  | cons b t =>
    rw [hs] at hg
    by_cases hb : b = 0x7D
    · subst hb
      rw [readMembers_end hs] at h
      cases h
      refine ⟨.emptyObject g, ?_, rfl⟩
      rw [hg]
      exact (encodeChars_between rfl rfl _ _).symm
    · rw [readMembers_eq hs hb] at h
      simp only [bind, Except.bind] at h
      split at h
      · cases h
      next start hnext =>
      obtain ⟨⟨u, rfl⟩, hstart⟩ := eq_of_nextMember hnext
      obtain ⟨members, hmembers, hms⟩ := members_of_membersFrom hitem (fun h => members_of_readMembers hitem h) h g
      refine ⟨.object members, ?_, by rw [Tree.value?, hms]; rfl⟩
      rw [hg, ← (hstart : 0x22 :: u = b :: t), hmembers]
      exact (encodeChars_between rfl rfl _ _).symm

/-! ### Values and documents -/

private theorem word_of_readWord (w : Word) {value : Value} {first : UInt8} {word : Bytes}
    (hw : encodeChars w.chars = first :: word) (hvalue : w.value = value) (h : readWord value word s = .ok (v, r)) :
    ∃ t : Tree, first :: s = encodeChars t.chars ++ r ∧ t.value? depth = some v := by
  obtain ⟨rfl, rfl⟩ := eq_of_readWord h
  exact ⟨.word w, by rw [Tree.chars, hw]; rfl, by rw [Tree.value?, hvalue]⟩

private theorem number_of_readNumber {negative : Bool} (h : readNumber negative s = .ok (v, r)) :
    ∃ n : Numeral, n.negative = negative ∧ s = encodeChars n.unsigned ++ r ∧
      (Tree.number n).value? depth = some v := by
  obtain ⟨n, rfl, rfl, hends⟩ := numeral_of_readNumber h
  have hread := readNumber_numeral hends
  rw [h] at hread
  refine ⟨n, rfl, rfl, ?_⟩
  rw [Tree.value?]
  cases hn : n.number? with
  | none =>
    rw [hn] at hread
    cases hread
  | some x =>
    rw [hn] at hread
    cases hread
    rfl

/-- Where the reader takes trees one level down, it takes a tree. -/
private theorem tree_of_readValue (hsub : ∀ d, depth = d + 1 → TakesTrees d (readValue d)) {b : UInt8}
    (h : readValue depth (b :: s) = .ok (v, r)) (hb : isBlank b = false) :
    ∃ t : Tree, b :: s = encodeChars t.chars ++ r ∧ t.value? depth = some v := by
  -- The first octet tells which kind of tree it is, in the order in which the reader looks at it.
  rw [readValue.eq_def] at h
  simp only [skipBlank_cons hb] at h
  split at h
  · next hn =>
    obtain rfl := eq_of_beq hn
    exact word_of_readWord .null rfl rfl h
  split at h
  · next hn =>
    obtain rfl := eq_of_beq hn
    exact word_of_readWord .true rfl rfl h
  split at h
  · next hn =>
    obtain rfl := eq_of_beq hn
    exact word_of_readWord .false rfl rfl h
  split at h
  · next hn =>
    obtain rfl := eq_of_beq hn
    obtain ⟨n, hnegative, rfl, hv⟩ := @number_of_readNumber depth _ _ _ _ h
    exact ⟨.number n, by rw [Tree.chars, Numeral.chars, hnegative]; rfl, hv⟩
  split at h
  · obtain ⟨n, hnegative, hs, hv⟩ := @number_of_readNumber depth _ _ _ _ h
    exact ⟨.number n, by rw [hs, Tree.chars, Numeral.chars, hnegative]; rfl, hv⟩
  split at h
  · next hn =>
    obtain rfl := eq_of_beq hn
    simp only [bind, Except.bind] at h
    split at h
    · cases h
    next p hread =>
    cases h
    obtain ⟨ps, rfl, hps⟩ := pieces_of_readString hread
    refine ⟨.string ps, (encodeChars_between rfl rfl _ _).symm, ?_⟩
    simp [Tree.value?, hps]
  split at h
  · next hn =>
    obtain rfl := eq_of_beq hn
    cases depth with
    | zero => cases h
    | succ depth =>
      simp only [bind, Except.bind] at h
      split at h
      · cases h
      next p hread =>
      cases h
      exact array_of_readItems (hsub depth rfl) hread
  split at h
  · next hn =>
    obtain rfl := eq_of_beq hn
    cases depth with
    | zero => cases h
    | succ depth =>
      simp only [bind, Except.bind] at h
      split at h
      · cases h
      next p hread =>
      cases h
      exact object_of_readMembers (hsub depth rfl) hread
  · cases h

private theorem takesTrees_of (hsub : ∀ d, depth = d + 1 → TakesTrees d (readValue d)) :
    TakesTrees depth (readValue depth) := by
  intro s r v h
  obtain ⟨g, hg⟩ := exists_gap s
  rw [← readValue_skipBlank] at h
  cases hs : skipBlank s with
  | nil =>
    rw [hs] at h
    cases depth <;> cases h
  | cons b t =>
    have hb : isBlank b = false := by
      have hhead := List.head?_dropWhile_not isBlank s
      have hdrop : s.dropWhile isBlank = b :: t := hs
      simpa [hdrop] using hhead
    rw [hs] at h hg
    obtain ⟨t, ht, hv⟩ := tree_of_readValue hsub h hb
    exact ⟨g, t, by rw [hg, ht], hv⟩

theorem takesTrees_readValue (depth : Nat) : TakesTrees depth (readValue depth) := by
  induction depth with
  | zero => exact takesTrees_of fun d hd => absurd hd.symm (Nat.succ_ne_zero d)
  | succ depth ih => exact takesTrees_of fun d hd => Nat.succ.inj hd ▸ ih

/-- What is read is a document within the limits. -/
theorem document_of_read (h : read s = .ok v) : ∃ t : Document, s = t.octets ∧ t.value.value? maxDepth = some v := by
  simp only [read, bind, Except.bind] at h
  split at h
  · cases h
  next p hv =>
  obtain ⟨before, t, rfl, ht⟩ := takesTrees_readValue maxDepth hv
  obtain ⟨after, hafter⟩ := exists_gap p.2
  split at h
  · next hnil =>
    cases h
    rw [hnil, List.append_nil] at hafter
    refine ⟨⟨before, t, after⟩, ?_, ht⟩
    rw [hafter, Document.octets, Document.chars, encodeChars_append, encodeChars_append, List.append_assoc]
  · cases h

end Json

end FailurePipeline
