import FailurePipeline.Proofs.Json.Numbers
import FailurePipeline.Proofs.Json.Strings

/-!
# Values that are written are read back

The text of a value is read as that value, if its numbers are naturals of a word and it is not nested too deep
(`Json.read_chars`).  Every string may stand in it, as a value or as a name.
-/

namespace FailurePipeline

namespace Json

open Utf8

/-- A value that is nested at most so deep, with no numbers other than naturals of a word. -/
inductive Readable : Nat → Value → Prop
  | null (depth : Nat) : Readable depth .null
  | bool (depth : Nat) (b : Bool) : Readable depth (.bool b)
  | number (depth : Nat) {n : Nat} (h : n ≤ maxWord) : Readable depth (.number (.ofNat n))
  | string (depth : Nat) (s : String) : Readable depth (.string s)
  | array {depth : Nat} {items : List Value} (h : ∀ v ∈ items, Readable depth v) :
    Readable (depth + 1) (.array items)
  | object {depth : Nat} {members : List (String × Value)} (h : ∀ m ∈ members, Readable depth m.2) :
    Readable (depth + 1) (.object members)

/-- A reader of values takes the text of a value for that value. -/
def ReadsBack (item : Bytes → Except Fault (Value × Bytes)) (v : Value) : Prop :=
  ∀ rest, NumberEnds rest → item (encodeChars v.chars ++ rest) = .ok (v, rest)

variable {item : Bytes → Except Fault (Value × Bytes)} {depth : Nat} {v : Value} {rest : Bytes}

theorem Number.render_ofNat (n : Nat) : (Number.ofNat n).render = Digits.decimal n := rfl

theorem skipBlank_cons {b : UInt8} (h : isBlank b = false) (s : Bytes) : skipBlank (b :: s) = b :: s := by
  simp [skipBlank, h]

/-- The text of a value begins with neither a blank nor the end of an array. -/
private theorem head_chars (h : Readable depth v) :
    ∃ b s, encodeChars v.chars = b :: s ∧ isBlank b = false ∧ b ≠ 0x5D := by
  have hdigit : ∀ b : UInt8, isDigit b = true → isBlank b = false ∧ b ≠ 0x5D := by
    intro b hb
    simp only [isDigit, Bool.and_eq_true, decide_eq_true_eq, UInt8.le_iff_toNat_le, UInt8.reduceToNat] at hb
    refine ⟨?_, fun h => by simp [h] at hb⟩
    simp only [isBlank, Bool.or_eq_false_iff, beq_eq_false_iff_ne, ne_eq, ← UInt8.toNat_inj, UInt8.reduceToNat]
    omega
  cases h with
  | null => exact ⟨_, _, rfl, rfl, by decide⟩
  | bool depth b => cases b <;> exact ⟨_, _, rfl, rfl, by decide⟩
  | @number _ n hn =>
    obtain ⟨b, bs, heq, hall, -⟩ := encodeChars_decimal n
    have hb := hdigit b (hall b List.mem_cons_self)
    exact ⟨b, bs, heq, hb.1, hb.2⟩
  | string => exact ⟨_, _, encodeChars_quote _, rfl, by decide⟩
  | @array _ items h => cases items <;> exact ⟨_, _, rfl, rfl, by decide⟩
  | @object _ members h => cases members <;> exact ⟨_, _, rfl, rfl, by decide⟩

/-! ### Items -/

/-- What stands between the items and members ends a number. -/
theorem numberEnds_cons {b : UInt8} (hb : b = 0x2C ∨ b = 0x5D ∨ b = 0x7D) (s : Bytes) :
    NumberEnds (b :: s) := by
  rintro _ _ ⟨⟩
  rcases hb with rfl | rfl | rfl <;> decide

private theorem numberEnds_restItems (vs : List Value) (rest : Bytes) :
    NumberEnds (encodeChars (restItems vs) ++ rest) := by
  cases vs with
  | nil => exact numberEnds_cons (.inr (.inl rfl)) rest
  | cons => exact numberEnds_cons (.inl rfl) _

private theorem readItems_step {bound : Nat} {first : Bool} {b : UInt8} {s start r : Bytes} {vs : List Value}
    (hb : isBlank b = false) (hend : b ≠ 0x5D) (hnext : nextItem first (b :: s) = .ok start)
    (hitem : item start = .ok (v, r)) (hrest : readItems item bound false r = .ok (vs, rest)) :
    readItems item (bound + 1) first (b :: s) = .ok (v :: vs, rest) := by
  rw [readItems, skipBlank_cons hb]
  split
  · next heq => cases heq
  · next heq => exact absurd (List.cons.inj heq).1 hend
  · simp only [hnext, hitem, hrest, bind, Except.bind]

/-- The items after the first one, with the bracket that closes them. -/
private theorem readItems_restItems {vs : List Value} (hitem : ∀ v ∈ vs, ReadsBack item v)
    (hreadable : ∀ v ∈ vs, Readable depth v) (rest : Bytes) :
    ∀ bound, (encodeChars (restItems vs)).length < bound →
      readItems item bound false (encodeChars (restItems vs) ++ rest) = .ok (vs, rest) := by
  induction vs with
  | nil =>
    intro bound hb
    obtain ⟨bound, rfl⟩ := Nat.exists_eq_succ_of_ne_zero (Nat.ne_zero_of_lt hb)
    rfl
  | cons v vs ih =>
    have htext : encodeChars (restItems (v :: vs)) =
        0x2C :: (encodeChars v.chars ++ encodeChars (restItems vs)) := by
      rw [restItems, List.cons_append, encodeChars_cons, encodeChars_append]
      rfl
    intro bound hb
    obtain ⟨bound, rfl⟩ := Nat.exists_eq_succ_of_ne_zero (Nat.ne_zero_of_lt hb)
    rw [htext, List.length_cons, List.length_append] at hb
    have hrest := ih (fun v' hv' => hitem v' (List.mem_cons_of_mem v hv'))
      (fun v' hv' => hreadable v' (List.mem_cons_of_mem v hv')) bound (by omega)
    obtain ⟨b, s, heq, hblank, hend⟩ := head_chars (hreadable v List.mem_cons_self)
    have hread := hitem v List.mem_cons_self _ (numberEnds_restItems vs rest)
    rw [← List.append_assoc] at hread
    rw [htext, List.cons_append]
    refine readItems_step rfl (by decide) ?_ hread hrest
    rw [heq, List.cons_append]
    simp only [nextItem, Bool.false_eq_true, if_false, List.cons_append, skipBlank_cons hblank]
    split
    · next heq => cases heq
    · next heq => exact absurd (List.cons.inj heq).1 hend
    · rfl

/-! ### Members -/

private theorem numberEnds_restMembers (ms : List (String × Value)) (rest : Bytes) :
    NumberEnds (encodeChars (restMembers ms) ++ rest) := by
  cases ms with
  | nil => exact numberEnds_cons (.inr (.inr rfl)) rest
  | cons => exact numberEnds_cons (.inl rfl) _

private theorem readMember_quote (name : String) {s : Bytes} (hread : item s = .ok (v, rest)) :
    readMember item (encodeChars (quote name) ++ 0x3A :: s) = .ok ((name, v), rest) := by
  have htext : (encodeChars (quote name) ++ 0x3A :: s).drop 1 =
      encodeChars (name.toList.flatMap escapeChar) ++ 0x22 :: 0x3A :: s := by
    simp [encodeChars_quote]
  have hcolon : skipBlank (0x3A :: s) = 0x3A :: s := rfl
  rw [readMember, htext]
  simp only [readString_quoted, bind, Except.bind, hcolon, hread]

private theorem readMembers_step {bound : Nat} {first : Bool} {b : UInt8} {s start r : Bytes} {name : String}
    {ms : List (String × Value)} (hb : isBlank b = false) (hend : b ≠ 0x7D)
    (hnext : nextMember first (b :: s) = .ok start) (hmember : readMember item start = .ok ((name, v), r))
    (hrest : readMembers item bound false r = .ok (ms, rest)) :
    readMembers item (bound + 1) first (b :: s) = .ok ((name, v) :: ms, rest) := by
  rw [readMembers, skipBlank_cons hb]
  split
  · next heq => cases heq
  · next heq => exact absurd (List.cons.inj heq).1 hend
  · simp only [hnext, hmember, hrest, bind, Except.bind]

/-- The members after the first one, with the brace that closes them. -/
private theorem readMembers_restMembers {ms : List (String × Value)} (hitem : ∀ m ∈ ms, ReadsBack item m.2)
    (rest : Bytes) : ∀ bound, (encodeChars (restMembers ms)).length < bound →
      readMembers item bound false (encodeChars (restMembers ms) ++ rest) = .ok (ms, rest) := by
  induction ms with
  | nil =>
    intro bound hb
    obtain ⟨bound, rfl⟩ := Nat.exists_eq_succ_of_ne_zero (Nat.ne_zero_of_lt hb)
    rfl
  | cons m ms ih =>
    obtain ⟨name, v⟩ := m
    have htext : encodeChars (restMembers ((name, v) :: ms)) =
        0x2C :: (encodeChars (quote name) ++ 0x3A :: (encodeChars v.chars ++ encodeChars (restMembers ms))) := by
      rw [restMembers]
      simp only [List.cons_append, List.append_assoc, encodeChars_cons, encodeChars_append]
      rfl
    intro bound hb
    obtain ⟨bound, rfl⟩ := Nat.exists_eq_succ_of_ne_zero (Nat.ne_zero_of_lt hb)
    rw [htext] at hb
    simp only [List.length_cons, List.length_append] at hb
    have hrest := ih (fun m' hm' => hitem m' (List.mem_cons_of_mem _ hm')) bound (by omega)
    have hread := readMember_quote name (hitem (name, v) List.mem_cons_self _ (numberEnds_restMembers ms rest))
    rw [htext]
    simp only [List.cons_append, List.append_assoc]
    exact readMembers_step rfl (by decide) (by rw [encodeChars_quote]; rfl) hread hrest

/-! ### Values -/

theorem readValue_digit {b : UInt8} (hb : isDigit b = true) (depth : Nat) (s : Bytes) :
    readValue depth (b :: s) = readNumber false (b :: s) := by
  have hrange := hb
  simp only [isDigit, Bool.and_eq_true, decide_eq_true_eq, UInt8.le_iff_toNat_le, UInt8.reduceToNat] at hrange
  have hne : ∀ o : UInt8, o.toNat < 48 ∨ 57 < o.toNat → (b == o) = false := by
    rintro o ho
    rw [beq_eq_false_iff_ne]
    rintro rfl
    omega
  have hblank : isBlank b = false := by
    simp only [isBlank, hne 0x20 (by decide), hne 0x0A (by decide), hne 0x09 (by decide), hne 0x0D (by decide),
      Bool.or_self]
  rw [readValue.eq_def]
  simp only [skipBlank_cons hblank, hne 0x6E (by decide), hne 0x74 (by decide), hne 0x66 (by decide),
    hne 0x2D (by decide), hb, Bool.false_eq_true, if_false, if_true]

theorem readValue_string (depth : Nat) (s : Bytes) :
    readValue depth (0x22 :: s) = (do
      let (text, r) ← readString s
      .ok (.string text, r)) := by
  cases depth <;> rfl

theorem readValue_array (depth : Nat) (s : Bytes) :
    readValue (depth + 1) (0x5B :: s) = (do
      let (items, r) ← readItems (readValue depth) (s.length + 1) true s
      .ok (.array items, r)) := rfl

theorem readValue_object (depth : Nat) (s : Bytes) :
    readValue (depth + 1) (0x7B :: s) = (do
      let (members, r) ← readMembers (readValue depth) (s.length + 1) true s
      .ok (.object members, r)) := rfl

private theorem readValue_quote (depth : Nat) (text : String) (rest : Bytes) :
    readValue depth (encodeChars (quote text) ++ rest) = .ok (.string text, rest) := by
  have htext : encodeChars (quote text) ++ rest =
      0x22 :: (encodeChars (text.toList.flatMap escapeChar) ++ 0x22 :: rest) := by simp [encodeChars_quote]
  rw [htext, readValue_string, readString_quoted]
  rfl

private theorem readValue_bracket {s : Bytes} {items : List Value}
    (h : readItems (readValue depth) (s.length + 1) true s = .ok (items, rest)) :
    readValue (depth + 1) (0x5B :: s) = .ok (.array items, rest) := by
  rw [readValue_array, h]
  rfl

private theorem readValue_brace {s : Bytes} {members : List (String × Value)}
    (h : readMembers (readValue depth) (s.length + 1) true s = .ok (members, rest)) :
    readValue (depth + 1) (0x7B :: s) = .ok (.object members, rest) := by
  rw [readValue_object, h]
  rfl

theorem readValue_chars (h : Readable depth v) : ReadsBack (readValue depth) v := by
  -- What stands behind a value must not go on with it, which matters for numbers only.
  induction h with
  | null depth =>
    intro rest _
    cases depth <;> rfl
  | bool depth b =>
    intro rest _
    cases depth <;> cases b <;> rfl
  | @number depth n hn =>
    intro rest hrest
    obtain ⟨b, bs, heq, hall, -⟩ := encodeChars_decimal n
    have hread := readNumber_decimal hn hrest
    rw [heq, List.cons_append] at hread
    rw [Value.chars, Number.render_ofNat, heq, List.cons_append, readValue_digit (hall b List.mem_cons_self)]
    exact hread
  | string depth text =>
    intro rest _
    exact readValue_quote depth text rest
  | @array depth items h ih =>
    intro rest _
    cases items with
    | nil => rfl
    | cons v vs =>
      have htext : encodeChars (Value.array (v :: vs)).chars =
          0x5B :: (encodeChars v.chars ++ encodeChars (restItems vs)) := by
        rw [Value.chars, List.cons_append, encodeChars_cons, encodeChars_append]
        rfl
      obtain ⟨b, s, heq, hblank, hend⟩ := head_chars (h v List.mem_cons_self)
      have hread := ih v List.mem_cons_self _ (numberEnds_restItems vs rest)
      have hrest := readItems_restItems (fun v' hv' => ih v' (List.mem_cons_of_mem v hv'))
        (fun v' hv' => h v' (List.mem_cons_of_mem v hv')) rest
      rw [htext, List.cons_append, List.append_assoc]
      rw [heq, List.cons_append] at hread ⊢
      have hlong : (encodeChars (restItems vs)).length <
          (b :: (s ++ (encodeChars (restItems vs) ++ rest))).length := by
        simp only [List.length_cons, List.length_append]
        omega
      have hnext : nextItem true (b :: (s ++ (encodeChars (restItems vs) ++ rest))) = .ok _ := rfl
      exact readValue_bracket (readItems_step hblank hend hnext hread (hrest _ hlong))
  | @object depth members h ih =>
    intro rest _
    cases members with
    | nil => rfl
    | cons m ms =>
      obtain ⟨name, v⟩ := m
      have htext : encodeChars (Value.object ((name, v) :: ms)).chars =
          0x7B :: (encodeChars (quote name) ++ 0x3A :: (encodeChars v.chars ++ encodeChars (restMembers ms))) := by
        rw [Value.chars]
        simp only [List.cons_append, List.append_assoc, encodeChars_cons, encodeChars_append]
        rfl
      have hread := readMember_quote name (ih (name, v) List.mem_cons_self _ (numberEnds_restMembers ms rest))
      have hrest := readMembers_restMembers (fun m' hm' => ih m' (List.mem_cons_of_mem _ hm')) rest
      rw [htext]
      simp only [List.append_assoc, List.cons_append]
      rw [encodeChars_quote, List.cons_append, List.cons_append] at hread ⊢
      generalize encodeChars (name.toList.flatMap escapeChar) ++ [0x22] = quoted at hread ⊢
      have hlong : (encodeChars (restMembers ms)).length <
          (0x22 :: (quoted ++ 0x3A :: (encodeChars v.chars ++ (encodeChars (restMembers ms) ++ rest)))).length := by
        simp only [List.length_cons, List.length_append]
        omega
      have hnext : nextMember true (0x22 :: (quoted ++ 0x3A :: (encodeChars v.chars ++
          (encodeChars (restMembers ms) ++ rest)))) = .ok _ := rfl
      exact readValue_brace (readMembers_step rfl (by decide) hnext hread (hrest _ hlong))

/-- The text of a value is read as that value. -/
theorem read_chars (h : Readable maxDepth v) : read (encodeChars v.chars) = .ok v := by
  have hread := readValue_chars h [] (fun _ _ h => by cases h)
  rw [List.append_nil] at hread
  rw [read, hread]
  rfl

/-! ### Lines -/

private theorem le_of_mem_quote {text : String} {c : Char} (h : c ∈ quote text) : 32 ≤ c.toNat := by
  simp only [quote, List.mem_append, List.mem_cons, List.mem_flatMap, List.not_mem_nil, or_false] at h
  obtain (rfl | ⟨d, -, hc⟩) | rfl := h
  · decide
  · exact le_of_mem_escapeChar hc
  · decide

private theorem le_of_mem_restItems {vs : List Value} (h : ∀ v ∈ vs, ∀ c ∈ v.chars, 32 ≤ c.toNat) {c : Char}
    (hc : c ∈ restItems vs) : 32 ≤ c.toNat := by
  induction vs with
  | nil =>
    obtain rfl := List.mem_singleton.1 hc
    decide
  | cons v vs ih =>
    simp only [restItems, List.cons_append, List.mem_cons, List.mem_append] at hc
    rcases hc with rfl | hc | hc
    · decide
    · exact h v List.mem_cons_self c hc
    · exact ih (fun v' hv' => h v' (List.mem_cons_of_mem v hv')) hc

private theorem le_of_mem_restMembers {ms : List (String × Value)} (h : ∀ m ∈ ms, ∀ c ∈ m.2.chars, 32 ≤ c.toNat)
    {c : Char} (hc : c ∈ restMembers ms) : 32 ≤ c.toNat := by
  induction ms with
  | nil =>
    obtain rfl := List.mem_singleton.1 hc
    decide
  | cons m ms ih =>
    simp only [restMembers, List.cons_append, List.append_assoc, List.mem_cons, List.mem_append] at hc
    rcases hc with rfl | hc | rfl | hc | hc
    · decide
    · exact le_of_mem_quote hc
    · decide
    · exact h m List.mem_cons_self c hc
    · exact ih (fun m' hm' => h m' (List.mem_cons_of_mem m hm')) hc

/-- The text of a value has no control characters, so it stays on one line. -/
theorem le_of_mem_chars (h : Readable depth v) : ∀ c ∈ v.chars, 32 ≤ c.toNat := by
  induction h with
  | null => exact le_of_all rfl
  | bool depth b => cases b <;> exact le_of_all rfl
  | @number depth n hn =>
    intro c hc
    rw [Value.chars, Number.render_ofNat] at hc
    have hdigit := Digits.isDigit_of_mem_decimal hc
    simp only [Char.isDigit, Bool.and_eq_true, decide_eq_true_eq] at hdigit
    exact Nat.le_trans (by decide) (hdigit.1 : 48 ≤ c.toNat)
  | string depth text => exact fun c hc => le_of_mem_quote hc
  | @array depth items h ih =>
    intro c hc
    cases items with
    | nil => exact le_of_all rfl c hc
    | cons v vs =>
      simp only [Value.chars, List.cons_append, List.mem_cons, List.mem_append] at hc
      rcases hc with rfl | hc | hc
      · decide
      · exact ih v List.mem_cons_self c hc
      · exact le_of_mem_restItems (fun v' hv' => ih v' (List.mem_cons_of_mem v hv')) hc
  | @object depth members h ih =>
    intro c hc
    cases members with
    | nil => exact le_of_all rfl c hc
    | cons m ms =>
      simp only [Value.chars, List.cons_append, List.append_assoc, List.mem_cons, List.mem_append] at hc
      rcases hc with rfl | hc | rfl | hc | hc
      · decide
      · exact le_of_mem_quote hc
      · decide
      · exact ih m List.mem_cons_self c hc
      · exact le_of_mem_restMembers (fun m' hm' => ih m' (List.mem_cons_of_mem m hm')) hc

/-- The octets of a value have no line feed, and there are some. -/
theorem isLine_chars (h : Readable depth v) : 0x0A ∉ encodeChars v.chars ∧ encodeChars v.chars ≠ [] := by
  refine ⟨fun hmem => ?_, ?_⟩
  · have hlow := le_of_mem_chars h _ (mem_of_mem_encodeChars (by decide) hmem)
    exact absurd hlow (by decide)
  · obtain ⟨b, s, heq, -⟩ := head_chars h
    simp [heq]

end Json

end FailurePipeline
