import FailurePipeline.DeadLetter.Sink
import FailurePipeline.Proofs.Text.Numerals
import FailurePipeline.Proofs.Time.Stamp

/-!
# Names of dead-letter objects

The path of an object has two parts, the type of its batch and a file name, neither of which needs an encoding
(`Sink.objectPath_parts`).  Batches with different numbers have different paths, whatever the clock shows
(`Sink.id_eq_of_objectPath_eq`).  A path also says the type of the batch, the process and the microsecond, where a leap
second that does not end a minute counts as the second that follows it, and nothing else (`Sink.objectPath_eq_iff`).
-/

namespace FailurePipeline

namespace ObjectPath

theorem isPlain_of_isDigit {c : Char} (h : c.isDigit = true) : isPlain c = true := by
  have hall : ∀ n < 58, 48 ≤ n → isPlain (Char.ofNat n) = true := by decide +kernel
  simp only [Char.isDigit, Bool.and_eq_true, decide_eq_true_eq] at h
  have hlow : 48 ≤ c.toNat := h.1
  have hhigh : c.toNat ≤ 57 := h.2
  have hc := hall c.toNat (by omega) hlow
  rwa [Char.ofNat_toNat] at hc

/-- A part without special characters is written as it is, if it is longer than those that stand for a place. -/
theorem encodePart_of_plain {part : List Char} (hlong : 2 < part.length)
    (hplain : ∀ c ∈ part, isPlain c = true) : encodePart part = part := by
  have hencode : Percent.encode isPlain part = part := by
    rw [Percent.encode]
    clear hlong
    induction part with
    | nil => rfl
    | cons c cs ih =>
      have hc := hplain c List.mem_cons_self
      have hcs := ih fun d hd => hplain d (List.mem_cons_of_mem c hd)
      simp [Percent.encodeChar, hc, hcs]
  unfold encodePart
  split
  · simp at hlong
  · simp at hlong
  · exact hencode

end ObjectPath

namespace Sink

/-- The file name of an object. -/
def fileName (s : Surroundings) (id : Nat) : List Char :=
  s.wall.stamp ++ '-' :: Digits.decimal s.processId ++ '-' :: Digits.padded 8 id ++ ".ndjson".toList

private theorem isPlain_of_mem_stamp {t : Instant} {c : Char} (h : c ∈ t.stamp) : ObjectPath.isPlain c = true := by
  have hdigits : ∀ {width n : Nat}, c ∈ Digits.padded width n → ObjectPath.isPlain c = true := fun hc =>
    ObjectPath.isPlain_of_isDigit (Digits.isDigit_of_mem_padded hc)
  have hyear : ∀ {year : Int}, c ∈ Instant.yearText year → ObjectPath.isPlain c = true := by
    intro year hc
    unfold Instant.yearText at hc
    split at hc
    · rcases List.mem_cons.1 hc with rfl | hc
      · decide
      · exact hdigits hc
    · split at hc
      · rcases List.mem_cons.1 hc with rfl | hc
        · decide
        · exact hdigits hc
      · exact hdigits hc
  simp only [Instant.stamp, List.mem_append, List.mem_cons] at h
  rcases h with (((((h | h) | h) | rfl | h) | h) | h) | rfl | h
  · exact hyear h
  · exact hdigits h
  · exact hdigits h
  · decide
  · exact hdigits h
  · exact hdigits h
  · exact hdigits h
  · decide
  · exact hdigits h

theorem isPlain_of_mem_fileName {s : Surroundings} {id : Nat} {c : Char} (h : c ∈ fileName s id) :
    ObjectPath.isPlain c = true := by
  simp only [fileName, List.mem_append, List.mem_cons] at h
  rcases h with ((h | rfl | h) | rfl | h) | h
  · exact isPlain_of_mem_stamp h
  · decide
  · exact ObjectPath.isPlain_of_isDigit (Digits.isDigit_of_mem_decimal h)
  · decide
  · exact ObjectPath.isPlain_of_isDigit (Digits.isDigit_of_mem_padded h)
  · have hend : (".ndjson".toList).all ObjectPath.isPlain = true := by decide
    exact List.all_eq_true.1 hend c h

/-- The file name says when the batch was kept, in which process, and its number. -/
theorem eq_of_fileName_eq {s s' : Surroundings} {id id' : Nat} (h : fileName s id = fileName s' id') :
    s.wall.stamp = s'.wall.stamp ∧ s.processId = s'.processId ∧ id = id' := by
  -- The stamp has a hyphen too, but the two numbers stand after the last two.
  have hlast : ∀ n, '-' ∉ Digits.padded 8 n := Digits.not_mem_padded rfl 8
  have hmiddle : ∀ n, '-' ∉ Digits.decimal n := fun n hn => absurd (Digits.isDigit_of_mem_decimal hn) (by decide)
  have hrest := List.append_cancel_right h
  obtain ⟨hrest, hid⟩ := eq_of_append_cons (hlast _) (hlast _) hrest
  obtain ⟨hstamp, hprocess⟩ := eq_of_append_cons (hmiddle _) (hmiddle _) hrest
  exact ⟨hstamp, Digits.decimal_inj hprocess, Digits.padded_inj hid⟩

/-- The file name says the number of the batch. -/
theorem id_eq_of_fileName_eq {s s' : Surroundings} {id id' : Nat} (h : fileName s id = fileName s' id') :
    id = id' := (eq_of_fileName_eq h).2.2

private theorem lt_length_fileName (s : Surroundings) (id : Nat) : 2 < (fileName s id).length := by
  have hend : (".ndjson".toList).length = 7 := rfl
  simp only [fileName, List.length_append, List.length_cons, hend]
  omega

private theorem objectName_eq (s : Surroundings) (b : Batch) :
    objectName s b = b.type.name.toList ++ '/' :: fileName s b.id := by
  simp [objectName, fileName]

theorem objectPath_parts (s : Surroundings) (b : Batch) :
    (objectPath s b).parts = [b.type.name, String.ofList (fileName s b.id)] := by
  have htype : ∀ t : FailureType, t.name.toList.all (· != '/') = true ∧
      ObjectPath.encodePart t.name.toList = t.name.toList ∧ t.name.toList ≠ [] := by
    intro t
    cases t <;> decide +kernel
  obtain ⟨hname', hencode, hne⟩ := htype b.type
  have hslash : ∀ c ∈ b.type.name.toList, (c == '/') = false := by
    intro c hc
    simpa using List.all_eq_true.1 hname' c hc
  have hfile : ∀ c ∈ fileName s b.id, (c == '/') = false := by
    intro c hc
    have hplain := isPlain_of_mem_fileName hc
    rw [beq_eq_false_iff_ne]
    rintro rfl
    exact absurd hplain (by decide)
  have hlong := lt_length_fileName s b.id
  have hfile' := ObjectPath.encodePart_of_plain hlong fun c hc => isPlain_of_mem_fileName hc
  have hne' : fileName s b.id ≠ [] := by
    intro hnil
    simp [hnil] at hlong
  simp only [objectPath, ObjectPath.ofText, objectName_eq, String.toList_ofList]
  rw [List.splitOnP_append_cons_of_forall_mem hslash '/' rfl, List.splitOnP_eq_singleton hfile]
  simp [hne, hne', hencode, hfile']

/-- The path of an object never goes back up. -/
theorem not_mem_objectPath (s : Surroundings) (b : Batch) : ".." ∉ (objectPath s b).parts := by
  rw [objectPath_parts]
  have htype : b.type.name ≠ ".." := by cases b.type <;> decide
  have hfile : String.ofList (fileName s b.id) ≠ ".." := by
    intro he
    have hlong := lt_length_fileName s b.id
    rw [String.ofList_injective (he : _ = String.ofList ['.', '.'])] at hlong
    exact absurd hlong (by decide)
  simp [Ne.symm htype, Ne.symm hfile]

variable {s s' : Surroundings} {b b' : Batch}

private theorem parts_eq_of_objectPath_eq (h : objectPath s b = objectPath s' b') :
    b.type = b'.type ∧ s.wall.stamp = s'.wall.stamp ∧ s.processId = s'.processId ∧ b.id = b'.id := by
  have hname : ∀ t t' : FailureType, t.name = t'.name → t = t' := by
    intro t t' hname
    cases t <;> cases t' <;> simp_all [FailureType.name]
  have hparts := congrArg ObjectPath.parts h
  rw [objectPath_parts, objectPath_parts] at hparts
  simp only [List.cons.injEq, and_true] at hparts
  exact ⟨hname _ _ hparts.1, eq_of_fileName_eq (String.ofList_injective hparts.2)⟩

/-- The path of an object says the number of its batch. -/
theorem id_eq_of_objectPath_eq (h : objectPath s b = objectPath s' b') : b.id = b'.id :=
  (parts_eq_of_objectPath_eq h).2.2.2

/-- The written form of a path is the name of its object as it was put together. -/
theorem text_objectPath (s : Surroundings) (b : Batch) : (objectPath s b).text = String.ofList (objectName s b) := by
  rw [ObjectPath.text, objectPath_parts, objectName_eq, String.intercalate_cons_cons, String.intercalate_singleton]
  simp [String.append_assoc]

/-- Two objects have the same path, or the same written path, if and only if their batches have the same type and
number and were kept in processes of the same number in the same microsecond, where a leap second within a minute
counts as the second that follows it. -/
theorem objectPath_eq_iff (h : s.wall.isTime = true) (h' : s'.wall.isTime = true) :
    (objectPath s b = objectPath s' b' ↔
      b.type = b'.type ∧ s.processId = s'.processId ∧ b.id = b'.id ∧
        s.wall.asShown.truncated = s'.wall.asShown.truncated) ∧
      ((objectPath s b).text = (objectPath s' b').text ↔ objectPath s b = objectPath s' b') := by
  refine ⟨⟨fun hpath => ?_, ?_⟩, fun htext => ?_, congrArg ObjectPath.text⟩
  · obtain ⟨htype, hstamp, hprocess, hid⟩ := parts_eq_of_objectPath_eq hpath
    exact ⟨htype, hprocess, hid, (Instant.stamp_eq_iff h h').1 hstamp⟩
  · rintro ⟨htype, hprocess, hid, htruncated⟩
    rw [objectPath, objectPath, objectName, objectName, htype, hprocess, hid,
      (Instant.stamp_eq_iff h h').2 htruncated]
  · rw [text_objectPath, text_objectPath] at htext
    rw [objectPath, objectPath, htext]

/-- A surrounding with only a wall clock, in process 7. -/
def clockOnly (wall : Instant) : Surroundings := { wall := wall, processId := 7 }

/-- A batch whose number has more digits than names are filled up to. -/
def lateBatch : Batch := ⟨123456789, .input []⟩

/-- In the middle of a leap second, again in the same microsecond, and half a second into the year that follows; and
in a leap second within a minute. -/
theorem objectPath_eq_iff_around_leap_second :
    (Instant.mk 1483228799 1500000499).isTime = true ∧
      (Instant.mk 1483228799 1500000000).isTime = true ∧
      (Instant.mk 1483228800 500000000).isTime = true ∧
      (Instant.mk 1483228830 1500000000).isTime = true ∧
      objectPath (clockOnly ⟨1483228799, 1500000499⟩) lateBatch =
        objectPath (clockOnly ⟨1483228799, 1500000000⟩) lateBatch ∧
      (objectPath (clockOnly ⟨1483228799, 1500000499⟩) lateBatch).text ≠
        (objectPath (clockOnly ⟨1483228800, 500000000⟩) lateBatch).text ∧
      objectPath (clockOnly ⟨1483228830, 1500000000⟩) lateBatch ≠
        objectPath (clockOnly ⟨1483228830, 500000000⟩) lateBatch := by
  have hleap : (Instant.mk 1483228799 1500000499).isTime = true := by decide
  have hagain : (Instant.mk 1483228799 1500000000).isTime = true := by decide
  have hyear : (Instant.mk 1483228800 500000000).isTime = true := by decide
  have hwithin : (Instant.mk 1483228830 1500000000).isTime = true := by decide
  have hbefore : (Instant.mk 1483228830 500000000).isTime = true := by decide
  refine ⟨hleap, hagain, hyear, hwithin, (objectPath_eq_iff hleap hagain).1.2 (by decide), fun htext => ?_,
    fun hpath => ?_⟩
  · have hpath := (objectPath_eq_iff hleap hyear).2.1 htext
    exact absurd ((objectPath_eq_iff hleap hyear).1.1 hpath) (by decide)
  · exact absurd ((objectPath_eq_iff hwithin hbefore).1.1 hpath) (by decide)

/-- A leap second within a minute, and the second that follows it: two times, also when they are cut to microseconds,
in which one batch has the same path. -/
theorem objectPath_eq_within_minute :
    (Instant.mk 30 1500000000).isTime = true ∧ (Instant.mk 31 500000000).isTime = true ∧
      (Instant.mk 30 1500000000).truncated ≠ (Instant.mk 31 500000000).truncated ∧
      objectPath (clockOnly ⟨30, 1500000000⟩) lateBatch = objectPath (clockOnly ⟨31, 500000000⟩) lateBatch := by
  have hstamp : (Instant.mk 30 1500000000).stamp = (Instant.mk 31 500000000).stamp := by decide
  have hname : objectName (clockOnly ⟨30, 1500000000⟩) lateBatch =
      objectName (clockOnly ⟨31, 500000000⟩) lateBatch := by
    simp only [objectName, clockOnly, hstamp]
  refine ⟨by decide, by decide, by decide, ?_⟩
  rw [objectPath, objectPath, hname]

end Sink

end FailurePipeline
