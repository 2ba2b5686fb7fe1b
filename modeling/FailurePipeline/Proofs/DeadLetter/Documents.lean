import FailurePipeline.DeadLetter.Record
import FailurePipeline.Proofs.Json.Reading
import FailurePipeline.Proofs.Text.Base64
import FailurePipeline.Proofs.Time.Stamp

/-!
# Dead-letter documents say what happened

Every line of a document is one record, and a reader of JSON has from it what its failure said (`map_read?_lines`):
all texts as they were, the raw octets, and which fields there are.  So batches that say different things have
different documents (`document_is_faithful`).  Since the names of causes differ and the text of a time tells the time,
a document that is not empty is that of one batch only (`eq_of_octets_eq`).
-/

namespace FailurePipeline

theorem IndexingCause.name_inj {c c' : IndexingCause} (h : c.name = c'.name) : c = c' := by
  cases c <;> cases c' <;> first | rfl | simp [name] at h

theorem ProcessingCause.name_inj {c c' : ProcessingCause} (h : c.name = c'.name) : c = c' := by
  cases c <;> cases c' <;> first | rfl | simp [name] at h

namespace DeadLetter

open Json (Value)

/-- What a record says.  A field is missing if the record has no member for it. -/
structure Entry where
  batchId : Nat
  type : FailureType
  cause : String
  message : String
  details : String
  timestamp : String
  targetIndex : Option String := none
  messageId : Option String := none
  acknowledged : Option Bool := none
  inputId : Option String := none
  raw : Option Bytes := none
  deriving Repr, DecidableEq, Inhabited

/-! ### What is read -/

namespace Entry

/-- All names that members of records have. -/
def names : List String :=
  ["batch_id", "failure_type", "cause", "message", "details", "timestamp", "target_index", "message_id",
    "acknowledged", "input_id", "raw_message"]

def text? : Value → Option String
  | .string s => some s
  | _ => none

def flag? : Value → Option Bool
  | .bool b => some b
  | _ => none

def natural? : Value → Option Nat
  | .number n => n.toNat?
  | _ => none

/-- The octets that a text in Base64 stands for. -/
def octets? (v : Value) : Option Bytes := (text? v).bind fun s => Base64.decode? s.toList

@[simp] theorem text?_string (s : String) : text? (.string s) = some s := rfl

@[simp] theorem flag?_bool (b : Bool) : flag? (.bool b) = some b := rfl

@[simp] theorem natural?_ofNat (n : Nat) : natural? (.number (.ofNat n)) = some n := rfl

@[simp] theorem octets?_encode (octets : Bytes) :
    octets? (.string (String.ofList (Base64.encode octets))) = some octets := by
  simp [octets?, Base64.decode?_encode]

/-- A member that has to be there. -/
def required {α : Type} (kind : Value → Option α) (name : String) (v : Value) : Option α :=
  (v.member? name).bind kind

/-- A member that may be missing, but is of its kind if it is there. -/
def optional {α : Type} (kind : Value → Option α) (name : String) (v : Value) : Option (Option α) :=
  match v.member? name with
  | none => some none
  | some m => (kind m).map some

/-- An object with members of known names only, none of them repeated. -/
def isRecord : Value → Bool
  | .object members => (members.map (·.1)).all names.contains && (members.map (·.1)).Nodup
  | _ => false

def ofValue? (v : Value) : Option Entry :=
  if isRecord v then do
    let batchId ← required natural? "batch_id" v
    let type ← required (fun m => (text? m).bind FailureType.ofName?) "failure_type" v
    let cause ← required text? "cause" v
    let message ← required text? "message" v
    let details ← required text? "details" v
    let timestamp ← required text? "timestamp" v
    let targetIndex ← optional text? "target_index" v
    let messageId ← optional text? "message_id" v
    let acknowledged ← optional flag? "acknowledged" v
    let inputId ← optional text? "input_id" v
    let raw ← optional octets? "raw_message" v
    some { batchId, type, cause, message, details, timestamp, targetIndex, messageId, acknowledged, inputId, raw }
  else none

/-- Reads a line of a document. -/
def read? (line : Bytes) : Option Entry := (Json.read line).toOption.bind ofValue?

end Entry

/-! ### What is to be said -/

def entryOf (batchId : Nat) (type : FailureType) (cause : String) (r : Report) : Entry :=
  { batchId, type, cause, message := r.message, details := r.details, timestamp := r.timestamp.rfc3339 }

/-- What the failures of a batch say, in their order. -/
def entries (b : Batch) : List Entry :=
  match b.failures with
  | .indexing fs => fs.map fun f =>
    { entryOf b.id .indexing f.cause.name f.report with targetIndex := some f.targetIndex, messageId := f.messageId }
  | .processing fs => fs.map fun f =>
    { entryOf b.id .processing f.cause.name f.report with
      messageId := f.failed.queueId, acknowledged := some f.acknowledge }
  | .input fs => fs.map fun f =>
    { entryOf b.id .input f.cause.name f.report with inputId := some f.inputId, raw := some f.raw }

/-! ### Records are read back -/

theorem ofName?_name (t : FailureType) : FailureType.ofName? t.name = some t := by
  cases t <;> decide +kernel

private theorem ofValue?_indexingRecord (id : Nat) (f : IndexingFailure) :
    Entry.ofValue? (indexingRecord id f) = some { entryOf id .indexing f.cause.name f.report with
      targetIndex := some f.targetIndex, messageId := f.messageId } := by
  obtain ⟨cause, report, messageId, targetIndex⟩ := f
  cases messageId <;>
    simp [Entry.ofValue?, indexingRecord, commonFields, optionalField, Entry.isRecord, Entry.names, Entry.required,
      Entry.optional, Value.member?, ofName?_name, entryOf]

private theorem ofValue?_processingRecord (id : Nat) (f : ProcessingFailure) :
    Entry.ofValue? (processingRecord id f) = some { entryOf id .processing f.cause.name f.report with
      messageId := f.failed.queueId, acknowledged := some f.acknowledge } := by
  obtain ⟨cause, report, ⟨queueId⟩, acknowledge⟩ := f
  cases queueId <;>
    simp [Entry.ofValue?, processingRecord, commonFields, optionalField, Entry.isRecord, Entry.names, Entry.required,
      Entry.optional, Value.member?, ofName?_name, entryOf]

private theorem ofValue?_inputRecord (id : Nat) (f : InputFailure) :
    Entry.ofValue? (inputRecord id f) = some { entryOf id .input f.cause.name f.report with
      inputId := some f.inputId, raw := some f.raw } := by
  simp [Entry.ofValue?, inputRecord, commonFields, Entry.isRecord, Entry.names, Entry.required, Entry.optional,
    Value.member?, ofName?_name, entryOf]

/-- The records of a batch are read as what its failures say. -/
private theorem map_ofValue?_records (b : Batch) : (records b).map Entry.ofValue? = (entries b).map some := by
  obtain ⟨id, fs | fs | fs⟩ := b
  · simp only [records, entries, List.map_map]
    exact List.map_congr_left fun f _ => ofValue?_indexingRecord id f
  · simp only [records, entries, List.map_map]
    exact List.map_congr_left fun f _ => ofValue?_processingRecord id f
  · simp only [records, entries, List.map_map]
    exact List.map_congr_left fun f _ => ofValue?_inputRecord id f

/-! ### Documents are read back -/

variable {b : Batch}

private theorem readable_of_mem_records (hid : b.id ≤ Json.maxWord) {r : Value} (hr : r ∈ records b) :
    Json.Readable Json.maxDepth r := by
  have hobject : ∀ {members : List (String × Value)}, (∀ m ∈ members, Json.Readable 126 m.2) →
      Json.Readable Json.maxDepth (.object members) := fun h => .object h
  have hcommon : ∀ {type : FailureType} {cause : String} {report : Report},
      ∀ m ∈ commonFields b.id type cause report, Json.Readable 126 m.2 := by
    intro type cause report m hm
    simp only [commonFields, List.mem_cons, List.not_mem_nil, or_false] at hm
    rcases hm with rfl | rfl | rfl | rfl | rfl | rfl
    · exact .number 126 hid
    all_goals exact .string 126 _
  have hoptional : ∀ {name : String} {text : Option String}, ∀ m ∈ optionalField name text,
      Json.Readable 126 m.2 := by
    rintro name (_ | text) m hm
    · cases hm
    · obtain rfl := List.mem_singleton.1 hm
      exact .string 126 text
  unfold records at hr
  split at hr <;> obtain ⟨f, -, rfl⟩ := List.mem_map.1 hr
  · refine hobject fun m hm => ?_
    rcases List.mem_append.1 hm with hm | hm
    · exact hcommon m hm
    · rcases List.mem_cons.1 hm with rfl | hm
      · exact .string 126 f.targetIndex
      · exact hoptional m hm
  · refine hobject fun m hm => ?_
    rcases List.mem_append.1 hm with hm | hm
    · rcases List.mem_append.1 hm with hm | hm
      · exact hcommon m hm
      · exact hoptional m hm
    · obtain rfl := List.mem_singleton.1 hm
      exact .bool 126 f.acknowledge
  · refine hobject fun m hm => ?_
    rcases List.mem_append.1 hm with hm | hm
    · exact hcommon m hm
    · simp only [List.mem_cons, List.not_mem_nil, or_false] at hm
      rcases hm with rfl | rfl
      · exact .string 126 f.inputId
      · exact .string 126 _

/-- The lines of a document, without the line feeds that end them. -/
def lines (b : Batch) : List Bytes := (records b).map fun r => Utf8.encodeChars r.chars

theorem octets_eq_lines (b : Batch) : octets b = (lines b).flatMap (· ++ [0x0A]) := by
  rw [octets, document, Utf8.encodeChars, List.flatMap_assoc, lines, List.flatMap_map]
  refine congrArg (List.flatMap · (records b)) (funext fun r => ?_)
  exact Utf8.encodeChars_append r.chars ['\n']

theorem length_lines (b : Batch) : (lines b).length = b.size := by
  obtain ⟨id, fs | fs | fs⟩ := b
  all_goals simp [lines, records, Batch.size, Failures.size]

/-- Lines that have no line feed in them are what lies between the line feeds. -/
private theorem splitOn_flatMap {ls : List Bytes} (h : ∀ l ∈ ls, 0x0A ∉ l) :
    (ls.flatMap (· ++ [0x0A])).splitOn 0x0A = ls ++ [[]] := by
  induction ls with
  | nil => rfl
  | cons l ls ih =>
    have hl : ∀ o ∈ l, (o == 0x0A) = false := by
      intro o ho
      rw [beq_eq_false_iff_ne]
      rintro rfl
      exact h l List.mem_cons_self ho
    rw [List.flatMap_cons, List.append_assoc, List.singleton_append, List.splitOn,
      List.splitOnP_append_cons_of_forall_mem hl 0x0A rfl]
    exact congrArg (l :: ·) (ih fun l' hl' => h l' (List.mem_cons_of_mem l hl'))

theorem map_read?_lines (hid : b.id ≤ Json.maxWord) : (lines b).map Entry.read? = (entries b).map some := by
  rw [lines, List.map_map, ← map_ofValue?_records]
  refine List.map_congr_left fun r hr => ?_
  simp only [Function.comp_apply, Entry.read?, Json.read_chars (readable_of_mem_records hid hr)]
  rfl

private theorem isLine_of_mem_lines (hid : b.id ≤ Json.maxWord) {l : Bytes} (hl : l ∈ lines b) :
    0x0A ∉ l ∧ l ≠ [] := by
  obtain ⟨r, hr, rfl⟩ := List.mem_map.1 hl
  exact Json.isLine_chars (readable_of_mem_records hid hr)

theorem splitOn_octets (hid : b.id ≤ Json.maxWord) : (octets b).splitOn 0x0A = lines b ++ [[]] := by
  rw [octets_eq_lines]
  exact splitOn_flatMap fun l hl => (isLine_of_mem_lines hid hl).1

/-- Batches with the same document say the same. -/
theorem entries_eq_of_octets_eq {b' : Batch} (hid : b.id ≤ Json.maxWord) (hid' : b'.id ≤ Json.maxWord)
    (h : octets b = octets b') : entries b = entries b' := by
  have hlines : lines b = lines b' := by
    refine List.append_cancel_right ((splitOn_octets hid).symm.trans ?_)
    rw [h, splitOn_octets hid']
  refine (List.map_inj_right fun _ _ h => Option.some.inj h).1 ?_
  rw [← map_read?_lines hid, hlines, map_read?_lines hid']

private theorem length_entries (b : Batch) : (entries b).length = b.size := by
  obtain ⟨id, fs | fs | fs⟩ := b
  all_goals simp [entries, Batch.size, Failures.size]

private theorem of_mem_entries {e : Entry} (he : e ∈ entries b) : e.batchId = b.id ∧ e.type = b.type := by
  obtain ⟨id, fs | fs | fs⟩ := b
  all_goals
    obtain ⟨f, -, rfl⟩ := List.mem_map.1 he
    exact ⟨rfl, rfl⟩

/-- Every failure says the number and the type of its batch. -/
private theorem eq_of_entries_eq {b' : Batch} (hne : b.isEmpty = false) (h : entries b = entries b') :
    b'.isEmpty = false ∧ b'.id = b.id ∧ b'.type = b.type := by
  have hsize : b'.size = b.size := by rw [← length_entries, ← length_entries, h]
  have hpos : entries b ≠ [] := by
    intro hnil
    have hlen := length_entries b
    rw [hnil] at hlen
    simp [Batch.isEmpty, ← hlen] at hne
  obtain ⟨e, he⟩ := List.exists_mem_of_ne_nil _ hpos
  obtain ⟨hid, htype⟩ := of_mem_entries he
  obtain ⟨hid', htype'⟩ := of_mem_entries (h ▸ he)
  exact ⟨by rw [Batch.isEmpty, hsize, ← Batch.isEmpty, hne], hid'.symm.trans hid, htype'.symm.trans htype⟩

/-- What the document of a batch keeps of it. -/
structure Faithful (b : Batch) : Prop where
  /-- A line feed ends each line. -/
  framed : octets b = (lines b).flatMap (· ++ [0x0A])
  /-- There are no other line feeds. -/
  split : (octets b).splitOn 0x0A = lines b ++ [[]]
  length : (lines b).length = b.size
  notEmpty : ∀ l ∈ lines b, l ≠ []
  /-- Each line is read as what its failure says. -/
  readBack : (lines b).map Entry.read? = (entries b).map some
  /-- A batch with the same document says the same. -/
  same : ∀ b' : Batch, b'.id ≤ Json.maxWord → octets b' = octets b → entries b' = entries b ∧
    (b.isEmpty = false → b'.isEmpty = false ∧ b'.id = b.id ∧ b'.type = b.type)

/-- A document falls apart into as many lines as there are failures, and nothing that a failure says is lost.  The
number of a batch is a 64-bit word. -/
theorem document_is_faithful (b : Batch) (hid : b.id ≤ Json.maxWord) : Faithful b := by
  refine ⟨octets_eq_lines b, splitOn_octets hid, length_lines b, fun l hl => (isLine_of_mem_lines hid hl).2,
    map_read?_lines hid, fun b' hid' hsame => ?_⟩
  have hentries := entries_eq_of_octets_eq hid' hid hsame
  exact ⟨hentries, fun hne => eq_of_entries_eq hne hentries.symm⟩

/-- Texts that need every kind of escape, an empty number of a message, none, and the greatest number of a batch. -/
def awkwardBatch : Batch :=
  ⟨Json.maxWord, .indexing
    [⟨.mappingError, ⟨"\"\\\n\r\t\x08\x0c\x00", "\u2028 𝄞", ⟨1772368245, 123456000⟩⟩, some "", "ü\n"⟩,
      ⟨.unknown, ⟨"", "", ⟨-1, 1⟩⟩, none, ""⟩]⟩

theorem document_is_faithful_of_awkwardBatch :
    awkwardBatch.id ≤ Json.maxWord ∧ Faithful awkwardBatch ∧ (octets awkwardBatch).count 0x0A = 2 ∧
      (entries awkwardBatch).map (·.messageId) = [some "", none] ∧
      (entries awkwardBatch).map (fun e => (e.cause, e.timestamp)) =
        [("MappingError", "2026-03-01T12:30:45.123456Z"), ("Unknown", "1969-12-31T23:59:59.000000001Z")] :=
  ⟨Nat.le_refl _, document_is_faithful awkwardBatch (Nat.le_refl _), by decide +kernel, rfl, by decide +kernel⟩

/-! ### A document is that of one batch -/

/-- Whether the times of all failures are shown as they are. -/
def IsTimed (b : Batch) : Prop := ∀ r ∈ b.failures.reports, r.2.timestamp.isRepresentable = true

/-- Lists with the same images are the same where the map tells their members apart. -/
private theorem eq_of_map_eq {α β : Type} {f : α → β} {xs ys : List α}
    (hf : ∀ x ∈ xs, ∀ y ∈ ys, f x = f y → x = y) (h : xs.map f = ys.map f) : xs = ys := by
  induction xs generalizing ys with
  | nil => exact (List.map_eq_nil_iff.1 h.symm).symm
  | cons x xs ih =>
    cases ys with
    | nil => simp at h
    | cons y ys =>
      rw [List.map_cons, List.map_cons, List.cons.injEq] at h
      have hrest := ih (fun a ha b hb => hf a (List.mem_cons_of_mem x ha) b (List.mem_cons_of_mem y hb)) h.2
      rw [hf x List.mem_cons_self y List.mem_cons_self h.1, hrest]

private theorem report_eq {r r' : Report} (ht : r.timestamp.isRepresentable = true)
    (ht' : r'.timestamp.isRepresentable = true) (hmessage : r.message = r'.message) (hdetails : r.details = r'.details)
    (htext : r.timestamp.rfc3339 = r'.timestamp.rfc3339) : r = r' := by
  have htime := (Instant.isRepresentable_iff.1 ht).1
  have htime' := (Instant.isRepresentable_iff.1 ht').1
  have hshown := (Instant.rfc3339_eq_iff htime htime').1 htext
  rw [Instant.asShown_of_isRepresentable ht, Instant.asShown_of_isRepresentable ht'] at hshown
  rw [Report.mk.injEq]
  exact ⟨hmessage, hdetails, hshown⟩

/-- Nothing of a failure is left unsaid. -/
private theorem failures_eq_of_entries_eq {id : Nat} {fs fs' : Failures} (htype : fs.type = fs'.type)
    (ht : IsTimed ⟨id, fs⟩) (ht' : IsTimed ⟨id, fs'⟩) (h : entries ⟨id, fs⟩ = entries ⟨id, fs'⟩) : fs = fs' := by
  cases fs with
  | indexing fs =>
    cases fs' with
    | indexing fs' =>
      refine congrArg _ (eq_of_map_eq (fun f hf f' hf' he => ?_) h)
      have hr := ht _ (List.mem_map_of_mem hf)
      have hr' := ht' _ (List.mem_map_of_mem hf')
      simp only [entryOf, Entry.mk.injEq, Option.some.injEq, true_and, and_true] at he
      obtain ⟨hcause, hmessage, hdetails, htext, htarget, hid⟩ := he
      rw [IndexingFailure.mk.injEq]
      exact ⟨IndexingCause.name_inj hcause, report_eq hr hr' hmessage hdetails htext, hid, htarget⟩
    | _ => cases htype
  | processing fs =>
    cases fs' with
    | processing fs' =>
      refine congrArg _ (eq_of_map_eq (fun f hf f' hf' he => ?_) h)
      have hr := ht _ (List.mem_map_of_mem hf)
      have hr' := ht' _ (List.mem_map_of_mem hf')
      simp only [entryOf, Entry.mk.injEq, Option.some.injEq, true_and, and_true] at he
      obtain ⟨hcause, hmessage, hdetails, htext, hid, hflag⟩ := he
      rw [ProcessingFailure.mk.injEq]
      exact ⟨ProcessingCause.name_inj hcause, report_eq hr hr' hmessage hdetails htext, congrArg Message.mk hid, hflag⟩
    | _ => cases htype
  | input fs =>
    cases fs' with
    | input fs' =>
      refine congrArg _ (eq_of_map_eq (fun f hf f' hf' he => ?_) h)
      have hr := ht _ (List.mem_map_of_mem hf)
      have hr' := ht' _ (List.mem_map_of_mem hf')
      -- There is one cause only.
      simp only [entryOf, Entry.mk.injEq, Option.some.injEq, true_and] at he
      obtain ⟨hmessage, hdetails, htext, hid, hraw⟩ := he
      rw [InputFailure.mk.injEq]
      exact ⟨rfl, report_eq hr hr' hmessage hdetails htext, hraw, hid⟩
    | _ => cases htype

/-- A document with a line in it is that of one batch only. -/
theorem eq_of_octets_eq {b' : Batch} (hid : b.id ≤ Json.maxWord) (hid' : b'.id ≤ Json.maxWord)
    (hb : b.isEmpty = false) (ht : IsTimed b) (ht' : IsTimed b') (h : octets b = octets b') : b = b' := by
  have hentries := entries_eq_of_octets_eq hid hid' h
  obtain ⟨-, hids, htypes⟩ := eq_of_entries_eq hb hentries
  obtain ⟨id, fs⟩ := b
  obtain ⟨id', fs'⟩ := b'
  obtain rfl : id' = id := hids
  exact congrArg (Batch.mk id') (failures_eq_of_entries_eq htypes.symm ht ht' hentries)

end DeadLetter

end FailurePipeline
