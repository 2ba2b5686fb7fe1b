import FailurePipeline.Proofs.Intake.Progress
import FailurePipeline.Proofs.Intake.Untroubled
import Mathlib.Data.List.DropRight
import Mathlib.Data.List.Infix

/-!
# The lines that a source gives

A source tells, one after another, octets, silences and its end, and with each of them it is known whether a shutdown
has been requested by then (`Signal`).  `Harvest.of` reads the lines off these signals: after a request the line under
way is read to its end, unless the source falls silent, and no other line is begun.  The lines are the first ones of
all octets (`lines_prefix`), all of them where nobody asks (`of_unasked`, `of_broken`), and the more the later somebody
does (`lines_mono`).
-/

namespace FailurePipeline

/-! ### Lines with an end -/

namespace Lines

/-- Octets have no line feed, or they are a line with its line feed and what follows it. -/
@[elab_as_elim]
theorem induction {P : Bytes → Prop} (rest : ∀ s, 0x0A ∉ s → P s)
    (line : ∀ s t, 0x0A ∉ s → P t → P (s ++ 0x0A :: t)) (s : Bytes) : P s := by
  induction hn : s.length using Nat.strongRecOn generalizing s with
  | ind n ih =>
    cases hsplit : split? s with
    | none => exact rest s (split?_eq_none hsplit)
    | some p =>
      obtain ⟨l, hl, -, hs⟩ := split?_eq_some (hsplit : split? s = some (p.1, p.2))
      rw [hs]
      refine line l p.2 hl (ih p.2.length ?_ p.2 rfl)
      rw [← hn, hs, List.length_append, List.length_cons]
      omega

/-- The octets up to the last line feed. -/
def closed (s : Bytes) : Bytes := s.rdropWhile (· != 0x0A)

variable {s : Bytes}

theorem closed_of_not_mem (h : 0x0A ∉ s) : closed s = [] := by
  refine List.rdropWhile_eq_nil_iff.2 fun b hb => ?_
  have hne : b ≠ 0x0A := fun he => h (he ▸ hb)
  simpa using hne

theorem closed_line (s t : Bytes) : closed (s ++ 0x0A :: t) = s ++ 0x0A :: closed t := by
  unfold closed List.rdropWhile
  rw [List.reverse_append, List.reverse_cons, List.append_assoc, List.dropWhile_append]
  split
  · next hempty =>
    rw [List.isEmpty_iff.1 hempty]
    simp
  · simp

/-- The first lines of an input are the lines of their octets, and only the last line of all may lack its end. -/
theorem of_prefix {lines : List Bytes} (h : lines <+: ofBytes s) :
    ofBytes lines.flatten = lines ∧ (lines = ofBytes s ∨ closed lines.flatten = lines.flatten) := by
  cases lines with
  | nil => exact ⟨rfl, .inr rfl⟩
  | cons l lines =>
    induction s using Lines.induction generalizing l lines with
    | rest s hs =>
      have hne : s ≠ [] := by
        rintro rfl
        simp [ofBytes] at h
      rw [ofBytes_open hs hne] at h ⊢
      obtain ⟨rfl, hnil⟩ := List.cons_prefix_cons.1 h
      obtain rfl := List.prefix_nil.1 hnil
      simp [ofBytes_open hs hne]
    | line a s ha ih =>
      rw [ofBytes_line ha] at h ⊢
      obtain ⟨rfl, hrest⟩ := List.cons_prefix_cons.1 h
      have hnext : ofBytes lines.flatten = lines ∧
          (lines = ofBytes s ∨ closed lines.flatten = lines.flatten) := by
        cases lines with
        | nil => exact ⟨rfl, .inr rfl⟩
        | cons b lines => exact ih b lines hrest
      have hflat : ((a ++ [0x0A]) :: lines).flatten = a ++ 0x0A :: lines.flatten := by simp
      rw [hflat, ofBytes_line ha, closed_line, hnext.1]
      refine ⟨rfl, hnext.2.imp (fun he => by rw [he]) fun he => by rw [he]⟩

end Lines

/-! ### Signals -/

/-- What a source tells. -/
inductive News where
  | octet (b : UInt8)
  | silence
  | ending

/-- What a source tells, and whether a shutdown has been requested by then. -/
structure Signal where
  news : News
  asked : Bool

/-- The octet that comes with a signal, if any. -/
def Signal.octet? (s : Signal) : Option UInt8 :=
  match s.news with
  | .octet b => some b
  | .silence | .ending => none

namespace Signal

/-- Octets that come at one time. -/
def chunk (asked : Bool) (octets : Bytes) : List Signal := octets.map (⟨.octet ·, asked⟩)

/-- The octets that come with signals. -/
def octets (signals : List Signal) : Bytes := signals.filterMap octet?

/-- No octet comes after the end. -/
def EndsOnce (signals : List Signal) : Prop :=
  signals.Pairwise fun s t => s.news = .ending → t.octet? = none

/-- The same news, with no request where there was none. -/
def Delays (s t : Signal) : Prop := t.news = s.news ∧ (t.asked = true → s.asked = true)

@[simp]
theorem octets_chunk (asked : Bool) (bs : Bytes) : octets (chunk asked bs) = bs := by
  simp [octets, chunk, octet?, List.filterMap_map, Function.comp_def]

@[simp]
theorem octets_append (s t : List Signal) : octets (s ++ t) = octets s ++ octets t := List.filterMap_append

theorem EndsOnce.tail {s : Signal} {rest : List Signal} (h : EndsOnce (s :: rest)) : EndsOnce rest :=
  (List.pairwise_cons.1 h).2

theorem EndsOnce.octets_eq_nil {asked : Bool} {rest : List Signal} (h : EndsOnce (⟨.ending, asked⟩ :: rest)) :
    octets rest = [] :=
  List.filterMap_eq_nil_iff.2 fun s hs => (List.pairwise_cons.1 h).1 s hs rfl

end Signal

/-- The signals of an arrival. -/
def Arrival.signals (asked : Bool) : Arrival → List Signal
  | .read octets _ => if octets.isEmpty then [⟨.ending, asked⟩] else Signal.chunk asked octets
  | .silence _ => [⟨.silence, asked⟩]

/-- The signals of arrivals.  What has been requested remains so. -/
def Arrival.allSignals : (asked : Bool) → List Arrival → List Signal
  | _, [] => []
  | asked, a :: rest => a.signals (asked || a.stops) ++ allSignals (asked || a.stops) rest

namespace Arrival

variable (asked : Bool)

/-- What a feed delivers comes with its signals. -/
theorem octets_allSignals (arrivals : List Arrival) (sequel : Sequel) :
    Signal.octets (allSignals asked arrivals) = Feed.data ⟨arrivals, sequel⟩ := by
  induction arrivals generalizing asked with
  | nil => rfl
  | cons a rest ih =>
    rw [allSignals, Signal.octets_append, ih]
    have hone : ∀ known : Bool, Signal.octets (a.signals known) = Feed.data ⟨[a], sequel⟩ := by
      intro known
      cases a with
      | read octets shutdown =>
        cases octets with
        | nil => rfl
        | cons b bs => simp [signals, Feed.data]
      | silence shutdown => rfl
    rw [hone]
    simp [Feed.data]

theorem allSignals_append (first second : List Arrival) :
    allSignals asked (first ++ second) =
      allSignals asked first ++ allSignals (asked || first.any stops) second := by
  induction first generalizing asked with
  | nil => simp [allSignals]
  | cons a rest ih => simp [allSignals, ih, Bool.or_assoc]

/-- Who does not stop a feed before its end has all of it unasked. -/
theorem asked_allSignals {arrivals : List Arrival} {s : Signal} (h : s ∈ allSignals asked arrivals) :
    (asked = true → s.asked = true) ∧ (asked = false → (∀ a ∈ arrivals, a.stops = false) → s.asked = false) := by
  induction arrivals generalizing asked with
  | nil => simp [allSignals] at h
  | cons a rest ih =>
    rw [allSignals, List.mem_append] at h
    have hone : s ∈ a.signals (asked || a.stops) → s.asked = (asked || a.stops) := by
      intro hmem
      cases a with
      | read octets shutdown =>
        simp only [signals] at hmem
        split at hmem
        · rw [List.mem_singleton.1 hmem]
        · obtain ⟨b, -, rfl⟩ := List.mem_map.1 hmem
          rfl
      | silence shutdown => rw [List.mem_singleton.1 hmem]
    rcases h with h | h
    · rw [hone h]
      constructor
      · rintro rfl
        rfl
      · rintro rfl hall
        exact hall a List.mem_cons_self
    · obtain ⟨hyes, hno⟩ := ih _ h
      constructor
      · rintro rfl
        exact hyes rfl
      · rintro rfl hall
        exact hno (hall a List.mem_cons_self) fun a' ha => hall a' (List.mem_cons_of_mem _ ha)

/-- Only an empty read is an end. -/
theorem ending_mem_allSignals {arrivals : List Arrival} {s : Signal} (h : s ∈ allSignals asked arrivals)
    (hs : s.news = .ending) : ∃ shutdown, .read [] shutdown ∈ arrivals := by
  induction arrivals generalizing asked with
  | nil => simp [allSignals] at h
  | cons a rest ih =>
    rw [allSignals, List.mem_append] at h
    rcases h with h | h
    · cases a with
      | read octets shutdown =>
        simp only [signals] at h
        split at h
        · next hempty => exact ⟨shutdown, by simp [List.isEmpty_iff.1 hempty]⟩
        · obtain ⟨b, -, rfl⟩ := List.mem_map.1 h
          simp at hs
      | silence shutdown =>
        rw [List.mem_singleton.1 h] at hs
        simp at hs
    · obtain ⟨shutdown, hmem⟩ := ih _ h
      exact ⟨shutdown, List.mem_cons_of_mem _ hmem⟩

/-- The signals of a feed end once if the feed does. -/
theorem endsOnce_allSignals {arrivals : List Arrival} {sequel : Sequel} (h : Feed.EndsOnce ⟨arrivals, sequel⟩) :
    Signal.EndsOnce (allSignals asked arrivals) := by
  induction arrivals generalizing asked with
  | nil => exact List.Pairwise.nil
  | cons a rest ih =>
    rw [allSignals, Signal.EndsOnce, List.pairwise_append]
    refine ⟨?_, ih _ h.tail, fun s hs t ht hend => ?_⟩
    · cases a with
      | read octets shutdown =>
        simp only [signals]
        split
        · exact List.pairwise_singleton _ _
        · exact List.pairwise_map.2 (List.pairwise_of_forall fun _ _ => nofun)
      | silence shutdown => exact List.pairwise_singleton _ _
    · have hempty : ∃ shutdown, a = .read [] shutdown := by
        have hmem : s ∈ allSignals asked [a] := by simpa [allSignals] using hs
        obtain ⟨shutdown, hmem⟩ := ending_mem_allSignals asked hmem hend
        exact ⟨shutdown, (List.mem_singleton.1 hmem).symm⟩
      obtain ⟨shutdown, rfl⟩ := hempty
      have hnone : Signal.octets (allSignals (asked || shutdown) rest) = [] :=
        (octets_allSignals _ rest sequel).trans (h [] shutdown rest rfl)
      exact List.filterMap_eq_nil_iff.1 hnone t ht

end Arrival

/-! ### What is read off the signals -/

/-- Lines that are read, and whether reading breaks after them. -/
structure Harvest where
  lines : List Bytes := []
  broken : Bool := false

namespace Harvest

/-- First another line. -/
def cons (line : Bytes) (h : Harvest) : Harvest := { h with lines := line :: h.lines }

/-- What is read in the middle of a line, of which there is a part.  A source that is faulty breaks after its
signals; any other one is at its end then. -/
def of (faulty : Bool) : (part : Bytes) → List Signal → Harvest
  | part, [] => if faulty then { broken := true } else if part.isEmpty then {} else { lines := [part] }
  | part, ⟨.octet b, asked⟩ :: rest =>
    if b = 0x0A then (if asked then {} else of faulty [] rest).cons (part ++ [b]) else of faulty (part ++ [b]) rest
  | part, ⟨.silence, asked⟩ :: rest => if asked then {} else of faulty part rest
  | part, ⟨.ending, asked⟩ :: rest =>
    if part.isEmpty then {} else (if asked then {} else of faulty [] rest).cons part

/-- What is read between two lines. -/
def between (faulty asked : Bool) (signals : List Signal) : Harvest := if asked then {} else of faulty [] signals

variable {faulty asked : Bool} {part line : Bytes} {signals : List Signal}

/-- Octets without a line feed only add to the part. -/
theorem of_chunk (h : 0x0A ∉ line) :
    of faulty part (Signal.chunk asked line ++ signals) = of faulty (part ++ line) signals := by
  induction line generalizing part with
  | nil => simp [Signal.chunk]
  | cons b line ih =>
    obtain ⟨hb, hline⟩ := not_or.1 (List.mem_cons.not.1 h)
    have hnext : of faulty (part ++ [b]) (Signal.chunk asked line ++ signals) =
        of faulty (part ++ [b] ++ line) signals := ih hline
    rw [List.append_assoc] at hnext
    change of faulty part (⟨.octet b, asked⟩ :: (Signal.chunk asked line ++ signals)) = _
    rw [of, if_neg (Ne.symm hb), hnext]
    rfl

/-- A line feed ends a line. -/
theorem of_line (h : 0x0A ∉ line) (rest : Bytes) :
    of faulty part (Signal.chunk asked (line ++ 0x0A :: rest) ++ signals) =
      (between faulty asked (Signal.chunk asked rest ++ signals)).cons (part ++ (line ++ [0x0A])) := by
  have hsplit : Signal.chunk asked (line ++ 0x0A :: rest) ++ signals =
      Signal.chunk asked line ++ (⟨.octet 0x0A, asked⟩ :: (Signal.chunk asked rest ++ signals)) := by
    simp [Signal.chunk]
  rw [hsplit, of_chunk h, of, if_pos rfl, List.append_assoc]
  rfl

/-- Octets are read one by one up to a line feed or to the end, and from there on anew. -/
@[elab_as_elim]
theorem induction {P : (part : Bytes) → 0x0A ∉ part → List Signal → Prop} (nil : ∀ part hpart, P part hpart [])
    (line : ∀ part hpart asked rest, P [] List.not_mem_nil rest → P part hpart (⟨.octet 0x0A, asked⟩ :: rest))
    (octet : ∀ part hpart b asked rest, b ≠ 0x0A → (∀ hmore, P (part ++ [b]) hmore rest) →
      P part hpart (⟨.octet b, asked⟩ :: rest))
    (silence : ∀ part hpart asked rest, P part hpart rest → P part hpart (⟨.silence, asked⟩ :: rest))
    (ending : ∀ part hpart asked rest, P [] List.not_mem_nil rest → P part hpart (⟨.ending, asked⟩ :: rest))
    (part : Bytes) (hpart : 0x0A ∉ part) (signals : List Signal) : P part hpart signals := by
  induction signals generalizing part with
  | nil => exact nil part hpart
  | cons s rest ih =>
    obtain ⟨news, asked⟩ := s
    cases news with
    | octet b =>
      by_cases hb : b = 0x0A
      · rw [hb]
        exact line part hpart asked rest (ih [] List.not_mem_nil)
      · exact octet part hpart b asked rest hb (ih (part ++ [b]))
    | silence => exact silence part hpart asked rest (ih part hpart)
    | ending => exact ending part hpart asked rest (ih [] List.not_mem_nil)

private theorem append_octets (part : Bytes) (b : UInt8) (asked : Bool) (rest : List Signal) :
    part ++ Signal.octets (⟨.octet b, asked⟩ :: rest) = part ++ b :: Signal.octets rest := rfl

private theorem append_octets_ending {rest : List Signal} (hends : Signal.EndsOnce (⟨.ending, asked⟩ :: rest))
    (part : Bytes) : part ++ Signal.octets (⟨.ending, asked⟩ :: rest) = part := by
  change part ++ Signal.octets rest = part
  rw [hends.octets_eq_nil, List.append_nil]

private theorem not_mem_concat {b : UInt8} (hpart : 0x0A ∉ part) (hb : b ≠ 0x0A) : 0x0A ∉ part ++ [b] := by
  simp [hpart, Ne.symm hb]

/-- The lines that are read are the first ones of all. -/
theorem lines_prefix (hpart : 0x0A ∉ part) (hends : Signal.EndsOnce signals) :
    (of faulty part signals).lines <+: Lines.ofBytes (part ++ Signal.octets signals) := by
  have hbetween : ∀ {asked : Bool} {rest : List Signal},
      (of faulty [] rest).lines <+: Lines.ofBytes (Signal.octets rest) →
        (between faulty asked rest).lines <+: Lines.ofBytes (Signal.octets rest) := by
    intro asked rest h
    cases asked with
    | true => exact List.nil_prefix
    | false => exact h
  -- A request to stop cuts off what follows, between two lines or where nothing arrives in the middle of one.
  induction part, hpart, signals using Harvest.induction with
  | nil part hpart =>
    cases faulty with
    | true => exact List.nil_prefix
    | false =>
      by_cases hnil : part = []
      · rw [hnil]
        exact List.nil_prefix
      · simp [of, hnil, Signal.octets, Lines.ofBytes_open hpart hnil]
  | line part hpart asked rest ih =>
    rw [append_octets, Lines.ofBytes_line hpart, of, if_pos rfl]
    exact List.cons_prefix_cons.2 ⟨rfl, hbetween (ih hends.tail)⟩
  | octet part hpart b asked rest hb ih =>
    rw [append_octets, List.append_cons part, of, if_neg hb]
    exact ih (not_mem_concat hpart hb) hends.tail
  | silence part hpart asked rest ih =>
    cases asked with
    | true => exact List.nil_prefix
    | false => exact ih hends.tail
  | ending part hpart asked rest ih =>
    have hnext : (between faulty asked rest).lines <+: Lines.ofBytes (Signal.octets rest) := hbetween (ih hends.tail)
    rw [hends.octets_eq_nil] at hnext
    rw [append_octets_ending hends, of]
    by_cases hnil : part = []
    · rw [hnil]
      exact List.nil_prefix
    · rw [if_neg (by simpa using hnil), Lines.ofBytes_open hpart hnil]
      exact List.cons_prefix_cons.2 ⟨rfl, hnext⟩

/-- Where nobody asks, all lines are read. -/
theorem of_unasked (hpart : 0x0A ∉ part) (hends : Signal.EndsOnce signals) (hno : ∀ s ∈ signals, s.asked = false) :
    of false part signals = { lines := Lines.ofBytes (part ++ Signal.octets signals) } := by
  induction part, hpart, signals using Harvest.induction with
  | nil part hpart =>
    by_cases hnil : part = []
    · simp [of, hnil, Signal.octets, Lines.ofBytes]
    · simp [of, hnil, Signal.octets, Lines.ofBytes_open hpart hnil]
  | line part hpart asked rest ih =>
    obtain ⟨rfl, hrest⟩ := List.forall_mem_cons.1 hno
    rw [append_octets, Lines.ofBytes_line hpart, of, if_pos rfl]
    exact congrArg (cons (part ++ [0x0A])) (ih hends.tail hrest)
  | octet part hpart b asked rest hb ih =>
    rw [append_octets, List.append_cons part, of, if_neg hb]
    exact ih (not_mem_concat hpart hb) hends.tail (List.forall_mem_cons.1 hno).2
  | silence part hpart asked rest ih =>
    obtain ⟨rfl, hrest⟩ := List.forall_mem_cons.1 hno
    exact ih hends.tail hrest
  | ending part hpart asked rest ih =>
    obtain ⟨rfl, hrest⟩ := List.forall_mem_cons.1 hno
    have hnext := ih hends.tail hrest
    rw [hends.octets_eq_nil] at hnext
    rw [append_octets_ending hends, of]
    by_cases hnil : part = []
    · simp [hnil, Lines.ofBytes]
    · rw [if_neg (by simpa using hnil), Lines.ofBytes_open hpart hnil]
      exact congrArg (cons part) hnext

/-- A faulty source breaks off the line after the last line feed. -/
theorem of_broken (hpart : 0x0A ∉ part) (hno : ∀ s ∈ signals, s.asked = false)
    (hend : ∀ s ∈ signals, s.news ≠ .ending) :
    of true part signals =
      { lines := Lines.ofBytes (Lines.closed (part ++ Signal.octets signals)), broken := true } := by
  induction part, hpart, signals using Harvest.induction with
  | nil part hpart =>
    have hnone : Lines.closed (part ++ Signal.octets []) = [] :=
      Lines.closed_of_not_mem (by simpa [Signal.octets] using hpart)
    rw [hnone]
    rfl
  | line part hpart asked rest ih =>
    obtain ⟨rfl, hrest⟩ := List.forall_mem_cons.1 hno
    rw [append_octets, Lines.closed_line, Lines.ofBytes_line hpart, of, if_pos rfl]
    exact congrArg (cons (part ++ [0x0A])) (ih hrest (List.forall_mem_cons.1 hend).2)
  | octet part hpart b asked rest hb ih =>
    rw [append_octets, List.append_cons part, of, if_neg hb]
    exact ih (not_mem_concat hpart hb) (List.forall_mem_cons.1 hno).2 (List.forall_mem_cons.1 hend).2
  | silence part hpart asked rest ih =>
    obtain ⟨rfl, hrest⟩ := List.forall_mem_cons.1 hno
    exact ih hrest (List.forall_mem_cons.1 hend).2
  | ending part hpart asked rest ih => exact absurd rfl (List.forall_mem_cons.1 hend).1

/-- A source without a fault does not break. -/
theorem broken_of (part : Bytes) (signals : List Signal) : (of false part signals).broken = false := by
  induction signals generalizing part with
  | nil =>
    rw [of, if_neg Bool.false_ne_true]
    split <;> rfl
  | cons s rest ih =>
    obtain ⟨news, asked⟩ := s
    have hnext : ∀ part, (if asked = true then {} else of false part rest : Harvest).broken = false := by
      intro part
      split
      · rfl
      · exact ih part
    cases news with
    | octet b =>
      rw [of]
      split
      · exact hnext []
      · exact ih (part ++ [b])
    | silence => exact hnext part
    | ending =>
      rw [of]
      split
      · rfl
      · exact hnext []

/-- After a request at most the line under way is read. -/
theorem length_lines_of_asked (hyes : ∀ s ∈ signals, s.asked = true) : (of faulty part signals).lines.length ≤ 1 := by
  induction signals generalizing part with
  | nil =>
    rw [of]
    split
    · exact Nat.zero_le _
    · split <;> simp
  | cons s rest ih =>
    obtain ⟨news, asked⟩ := s
    obtain ⟨rfl, hrest⟩ := List.forall_mem_cons.1 hyes
    rw [of.eq_def]
    cases news with
    | octet b =>
      simp only [if_true]
      split
      · simp [cons]
      · exact ih hrest
    | silence => simp
    | ending =>
      simp only [if_true]
      split <;> simp [cons]

/-- All lines that have come to their end before a request are read, and then one more line at most. -/
theorem lines_asked {before after : List Signal} (hpart : 0x0A ∉ part) (hends : Signal.EndsOnce (before ++ after))
    (hno : ∀ s ∈ before, s.asked = false) (hyes : ∀ s ∈ after, s.asked = true) :
    ∃ lines, lines.length ≤ 1 ∧
      (of faulty part (before ++ after)).lines =
        Lines.ofBytes (Lines.closed (part ++ Signal.octets before)) ++ lines := by
  induction part, hpart, before using Harvest.induction with
  | nil part hpart =>
    refine ⟨(of faulty part after).lines, length_lines_of_asked hyes, ?_⟩
    have hnone : Lines.closed (part ++ Signal.octets []) = [] :=
      Lines.closed_of_not_mem (by simpa [Signal.octets] using hpart)
    rw [hnone]
    rfl
  | line part hpart asked rest ih =>
    obtain ⟨rfl, hrest⟩ := List.forall_mem_cons.1 hno
    obtain ⟨lines, hlen, hlines⟩ := ih hends.tail hrest
    rw [append_octets, Lines.closed_line, Lines.ofBytes_line hpart, List.cons_append, of, if_pos rfl]
    exact ⟨lines, hlen, congrArg ((part ++ [0x0A]) :: ·) hlines⟩
  | octet part hpart b asked rest hb ih =>
    rw [append_octets, List.append_cons part b (Signal.octets rest), List.cons_append, of, if_neg hb]
    exact ih (not_mem_concat hpart hb) hends.tail (List.forall_mem_cons.1 hno).2
  | silence part hpart asked rest ih =>
    obtain ⟨rfl, hrest⟩ := List.forall_mem_cons.1 hno
    exact ih hends.tail hrest
  | ending part hpart asked rest ih =>
    -- Nothing comes after the end, and so the part is the one line that is left.
    obtain ⟨rfl, hrest⟩ := List.forall_mem_cons.1 hno
    have hnone : Signal.octets (rest ++ after) = [] := Signal.EndsOnce.octets_eq_nil hends
    have hrestends : Signal.EndsOnce (⟨.ending, false⟩ :: rest) := List.Pairwise.sublist (by simp) hends
    rw [append_octets_ending hrestends, Lines.closed_of_not_mem hpart, List.cons_append, of]
    refine ⟨_, ?_, rfl⟩
    split
    · exact Nat.zero_le _
    · have hlast : (of faulty [] (rest ++ after)).lines <+: Lines.ofBytes ([] ++ Signal.octets (rest ++ after)) :=
        lines_prefix List.not_mem_nil hends.tail
      rw [hnone] at hlast
      have hnil : (of faulty [] (rest ++ after)).lines = [] := List.prefix_nil.1 hlast
      simp [cons, hnil]

/-- Where the source falls silent after a request, nothing is read beyond the last line feed before. -/
theorem lines_abandoned {before after : List Signal} (hpart : 0x0A ∉ part)
    (hend : ∀ s ∈ before, s.news ≠ .ending) :
    (of faulty part (before ++ ⟨.silence, true⟩ :: after)).lines <+:
      Lines.ofBytes (Lines.closed (part ++ Signal.octets before)) := by
  induction part, hpart, before using Harvest.induction with
  | nil part hpart => exact List.nil_prefix
  | line part hpart asked rest ih =>
    rw [append_octets, Lines.closed_line, Lines.ofBytes_line hpart, List.cons_append, of, if_pos rfl]
    refine List.cons_prefix_cons.2 ⟨rfl, ?_⟩
    cases asked with
    | true => exact List.nil_prefix
    | false => exact ih (List.forall_mem_cons.1 hend).2
  | octet part hpart b asked rest hb ih =>
    rw [append_octets, List.append_cons part b (Signal.octets rest), List.cons_append, of, if_neg hb]
    exact ih (not_mem_concat hpart hb) (List.forall_mem_cons.1 hend).2
  | silence part hpart asked rest ih =>
    cases asked with
    | true => exact List.nil_prefix
    | false => exact ih (List.forall_mem_cons.1 hend).2
  | ending part hpart asked rest ih => exact absurd rfl (List.forall_mem_cons.1 hend).1

/-- A later request leaves more lines to be read. -/
theorem lines_mono {early late : List Signal} (h : List.Forall₂ Signal.Delays early late) :
    (of faulty part early).lines <+: (of faulty part late).lines := by
  induction h generalizing part with
  | nil => exact List.prefix_rfl
  | @cons s t early late hst _ ih =>
    obtain ⟨news, asked⟩ := s
    obtain ⟨news', asked'⟩ := t
    obtain ⟨rfl, hlater⟩ := hst
    -- After a request on the earlier signal no line follows; without one there is none on the later signal either.
    have hnext : ∀ {part : Bytes}, (if asked = true then {} else of faulty part early : Harvest).lines <+:
        (if asked' = true then {} else of faulty part late : Harvest).lines := by
      intro part
      cases asked with
      | true => exact List.nil_prefix
      | false =>
        have hno : asked' = false := Bool.eq_false_iff.2 fun hyes => Bool.false_ne_true (hlater hyes)
        rw [hno]
        exact ih
    cases news' with
    | octet b =>
      rw [of, of]
      split
      · exact List.cons_prefix_cons.2 ⟨rfl, hnext⟩
      · exact ih
    | silence =>
      rw [of, of]
      exact hnext
    | ending =>
      rw [of, of]
      split
      · exact List.prefix_rfl
      · exact List.cons_prefix_cons.2 ⟨rfl, hnext⟩

end Harvest

end FailurePipeline
