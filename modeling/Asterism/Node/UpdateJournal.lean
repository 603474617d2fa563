import Asterism.Json
import Asterism.Sorting.Stable
import Mathlib.Data.List.Destutter

/-!
# The journal of an update

The updater appends one line for every event, and may be stopped in the middle of one. The reader
skips lines it cannot read, so that a torn line costs no more than its own event. But the next event
is appended to the torn line and not after it, and a character that was cut makes the whole file
unreadable.
-/

namespace Asterism.UpdateJournal

open Text (lines ended)

/-- `ProgressEvent`: a progress event: its number, and what it reports. -/
structure Event (Detail : Type) where
  seq : ℕ
  detail : Detail
  deriving DecidableEq

/-- Events as lines of JSON. The encoder and the parser come from a library; these are the facts
about them that the journal rests on. -/
structure Codec (Detail : Type) where
  encode : Event Detail → List Char
  decode : List Char → Option (Event Detail)
  decode_encode : ∀ event, decode (encode event) = some event
  /-- A line break inside a text is escaped. -/
  one_line : ∀ event, ∀ c ∈ encode event, c ≠ '\n' ∧ c ≠ '\r'
  /-- A part of an object is not an object. -/
  decode_torn : ∀ event, ∀ chars, chars <+: encode event → chars ≠ encode event →
    decode chars = none
  /-- Neither is the beginning of one object, or all of it, with another object behind it. -/
  decode_joined : ∀ event next, ∀ chars, chars <+: encode event → chars ≠ [] →
    decode (chars ++ encode next) = none

/-- The contents of a file: characters, and bytes that are only a part of a character. -/
abbrev File := List (Option Char)

/-- `read_to_string`. -/
def readToString (file : File) : Option (List Char) := file.mapM id

variable {Detail : Type} (codec : Codec Detail)

/-- `read_journal` sorts the events by their numbers, and keeps one for each number. -/
def inOrder (events : List (Event Detail)) : List (Event Detail) :=
  (Sorting.sortBy Event.seq events).destutter fun a b => a.seq ≠ b.seq

/-- `read_journal`: every event in a journal, in order. -/
def readJournal (file : File) : List (Event Detail) :=
  match readToString file with
  | none => []
  | some chars => inOrder ((lines chars).filterMap codec.decode)

def line (event : Event Detail) : List Char := ended (codec.encode event)

/-- `Journal::open`: the number with which an opened journal goes on. -/
def nextSeq (file : File) : ℕ :=
  match (readJournal codec file).getLast? with
  | none => 1
  | some event => event.seq + 1

/-- `append`: append one event. -/
def append (file : File) (event : Event Detail) : File := file ++ (line codec event).map some

omit codec in
/-- The events that a journal appends, with the next numbers. -/
def numbered (seq : ℕ) : List Detail → List (Event Detail)
  | [] => []
  | detail :: details => ⟨seq, detail⟩ :: numbered (seq + 1) details

/-- A `Journal` that is opened any number of times, with events appended each time. -/
def sessions (file : File) : List (List Detail) → File × List (Event Detail)
  | [] => (file, [])
  | details :: later =>
    let events := numbered (nextSeq codec file) details
    let rest := sessions (events.foldl (append codec) file) later
    (rest.1, events ++ rest.2)

/-- The beginning of the line of an event that was being appended. -/
structure TornTail (event : Event Detail) where
  chars : List Char
  /-- Some bytes of the next character were written too. -/
  cut : Bool
  begins : chars <+: line codec event
  torn : chars ≠ line codec event

def TornTail.contents {codec : Codec Detail} {event : Event Detail} (tail : TornTail codec event) :
    File :=
  tail.chars.map some ++ if tail.cut then [none] else []

/-! ## What is written -/

def written (events : List (Event Detail)) : List Char := events.flatMap (line codec)

theorem written_cons (event : Event Detail) (events : List (Event Detail)) :
    written codec (event :: events) = line codec event ++ written codec events :=
  List.flatMap_cons

theorem written_append (events more : List (Event Detail)) :
    written codec (events ++ more) = written codec events ++ written codec more :=
  List.flatMap_append

theorem foldl_append_eq (events : List (Event Detail)) (file : File) :
    events.foldl (append codec) file = file ++ (written codec events).map some := by
  induction events generalizing file with
  | nil => exact (List.append_nil file).symm
  | cons event events ih =>
    rw [List.foldl_cons, ih, append, written_cons, List.map_append, List.append_assoc]

/-- Events are added at the end, however often the journal is opened. -/
theorem sessions_file (file : File) (later : List (List Detail)) :
    (sessions codec file later).1 =
      file ++ (written codec (sessions codec file later).2).map some := by
  induction later generalizing file with
  | nil => exact (List.append_nil file).symm
  | cons details later ih =>
    rw [sessions, ih, foldl_append_eq, List.append_assoc, ← List.map_append, ← written_append]

omit codec in
theorem numbered_rising (seq : ℕ) (details : List Detail) :
    (∀ event ∈ numbered seq details, seq ≤ event.seq) ∧
      (numbered seq details).Pairwise fun a b => a.seq < b.seq := by
  induction details generalizing seq with
  | nil => exact ⟨List.forall_mem_nil _, List.Pairwise.nil⟩
  | cons detail details ih =>
    obtain ⟨hle, hrising⟩ := ih (seq + 1)
    refine ⟨List.forall_mem_cons.mpr ⟨le_rfl, fun event hevent => ?_⟩,
      List.pairwise_cons.mpr ⟨hle, hrising⟩⟩
    exact (Nat.le_succ seq).trans (hle event hevent)

omit codec in
theorem length_numbered (seq : ℕ) (details : List Detail) :
    (numbered seq details).length = details.length := by
  induction details generalizing seq with
  | nil => rfl
  | cons detail details ih => exact congrArg Nat.succ (ih (seq + 1))

theorem sessions_eq_nil_iff (file : File) (later : List (List Detail)) :
    (sessions codec file later).2 = [] ↔ later.flatten = [] := by
  induction later generalizing file with
  | nil => exact ⟨fun _ => rfl, fun _ => rfl⟩
  | cons details later ih =>
    rw [sessions, List.append_eq_nil_iff, ih, List.flatten_cons, List.append_eq_nil_iff,
      ← List.length_eq_zero_iff, length_numbered, List.length_eq_zero_iff]

theorem readToString_map_some (chars : List Char) :
    readToString (chars.map some) = some chars := by
  induction chars with
  | nil => rfl
  | cons c chars ih =>
    have ih : (chars.map some).mapM id = some chars := ih
    rw [readToString, List.map_cons, List.mapM_cons, ih]
    rfl

theorem readToString_none {file : File} (h : none ∈ file) : readToString file = none := by
  induction file with
  | nil => cases h
  | cons item file ih =>
    rw [readToString, List.mapM_cons]
    cases item with
    | none => rfl
    | some c =>
      rcases List.mem_cons.mp h with hhead | htail
      · cases hhead
      · have ih : file.mapM id = none := ih htail
        rw [ih]
        rfl

theorem lines_ended_append {chars : List Char} (hchars : ∀ c ∈ chars, c ≠ '\n' ∧ c ≠ '\r')
    (rest : List Char) : lines (ended chars ++ rest) = chars :: lines rest := by
  have hreturn : chars.getLast? ≠ some '\r' := fun h =>
    (hchars '\r' (List.mem_of_getLast? h)).2 rfl
  rw [lines, Text.splitInclusive_ended_append fun h => (hchars '\n' h).1 rfl, List.map_cons,
    Text.chomp_ended, Text.dropReturn, if_neg hreturn]
  rfl

theorem lines_unended {chars : List Char} (hchars : '\n' ∉ chars) (hne : chars ≠ []) :
    lines chars = [chars] := by
  have hlast : chars.getLast? ≠ some '\n' := fun h => hchars (List.mem_of_getLast? h)
  rw [lines, Text.splitInclusive_unended hchars hne, List.map_singleton, Text.chomp, if_neg hlast]

theorem lines_written (events : List (Event Detail)) (rest : List Char) :
    (lines (written codec events ++ rest)).filterMap codec.decode =
      events ++ (lines rest).filterMap codec.decode := by
  induction events with
  | nil => rfl
  | cons event events ih =>
    rw [written_cons, line, List.append_assoc, lines_ended_append (codec.one_line event),
      List.filterMap_cons, codec.decode_encode]
    exact congrArg (List.cons event) ih

/-! ## What is read -/

theorem inOrder_eq {events : List (Event Detail)}
    (h : events.Pairwise fun a b => a.seq < b.seq) : inOrder events = events := by
  have hsorted : Sorting.sortBy Event.seq events = events :=
    List.Pairwise.insertionSort_eq (h.imp le_of_lt)
  rw [inOrder, hsorted]
  exact List.destutter_of_isChain _ _ (h.imp ne_of_lt).isChain

theorem length_inOrder_le (events : List (Event Detail)) :
    (inOrder events).length ≤ events.length :=
  (List.destutter_sublist _ _).length_le.trans (List.length_insertionSort _ _).le

theorem readJournal_written (events : List (Event Detail)) (rest : List Char) :
    readJournal codec ((written codec events ++ rest).map some) =
      inOrder (events ++ (lines rest).filterMap codec.decode) := by
  rw [readJournal, readToString_map_some]
  exact congrArg inOrder (lines_written codec events rest)

/-- The file holds these events and nothing else, with rising numbers. -/
structure Holds (file : File) (events : List (Event Detail)) : Prop where
  file : file = (written codec events).map some
  rising : events.Pairwise fun a b => a.seq < b.seq

theorem Holds.readJournal {codec : Codec Detail} {file : File} {events : List (Event Detail)}
    (h : Holds codec file events) : readJournal codec file = events := by
  have hread := readJournal_written codec events []
  have hnone : (lines []).filterMap codec.decode = [] := rfl
  rw [List.append_nil, hnone, List.append_nil, inOrder_eq h.rising] at hread
  rw [h.file, hread]

/-- A journal that is opened again goes on after its last event. -/
theorem Holds.seq_lt {codec : Codec Detail} {file : File} {events : List (Event Detail)}
    (h : Holds codec file events) : ∀ event ∈ events, event.seq < nextSeq codec file := by
  intro event hevent
  rw [nextSeq, h.readJournal]
  cases hlast : events.getLast? with
  | none =>
    rw [List.getLast?_eq_none_iff.mp hlast] at hevent
    cases hevent
  | some last =>
    obtain ⟨earlier, rfl⟩ := List.getLast?_eq_some_iff.mp hlast
    refine Nat.lt_succ_of_le ?_
    rcases List.mem_append.mp hevent with hearlier | hsame
    · exact ((List.pairwise_append.mp h.rising).2.2 event hearlier last List.mem_cons_self).le
    · rw [List.mem_singleton.mp hsame]

theorem Holds.sessions {codec : Codec Detail} {file : File} {events : List (Event Detail)}
    (h : Holds codec file events) (later : List (List Detail)) :
    Holds codec (sessions codec file later).1 (events ++ (sessions codec file later).2) := by
  induction later generalizing file events with
  | nil => rwa [UpdateJournal.sessions, List.append_nil]
  | cons details later ih =>
    obtain ⟨hle, hrising⟩ := numbered_rising (nextSeq codec file) details
    have hfirst : Holds codec ((numbered (nextSeq codec file) details).foldl (append codec) file)
        (events ++ numbered (nextSeq codec file) details) := by
      refine ⟨?_, List.pairwise_append.mpr ⟨h.rising, hrising, fun a ha b hb => ?_⟩⟩
      · rw [foldl_append_eq, written_append, List.map_append, h.file]
      · exact (h.seq_lt a ha).trans_le (hle b hb)
    rw [UpdateJournal.sessions, ← List.append_assoc]
    exact ih hfirst

theorem holds_nil : Holds codec [] [] := ⟨rfl, List.Pairwise.nil⟩

section Torn

variable {codec} {event : Event Detail}

theorem TornTail.isPrefix (tail : TornTail codec event) : tail.chars <+: codec.encode event := by
  obtain ⟨rest, hrest⟩ := tail.begins
  cases rest using List.reverseRecOn with
  | nil =>
    rw [List.append_nil] at hrest
    exact absurd hrest tail.torn
  | append_singleton rest c =>
    rw [line, ended, ← List.append_assoc] at hrest
    exact ⟨rest, (List.append_inj' hrest rfl).1⟩

/-- A line that was left alone is skipped, or is the event that was being appended. -/
theorem TornTail.decode_lines (tail : TornTail codec event) :
    (lines tail.chars).filterMap codec.decode = [] ∨
      (lines tail.chars).filterMap codec.decode = [event] := by
  have hline : '\n' ∉ tail.chars := fun h =>
    (codec.one_line event _ (tail.isPrefix.subset h)).1 rfl
  by_cases hchars : tail.chars = []
  · rw [hchars]
    exact .inl rfl
  · rw [lines_unended hline hchars]
    by_cases hall : tail.chars = codec.encode event
    · rw [hall, List.filterMap_cons, codec.decode_encode]
      exact .inr rfl
    · rw [List.filterMap_cons, codec.decode_torn event _ tail.isPrefix hall]
      exact .inl rfl

/-- The first event that is appended to what is left of a line is lost with it. -/
theorem TornTail.decode_append (tail : TornTail codec event) (hchars : tail.chars ≠ [])
    (next : Event Detail) (events : List (Event Detail)) :
    (lines (tail.chars ++ written codec (next :: events))).filterMap codec.decode = events := by
  have hjoined : ∀ c ∈ tail.chars ++ codec.encode next, c ≠ '\n' ∧ c ≠ '\r' := by
    intro c hc
    rcases List.mem_append.mp hc with hleft | hright
    · exact codec.one_line event c (tail.isPrefix.subset hleft)
    · exact codec.one_line next c hright
  have hrest := lines_written codec events []
  have hnone : (lines []).filterMap codec.decode = [] := rfl
  rw [List.append_nil, hnone, List.append_nil] at hrest
  rw [written_cons, line, ended, ← List.append_assoc, ← List.append_assoc,
    show tail.chars ++ codec.encode next ++ ['\n'] = ended (tail.chars ++ codec.encode next)
      from rfl,
    lines_ended_append hjoined, List.filterMap_cons,
    codec.decode_joined event next _ tail.isPrefix hchars]
  exact hrest

end Torn

/-- The journal is read with at most the torn event missing. -/
def Intact (before : List (Event Detail)) (torn : Event Detail) (after : List (Event Detail))
    (file : File) : Prop :=
  readJournal codec file = before ++ after ∨ readJournal codec file = before ++ torn :: after

section Reopened

variable {codec} {file : File} {before : List (Event Detail)} {torn : Event Detail}
  {after : List (Event Detail)}

/-- A file that is not text is read as a journal without events. -/
theorem intact_of_cut (hfile : none ∈ file) :
    Intact codec before torn after file ↔ before = [] ∧ after = [] := by
  rw [Intact, readJournal, readToString_none hfile]
  constructor
  · rintro (hread | hread)
    · exact List.append_eq_nil_iff.mp hread.symm
    · cases (List.append_eq_nil_iff.mp hread.symm).2
  · rintro ⟨rfl, rfl⟩
    exact .inl rfl

/-- What is left of a line is skipped if nothing comes after it. -/
theorem intact_of_unended (h : Holds codec file before) (htorn : ∀ event ∈ before,
    event.seq < torn.seq) (tail : TornTail codec torn) :
    Intact codec before torn [] (file ++ tail.chars.map some) := by
  have hread := readJournal_written codec before tail.chars
  rw [List.map_append, ← h.file] at hread
  rw [Intact, hread]
  rcases tail.decode_lines with hnone | hevent
  · rw [hnone, List.append_nil, inOrder_eq h.rising]
    exact .inl rfl
  · rw [hevent, inOrder_eq]
    · exact .inr rfl
    · refine List.pairwise_append.mpr ⟨h.rising, List.pairwise_singleton _ _, fun a ha b hb => ?_⟩
      rw [List.mem_singleton.mp hb]
      exact htorn a ha

/-- The event that is appended to it is not read. -/
theorem not_intact_of_joined (h : Holds codec file before) (tail : TornTail codec torn)
    (hchars : tail.chars ≠ []) (next : Event Detail) (after : List (Event Detail)) :
    ¬ Intact codec before torn (next :: after)
      (file ++ tail.chars.map some ++ (written codec (next :: after)).map some) := by
  have hread := readJournal_written codec before (tail.chars ++ written codec (next :: after))
  rw [tail.decode_append hchars, List.map_append, ← h.file, List.map_append,
    ← List.append_assoc] at hread
  rw [Intact, hread]
  have hlength := length_inOrder_le (before ++ after)
  rw [List.length_append] at hlength
  rintro (heq | heq)
  · rw [heq, List.length_append, List.length_cons] at hlength
    omega
  · rw [heq, List.length_append, List.length_cons, List.length_cons] at hlength
    omega

end Reopened

/-- A journal is written in any number of sessions, an append is cut short, and it is opened again
any number of times. Every event that was appended is read, with at most the torn one missing,
exactly if nothing of the torn line is left, or nothing is appended after it and it is made of whole
characters or was the first. -/
theorem readJournal_torn_iff (before after : List (List Detail)) (detail : Detail)
    (tail : TornTail codec ⟨nextSeq codec (sessions codec [] before).1, detail⟩) :
    Intact codec (sessions codec [] before).2 ⟨nextSeq codec (sessions codec [] before).1, detail⟩
        (sessions codec ((sessions codec [] before).1 ++ tail.contents) after).2
        (sessions codec ((sessions codec [] before).1 ++ tail.contents) after).1 ↔
      tail.contents = [] ∨ (after.flatten = [] ∧ (tail.cut = false ∨ before.flatten = [])) := by
  have hbefore := (holds_nil codec).sessions before
  rw [List.nil_append] at hbefore
  rw [← sessions_eq_nil_iff codec [] before,
    ← sessions_eq_nil_iff codec ((sessions codec [] before).1 ++ tail.contents) after]
  have hfile := sessions_file codec ((sessions codec [] before).1 ++ tail.contents) after
  by_cases hempty : tail.contents = []
  · rw [hempty, List.append_nil]
    exact ⟨fun _ => .inl rfl, fun _ => .inl (hbefore.sessions after).readJournal⟩
  · cases hcut : tail.cut with
    | true =>
      have hnone : none ∈ tail.contents := by
        rw [TornTail.contents, hcut]
        exact List.mem_append_right _ List.mem_cons_self
      rw [hfile, intact_of_cut (List.mem_append_left _ (List.mem_append_right _ hnone))]
      simp only [hempty, false_or, Bool.true_eq_false, and_comm]
    | false =>
      have hcontents : tail.contents = tail.chars.map some := by
        rw [TornTail.contents, hcut]
        exact List.append_nil _
      have hchars : tail.chars ≠ [] := fun hnil => hempty (by rw [hcontents, hnil, List.map_nil])
      cases hafter : (sessions codec ((sessions codec [] before).1 ++ tail.contents) after).2 with
      | nil =>
        rw [hfile, hafter, hcontents]
        refine ⟨fun _ => .inr ⟨rfl, .inl rfl⟩, fun _ => ?_⟩
        exact (List.append_nil _).symm ▸ intact_of_unended hbefore hbefore.seq_lt tail
      | cons next rest =>
        rw [hfile, hafter, hcontents]
        refine ⟨fun h => absurd h (not_intact_of_joined hbefore tail hchars next rest), ?_⟩
        rintro (hnil | ⟨hnil, -⟩)
        · exact absurd (hcontents.trans hnil) hempty
        · cases hnil

/-- The JSON of an event that reports nothing but its number. -/
def encodeNumbered (event : Event Unit) : List Char :=
  (Value.object [("seq", .number (.int event.seq))]).encodeChars

def body (event : Event Unit) : List Char := "\"seq\":".toList ++ Nat.toDigits 10 event.seq

theorem encodeNumbered_eq (event : Event Unit) :
    encodeNumbered event = '\x7b' :: (body event ++ ['\x7d']) := by
  have hsign : ¬(event.seq : ℤ) < 0 := by omega
  simp only [encodeNumbered, Value.encodeChars, Value.encodeFields, Value.encodeNumber,
    if_neg hsign, Text.decimal, String.toList_ofList, Int.natAbs_natCast]
  rfl

theorem digit_plain {c : Char} (h : c.isDigit = true) :
    c ≠ '\x7b' ∧ c ≠ '\x7d' ∧ c ≠ '\n' ∧ c ≠ '\r' := by
  refine ⟨?_, ?_, ?_, ?_⟩ <;> rintro rfl <;> exact absurd h (by decide)

theorem body_plain (event : Event Unit) :
    ∀ c ∈ body event, c ≠ '\x7b' ∧ c ≠ '\x7d' ∧ c ≠ '\n' ∧ c ≠ '\r' := by
  have hkey : ∀ c ∈ "\"seq\":".toList, c ≠ '\x7b' ∧ c ≠ '\x7d' ∧ c ≠ '\n' ∧ c ≠ '\r' := by decide
  intro c hc
  rcases List.mem_append.mp hc with hc | hc
  · exact hkey c hc
  · exact digit_plain (Nat.isDigit_of_mem_toDigits (by decide) (by decide) hc)

theorem filter_encodeNumbered (event : Event Unit) :
    (encodeNumbered event).filter Char.isDigit = Nat.toDigits 10 event.seq := by
  have hdigits : (Nat.toDigits 10 event.seq).filter Char.isDigit = Nat.toDigits 10 event.seq :=
    List.filter_eq_self.mpr fun c hc => Nat.isDigit_of_mem_toDigits (by decide) (by decide) hc
  rw [encodeNumbered_eq, body, List.filter_cons_of_neg (by decide), List.filter_append,
    List.filter_append, hdigits]
  exact List.append_nil _

def decodeNumbered (chars : List Char) : Option (Event Unit) :=
  let event : Event Unit := ⟨Nat.ofDigitChars 10 (chars.filter Char.isDigit) 0, ()⟩
  if chars = encodeNumbered event then some event else none

theorem exists_of_decodeNumbered {chars : List Char} (h : decodeNumbered chars ≠ none) :
    ∃ event, chars = encodeNumbered event := by
  unfold decodeNumbered at h
  dsimp only at h
  split at h
  · exact ⟨_, ‹_›⟩
  · exact absurd rfl h

/-- Events that have nothing but a number, as JSON. -/
def numberedCodec : Codec Unit where
  encode := encodeNumbered
  decode := decodeNumbered
  decode_encode event := by
    rw [decodeNumbered, filter_encodeNumbered, Nat.ofDigitChars_ten_toDigits]
    exact if_pos rfl
  one_line event c hc := by
    rw [encodeNumbered_eq, List.mem_cons, List.mem_append, List.mem_singleton] at hc
    rcases hc with rfl | hc | rfl
    · decide
    · exact (body_plain event c hc).2.2
    · decide
  decode_torn event chars hprefix hne := by
    by_contra hread
    obtain ⟨other, rfl⟩ := exists_of_decodeNumbered hread
    obtain ⟨rest, hrest⟩ := hprefix
    rw [encodeNumbered_eq, encodeNumbered_eq] at hrest hne
    -- The closing brace would stand before the end.
    cases rest using List.reverseRecOn with
    | nil => exact hne ((List.append_nil _).symm.trans hrest)
    | append_singleton rest c =>
      rw [List.cons_append, ← List.append_assoc] at hrest
      have hbody := (List.append_inj' (List.cons.inj hrest).2 rfl).1
      have hbrace : '\x7d' ∈ body event := hbody ▸ by simp
      exact (body_plain event _ hbrace).2.1 rfl
  decode_joined event next chars hprefix hne := by
    by_contra hread
    obtain ⟨other, hother⟩ := exists_of_decodeNumbered hread
    cases chars with
    | nil => exact hne rfl
    | cons c chars =>
      -- The opening brace would stand behind the beginning.
      rw [encodeNumbered_eq, encodeNumbered_eq, List.cons_append] at hother
      have hbrace : '\x7b' ∈ body other ++ ['\x7d'] := (List.cons.inj hother).2 ▸ by simp
      rcases List.mem_append.mp hbrace with hbrace | hbrace
      · exact (body_plain other _ hbrace).1 rfl
      · exact absurd (List.mem_singleton.mp hbrace) (by decide)

def firstBrace : TornTail numberedCodec
    ⟨nextSeq numberedCodec (sessions numberedCodec [] [[(), ()]]).1, ()⟩ where
  chars := ['\x7b']
  cut := false
  begins := ⟨_, rfl⟩
  torn := by decide +kernel

/-- Two events are appended after the torn one, and the first of them is not read. -/
theorem joined_event_not_read :
    let intact := sessions numberedCodec [] [[(), ()]]
    let reopened := sessions numberedCodec (intact.1 ++ firstBrace.contents) [[(), ()]]
    intact.2 = [⟨1, ()⟩, ⟨2, ()⟩] ∧ reopened.2 = [⟨3, ()⟩, ⟨4, ()⟩] ∧
      readJournal numberedCodec reopened.1 = [⟨1, ()⟩, ⟨2, ()⟩, ⟨4, ()⟩] := by
  decide +kernel

end Asterism.UpdateJournal
