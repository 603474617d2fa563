import Asterism.Registry.Journal
import Asterism.Sorting.Stable

/-!
# Following the journal of a run

A client of the Node follows a run: the stored events after its cursor are read page by page and
sent, and then the stream waits for more. What wakes it says nothing about what was stored, every
page is read from the journal behind the cursor. So whatever is appended between two reads, and
whether a wake-up was lost or meant another run, the events that were sent are the first ones of
the journal behind the starting cursor, and the stream ends with a notice only on a page that was
the last one.
-/

namespace Asterism

/-- The journal of a run, as it is handed out. -/
def Tables.journalOf (t : Tables) (runId : String) : List StoredEvent :=
  (t.eventsOf runId).map EventRow.toStoredEvent

namespace EventStream

/-- The events of a journal behind a cursor. -/
abbrev later : ℤ → List StoredEvent → List StoredEvent :=
  Paging.later fun event => (event.seq : ℤ)

/-- The number of the last event, or the cursor the stream began with. -/
abbrev lastSeq : ℤ → List StoredEvent → ℤ :=
  Paging.lastSeq fun event => (event.seq : ℤ)

/-- A `LIMIT`: a negative one is none. -/
def limited (limit : ℤ) (events : List StoredEvent) : List StoredEvent :=
  if limit < 0 then events else events.take limit.toNat

/-- `events_since`: the events of a run behind a cursor, ordered by their numbers. -/
def eventsSince (t : Tables) (runId : String) (after limit : ℤ) : List StoredEvent :=
  limited limit ((later after (t.journalOf runId)).insertionSort fun a b => a.seq ≤ b.seq)

/-- `sse_frame`, by what it carries. -/
inductive Frame
  | event (event : StoredEvent)
  | heartbeat
  | terminal (status : RunStatus)
  deriving DecidableEq

def Frame.event? : Frame → Option StoredEvent
  | event e => some e
  | _ => none

/-- Where the loop of `sse_response` is. -/
inductive Phase
  /-- At its beginning, where `stream_page` reads the run. -/
  | query
  /-- `stream_page` has read the run, with this status, and reads the events next. -/
  | reading (status : RunStatus)
  /-- A page was read, with so many events, and these are still to be sent. -/
  | sending (rest : List StoredEvent) (drained : ℕ) (status : RunStatus)
  /-- Nothing more to send for now. -/
  | waiting
  | done
  deriving DecidableEq

/-- What `broadcast::Receiver::recv` gives to the stream. -/
inductive Wakeup
  | woken (runId : String)
  | lagged
  | closed
  deriving DecidableEq

structure World where
  registry : Registry
  cursor : ℤ
  phase : Phase
  sent : List Frame

inductive Move
  /-- Any operation on the registry, by whomever. -/
  | operate (op : RegistryOp)
  /-- The first read of `stream_page`: the run. The database answers or not. -/
  | status (storage : Bool)
  /-- The second read of `stream_page`: the events. The two reads are separate statements, and
  the worker of the run writes on a connection of its own in between. -/
  | page (storage : Bool)
  /-- The stream goes on with the page it read; the client is there or not. -/
  | send (client : Bool)
  | wake (wakeup : Wakeup)
  | heartbeat (client : Bool)

section Stream

variable (runId : String) (pageSize : ℤ)

/-- `sse_response` goes on with the page it read. -/
def sendNext (client : Bool) (w : World) : List StoredEvent → ℕ → RunStatus → World
  | event :: rest, drained, status =>
    if client then
      { w with cursor := event.seq, phase := .sending rest drained status,
               sent := w.sent ++ [.event event] }
    else { w with phase := .done }
  | [], drained, status =>
    -- A full page may hide more.
    if pageSize ≤ drained then { w with phase := .query }
    else if status.isTerminal then
      { w with phase := .done, sent := if client then w.sent ++ [.terminal status] else w.sent }
    else { w with phase := .waiting }

/-- One step of the registry or of `sse_response`. A step that is not due does nothing. -/
def World.step (w : World) : Move → World
  | .operate op => { w with registry := w.registry.step op }
  | .status storage =>
    match w.phase with
    | .query =>
      match if storage then w.registry.contents.findRun runId else none with
      | some row => { w with phase := .reading row.status }
      | none => { w with phase := .done }
    | _ => w
  | .page storage =>
    match w.phase with
    | .reading status =>
      let events := eventsSince w.registry.contents runId w.cursor pageSize
      if storage then { w with phase := .sending events events.length status }
      else { w with phase := .done }
    | _ => w
  | .send client =>
    match w.phase with
    | .sending rest drained status => sendNext pageSize client w rest drained status
    | _ => w
  | .wake wakeup =>
    match w.phase with
    | .waiting => if wakeup = .closed then { w with phase := .done } else { w with phase := .query }
    | _ => w
  | .heartbeat client =>
    match w.phase with
    | .waiting =>
      if client then { w with phase := .query, sent := w.sent ++ [.heartbeat] }
      else { w with phase := .done }
    | _ => w

def start (registry : Registry) (cursor : ℤ) : World := ⟨registry, cursor, .query, []⟩

def World.play (w : World) (script : List Move) : World :=
  script.foldl (World.step runId pageSize) w

end Stream

def World.events (w : World) : List StoredEvent := w.sent.filterMap Frame.event?

/-! ## The journal behind a cursor -/

theorem journalOf_prefix_of_changes {r r' : Registry} (h : Changes r r') (runId : String) :
    r.contents.journalOf runId <+: r'.contents.journalOf runId := by
  refine h.induction
    (motive := fun r' => r.contents.journalOf runId <+: r'.contents.journalOf runId)
    (List.prefix_refl _) fun middle last label hchange ih => ih.trans ?_
  generalize last.contents = t at hchange
  cases hchange with
  | eventAppended changed row event now now' _ _ =>
    refine List.IsPrefix.map _ ?_
    exact ⟨_, (Tables.eventsOf_insertEvent _ _).symm⟩
  | runInserted | runUpdated | policySet | approvalRequested | approvalDecided
  | approvalResolved | subscriptionsChanged | commandAdmitted | commandUpdated
  | outboxChanged => exact List.prefix_refl _

theorem exists_seq_journalOf {r : Registry} (h : r.contents.JournalNumbered) (runId : String) :
    ∃ n, (r.contents.journalOf runId).map StoredEvent.seq = List.range' 1 n := by
  rw [Tables.journalOf, List.map_map]
  by_cases hrun : runId ∈ r.contents.runIds
  · obtain ⟨row, hrow, rfl⟩ := List.mem_map.mp hrun
    exact ⟨row.lastEventSeq, h row hrow⟩
  · have hvalid : r.contents.Valid := r.valid
    have hnone : r.contents.eventsOf runId = [] :=
      List.filter_eq_nil_iff.mpr fun event hevent heq =>
        hrun (of_decide_eq_true heq ▸ hvalid.events_run event hevent)
    exact ⟨0, by rw [hnone]; rfl⟩

theorem filter_range' (after : ℤ) (n : ℕ) :
    (List.range' 1 n).filter (fun seq : ℕ => after < seq) =
      List.range' (after.toNat + 1) (n - after.toNat) := by
  induction n with
  | zero => simp
  | succ n ih =>
    rw [List.range'_concat, List.filter_append, ih]
    by_cases hn : after < (n + 1 : ℕ)
    · have hnumber : n + 1 - after.toNat = (n - after.toNat) + 1 := by omega
      have hlast : after.toNat + 1 + 1 * (n - after.toNat) = 1 + 1 * n := by omega
      rw [hnumber, List.range'_concat, hlast, List.filter_cons_of_pos, List.filter_nil]
      rw [decide_eq_true_eq]
      omega
    · have hnumber : n + 1 - after.toNat = 0 := by omega
      have hbefore : n - after.toNat = 0 := by omega
      rw [hnumber, hbefore, List.filter_cons_of_neg, List.filter_nil]
      · rfl
      · rw [decide_eq_true_eq]
        omega

theorem exists_seq_later {r : Registry} (h : r.contents.JournalNumbered) (runId : String)
    (after : ℤ) : ∃ n, (later after (r.contents.journalOf runId)).map StoredEvent.seq =
      List.range' (after.toNat + 1) n := by
  obtain ⟨n, hn⟩ := exists_seq_journalOf h runId
  refine ⟨n - after.toNat, ?_⟩
  rw [← filter_range', ← hn, List.filter_map]
  rfl

theorem increasing_of_seq {events : List StoredEvent} {first n : ℕ}
    (h : events.map StoredEvent.seq = List.range' first n) :
    events.Pairwise fun a b => (a.seq : ℤ) < b.seq := by
  have hsorted : (events.map StoredEvent.seq).Pairwise (· < ·) := h ▸ List.pairwise_lt_range'
  exact (List.pairwise_map.mp hsorted).imp Int.ofNat_lt.mpr

theorem eventsSince_eq {r : Registry} (h : r.contents.JournalNumbered) (runId : String)
    (after limit : ℤ) : eventsSince r.contents runId after limit =
      limited limit (later after (r.contents.journalOf runId)) := by
  obtain ⟨n, hn⟩ := exists_seq_later h runId after
  have hsorted : (later after (r.contents.journalOf runId)).Pairwise fun a b => a.seq ≤ b.seq :=
    (increasing_of_seq hn).imp fun h => Int.ofNat_le.mp h.le
  rw [eventsSince, hsorted.insertionSort_eq]

/-! ## What was sent -/

section Follows

variable {runId : String} {pageSize : ℤ}

/-- A script in which the run was read with this status. -/
def StatusRead (runId : String) (pageSize : ℤ) (first : World) (script : List Move)
    (status : RunStatus) : Prop :=
  ∃ before after, script = before ++ .status true :: after ∧
    ∃ row, (first.play runId pageSize before).registry.contents.findRun runId = some row ∧
      row.status = status

/-- A script in which the run was read with a terminal status, and everything that was stored
at that moment behind the starting cursor has been sent. -/
def ReadAtEnd (runId : String) (pageSize : ℤ) (first : World) (script : List Move)
    (status : RunStatus) (events : List StoredEvent) : Prop :=
  ∃ before after, script = before ++ .status true :: after ∧ status.isTerminal = true ∧
    (∃ row, (first.play runId pageSize before).registry.contents.findRun runId = some row ∧
      row.status = status) ∧
    later first.cursor ((first.play runId pageSize before).registry.contents.journalOf runId) <+:
      events

/-- A page that was read in a script, after the status: the events of it that are still to be
sent come next, and where it was not full nothing else was stored. -/
def PageRead (runId : String) (pageSize : ℤ) (first : World) (script : List Move)
    (events rest : List StoredEvent) (drained : ℕ) (status : RunStatus) : Prop :=
  ∃ before after, script = before ++ .page true :: after ∧
    StatusRead runId pageSize first before status ∧
    events ++ rest <+: later first.cursor
      ((first.play runId pageSize before).registry.contents.journalOf runId) ∧
    ((drained : ℤ) < pageSize → events ++ rest = later first.cursor
      ((first.play runId pageSize before).registry.contents.journalOf runId))

/-- What is true of a stream after a script. -/
structure Follows (runId : String) (pageSize : ℤ) (first : World) (script : List Move) (w : World) :
    Prop where
  played : first.play runId pageSize script = w
  numbered : w.registry.contents.JournalNumbered
  sent : w.events <+: later first.cursor (w.registry.contents.journalOf runId)
  cursor : w.cursor = lastSeq first.cursor w.events
  status : ∀ status, w.phase = .reading status → StatusRead runId pageSize first script status
  page : ∀ rest drained status, w.phase = .sending rest drained status →
    PageRead runId pageSize first script w.events rest drained status
  notice : ∀ status, .terminal status ∈ w.sent → w.phase = .done ∧
    w.sent.getLast? = some (.terminal status) ∧
    ReadAtEnd runId pageSize first script status w.events

variable {first w : World} {script : List Move} {move : Move} {events rest : List StoredEvent}
  {drained : ℕ} {status : RunStatus}

theorem StatusRead.concat (h : StatusRead runId pageSize first script status) (move : Move) :
    StatusRead runId pageSize first (script ++ [move]) status := by
  obtain ⟨before, after, rfl, hrow⟩ := h
  exact ⟨before, after ++ [move], by simp, hrow⟩

theorem PageRead.concat (h : PageRead runId pageSize first script events rest drained status)
    (move : Move) :
    PageRead runId pageSize first (script ++ [move]) events rest drained status := by
  obtain ⟨before, after, rfl, hpage⟩ := h
  exact ⟨before, after ++ [move], by simp, hpage⟩

theorem ReadAtEnd.concat (h : ReadAtEnd runId pageSize first script status events) (move : Move) :
    ReadAtEnd runId pageSize first (script ++ [move]) status events := by
  obtain ⟨before, after, rfl, hread⟩ := h
  exact ⟨before, after ++ [move], by simp, hread⟩

theorem World.play_concat (first : World) (script : List Move) (move : Move) :
    first.play runId pageSize (script ++ [move]) =
      (first.play runId pageSize script).step runId pageSize move := by
  rw [World.play, List.foldl_append]
  rfl

inductive Does (runId : String) (pageSize : ℤ) (w : World) : Move → World → Prop
  | operated (op : RegistryOp) :
      Does runId pageSize w (.operate op) { w with registry := w.registry.step op }
  | idle (move : Move) : Does runId pageSize w move w
  | looked (row : RunRow) (hphase : w.phase = .query)
      (hrow : w.registry.contents.findRun runId = some row) :
      Does runId pageSize w (.status true) { w with phase := .reading row.status }
  | paged (status : RunStatus) (hphase : w.phase = .reading status) :
      Does runId pageSize w (.page true) { w with
        phase := .sending (eventsSince w.registry.contents runId w.cursor pageSize)
          (eventsSince w.registry.contents runId w.cursor pageSize).length status }
  | sent (event : StoredEvent) (rest : List StoredEvent) (drained : ℕ) (status : RunStatus)
      (move : Move) (hphase : w.phase = .sending (event :: rest) drained status) :
      Does runId pageSize w move { w with
        cursor := event.seq
        phase := .sending rest drained status
        sent := w.sent ++ [.event event] }
  | ended (drained : ℕ) (status : RunStatus) (move : Move)
      (hphase : w.phase = .sending [] drained status) (hdrained : (drained : ℤ) < pageSize)
      (hstatus : status.isTerminal = true) :
      Does runId pageSize w move { w with phase := .done, sent := w.sent ++ [.terminal status] }
  | beat (move : Move) (hphase : w.phase = .waiting) :
      Does runId pageSize w move { w with phase := .query, sent := w.sent ++ [.heartbeat] }
  | moved (phase : Phase) (move : Move) (hphase : w.phase ≠ .done)
      (hnext : phase = .query ∨ phase = .waiting ∨ phase = .done) :
      Does runId pageSize w move { w with phase := phase }

theorem does_sendNext (client : Bool) (move : Move)
    (hphase : w.phase = .sending rest drained status) :
    Does runId pageSize w move (sendNext pageSize client w rest drained status) := by
  have hdone : w.phase ≠ .done := by
    rw [hphase]
    exact Phase.noConfusion
  cases rest with
  | cons event rest =>
    cases client with
    | true => exact .sent event rest drained status move hphase
    | false => exact .moved .done move hdone (.inr (.inr rfl))
  | nil =>
    rw [sendNext]
    split
    · exact .moved .query move hdone (.inl rfl)
    case isFalse hdrained =>
      split
      case isTrue hstatus =>
        cases client with
        | true => exact .ended drained status move hphase (by omega) hstatus
        | false => exact .moved .done move hdone (.inr (.inr rfl))
      · exact .moved .waiting move hdone (.inr (.inl rfl))

theorem World.does (w : World) (move : Move) :
    Does runId pageSize w move (w.step runId pageSize move) := by
  have hmoved {phase phase' : Phase} (move : Move) (hphase : w.phase = phase)
      (hdone : phase ≠ .done) (hnext : phase' = .query ∨ phase' = .waiting ∨ phase' = .done) :
      Does runId pageSize w move { w with phase := phase' } :=
    .moved phase' move (hphase ▸ hdone) hnext
  cases move with
  | operate op => exact .operated op
  | status storage =>
    unfold World.step
    dsimp only
    split
    case h_1 hphase =>
      cases storage with
      | false => exact hmoved _ hphase Phase.noConfusion (.inr (.inr rfl))
      | true =>
        cases hrow : w.registry.contents.findRun runId with
        | none => exact hmoved _ hphase Phase.noConfusion (.inr (.inr rfl))
        | some row => exact .looked row hphase hrow
    · exact .idle _
  | page storage =>
    unfold World.step
    dsimp only
    split
    case h_1 status hphase =>
      cases storage with
      | false => exact hmoved _ hphase Phase.noConfusion (.inr (.inr rfl))
      | true => exact .paged status hphase
    · exact .idle _
  | send client =>
    unfold World.step
    dsimp only
    split
    case h_1 hphase => exact does_sendNext client _ hphase
    · exact .idle _
  | wake wakeup =>
    unfold World.step
    dsimp only
    split
    case h_1 hphase =>
      split
      · exact hmoved _ hphase Phase.noConfusion (.inr (.inr rfl))
      · exact hmoved _ hphase Phase.noConfusion (.inl rfl)
    · exact .idle _
  | heartbeat client =>
    unfold World.step
    dsimp only
    split
    case h_1 hphase =>
      cases client with
      | true => exact .beat _ hphase
      | false => exact hmoved _ hphase Phase.noConfusion (.inr (.inr rfl))
    · exact .idle _

theorem Does.changes {w' : World} (h : Does runId pageSize w move w') :
    Changes w.registry w'.registry := by
  cases h with
  | operated op => exact w.registry.play_changes [op]
  | idle | looked | paged | sent | ended | beat | moved => exact .refl

theorem World.play_changes (w : World) (script : List Move) :
    Changes w.registry (w.play runId pageSize script).registry := by
  induction script generalizing w with
  | nil => exact .refl
  | cons move script ih => exact (w.does move).changes.trans (ih _)

/-- The journal behind a cursor, as it was at some point of a script, is the beginning of what
it is after the script. -/
theorem World.later_isPrefix (first : World) (before after : List Move) (cursor : ℤ) :
    later cursor ((first.play runId pageSize before).registry.contents.journalOf runId) <+:
      later cursor
        ((first.play runId pageSize (before ++ after)).registry.contents.journalOf runId) := by
  refine List.IsPrefix.filter _ (journalOf_prefix_of_changes ?_ runId)
  unfold World.play
  rw [List.foldl_append]
  exact World.play_changes _ _

theorem PageRead.isPrefix (h : PageRead runId pageSize first script events rest drained status)
    (hplayed : first.play runId pageSize script = w) :
    events ++ rest <+: later first.cursor (w.registry.contents.journalOf runId) := by
  obtain ⟨before, after, rfl, -, hprefix, -⟩ := h
  rw [← hplayed]
  exact hprefix.trans (first.later_isPrefix before _ _)

theorem limited_spec (limit : ℤ) (events : List StoredEvent) :
    limited limit events <+: events ∧
      (((limited limit events).length : ℤ) < limit → limited limit events = events) := by
  unfold limited
  split
  · exact ⟨List.prefix_refl _, fun _ => rfl⟩
  · refine ⟨List.take_prefix _ _, fun hlength => List.take_of_length_le ?_⟩
    rw [List.length_take] at hlength
    omega

theorem events_concat (frames : List Frame) (frame : Frame) :
    (frames ++ [frame]).filterMap Frame.event? =
      frames.filterMap Frame.event? ++ (frame.event?).toList := by
  rw [List.filterMap_append, List.filterMap_cons]
  cases frame.event? <;> rfl

theorem Follows.no_notice {phase : Phase} (h : Follows runId pageSize first script w)
    (hphase : w.phase = phase) (hdone : phase ≠ .done) (status : RunStatus) :
    .terminal status ∉ w.sent :=
  fun hmem => hdone (hphase.symm.trans (h.notice status hmem).1)

/-- The first notice is the frame that is sent now. -/
theorem Follows.eq_of_notice {phase : Phase} {frame : Frame}
    (h : Follows runId pageSize first script w) (hphase : w.phase = phase) (hdone : phase ≠ .done)
    (hmem : .terminal status ∈ w.sent ++ [frame]) : .terminal status = frame := by
  rcases List.mem_append.mp hmem with hmem | hmem
  · exact absurd hmem (h.no_notice hphase hdone status)
  · exact List.mem_singleton.mp hmem

theorem PageRead.next {event : StoredEvent}
    (h : PageRead runId pageSize first script events (event :: rest) drained status) :
    PageRead runId pageSize first script (events ++ [event]) rest drained status := by
  unfold PageRead at h ⊢
  rwa [List.append_assoc]

/-- A page that was not full and whose events were all sent holds everything that was stored when
it was read, and so everything that was stored when the status was read before it. -/
theorem PageRead.readAtEnd (h : PageRead runId pageSize first script events [] drained status)
    (hdrained : (drained : ℤ) < pageSize) (hstatus : status.isTerminal = true) :
    ReadAtEnd runId pageSize first script status events := by
  obtain ⟨_, later, rfl, ⟨before, after, rfl, hrow⟩, -, hall⟩ := h
  refine ⟨before, after ++ .page true :: later, by simp, hstatus, hrow, ?_⟩
  rw [← List.append_nil events, hall hdrained]
  exact first.later_isPrefix before _ _

/-- The page that is read next is what comes behind the events that were sent. -/
theorem Follows.eventsSince_eq (h : Follows runId pageSize first script w)
    (hrest : w.events ++ rest = later first.cursor (w.registry.contents.journalOf runId)) :
    eventsSince w.registry.contents runId w.cursor pageSize = limited pageSize rest := by
  obtain ⟨n, hn⟩ := exists_seq_journalOf h.numbered runId
  rw [EventStream.eventsSince_eq h.numbered, h.cursor]
  exact congrArg _ (Paging.later_lastSeq (increasing_of_seq hn) hrest.symm)

theorem Follows.pageRead (h : Follows runId pageSize first script w)
    (hphase : w.phase = .reading status) :
    PageRead runId pageSize first (script ++ [.page true]) w.events
      (eventsSince w.registry.contents runId w.cursor pageSize)
      (eventsSince w.registry.contents runId w.cursor pageSize).length status := by
  obtain ⟨rest, hrest⟩ := h.sent
  obtain ⟨hlimited, hall⟩ := limited_spec pageSize rest
  rw [h.eventsSince_eq hrest]
  refine ⟨script, [], rfl, h.status status hphase, ?_⟩
  rw [h.played, ← hrest]
  exact ⟨(List.prefix_append_right_inj _).mpr hlimited, fun hlength => by rw [hall hlength]⟩

theorem Follows.step (h : Follows runId pageSize first script w) (move : Move) :
    Follows runId pageSize first (script ++ [move]) (w.step runId pageSize move) := by
  have hplayed : first.play runId pageSize (script ++ [move]) = w.step runId pageSize move := by
    rw [World.play_concat, h.played]
  have hnumbered : (w.step runId pageSize move).registry.contents.JournalNumbered :=
    (w.does move).changes.induction (motive := fun r => r.contents.JournalNumbered) h.numbered
      fun _ _ _ hchange => hchange.journalNumbered
  have hdoes : Does runId pageSize w move (w.step runId pageSize move) := w.does move
  generalize w.step runId pageSize move = w' at hplayed hnumbered hdoes ⊢
  cases hdoes with
  | operated op =>
    have hjournal := journalOf_prefix_of_changes (w.registry.play_changes [op]) runId
    exact ⟨hplayed, hnumbered, h.sent.trans (hjournal.filter _), h.cursor,
      fun _ hphase => (h.status _ hphase).concat _,
      fun _ _ _ hphase => (h.page _ _ _ hphase).concat _,
      fun status hmem => (h.notice status hmem).imp_right (And.imp_right (·.concat _))⟩
  | idle =>
    exact ⟨hplayed, hnumbered, h.sent, h.cursor,
      fun _ hphase => (h.status _ hphase).concat _,
      fun _ _ _ hphase => (h.page _ _ _ hphase).concat _,
      fun status hmem => (h.notice status hmem).imp_right (And.imp_right (·.concat _))⟩
  | looked row hphase hrow =>
    refine ⟨hplayed, hnumbered, h.sent, h.cursor, ?_, fun _ _ _ => Phase.noConfusion,
      fun status hmem => absurd hmem (h.no_notice hphase Phase.noConfusion status)⟩
    rintro _ ⟨⟩
    exact ⟨script, [], rfl, row, h.played.symm ▸ hrow, rfl⟩
  | paged status hphase =>
    refine ⟨hplayed, hnumbered, h.sent, h.cursor, fun _ => Phase.noConfusion, ?_,
      fun status hmem => absurd hmem (h.no_notice hphase Phase.noConfusion status)⟩
    rintro _ _ _ ⟨⟩
    exact h.pageRead hphase
  | sent event rest drained status _ hphase =>
    have hpage := h.page _ _ _ hphase
    have hprefix := hpage.isPrefix h.played
    have hevents : World.events ⟨w.registry, event.seq, .sending rest drained status,
        w.sent ++ [.event event]⟩ = w.events ++ [event] := events_concat _ _
    refine ⟨hplayed, hnumbered, ?_, ?_, fun _ => Phase.noConfusion, ?_, fun status hmem => ?_⟩
    · rw [hevents]
      exact List.IsPrefix.trans ⟨rest, List.append_assoc _ _ _⟩ hprefix
    · rw [hevents, lastSeq, Paging.lastSeq_concat]
    · rintro _ _ _ ⟨⟩
      rw [hevents]
      exact hpage.next.concat _
    · cases h.eq_of_notice hphase Phase.noConfusion hmem
  | ended drained status _ hphase hdrained hstatus =>
    have hevents : World.events ⟨w.registry, w.cursor, .done, w.sent ++ [.terminal status]⟩ =
        w.events := (events_concat _ _).trans (List.append_nil _)
    refine ⟨hplayed, hnumbered, hevents ▸ h.sent, hevents ▸ h.cursor,
      fun _ => Phase.noConfusion, fun _ _ _ => Phase.noConfusion, fun status' hmem => ?_⟩
    cases h.eq_of_notice hphase Phase.noConfusion hmem
    rw [hevents]
    exact ⟨rfl, List.getLast?_concat, ((h.page _ _ _ hphase).readAtEnd hdrained hstatus).concat _⟩
  | beat _ hphase =>
    have hevents : World.events ⟨w.registry, w.cursor, .query, w.sent ++ [.heartbeat]⟩ =
        w.events := (events_concat _ _).trans (List.append_nil _)
    refine ⟨hplayed, hnumbered, hevents ▸ h.sent, hevents ▸ h.cursor,
      fun _ => Phase.noConfusion, fun _ _ _ => Phase.noConfusion, fun status hmem => ?_⟩
    cases h.eq_of_notice hphase Phase.noConfusion hmem
  | moved phase _ hphase hnext =>
    refine ⟨hplayed, hnumbered, h.sent, h.cursor, fun _ hreading => ?_, fun _ _ _ hsending => ?_,
      fun status hmem => absurd hmem (h.no_notice rfl hphase status)⟩
    · rcases hnext with rfl | rfl | rfl <;> cases hreading
    · rcases hnext with rfl | rfl | rfl <;> cases hsending

theorem Follows.play (h : Follows runId pageSize first script w) (more : List Move) :
    Follows runId pageSize first (script ++ more) (w.play runId pageSize more) := by
  induction more generalizing script w with
  | nil => rwa [List.append_nil]
  | cons move more ih =>
    have hrest := ih (h.step move)
    rwa [List.append_assoc] at hrest

theorem follows_start {registry : Registry} (hnumbered : registry.contents.JournalNumbered)
    (cursor : ℤ) : Follows runId pageSize (start registry cursor) [] (start registry cursor) where
  played := rfl
  numbered := hnumbered
  sent := List.nil_prefix
  cursor := rfl
  status _ hphase := Phase.noConfusion hphase
  page _ _ _ hphase := Phase.noConfusion hphase
  notice _ hmem := absurd hmem List.not_mem_nil

/-! ## A stream that is left alone -/

/-- What a stream does next when the client is there and the database answers. -/
def own : Phase → Move
  | .query => .status true
  | .reading _ => .page true
  | .sending _ _ _ => .send true
  | .waiting => .wake .lagged
  | .done => .heartbeat true

def World.alone (runId : String) (pageSize : ℤ) : ℕ → World → World
  | 0, w => w
  | n + 1, w => (w.step runId pageSize (own w.phase)).alone runId pageSize n

theorem World.alone_add (n m : ℕ) (w : World) :
    w.alone runId pageSize (n + m) =
      (w.alone runId pageSize n).alone runId pageSize m := by
  induction n generalizing w with
  | zero => rw [Nat.zero_add]; rfl
  | succ n ih =>
    rw [Nat.succ_add]
    exact ih _

theorem Follows.alone (h : Follows runId pageSize first script w) (n : ℕ) :
    ∃ script', Follows runId pageSize first script' (w.alone runId pageSize n) := by
  induction n generalizing script w with
  | zero => exact ⟨script, h⟩
  | succ n ih => exact ih (h.step _)

theorem World.alone_sending (runId : String) (pageSize : ℤ)
    (hphase : w.phase = .sending rest drained status) :
    (w.alone runId pageSize rest.length).events = w.events ++ rest ∧
      (w.alone runId pageSize rest.length).registry = w.registry ∧
      (w.alone runId pageSize rest.length).phase = .sending [] drained status := by
  induction rest generalizing w with
  | nil => exact ⟨(List.append_nil _).symm, rfl, hphase⟩
  | cons event rest ih =>
    have hstep : w.step runId pageSize (own w.phase) =
        ⟨w.registry, event.seq, .sending rest drained status, w.sent ++ [.event event]⟩ := by
      simp only [hphase, own, World.step]
      rfl
    have hevents : World.events ⟨w.registry, event.seq, .sending rest drained status,
        w.sent ++ [.event event]⟩ = w.events ++ [event] := events_concat _ _
    rw [List.length_cons, World.alone, hstep]
    obtain ⟨hsent, hregistry, hlast⟩ := ih (w := ⟨w.registry, event.seq,
      .sending rest drained status, w.sent ++ [.event event]⟩) rfl
    refine ⟨?_, hregistry, hlast⟩
    rw [hsent, hevents, List.append_assoc]
    rfl

theorem World.step_full (hphase : w.phase = .sending [] drained status)
    (hfull : pageSize ≤ drained) :
    w.step runId pageSize (own w.phase) = { w with phase := .query } := by
  simp only [hphase, own, World.step, sendNext, if_pos hfull]

theorem Follows.alone_query (h : Follows runId pageSize first script w) (hphase : w.phase = .query)
    {row : RunRow} (hrow : w.registry.contents.findRun runId = some row)
    (hrest : w.events ++ rest = later first.cursor (w.registry.contents.journalOf runId)) :
    ∃ n, (w.alone runId pageSize n).events = w.events ++ limited pageSize rest ∧
      (w.alone runId pageSize n).registry = w.registry ∧
      (w.alone runId pageSize n).phase =
        .sending [] (limited pageSize rest).length row.status := by
  have hlook : w.step runId pageSize (own w.phase) = { w with phase := .reading row.status } := by
    simp only [hphase, own, World.step, hrow, if_true]
  have hread : World.step runId pageSize { w with phase := .reading row.status } (.page true) =
      { w with
        phase := .sending (limited pageSize rest) (limited pageSize rest).length row.status } := by
    simp only [World.step, h.eventsSince_eq hrest, if_true]
  refine ⟨(limited pageSize rest).length + 1 + 1, ?_⟩
  rw [World.alone, hlook, World.alone, own, hread]
  exact World.alone_sending runId pageSize rfl

/-- A stream that is about to read a page sends everything that is stored, if it is left alone. -/
theorem Follows.catches_up_query (h : Follows runId pageSize first script w) (hsize : 0 < pageSize)
    (hphase : w.phase = .query) {row : RunRow}
    (hrow : w.registry.contents.findRun runId = some row)
    (hrest : w.events ++ rest = later first.cursor (w.registry.contents.journalOf runId)) :
    ∃ n, (w.alone runId pageSize n).events =
      later first.cursor (w.registry.contents.journalOf runId) := by
  -- Each page that is full leaves less to send.
  induction hlength : rest.length using Nat.strong_induction_on generalizing w script rest with
  | _ length ih =>
    obtain ⟨n, hevents, hregistry, hlast⟩ := h.alone_query hphase hrow hrest
    obtain ⟨⟨left, hleft⟩, hall⟩ := limited_spec pageSize rest
    by_cases hfull : ((limited pageSize rest).length : ℤ) < pageSize
    · exact ⟨n, by rw [hevents, hall hfull, hrest]⟩
    · obtain ⟨script', hthen⟩ := h.alone n
      have hstep : (w.alone runId pageSize n).step runId pageSize
          (own (w.alone runId pageSize n).phase) =
          { w.alone runId pageSize n with phase := .query } :=
        World.step_full hlast (Int.not_lt.mp hfull)
      have hagain := hthen.step (own (w.alone runId pageSize n).phase)
      have hshorter : left.length < length := by
        rw [← hlength, ← hleft, List.length_append]
        omega
      have hrest' : (w.alone runId pageSize n).events ++ left =
          later first.cursor ((w.alone runId pageSize n).registry.contents.journalOf runId) := by
        rw [hevents, hregistry, List.append_assoc, hleft, hrest]
      rw [hstep] at hagain
      obtain ⟨m, hm⟩ := ih left.length hshorter hagain rfl
        ((congrArg (fun r : Registry => r.contents.findRun runId) hregistry).trans hrow) hrest' rfl
      refine ⟨n + (m + 1), ?_⟩
      rw [World.alone_add, World.alone, hstep, hm]
      exact congrArg (fun r : Registry => later first.cursor (r.contents.journalOf runId)) hregistry

/-- A stream that has not returned sends everything that is stored, or the notice, if it is left
alone. -/
theorem Follows.catches_up (h : Follows runId pageSize first script w) (hsize : 0 < pageSize)
    (hphase : w.phase ≠ .done) {row : RunRow}
    (hrow : w.registry.contents.findRun runId = some row) :
    ∃ n, (w.alone runId pageSize n).events =
        later first.cursor (w.registry.contents.journalOf runId) ∨
      ∃ status, .terminal status ∈ (w.alone runId pageSize n).sent := by
  have hquery (m : ℕ) (hw : (w.alone runId pageSize m).phase = .query)
      (hregistry : (w.alone runId pageSize m).registry = w.registry) :
      ∃ n, (w.alone runId pageSize n).events =
        later first.cursor (w.registry.contents.journalOf runId) := by
    obtain ⟨script', hfollows⟩ := h.alone m
    obtain ⟨rest, hrest⟩ := hfollows.sent
    obtain ⟨n, hn⟩ := hfollows.catches_up_query hsize hw (hregistry ▸ hrow) hrest
    exact ⟨m + n, by rw [World.alone_add, hn, hregistry]⟩
  have hwaiting (m : ℕ) (hw : (w.alone runId pageSize m).phase = .waiting)
      (hregistry : (w.alone runId pageSize m).registry = w.registry) :
      ∃ n, (w.alone runId pageSize n).events =
        later first.cursor (w.registry.contents.journalOf runId) := by
    have hstep : w.alone runId pageSize (m + 1) =
        { w.alone runId pageSize m with phase := .query } := by
      rw [World.alone_add]
      simp only [World.alone, hw, own, World.step]
      rfl
    refine hquery (m + 1) (by rw [hstep]) ?_
    rw [hstep]
    exact hregistry
  have hsending (m : ℕ) {rest : List StoredEvent} {drained : ℕ} {status : RunStatus}
      (hw : (w.alone runId pageSize m).phase = .sending rest drained status)
      (hsame : (w.alone runId pageSize m).registry = w.registry) :
      ∃ n, (w.alone runId pageSize n).events =
          later first.cursor (w.registry.contents.journalOf runId) ∨
        ∃ status, .terminal status ∈ (w.alone runId pageSize n).sent := by
    obtain ⟨-, hregistry, hlast⟩ := World.alone_sending runId pageSize hw
    have hstep : w.alone runId pageSize (m + (rest.length + 1)) =
        sendNext pageSize true ((w.alone runId pageSize m).alone runId pageSize rest.length) []
          drained status := by
      rw [World.alone_add, World.alone_add]
      simp only [World.alone, hlast, own, World.step]
    rw [sendNext] at hstep
    split at hstep
    · refine (hquery _ (by rw [hstep]) ?_).imp fun _ => .inl
      rw [hstep]
      exact hregistry.trans hsame
    · split at hstep
      · refine ⟨m + (rest.length + 1), .inr ⟨status, ?_⟩⟩
        rw [hstep]
        exact List.mem_append_right _ List.mem_cons_self
      · refine (hwaiting _ (by rw [hstep]) ?_).imp fun _ => .inl
        rw [hstep]
        exact hregistry.trans hsame
  cases hw : w.phase with
  | query => exact (hquery 0 hw rfl).imp fun _ => .inl
  | waiting => exact (hwaiting 0 hw rfl).imp fun _ => .inl
  | done => exact absurd hw hphase
  | sending rest drained status => exact hsending 0 hw rfl
  | reading status =>
    have hstep : w.alone runId pageSize 1 = w.step runId pageSize (.page true) := by
      rw [World.alone, hw]
      rfl
    simp only [World.step, hw, if_true] at hstep
    exact hsending 1 (by rw [hstep]) (by rw [hstep])

end Follows

end EventStream

end Asterism
