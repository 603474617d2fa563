import Asterism.ControlPlane.Channel
import Asterism.Sorting.Stable

/-!
# The events a browser receives

A browser follows a run: the stored events behind its position are read in batches and written, and
the position moves to the last one that was written. Events of a run become stored in any order. One
that fills a gap behind the position is never read, and one that is stored after the last batch was
read is not read either, if the run has ended.
-/

namespace Asterism.ControlPlane.EventFeed

open Paging (lastSeq lastSeq_append lastSeq_concat le_lastSeq cursor_le_lastSeq)

def stored (db : Database) (runId : String) : List EventRecord :=
  db.events.filter fun event => event.runId = runId

/-- The query of the stream: the events of a run behind a position, in order. -/
def later (db : Database) (runId : String) (afterSeq : ℤ) : List EventRecord :=
  Sorting.sortBy EventRecord.seq (Paging.later EventRecord.seq afterSeq (stored db runId))

/-- `productEventsRepo.since`, for a run of the organization. -/
def since (db : Database) (runId : String) (afterSeq : ℤ) (limit : ℕ) : List EventRecord :=
  (later db runId afterSeq).take limit

inductive Frame
  | event (event : EventRecord)
  | heartbeat
  deriving DecidableEq

def Frame.event? : Frame → Option EventRecord
  | event e => some e
  | heartbeat => none

/-- Where the loop of the stream is. -/
inductive Phase
  | check
  /-- The browser may still read the run. -/
  | read
  | write (batch : List EventRecord)
  /-- A batch was written, which was empty or not. -/
  | status (empty : Bool)
  /-- There was nothing to write. -/
  | wait
  | ended
  deriving DecidableEq

structure World where
  db : Database
  position : ℤ
  phase : Phase
  sent : List Frame
  deriving DecidableEq

inductive Move
  | store (event : EventRecord)
  | settle (status : String)
  /-- The session of the browser is looked up; it still belongs to the organization or not. -/
  | check (live : Bool)
  | read
  | write
  | status
  | wake
  /-- The browser goes away, or a query fails. -/
  | cut

def start (db : Database) (cursor : ℤ) : World := ⟨db, cursor, .check, []⟩

namespace World

section Steps

variable (nodeId runId : String) (batchSize : ℕ)

/-- One step of the tables or of the route `GET /api/v1/runs/:runId/events/stream`. A step that is
not due does nothing, and what happens after the end of the stream is not looked at. -/
def step (w : World) (move : Move) : World :=
  match w.phase, move with
  | .ended, _ => w
  | _, .store event =>
    { w with db := w.db.insertEvent { event with nodeId := nodeId, runId := runId } }
  | _, .settle status =>
    { w with db := w.db.updateRun runId fun run => { run with status := status } }
  | _, .cut => { w with phase := .ended }
  | .check, .check live => { w with phase := if live then .read else .ended }
  | .read, .read => { w with phase := .write (since w.db runId w.position batchSize) }
  | .write batch, .write =>
    { w with position := lastSeq EventRecord.seq w.position batch
             phase := .status batch.isEmpty
             sent := w.sent ++ batch.map .event }
  | .status empty, .status =>
    if empty then
      if (w.db.runById runId).any fun run => run.status ∈ terminalRunStatuses then
        { w with phase := .ended }
      else { w with phase := .wait, sent := w.sent ++ [.heartbeat] }
    else { w with phase := .check }
  | .wait, .wake => { w with phase := .check }
  | _, _ => w

def play (w : World) (script : List Move) : World := script.foldl (step nodeId runId batchSize) w

end Steps

def events (w : World) : List EventRecord := w.sent.filterMap Frame.event?

/-- The events that were read and are to be written. -/
def pending (w : World) : List EventRecord :=
  match w.phase with
  | .write batch => batch
  | _ => []

/-- The events that were read. -/
def taken (w : World) : List EventRecord := w.events ++ w.pending

/-- The event that is stored comes before the cursor, or is stored already, or is ahead of all that
was read. -/
def Timely (runId : String) (cursor : ℤ) (w : World) : Move → Prop
  | .store event =>
    event.seq ≤ cursor ∨ event.seq ∈ (stored w.db runId).map EventRecord.seq ∨
      lastSeq EventRecord.seq cursor w.taken < event.seq
  | _ => True

instance decidableTimely (runId : String) (cursor : ℤ) (w : World) :
    DecidablePred (w.Timely runId cursor)
  | .store event => inferInstanceAs (Decidable (event.seq ≤ cursor ∨
      event.seq ∈ (stored w.db runId).map EventRecord.seq ∨
        lastSeq EventRecord.seq cursor w.taken < event.seq))
  | .settle _ | .check _ | .read | .write | .status | .wake | .cut => .isTrue trivial

/-- Every event is stored in time, until the stream ends. -/
def Punctual (nodeId runId : String) (batchSize : ℕ) (cursor : ℤ) : World → List Move → Prop
  | _, [] => True
  | w, move :: script =>
    (w.phase = .ended ∨ w.Timely runId cursor move) ∧
      Punctual nodeId runId batchSize cursor (w.step nodeId runId batchSize move) script

instance decidablePunctual (nodeId runId : String) (batchSize : ℕ) (cursor : ℤ) :
    (w : World) → DecidablePred (Punctual nodeId runId batchSize cursor w)
  | _, [] => .isTrue trivial
  | w, move :: script =>
    have := decidablePunctual nodeId runId batchSize cursor
      (w.step nodeId runId batchSize move) script
    inferInstanceAs (Decidable (_ ∧ _))

/-! ## What one step does -/

inductive Change (nodeId runId : String) (batchSize : ℕ) (move : Move) (w w' : World) : Prop
  | idle (hdb : stored w'.db runId = stored w.db runId) (hevents : w'.events = w.events)
      (htaken : w'.taken = w.taken) (hposition : w'.position = w.position)
      (hended : w.phase = .ended → w'.phase = .ended)
  | store (event : EventRecord) (hmove : move = .store event) (hended : w.phase ≠ .ended)
      (hnew : event.seq ∉ (stored w.db runId).map EventRecord.seq)
      (hdb : stored w'.db runId =
        stored w.db runId ++ [{ event with nodeId := nodeId, runId := runId }])
      (hevents : w'.events = w.events) (htaken : w'.taken = w.taken)
      (hposition : w'.position = w.position)
  | read (hdb : stored w'.db runId = stored w.db runId) (hevents : w'.events = w.events)
      (hbefore : w.taken = w.events)
      (htaken : w'.taken = w.events ++ since w.db runId w.position batchSize)
      (hposition : w'.position = w.position) (hended : w.phase ≠ .ended)
  | write (hdb : stored w'.db runId = stored w.db runId) (hevents : w'.events = w.taken)
      (htaken : w'.taken = w.taken)
      (hposition : w'.position = lastSeq EventRecord.seq w.position w.pending)
      (hended : w.phase ≠ .ended)
  | cut (hdb : stored w'.db runId = stored w.db runId) (hevents : w'.events = w.events)
      (htaken : w'.taken = w.events) (hposition : w'.position = w.position)
      (hended : w'.phase = .ended)

section Changes

variable {nodeId runId : String} {batchSize : ℕ} {w : World} {move : Move}

/-- An event is stored behind the others, unless there is one with its number. -/
theorem stored_insertEvent {db : Database} (hnode : ∀ row ∈ stored db runId, row.nodeId = nodeId)
    (event : EventRecord) :
    event.seq ∈ (stored db runId).map EventRecord.seq ∧
      db.insertEvent { event with nodeId := nodeId, runId := runId } = db ∨
    event.seq ∉ (stored db runId).map EventRecord.seq ∧
      stored (db.insertEvent { event with nodeId := nodeId, runId := runId }) runId =
        stored db runId ++ [{ event with nodeId := nodeId, runId := runId }] := by
  have hkey : db.events.any (fun row => Database.eventKey row =
      Database.eventKey { event with nodeId := nodeId, runId := runId }) = true ↔
      event.seq ∈ (stored db runId).map EventRecord.seq := by
    rw [List.any_eq_true, List.mem_map]
    constructor
    · rintro ⟨row, hrow, hsame⟩
      have hsame := of_decide_eq_true hsame
      simp only [Database.eventKey, Prod.mk.injEq] at hsame
      exact ⟨row, List.mem_filter.mpr ⟨hrow, decide_eq_true hsame.2.1⟩, hsame.2.2⟩
    · rintro ⟨row, hrow, hseq⟩
      obtain ⟨hmem, hrun⟩ := List.mem_filter.mp hrow
      refine ⟨row, hmem, decide_eq_true ?_⟩
      rw [Database.eventKey, Database.eventKey, hnode row hrow, of_decide_eq_true hrun, hseq]
  unfold Database.insertEvent
  by_cases hseq : event.seq ∈ (stored db runId).map EventRecord.seq
  · exact .inl ⟨hseq, if_pos (hkey.mpr hseq)⟩
  · refine .inr ⟨hseq, ?_⟩
    rw [if_neg fun h => hseq (hkey.mp h), stored, List.filter_append]
    congr 1
    exact List.filter_cons_of_pos (decide_eq_true rfl)

theorem change_phase {phase : Phase} (hpending : w.pending = [])
    (hphase : World.pending { w with phase := phase } = []) (hended : w.phase ≠ .ended) :
    Change nodeId runId batchSize move w { w with phase := phase } := by
  refine .idle rfl rfl ?_ rfl fun h => absurd h hended
  rw [taken, taken, hpending, hphase]
  rfl

theorem step_change (hnode : ∀ row ∈ stored w.db runId, row.nodeId = nodeId) :
    Change nodeId runId batchSize move w (w.step nodeId runId batchSize move) := by
  unfold step
  split
  · exact .idle rfl rfl rfl rfl id
  case h_2 event hended =>
    rcases stored_insertEvent hnode event with ⟨-, hsame⟩ | ⟨hnew, hdb⟩
    · rw [hsame]
      exact .idle rfl rfl rfl rfl id
    · exact .store event rfl hended hnew hdb rfl rfl rfl
  · exact .idle rfl rfl rfl rfl id
  · exact .cut rfl rfl (List.append_nil _) rfl rfl
  case h_5 live hphase =>
    refine change_phase (by rw [pending, hphase]) ?_ (by rw [hphase]; nofun)
    cases live <;> rfl
  case h_6 hphase =>
    refine .read rfl rfl ?_ rfl rfl (by rw [hphase]; nofun)
    rw [taken, pending, hphase, List.append_nil]
  case h_7 batch hphase =>
    have hpending : w.pending = batch := by rw [pending, hphase]
    have hevents : (w.sent ++ batch.map Frame.event).filterMap Frame.event? = w.taken := by
      rw [taken, hpending, List.filterMap_append, List.filterMap_map]
      exact congrArg _ List.filterMap_some
    exact .write rfl hevents ((List.append_nil _).trans hevents) (by rw [hpending])
      (by rw [hphase]; nofun)
  case h_8 empty hphase =>
    have hnone : w.pending = [] := by rw [pending, hphase]
    have hended : w.phase ≠ .ended := by rw [hphase]; nofun
    split
    · split
      · exact change_phase hnone rfl hended
      · have hevents : (w.sent ++ [Frame.heartbeat]).filterMap Frame.event? = w.events := by
          rw [List.filterMap_append]
          exact List.append_nil _
        refine .idle rfl hevents ?_ rfl fun h => absurd h hended
        rw [taken, taken, hnone, ← hevents]
        rfl
    · exact change_phase hnone rfl hended
  case h_9 hphase =>
    exact change_phase (by rw [pending, hphase]) rfl (by rw [hphase]; nofun)
  · exact .idle rfl rfl rfl rfl id

end Changes

/-! ## What was read -/

/-- The events that were read are in order and behind the cursor. -/
structure Ordered (nodeId runId : String) (cursor : ℤ) (w : World) : Prop where
  node : ∀ row ∈ stored w.db runId, row.nodeId = nodeId
  distinct : ((stored w.db runId).map EventRecord.seq).Nodup
  position : w.position = lastSeq EventRecord.seq cursor w.events
  increasing : w.taken.Pairwise fun a b => a.seq < b.seq
  behind : ∀ event ∈ w.taken, cursor < event.seq
  known : ∀ event ∈ w.taken, event ∈ stored w.db runId

/-- Every stored event up to the last one that was read was read. -/
def Covered (runId : String) (cursor : ℤ) (w : World) : Prop :=
  ∀ event ∈ stored w.db runId, cursor < event.seq →
    event.seq ≤ lastSeq EventRecord.seq cursor w.taken →
    event ∈ w.taken

/-- The event is stored and will not be sent. -/
structure Lost (runId : String) (cursor : ℤ) (event : EventRecord) (w : World) : Prop where
  stored : event ∈ stored w.db runId
  unread : event ∉ w.taken
  passed : w.phase = .ended ∨ event.seq ≤ lastSeq EventRecord.seq cursor w.taken

section Runs

variable {nodeId runId : String} {batchSize : ℕ} {cursor : ℤ} {w w' : World} {move : Move}
  {event : EventRecord}

theorem mem_later {db : Database} {after : ℤ} :
    event ∈ later db runId after ↔ event ∈ EventFeed.stored db runId ∧ after < event.seq := by
  rw [later, List.mem_insertionSort, Paging.mem_later]

theorem mem_since {db : Database} {after : ℤ} (h : event ∈ since db runId after batchSize) :
    event ∈ EventFeed.stored db runId ∧ after < event.seq :=
  mem_later.mp (List.mem_of_mem_take h)

theorem pairwise_later {db : Database} (after : ℤ)
    (h : ((EventFeed.stored db runId).map EventRecord.seq).Nodup) :
    (later db runId after).Pairwise fun a b => a.seq < b.seq := by
  have hnodup : ((later db runId after).map EventRecord.seq).Nodup :=
    ((List.perm_insertionSort _ _).map _).nodup_iff.mpr (h.sublist (List.filter_sublist.map _))
  have hsorted := (Sorting.pairwise_sortBy EventRecord.seq _).and (List.pairwise_map.mp hnodup)
  exact hsorted.imp fun h => lt_of_le_of_ne h.1 h.2

theorem mem_since_of_le {db : Database} {after : ℤ}
    (h : ((EventFeed.stored db runId).map EventRecord.seq).Nodup)
    (hstored : event ∈ EventFeed.stored db runId) (hafter : after < event.seq)
    (hle : event.seq ≤ lastSeq EventRecord.seq after (since db runId after batchSize)) :
    event ∈ since db runId after batchSize := by
  have hsplit : later db runId after =
      since db runId after batchSize ++ (later db runId after).drop batchSize :=
    (List.take_append_drop _ _).symm
  have hsorted := pairwise_later after h
  have hmem : event ∈ later db runId after := mem_later.mpr ⟨hstored, hafter⟩
  rw [hsplit] at hsorted hmem
  refine (List.mem_append.mp hmem).resolve_right fun hrest => ?_
  rcases List.eq_nil_or_concat' (since db runId after batchSize) with hnil | ⟨front, last, hlast⟩
  · rw [hnil] at hle
    exact absurd hafter (not_lt.mpr hle)
  · rw [hlast] at hsorted hle
    rw [lastSeq_concat] at hle
    refine absurd hle (not_le.mpr ?_)
    exact (List.pairwise_append.mp hsorted).2.2 last
      (List.mem_append_right _ List.mem_cons_self) event hrest

theorem Ordered.change (h : Ordered nodeId runId cursor w)
    (hchange : Change nodeId runId batchSize move w w') : Ordered nodeId runId cursor w' := by
  cases hchange with
  | idle hdb hevents htaken hposition hended =>
    exact ⟨hdb ▸ h.node, hdb ▸ h.distinct, by rw [hposition, hevents, h.position],
      htaken ▸ h.increasing, htaken ▸ h.behind, by rw [htaken, hdb]; exact h.known⟩
  | store event hmove hended hnew hdb hevents htaken hposition =>
    refine ⟨?_, ?_, by rw [hposition, hevents, h.position], htaken ▸ h.increasing,
      htaken ▸ h.behind, ?_⟩
    · rw [hdb]
      exact List.forall_mem_append.mpr ⟨h.node, List.forall_mem_singleton.mpr rfl⟩
    · rw [hdb, List.map_append, List.map_singleton, ← List.concat_eq_append]
      exact h.distinct.concat hnew
    · rw [htaken, hdb]
      exact fun row hrow => List.mem_append_left _ (h.known row hrow)
  | read hdb hevents hbefore htaken hposition hended =>
    have hincreasing := h.increasing
    rw [hbefore] at hincreasing
    refine ⟨hdb ▸ h.node, hdb ▸ h.distinct, by rw [hposition, hevents, h.position], ?_, ?_, ?_⟩
    · rw [htaken, List.pairwise_append]
      refine ⟨hincreasing, (pairwise_later _ h.distinct).sublist (List.take_sublist _ _),
        fun old hold new hnew => ?_⟩
      exact (h.position ▸ le_lastSeq hincreasing hold).trans_lt (mem_since hnew).2
    · rw [htaken]
      refine List.forall_mem_append.mpr ⟨hbefore ▸ h.behind, fun new hnew => ?_⟩
      refine lt_of_le_of_lt ?_ (mem_since hnew).2
      rw [h.position]
      exact cursor_le_lastSeq (hbefore ▸ h.behind)
    · rw [htaken, hdb]
      exact List.forall_mem_append.mpr ⟨hbefore ▸ h.known, fun new hnew => (mem_since hnew).1⟩
  | write hdb hevents htaken hposition hended =>
    refine ⟨hdb ▸ h.node, hdb ▸ h.distinct, ?_, htaken ▸ h.increasing, htaken ▸ h.behind,
      by rw [htaken, hdb]; exact h.known⟩
    rw [hposition, hevents, taken, lastSeq_append, h.position]
  | cut hdb hevents htaken hposition hended =>
    have hsublist : w.events.Sublist w.taken := List.sublist_append_left _ _
    refine ⟨hdb ▸ h.node, hdb ▸ h.distinct, by rw [hposition, hevents, h.position],
      htaken ▸ h.increasing.sublist hsublist, ?_, ?_⟩
    · rw [htaken]
      exact fun event hevent => h.behind event (hsublist.subset hevent)
    · rw [htaken, hdb]
      exact fun event hevent => h.known event (hsublist.subset hevent)

theorem Ordered.step (h : Ordered nodeId runId cursor w) (batchSize : ℕ) (move : Move) :
    Ordered nodeId runId cursor (w.step nodeId runId batchSize move) :=
  h.change (step_change h.node)

/-- Nothing is left behind by a change that stores an event in time. -/
theorem Covered.change (h : Covered runId cursor w) (hordered : Ordered nodeId runId cursor w)
    (htimely : w.phase = .ended ∨ w.Timely runId cursor move)
    (hchange : Change nodeId runId batchSize move w w') : Covered runId cursor w' := by
  cases hchange with
  | idle hdb hevents htaken hposition hended =>
    rw [Covered, hdb, htaken]
    exact h
  | store event hmove hended hnew hdb hevents htaken hposition =>
    rw [Covered, hdb, htaken]
    refine List.forall_mem_append.mpr ⟨h, List.forall_mem_singleton.mpr fun hcursor hle => ?_⟩
    subst hmove
    rcases htimely.resolve_left hended with hbefore | hstored | hahead
    · exact absurd hcursor (not_lt.mpr hbefore)
    · exact absurd hstored hnew
    · exact absurd hle (not_le.mpr hahead)
  | read hdb hevents hbefore htaken hposition hended =>
    rw [Covered, hdb, htaken, lastSeq_append, ← hordered.position]
    intro event hstored hcursor hle
    by_cases hread : event.seq ≤ w.position
    · refine List.mem_append_left _ (hbefore ▸ h event hstored hcursor ?_)
      rwa [hbefore, ← hordered.position]
    · exact List.mem_append_right _
        (mem_since_of_le hordered.distinct hstored (not_le.mp hread) hle)
  | write hdb hevents htaken hposition hended =>
    rw [Covered, hdb, htaken]
    exact h
  | cut hdb hevents htaken hposition hended =>
    rw [Covered, hdb, htaken]
    intro event hstored hcursor hle
    rcases List.eq_nil_or_concat' w.events with hnil | ⟨front, last, hlast⟩
    · rw [hnil] at hle
      exact absurd hcursor (not_lt.mpr hle)
    · rw [hlast, lastSeq_concat] at hle
      have hmem : last ∈ w.events := hlast ▸ List.mem_append_right _ List.mem_cons_self
      have hread : event ∈ w.taken := h event hstored hcursor
        (hle.trans (le_lastSeq hordered.increasing (List.mem_append_left _ hmem)))
      refine (List.mem_append.mp hread).resolve_right fun hpending => ?_
      exact absurd hle (not_le.mpr
        ((List.pairwise_append.mp hordered.increasing).2.2 last hmem event hpending))

theorem Lost.change (h : Lost runId cursor event w) (hordered : Ordered nodeId runId cursor w)
    (hchange : Change nodeId runId batchSize move w w') : Lost runId cursor event w' := by
  cases hchange with
  | idle hdb hevents htaken hposition hended =>
    exact ⟨hdb ▸ h.stored, htaken ▸ h.unread, h.passed.imp hended fun hle => htaken ▸ hle⟩
  | store other hmove hended hnew hdb hevents htaken hposition =>
    refine ⟨?_, htaken ▸ h.unread, .inr (htaken ▸ h.passed.resolve_left hended)⟩
    rw [hdb]
    exact List.mem_append_left _ h.stored
  | read hdb hevents hbefore htaken hposition hended =>
    have hpassed := h.passed.resolve_left hended
    rw [hbefore, ← hordered.position] at hpassed
    refine ⟨hdb ▸ h.stored, ?_, .inr ?_⟩
    · rw [htaken, List.mem_append, ← hbefore]
      rintro (hread | hbatch)
      · exact h.unread hread
      · exact absurd (mem_since hbatch).2 (not_lt.mpr hpassed)
    · rw [htaken, lastSeq_append, ← hordered.position]
      exact hpassed.trans (cursor_le_lastSeq fun new hnew => (mem_since hnew).2)
  | write hdb hevents htaken hposition hended =>
    exact ⟨hdb ▸ h.stored, htaken ▸ h.unread, .inr (htaken ▸ h.passed.resolve_left hended)⟩
  | cut hdb hevents htaken hposition hended =>
    refine ⟨hdb ▸ h.stored, ?_, .inl hended⟩
    rw [htaken]
    exact fun hsent => h.unread (List.mem_append_left _ hsent)

theorem Ordered.play (h : Ordered nodeId runId cursor w) (script : List Move) :
    Ordered nodeId runId cursor (w.play nodeId runId batchSize script) := by
  induction script generalizing w with
  | nil => exact h
  | cons move script ih => exact ih (h.step batchSize move)

theorem Lost.play (h : Lost runId cursor event w) (hordered : Ordered nodeId runId cursor w)
    (script : List Move) : Lost runId cursor event (w.play nodeId runId batchSize script) := by
  induction script generalizing w with
  | nil => exact h
  | cons move script ih =>
    exact ih (h.change hordered (step_change hordered.node)) (hordered.step batchSize move)

/-- Nothing is left behind by a script in which every event is stored in time. -/
theorem Covered.play (h : Covered runId cursor w) (hordered : Ordered nodeId runId cursor w)
    {script : List Move} (hpunctual : Punctual nodeId runId batchSize cursor w script) :
    Covered runId cursor (w.play nodeId runId batchSize script) := by
  induction script generalizing w with
  | nil => exact h
  | cons move script ih =>
    exact ih (h.change hordered hpunctual.1 (step_change hordered.node))
      (hordered.step batchSize move) hpunctual.2

/-- An event that is not stored in time is lost. -/
theorem lost_of_late (hordered : Ordered nodeId runId cursor w) (hended : w.phase ≠ .ended)
    (hlate : ¬ w.Timely runId cursor (.store event)) :
    Lost runId cursor { event with nodeId := nodeId, runId := runId }
      (w.step nodeId runId batchSize (.store event)) := by
  obtain ⟨-, hnew, hpassed⟩ := (not_or.trans (and_congr_right' not_or)).mp hlate
  have hstep : w.step nodeId runId batchSize (.store event) =
      { w with db := w.db.insertEvent { event with nodeId := nodeId, runId := runId } } := by
    rw [step.eq_def]
    cases hphase : w.phase with
    | ended => exact absurd hphase hended
    | check | read | write | status | wait => rfl
  rcases stored_insertEvent hordered.node event with ⟨hold, -⟩ | ⟨-, hdb⟩
  · exact absurd hold hnew
  · rw [hstep]
    refine ⟨?_, fun hread => hnew ?_, .inr (not_lt.mp hpassed)⟩
    · rw [hdb]
      exact List.mem_append_right _ List.mem_cons_self
    · exact List.mem_map.mpr ⟨_, hordered.known _ hread, rfl⟩

/-- A script that stores an event too late loses it. -/
theorem exists_lost (hordered : Ordered nodeId runId cursor w) {script : List Move}
    (hlate : ¬ Punctual nodeId runId batchSize cursor w script) :
    ∃ event, cursor < event.seq ∧
      Lost runId cursor event (w.play nodeId runId batchSize script) := by
  induction script generalizing w with
  | nil => exact absurd trivial hlate
  | cons move script ih =>
    by_cases hfirst : w.phase = .ended ∨ w.Timely runId cursor move
    · exact ih (hordered.step batchSize move) fun hrest => hlate ⟨hfirst, hrest⟩
    · obtain ⟨hended, hlate⟩ := not_or.mp hfirst
      cases move with
      | store event =>
        refine ⟨_, ?_, (lost_of_late hordered hended hlate).play
          (hordered.step batchSize _) script⟩
        exact not_le.mp fun hle => hlate (.inl hle)
      | settle | check | read | write | status | wake | cut => exact absurd trivial hlate

theorem nodup_seq {db : Database} (hvalid : db.Valid)
    (hnode : ∀ row ∈ EventFeed.stored db runId, row.nodeId = nodeId) :
    ((EventFeed.stored db runId).map EventRecord.seq).Nodup := by
  have hkeys : (db.events.map Database.eventKey).Nodup := by
    have hunique := hvalid.events_unique
    unfold Table.Unique at hunique
    rwa [List.filterMap_eq_map'] at hunique
  have hrows := (List.pairwise_map.mp hkeys).sublist
    (List.filter_sublist : (EventFeed.stored db runId).Sublist db.events)
  refine List.pairwise_map.mpr (hrows.imp_of_mem fun {a b} ha hb hne hseq => hne ?_)
  rw [Database.eventKey, Database.eventKey, hnode a ha, hnode b hb, hseq,
    of_decide_eq_true (List.mem_filter.mp ha).2, of_decide_eq_true (List.mem_filter.mp hb).2]

theorem ordered_start {db : Database} (hvalid : db.Valid)
    (hnode : ∀ row ∈ EventFeed.stored db runId, row.nodeId = nodeId) (cursor : ℤ) :
    Ordered nodeId runId cursor (start db cursor) where
  node := hnode
  distinct := nodup_seq hvalid hnode
  position := rfl
  increasing := .nil
  behind := nofun
  known := nofun

end Runs

end World

/-- Events are sent in order and once each. Until the stream ends they are all sent exactly if each
of them is stored in time and at the end none is ahead of the position. -/
theorem sent_exact (db : Database) (hvalid : db.Valid) (nodeId runId : String)
    (hnode : ∀ row ∈ stored db runId, row.nodeId = nodeId) (batchSize : ℕ) (cursor : ℤ)
    (script : List Move) (w : World)
    (hplayed : (start db cursor).play nodeId runId batchSize script = w) :
    w.events.Pairwise (fun a b => a.seq < b.seq) ∧
    (∀ event ∈ w.events, event ∈ stored w.db runId ∧ cursor < event.seq) ∧
    (w.phase = .ended →
      ((∀ event ∈ stored w.db runId, cursor < event.seq → event ∈ w.events) ↔
        World.Punctual nodeId runId batchSize cursor (start db cursor) script ∧
          ∀ event ∈ stored w.db runId, event.seq ≤ w.position)) := by
  have hstart := World.ordered_start hvalid hnode cursor
  have hordered : World.Ordered nodeId runId cursor w := hplayed ▸ hstart.play script
  have hsublist : w.events.Sublist w.taken := List.sublist_append_left _ _
  have hevents := hordered.increasing.sublist hsublist
  refine ⟨hevents, fun event hevent => ?_, fun hended => ?_⟩
  · exact ⟨hordered.known event (hsublist.subset hevent),
      hordered.behind event (hsublist.subset hevent)⟩
  have htaken : w.taken = w.events := by
    rw [World.taken, World.pending, hended, List.append_nil]
  constructor
  · intro hall
    refine ⟨?_, fun event hstored => ?_⟩
    · by_contra hlate
      obtain ⟨event, hcursor, hlost⟩ := World.exists_lost hstart hlate
      rw [hplayed] at hlost
      exact hlost.unread (htaken ▸ hall event hlost.stored hcursor)
    · rw [hordered.position]
      by_cases hcursor : cursor < event.seq
      · exact le_lastSeq hevents (hall event hstored hcursor)
      · exact (not_lt.mp hcursor).trans (cursor_le_lastSeq (htaken ▸ hordered.behind))
  · rintro ⟨hpunctual, hposition⟩ event hstored hcursor
    have hcovered : World.Covered runId cursor w := by
      rw [← hplayed]
      refine World.Covered.play (fun event _ hcursor hle => ?_) hstart hpunctual
      exact absurd hcursor (not_lt.mpr hle)
    rw [← htaken]
    refine hcovered event hstored hcursor ?_
    rw [htaken, ← hordered.position]
    exact hposition event hstored

def finishedRun : Database where
  commands := []
  runs := [{ runId := "r1", nodeId := "n1", projectId := "p1", nodeRunId := some "x1",
             status := "completed", startedAt := none, finishedAt := none, terminalReason := none,
             errorCode := none, errorMessage := none, lastEventSeq := 0, ackedEventSeq := 0,
             createCommandId := none, subscribed := false, model := none }]
  events := []

def sampleEvent (seq : ℤ) : EventRecord :=
  ⟨"n1", "r1", seq, "p1", "message.delta", none, .null, none⟩

def round : List Move := [.check true, .read, .write, .status]

/-- The second event is stored and sent before the first one, which is never sent. -/
theorem gap_never_sent :
    let w := (start finishedRun 0).play "n1" "r1" 100
      (.store (sampleEvent 2) :: round ++ .store (sampleEvent 1) :: round)
    w.phase = .ended ∧ sampleEvent 1 ∈ stored w.db "r1" ∧ w.events = [sampleEvent 2] := by
  decide

/-- Two events that are stored in order are both sent. -/
theorem sent_in_order :
    let w := (start finishedRun 0).play "n1" "r1" 100
      (.store (sampleEvent 1) :: .store (sampleEvent 2) :: round ++ round)
    w.phase = .ended ∧ ∀ event ∈ stored w.db "r1", 0 < event.seq → event ∈ w.events := by
  exact ⟨by decide, ((sent_exact finishedRun (by decide) "n1" "r1" (by decide) 100 0
    (.store (sampleEvent 1) :: .store (sampleEvent 2) :: round ++ round) _ rfl).2.2
    (by decide)).mpr ⟨by decide, by decide⟩⟩

end Asterism.ControlPlane.EventFeed
