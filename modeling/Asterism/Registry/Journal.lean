import Asterism.Registry.Calls

/-!
# The journal and the ends of runs

The events of a run carry the numbers `1` to `n` in append order, where `n` is the number the
run record gives. An ended run keeps its status. This file proves exactly which updates leave
the rest of its outcome alone.
-/

namespace Asterism

/-- The journal of every run is numbered from one to the run's counter. -/
def Tables.JournalNumbered (t : Tables) : Prop :=
  ∀ row ∈ t.runs, (t.eventsOf row.runId).map (fun event => event.seq) =
    List.range' 1 row.lastEventSeq

namespace Tables

variable {t : Tables}

/-- A change of run rows that keeps identifiers and counters keeps the numbering. -/
theorem JournalNumbered.updateRun (h : t.JournalNumbered) (runId : String) {f : RunRow → RunRow}
    (hid : ∀ row, (f row).runId = row.runId)
    (hseq : ∀ row, (f row).lastEventSeq = row.lastEventSeq) :
    (t.updateRun runId f).JournalNumbered := by
  intro row hrow
  obtain ⟨old, hold, rfl⟩ := Table.mem_updateWhere.mp hrow
  have hnumbered := h old hold
  split
  · rw [hid, hseq]
    exact hnumbered
  · exact hnumbered

theorem JournalNumbered.insertRun (h : t.JournalNumbered) {row : RunRow}
    (hfresh : t.eventsOf row.runId = []) (hseq : row.lastEventSeq = 0) :
    (t.insertRun row).JournalNumbered := by
  intro stored hstored
  rcases List.mem_append.mp hstored with hstored | hstored
  · exact h stored hstored
  · obtain rfl := List.mem_singleton.mp hstored
    rw [hseq]
    exact congrArg _ hfresh

theorem eventsOf_insertEvent (event : EventRow) (runId : String) :
    (t.insertEvent event).eventsOf runId =
      t.eventsOf runId ++ if event.runId = runId then [event] else [] := by
  simp only [eventsOf, insertEvent, List.filter_append, List.filter_cons, List.filter_nil,
    decide_eq_true_eq]

/-- Storing an event under the next number and counting it keeps the numbering. -/
theorem JournalNumbered.append (h : t.JournalNumbered) (hvalid : t.Valid) {row : RunRow}
    {event : EventRow} (hrow : t.findRun row.runId = some row) (hrun : event.runId = row.runId)
    (hseq : event.seq = row.lastEventSeq + 1) (now : ℤ) :
    ((t.insertEvent event).updateRun row.runId
      (RunRow.journalled (row.lastEventSeq + 1) now)).JournalNumbered := by
  intro stored hstored
  obtain ⟨old, hold, rfl⟩ := Table.mem_updateWhere.mp hstored
  have hnumbered := h old hold
  by_cases hid : old.runId = row.runId
  · -- The only row with this identifier is the one whose counter was read.
    have hsame : old = row :=
      hvalid.runs_primary.eq_of_mem hold (findRun_mem hrow) (congrArg some hid) rfl
    subst hsame
    simp only [decide_true, if_true]
    change ((t.insertEvent event).eventsOf old.runId).map _ = List.range' 1 (old.lastEventSeq + 1)
    rw [eventsOf_insertEvent, if_pos hrun, List.map_append, hnumbered, List.range'_concat]
    simp only [List.map_cons, List.map_nil, hseq, Nat.one_mul, Nat.add_comm 1]
  · simp only [hid, decide_false, Bool.false_eq_true, if_false]
    change ((t.insertEvent event).eventsOf old.runId).map _ = _
    rw [eventsOf_insertEvent, if_neg (by rw [hrun]; exact fun heq => hid heq.symm),
      List.append_nil]
    exact hnumbered

end Tables

theorem Change.journalNumbered {r r' : Registry} {label : Option (String × RunUpdate)}
    (hchange : Change r.contents label r'.contents) (h : r.contents.JournalNumbered) :
    r'.contents.JournalNumbered := by
  have hvalid : r.contents.Valid := r.valid
  have hvalid' : r'.contents.Valid := r'.valid
  generalize r'.contents = t' at hchange hvalid'
  cases hchange with
  | runInserted request runId now =>
    refine h.insertRun ?_ rfl
    have hfresh := (Table.unique_append_singleton.mp hvalid'.runs_primary).2 runId rfl
    refine List.filter_eq_nil_iff.mpr fun event hevent heq => ?_
    obtain ⟨row, hrow, hid⟩ := List.mem_map.mp (hvalid.events_run event hevent)
    have hrunId : event.runId = runId := of_decide_eq_true heq
    exact hfresh row hrow (congrArg some (hid.trans hrunId))
  | runUpdated runId row update now => exact h.updateRun runId (fun _ => rfl) fun _ => rfl
  | eventAppended runId row event now now' hfind hnew =>
    obtain rfl := Tables.findRun_runId hfind
    exact h.append hvalid hfind rfl rfl now'
  | policySet runId state => exact h.updateRun runId (fun _ => rfl) fun _ => rfl
  | approvalRequested | approvalDecided | approvalResolved | subscriptionsChanged
  | commandAdmitted | commandUpdated | outboxChanged => exact h

/-- The numbering holds after every sequence of operations on a numbered registry. -/
theorem Registry.play_journalNumbered {r : Registry} (h : r.contents.JournalNumbered)
    (ops : List RegistryOp) : (r.play ops).contents.JournalNumbered :=
  (r.play_changes ops).induction (motive := fun r => r.contents.JournalNumbered) h
    fun _ _ _ hchange => hchange.journalNumbered

theorem Registry.empty_journalNumbered : Registry.empty.contents.JournalNumbered := by
  intro row hrow
  cases hrow

/-- Two events of one run with the same dedupe key are the same event. -/
theorem Registry.eq_of_dedupeKey (r : Registry) {a b : EventRow} (ha : a ∈ r.contents.runEvents)
    (hb : b ∈ r.contents.runEvents) {key : String} (hrun : a.runId = b.runId)
    (hka : a.dedupeKey = some key) (hkb : b.dedupeKey = some key) : a = b := by
  have hvalid : r.contents.Valid := r.valid
  refine hvalid.events_dedupe.eq_of_mem ha hb (k := (a.runId, key)) ?_ ?_
  · rw [dedupeIndex, hka, Option.map_some]
  · rw [dedupeIndex, hkb, Option.map_some, hrun]

/-- Appending under a stored dedupe key changes nothing and reports where the event is. -/
theorem Registry.exec_appendEvent_duplicate (r : Registry) {runId key : String}
    {event : JournalEvent} {stored : EventRow} (hkey : event.dedupeKey = some key)
    (hstored : r.contents.findDuplicate runId key = some stored) (update : Option RunUpdate)
    (input : RegistryInput) :
    (RegistryCall.appendEvent runId event update).exec input r =
      (if input.storage then .ok (.duplicate stored.seq) else .error .storage, r) := by
  have hvalid : r.contents.Valid := r.valid
  have hindex : dedupeIndex stored = some (runId, key) := by simpa using List.find?_some hstored
  have hrunId : stored.runId = runId := by
    obtain ⟨_, _, hpair⟩ := Option.map_eq_some_iff.mp hindex
    exact congrArg Prod.fst hpair
  have hmem := hvalid.events_run stored (List.mem_of_find?_eq_some hstored)
  rw [hrunId] at hmem
  obtain ⟨row, hrow⟩ := Tables.findRun_isSome_iff.mpr hmem
  have htx : appendEvent input runId event update r = .ok (.duplicate stored.seq, r) := by
    unfold appendEvent
    rw [Transaction.get_bind]
    simp only [hrow, hkey, Option.bind_some, hstored]
    rfl
  unfold RegistryCall.exec
  split
  · exact Transaction.commit_ok_iff.mpr htx
  · rfl

/-- Appending with a status update the state machine forbids fails and changes nothing. -/
theorem Registry.exec_appendEvent_rejected (r : Registry) {runId : String} {row : RunRow}
    {event : JournalEvent} {update : RunUpdate} (hrow : r.contents.findRun runId = some row)
    (hnew : event.dedupeKey.bind (r.contents.findDuplicate runId) = none)
    (hrejected : validateTransition row.status (update.target row) ≠ .ok ())
    (input : RegistryInput) :
    ∃ e, (RegistryCall.appendEvent runId event (some update)).exec input r = (.error e, r) := by
  cases hexec : (RegistryCall.appendEvent runId event (some update)).exec input r with
  | mk result r' =>
    cases result with
    | error e => exact ⟨e, by rw [RegistryCall.exec_error hexec]⟩
    | ok outcome =>
      have htx : appendEvent input runId event (some update) r = .ok (outcome, r') :=
        RegistryCall.exec_ok hexec
      obtain ⟨found, hfound, ⟨_, hdup, _⟩ | ⟨_, _, ⟨hnone, _⟩ | ⟨u, hu, hvalid, _⟩⟩⟩ :=
        appendEvent_ok htx
      · rw [hnew] at hdup
        cases hdup
      · cases hnone
      · obtain rfl := Option.some.inj hu
        obtain rfl := Option.some.inj (hrow.symm.trans hfound)
        exact absurd hvalid hrejected

/-- What a reader of the journal relies on. -/
structure Registry.JournalIntact (r : Registry) : Prop where
  /-- The events of a run are numbered from one to the run's counter, in append order. -/
  numbered : ∀ row ∈ r.contents.runs,
    (r.contents.eventsOf row.runId).map (fun event => event.seq) = List.range' 1 row.lastEventSeq
  /-- Every event belongs to a run. -/
  owned : ∀ event ∈ r.contents.runEvents, ∃ row ∈ r.contents.runs, row.runId = event.runId
  /-- No two events of a run share a dedupe key. -/
  deduplicated : ∀ a ∈ r.contents.runEvents, ∀ b ∈ r.contents.runEvents, ∀ key,
    a.runId = b.runId → a.dedupeKey = some key → b.dedupeKey = some key → a = b
  /-- Appending under a stored dedupe key changes no table, whatever update comes with it. -/
  duplicate_ignored : ∀ (runId key : String) (event : JournalEvent) (stored : EventRow)
    (update : Option RunUpdate) (input : RegistryInput), event.dedupeKey = some key →
    r.contents.findDuplicate runId key = some stored →
    (RegistryCall.appendEvent runId event update).exec input r =
      (if input.storage then .ok (.duplicate stored.seq) else .error .storage, r)
  /-- Appending with a forbidden status change fails, and leaves neither the event nor the
  counter behind. -/
  rejected_undone : ∀ (runId : String) (row : RunRow) (event : JournalEvent) (update : RunUpdate)
    (input : RegistryInput), r.contents.findRun runId = some row →
    event.dedupeKey.bind (r.contents.findDuplicate runId) = none →
    validateTransition row.status (update.target row) ≠ .ok () →
    ∃ e, (RegistryCall.appendEvent runId event (some update)).exec input r = (.error e, r)

/-- The journal is intact after every sequence of registry operations, including failed
ones. -/
theorem Registry.play_journalIntact (ops : List RegistryOp) :
    (Registry.empty.play ops).JournalIntact where
  numbered := play_journalNumbered empty_journalNumbered ops
  owned := fun event hevent => by
    have hvalid : (Registry.empty.play ops).contents.Valid := (Registry.empty.play ops).valid
    exact List.mem_map.mp (hvalid.events_run event hevent)
  deduplicated := fun _ ha _ hb _ hrun hka hkb => eq_of_dedupeKey _ ha hb hrun hka hkb
  duplicate_ignored := fun _ _ _ _ update input hkey hstored =>
    exec_appendEvent_duplicate _ hkey hstored update input
  rejected_undone := fun _ _ _ _ input hrow hnew hrejected =>
    exec_appendEvent_rejected _ hrow hnew hrejected input

/-! ## Operations that succeed -/

namespace Tables

variable {t : Tables}

/-- No other run holds the backend id an update records. -/
def HermesIdFree (t : Tables) (runId : String) (update : RunUpdate) : Prop :=
  ∀ id, update.hermesRunId = some id →
    ∀ other ∈ t.runs, other.runId ≠ runId → other.hermesRunId ≠ some id

theorem HermesIdFree.appended {runId : String} {update : RunUpdate}
    (h : t.HermesIdFree runId update) (input : RegistryInput) (row : RunRow)
    (event : JournalEvent) : (t.appended input row event).HermesIdFree runId update := by
  intro id hid other hother hne
  obtain ⟨old, hold, rfl⟩ := Table.mem_updateWhere.mp hother
  by_cases hsame : decide (old.runId = row.runId) = true
  · rw [if_pos hsame] at hne ⊢
    exact h id hid old hold hne
  · rw [if_neg hsame] at hne ⊢
    exact h id hid old hold hne

/-- Changing one run keeps the schema, if identifiers, keys and retry links stay and the
backend id it has afterwards was its own or was not used. -/
theorem Valid.updateRun (h : t.Valid) (runId : String) {f : RunRow → RunRow}
    (hid : ∀ row, (f row).runId = row.runId)
    (hkey : ∀ row, idempotencyIndex (f row) = idempotencyIndex row)
    (hretry : ∀ row, (f row).retryOfRunId = row.retryOfRunId)
    (hhermes : ∀ row ∈ t.runs, row.runId = runId → ∀ id, (f row).hermesRunId = some id →
      row.hermesRunId = some id ∨ ∀ other ∈ t.runs, other.hermesRunId ≠ some id) :
    (t.updateRun runId f).Valid := by
  have hids : (t.updateRun runId f).runIds = t.runIds :=
    Table.map_updateWhere (fun row : RunRow => row.runId) hid t.runs
  constructor
  · unfold Table.Unique Tables.updateRun
    rw [Table.filterMap_updateWhere _ (fun row => by rw [hid])]
    exact h.runs_primary
  · unfold Table.Unique Tables.updateRun
    rw [Table.filterMap_updateWhere _ hkey]
    exact h.runs_idempotency
  · refine h.runs_hermesRunId.updateWhere (fun row : RunRow => row.runId) h.runs_primary runId
      (fun row hp => of_decide_eq_true hp) ?_
    exact fun row hrow hp => hhermes row hrow (of_decide_eq_true hp)
  · rw [hids]
    unfold Tables.updateRun
    rw [Table.filterMap_updateWhere _ hretry]
    exact h.runs_retryOf
  · exact h.events_primary
  · exact h.events_dedupe
  · rw [hids]
    exact h.events_run
  · exact h.approvals_primary
  · rw [hids]
    exact h.approvals_run
  · exact h.subscriptions_primary
  · rw [hids]
    exact h.subscriptions_run
  · exact h.commands_primary
  · exact h.outbox_primary

theorem JournalNumbered.next_free (h : t.JournalNumbered) {row : RunRow} (hrow : row ∈ t.runs)
    {event : EventRow} (hevent : event ∈ t.runEvents) (hrun : event.runId = row.runId) :
    event.seq ≠ row.lastEventSeq + 1 := by
  have hmem : event.seq ∈ (t.eventsOf row.runId).map fun event => event.seq :=
    List.mem_map.mpr ⟨event, List.mem_filter.mpr ⟨hevent, by simp only [hrun, decide_true]⟩, rfl⟩
  rw [h row hrow, List.mem_range'_1] at hmem
  omega

/-- Storing an event with a free number and a free dedupe key keeps the schema. -/
theorem Valid.insertEvent (h : t.Valid) (hnumbered : t.JournalNumbered) {row : RunRow}
    (hrow : t.findRun row.runId = some row) (event : EventRow) (hrun : event.runId = row.runId)
    (hseq : event.seq = row.lastEventSeq + 1)
    (hnew : event.dedupeKey.bind (t.findDuplicate row.runId) = none) :
    (t.insertEvent event).Valid where
  runs_primary := h.runs_primary
  runs_idempotency := h.runs_idempotency
  runs_hermesRunId := h.runs_hermesRunId
  runs_retryOf := h.runs_retryOf
  events_primary := by
    refine Table.unique_append_singleton.mpr ⟨h.events_primary, fun k hk old hold heq => ?_⟩
    have hpair := Prod.mk.inj (Option.some.inj (heq.trans hk.symm))
    exact hnumbered.next_free (findRun_mem hrow) hold (hpair.1.trans hrun) (hpair.2.trans hseq)
  events_dedupe := by
    refine Table.unique_append_singleton.mpr ⟨h.events_dedupe, fun k hk old hold heq => ?_⟩
    obtain ⟨key, hkey, rfl⟩ := Option.map_eq_some_iff.mp hk
    rw [hkey, Option.bind_some, ← hrun] at hnew
    have hnone := List.find?_eq_none.mp hnew old hold
    simp only [heq, decide_true, not_true] at hnone
  events_run := by
    intro stored hstored
    rcases List.mem_append.mp hstored with hstored | hstored
    · exact h.events_run stored hstored
    · rw [List.mem_singleton.mp hstored, hrun]
      exact List.mem_map.mpr ⟨row, findRun_mem hrow, rfl⟩
  approvals_primary := h.approvals_primary
  approvals_run := h.approvals_run
  subscriptions_primary := h.subscriptions_primary
  subscriptions_run := h.subscriptions_run
  commands_primary := h.commands_primary
  outbox_primary := h.outbox_primary

theorem Valid.applyUpdate (h : t.Valid) {runId : String} {update : RunUpdate}
    (hfree : t.HermesIdFree runId update) (now : ℤ) (target : RunStatus) :
    (t.updateRun runId (update.apply now target)).Valid := by
  refine h.updateRun runId (fun _ => rfl) (fun _ => rfl) (fun _ => rfl)
    fun row hrow hid id hset => ?_
  cases hupdate : update.hermesRunId with
  | none =>
    left
    simpa only [RunUpdate.apply, hupdate, Option.none_or] using hset
  | some new =>
    simp only [RunUpdate.apply, hupdate, Option.some_or, Option.some.injEq] at hset
    subst hset
    by_cases hown : row.hermesRunId = some new
    · exact Or.inl hown
    · right
      intro other hother hheld
      by_cases hsame : other.runId = runId
      · have heq : other = row := h.runs_primary.eq_of_mem hother hrow (congrArg some hsame)
          (congrArg some hid)
        exact hown (heq ▸ hheld)
      · exact hfree new hupdate other hother hsame hheld

end Tables

theorem applyUpdate_succeeds {r : Registry} {runId : String} {row : RunRow} {update : RunUpdate}
    (hrow : r.contents.findRun runId = some row)
    (hvalid : validateTransition row.status (update.target row) = .ok ())
    (hfree : r.contents.HermesIdFree runId update) (now : ℤ) :
    ∃ r', applyUpdate now runId update r = .ok ((), r') := by
  have hschema : r.contents.Valid := r.valid
  exact ⟨⟨_, hschema.applyUpdate hfree now (update.target row)⟩,
    applyUpdate_ok_iff.mpr ⟨row, hrow, hvalid, rfl⟩⟩

theorem updateRun_succeeds {r : Registry} {runId : String} {row : RunRow} {update : RunUpdate}
    (hrow : r.contents.findRun runId = some row)
    (hvalid : validateTransition row.status (update.target row) = .ok ())
    (hfree : r.contents.HermesIdFree runId update) (input : RegistryInput) :
    ∃ record r', updateRun input runId update r = .ok (record, r') := by
  obtain ⟨r', happly⟩ := applyUpdate_succeeds hrow hvalid hfree (input.clock 0)
  obtain ⟨found, hfound, _, hcontents⟩ := applyUpdate_ok_iff.mp happly
  have hid (old : RunRow) :
    (update.apply (input.clock 0) (update.target found) old).runId = old.runId := rfl
  have hfind := hcontents ▸ r.contents.findRun_updateRun runId runId hid
  rw [if_pos rfl, hfound, Option.map_some] at hfind
  refine ⟨(update.apply (input.clock 0) (update.target found) found).toRunRecord, r',
    Transaction.bind_ok_iff.mpr ⟨(), r', happly, ?_⟩⟩
  rw [Transaction.get_bind, hfind]
  rfl

/-- An append to an existing run of a numbered journal succeeds, if the update it carries
is allowed and records no other run's backend id. -/
theorem appendEvent_succeeds {r : Registry} (hnumbered : r.contents.JournalNumbered)
    {runId : String} {row : RunRow} (hrow : r.contents.findRun runId = some row)
    (event : JournalEvent) (update : Option RunUpdate)
    (hupdate : ∀ u, update = some u →
      validateTransition row.status (u.target row) = .ok () ∧ r.contents.HermesIdFree runId u)
    (input : RegistryInput) :
    ∃ outcome r', appendEvent input runId event update r = .ok (outcome, r') := by
  have hschema : r.contents.Valid := r.valid
  obtain rfl := Tables.findRun_runId hrow
  unfold appendEvent
  simp only [Transaction.get_bind, hrow]
  cases hdup : event.dedupeKey.bind (r.contents.findDuplicate row.runId) with
  | some stored => exact ⟨_, _, rfl⟩
  | none =>
    have hfirst := hschema.insertEvent hnumbered hrow
      (event.row row.runId (row.lastEventSeq + 1) (input.clock 0)) rfl rfl hdup
    have hsecond : (r.contents.appended input row event).Valid :=
      hfirst.updateRun row.runId (fun _ => rfl) (fun _ => rfl) (fun _ => rfl)
        fun _ _ _ _ hset => Or.inl hset
    cases update with
    | none =>
      exact ⟨_, _, Transaction.bind_ok_iff.mpr ⟨(), _, Transaction.write_of_valid hfirst,
        Transaction.bind_ok_iff.mpr ⟨(), _, Transaction.write_of_valid hsecond, rfl⟩⟩⟩
    | some u =>
      obtain ⟨hvalid, hfree⟩ := hupdate u rfl
      obtain ⟨r', happly⟩ := applyUpdate_succeeds (r := ⟨_, hsecond⟩)
        (Tables.findRun_appended hrow input event) hvalid (hfree.appended input row event)
        (input.clock 2)
      exact ⟨_, r', Transaction.bind_ok_iff.mpr ⟨(), _, Transaction.write_of_valid hfirst,
        Transaction.bind_ok_iff.mpr ⟨(), _, Transaction.write_of_valid hsecond,
          Transaction.bind_ok_iff.mpr ⟨(), r', happly, rfl⟩⟩⟩⟩

/-! # Ended runs -/

structure RunOutcome where
  status : RunStatus
  finishedAt : Option ℤ
  terminalReason : Option String
  errorCode : Option String
  errorMessage : Option String
  resultPayload : Option Value
  hermesRunId : Option String
  deriving DecidableEq

/-- The outcome a row records. -/
def RunRow.outcome (row : RunRow) : RunOutcome :=
  ⟨row.status, row.finishedAt, row.terminalReason, row.errorCode, row.errorMessage,
    row.resultPayload, row.hermesRunId⟩

theorem RunRow.SameRun.outcome_eq {row row' : RunRow} (h : row.SameRun row') :
    row'.outcome = row.outcome := by
  unfold SameRun at h
  rw [h]
  rfl

/-- Every outcome field the update carries is the one already stored. -/
structure RunUpdate.KeepsOutcome (update : RunUpdate) (row : RunRow) : Prop where
  hermesRunId : update.hermesRunId = none ∨ update.hermesRunId = row.hermesRunId
  terminalReason : update.terminalReason = none ∨ update.terminalReason = row.terminalReason
  errorCode : update.errorCode = none ∨ update.errorCode = row.errorCode
  errorMessage : update.errorMessage = none ∨ update.errorMessage = row.errorMessage
  resultPayload : update.resultPayload = none ∨
    (update.resultPayload.map fun payload => (Redact.redact payload).value) = row.resultPayload

private theorem or_eq_right_iff {α : Type} {a b : Option α} : a.or b = b ↔ a = none ∨ a = b := by
  cases a <;> simp

variable {row : RunRow}

/-- On a finished row, an accepted update keeps the outcome exactly if it carries only
what is stored. -/
theorem RunUpdate.apply_outcome_iff {update : RunUpdate} {now : ℤ}
    (hfinished : row.finishedAt.isSome = true) :
    (update.apply now row.status row).outcome = row.outcome ↔ update.KeepsOutcome row := by
  obtain ⟨finished, hfinished⟩ := Option.isSome_iff_exists.mp hfinished
  have hresult : (update.resultPayload.map fun payload => (Redact.redact payload).value) = none ↔
      update.resultPayload = none := Option.map_eq_none_iff
  simp only [RunRow.outcome, RunUpdate.apply, RunOutcome.mk.injEq, hfinished, Option.some_or,
    ite_self, true_and, or_eq_right_iff, hresult]
  constructor
  · rintro ⟨hreason, hcode, hmessage, hpayload, hid⟩
    exact ⟨hid, hreason, hcode, hmessage, hpayload⟩
  · rintro ⟨hid, hreason, hcode, hmessage, hpayload⟩
    exact ⟨hreason, hcode, hmessage, hpayload, hid⟩

/-- Every ended run has the time at which it ended. -/
def Tables.EndsTimed (t : Tables) : Prop :=
  ∀ row ∈ t.runs, row.status.isTerminal = true → row.finishedAt.isSome = true

/-- Changing run rows keeps the times at which runs ended, if the change does so row by row. -/
theorem Tables.EndsTimed.updateRun {t : Tables} (h : t.EndsTimed) (runId : String)
    {f : RunRow → RunRow}
    (hkeep : ∀ row, (row.status.isTerminal = true → row.finishedAt.isSome = true) →
      (f row).status.isTerminal = true → (f row).finishedAt.isSome = true) :
    (t.updateRun runId f).EndsTimed := by
  intro row hrow
  obtain ⟨old, hold, rfl⟩ := Table.mem_updateWhere.mp hrow
  split
  · exact hkeep old (h old hold)
  · exact h old hold

theorem Change.endsTimed {t t' : Tables} {label : Option (String × RunUpdate)}
    (hchange : Change t label t') (h : t.EndsTimed) : t'.EndsTimed := by
  cases hchange with
  | runInserted request runId now =>
    intro row hrow hterminal
    rcases List.mem_append.mp hrow with hrow | hrow
    · exact h row hrow hterminal
    · rw [List.mem_singleton.mp hrow] at hterminal
      cases hterminal
  | runUpdated runId found update now =>
    refine h.updateRun runId fun row _ hterminal => ?_
    have htarget : (update.target found).isTerminal = true := hterminal
    simp only [RunUpdate.apply, htarget, if_true]
    cases row.finishedAt <;> rfl
  | eventAppended runId found event now now' =>
    have hinsert : (t.insertEvent (event.row runId (found.lastEventSeq + 1) now)).EndsTimed := h
    exact hinsert.updateRun runId fun _ hrow => hrow
  | policySet runId state => exact h.updateRun runId fun _ hrow => hrow
  | approvalRequested | approvalDecided | approvalResolved | subscriptionsChanged
  | commandAdmitted | commandUpdated | outboxChanged => exact h

variable {r : Registry}

theorem Registry.play_endsTimed (h : r.contents.EndsTimed)
    (ops : List RegistryOp) : (r.play ops).contents.EndsTimed :=
  (r.play_changes ops).induction (motive := fun r => r.contents.EndsTimed) h
    fun _ _ _ hchange => hchange.endsTimed

/-- The append carries a dedupe key its run has stored. -/
def RegistryCall.IsDuplicate {α : Type} (r : Registry) : RegistryCall α → Prop
  | appendEvent runId event _ =>
    (event.dedupeKey.bind (r.contents.findDuplicate runId)).isSome = true
  | _ => False

/-- The operation writes this update to the run: the database is available, the update is
not part of a repeated delivery, the transition is allowed, and the backend id it records
belongs to no other run. -/
structure RegistryOp.Writes (op : RegistryOp) (r : Registry) (row : RunRow)
    (update : RunUpdate) : Prop where
  storage : op.input.storage = true
  carried : op.call.carriedUpdate = some (row.runId, update)
  fresh : ¬op.call.IsDuplicate r
  allowed : validateTransition row.status (update.target row) = .ok ()
  hermesIdFree : r.contents.HermesIdFree row.runId update

/-- What the operation writes to the run is what the run's outcome already holds. -/
def RegistryOp.Respects (op : RegistryOp) (r : Registry) (runId : String) : Prop :=
  ∀ row update, r.contents.findRun runId = some row → op.Writes r row update →
    update.KeepsOutcome row

/-- Every operation of a sequence respects the outcome of the run. -/
def Registry.AllRespect (runId : String) : Registry → List RegistryOp → Prop
  | _, [] => True
  | r, op :: ops => op.Respects r runId ∧ (r.step op).AllRespect runId ops

/-- A state change that was written recorded no other run's backend id. -/
theorem RegistryOp.hermesIdFree_of_written {op : RegistryOp} {row row' : RunRow}
    {update : RunUpdate} {now : ℤ} (hcarried : op.call.carriedUpdate = some (row.runId, update))
    (hrow' : (r.step op).contents.findRun row.runId = some row')
    (hwritten : (update.apply now (update.target row) row).SameRun row') :
    r.contents.HermesIdFree row.runId update := by
  intro id hid other hother hne hheld
  have hschema : r.contents.Valid := r.valid
  have hschema' : (r.step op).contents.Valid := (r.step op).valid
  -- The other run is untouched, so both rows would now hold the backend id.
  obtain ⟨other', hother', hsame⟩ :=
    op.call.exec_findRun op.input (hschema.findRun_eq_some hother)
  have hheld' : other'.hermesRunId = some id := by
    rcases hsame with hsame | ⟨u, _, hu, _⟩
    · rw [hsame.hermesRunId_eq, hheld]
    · rw [hcarried] at hu
      exact absurd (Prod.mk.inj (Option.some.inj hu)).1.symm hne
  have hown : row'.hermesRunId = some id := by
    rw [hwritten.hermesRunId_eq]
    simp only [RunUpdate.apply, hid, Option.some_or]
  have heq : other' = row' := hschema'.runs_hermesRunId.eq_of_mem (Tables.findRun_mem hother')
    (Tables.findRun_mem hrow') hheld' hown
  have hids := congrArg (fun row : RunRow => row.runId) heq
  exact hne ((Tables.findRun_runId hother').symm.trans (hids.trans (Tables.findRun_runId hrow')))

/-- A repeated delivery changes nothing. -/
theorem RegistryOp.step_of_isDuplicate (op : RegistryOp)
    (hdup : op.call.IsDuplicate r) : r.step op = r := by
  obtain ⟨call, input⟩ := op
  cases call with
  | appendEvent runId event update =>
    obtain ⟨stored, hstored⟩ := Option.isSome_iff_exists.mp hdup
    obtain ⟨key, hkey, hfind⟩ := Option.bind_eq_some_iff.mp hstored
    exact congrArg Prod.snd (r.exec_appendEvent_duplicate hkey hfind update input)
  | _ => cases hdup

/-- An operation changes a run, up to bookkeeping, exactly by the
update it writes to it. -/
theorem RegistryOp.step_findRun (op : RegistryOp) (hrow : r.contents.findRun row.runId = some row) :
    ∃ row', (r.step op).contents.findRun row.runId = some row' ∧
      (row.SameRun row' ∨ ∃ update now, op.Writes r row update ∧
        (update.apply now (update.target row) row).SameRun row') := by
  obtain ⟨row', hrow', hcases⟩ := op.call.exec_findRun op.input hrow
  refine ⟨row', hrow', ?_⟩
  rcases hcases with hsame | ⟨update, now, hcarried, hallowed, hwritten⟩
  · exact Or.inl hsame
  · have hunchanged (hr : r.step op = r) : row.SameRun row' := by
      have hfind : r.contents.findRun row.runId = some row' := by
        rw [← hr]
        exact hrow'
      rw [Option.some.inj (hrow.symm.trans hfind)]
      exact .refl row'
    by_cases hstorage : op.input.storage = true
    · by_cases hdup : op.call.IsDuplicate r
      · exact Or.inl (hunchanged (op.step_of_isDuplicate hdup))
      · exact Or.inr ⟨update, now, ⟨hstorage, hcarried, hdup, hallowed,
          hermesIdFree_of_written hcarried hrow' hwritten⟩, hwritten⟩
    · refine Or.inl (hunchanged ?_)
      unfold Registry.step RegistryCall.exec
      rw [if_neg hstorage]

/-- An operation that writes an update to a run of a numbered registry succeeds, and the
run is afterwards what the update makes of it. -/
theorem RegistryOp.step_writes {op : RegistryOp} (hnumbered : r.contents.JournalNumbered)
    {update : RunUpdate} (hrow : r.contents.findRun row.runId = some row)
    (hwrites : op.Writes r row update) :
    ∃ row' now, (r.step op).contents.findRun row.runId = some row' ∧
      (update.apply now (update.target row) row).SameRun row' := by
  obtain ⟨hstorage, hcarried, hfresh, hallowed, hfree⟩ := hwrites
  obtain ⟨call, input⟩ := op
  have happlied {t : Tables} {current : RunRow} (now : ℤ)
      (hcurrent : t.findRun row.runId = some current) :
      (t.updateRun row.runId (update.apply now (update.target row))).findRun row.runId =
        some (update.apply now (update.target row) current) := by
    have hid (old : RunRow) : (update.apply now (update.target row) old).runId = old.runId := rfl
    rw [Tables.findRun_updateRun _ _ _ hid, if_pos rfl, hcurrent, Option.map_some]
  cases call with
  | updateRun runId u =>
    obtain ⟨rfl, rfl⟩ := Prod.mk.inj (Option.some.inj hcarried)
    obtain ⟨record, r', hupdate⟩ := updateRun_succeeds hrow hallowed hfree input
    obtain ⟨found, hfound, _, hcontents⟩ := applyUpdate_ok_iff.mp (updateRun_ok hupdate).1
    obtain rfl := Option.some.inj (hrow.symm.trans hfound)
    have hexec : (RegistryCall.updateRun row.runId u).exec input r = (.ok record, r') :=
      RegistryCall.exec_of_transaction hstorage hupdate
    have hstep : r.step ⟨.updateRun row.runId u, input⟩ = r' := congrArg Prod.snd hexec
    rw [hstep, hcontents]
    exact ⟨_, input.clock 0, happlied _ hrow, .refl _⟩
  | appendEvent runId event carried =>
    cases carried with
    | none => cases hcarried
    | some u =>
      obtain ⟨rfl, rfl⟩ := Prod.mk.inj (Option.some.inj hcarried)
      obtain ⟨outcome, r', happend⟩ := appendEvent_succeeds hnumbered hrow event (some u)
        (fun v hv => by cases hv; exact ⟨hallowed, hfree⟩) input
      have hexec : (RegistryCall.appendEvent row.runId event (some u)).exec input r =
        (.ok outcome, r') := RegistryCall.exec_of_transaction hstorage happend
      have hstep : r.step ⟨.appendEvent row.runId event (some u), input⟩ = r' :=
        congrArg Prod.snd hexec
      obtain ⟨found, hfound, ⟨stored, hdup, _⟩ | ⟨_, _, ⟨hnone, _⟩ | ⟨v, hv, _, hcontents⟩⟩⟩ :=
        appendEvent_ok happend
      · exact absurd (Option.isSome_iff_exists.mpr ⟨stored, hdup⟩) hfresh
      · cases hnone
      · obtain rfl := Option.some.inj hv
        obtain rfl := Option.some.inj (hrow.symm.trans hfound)
        rw [hstep, hcontents]
        refine ⟨_, input.clock 2, happlied _ (Tables.findRun_appended hrow input event), ?_⟩
        exact (RunRow.SameRun.journalled row _ _).apply u _ _
  | _ => cases hcarried

/-- The outcome of an ended run survives one operation exactly if the operation respects it. -/
theorem RegistryOp.respects_iff (op : RegistryOp) (hnumbered : r.contents.JournalNumbered)
    (htimed : r.contents.EndsTimed) (hrow : r.contents.findRun row.runId = some row)
    (hterminal : row.status.isTerminal = true) :
    (∃ row', (r.step op).contents.findRun row.runId = some row' ∧ row'.outcome = row.outcome) ↔
      op.Respects r row.runId := by
  have hfinished := htimed row (Tables.findRun_mem hrow) hterminal
  constructor
  · rintro ⟨row', hrow', houtcome⟩ found update hfound hwrites
    obtain rfl := Option.some.inj (hrow.symm.trans hfound)
    obtain ⟨written, now, hwritten, hsame⟩ := op.step_writes hnumbered hrow hwrites
    obtain rfl := Option.some.inj (hrow'.symm.trans hwritten)
    rw [hsame.outcome_eq, eq_of_validateTransition hterminal hwrites.allowed] at houtcome
    exact (RunUpdate.apply_outcome_iff hfinished).mp houtcome
  · intro hrespects
    obtain ⟨row', hrow', hsame | ⟨update, now, hwrites, hsame⟩⟩ := op.step_findRun hrow
    · exact ⟨row', hrow', hsame.outcome_eq⟩
    · refine ⟨row', hrow', ?_⟩
      rw [hsame.outcome_eq, eq_of_validateTransition hterminal hwrites.allowed]
      exact (RunUpdate.apply_outcome_iff hfinished).mpr (hrespects row update hrow hwrites)

/-- The outcome of an ended run is the same after every operation of a sequence exactly if
every operation respects it. -/
theorem Registry.outcome_kept_iff (hnumbered : r.contents.JournalNumbered)
    (htimed : r.contents.EndsTimed) (hrow : r.contents.findRun row.runId = some row)
    (hterminal : row.status.isTerminal = true) (ops : List RegistryOp) :
    (∀ n, ∃ row', (r.play (ops.take n)).contents.findRun row.runId = some row' ∧
        row'.outcome = row.outcome) ↔
      r.AllRespect row.runId ops := by
  induction ops generalizing r row with
  | nil =>
    simp only [List.take_nil]
    exact ⟨fun _ => trivial, fun _ _ => ⟨row, hrow, rfl⟩⟩
  | cons op ops ih =>
    -- The run after the first operation is again an ended run with this outcome.
    have hnext {row' : RunRow} (hrow' : (r.step op).contents.findRun row.runId = some row')
        (houtcome : row'.outcome = row.outcome) :
        (∀ n, ∃ last, ((r.step op).play (ops.take n)).contents.findRun row.runId = some last ∧
            last.outcome = row.outcome) ↔ (r.step op).AllRespect row.runId ops := by
      have hid := Tables.findRun_runId hrow'
      have hstatus : row'.status = row.status := congrArg RunOutcome.status houtcome
      have hih := ih (r.play_journalNumbered hnumbered [op]) (r.play_endsTimed htimed [op])
        (hid.symm ▸ hrow') (hstatus.symm ▸ hterminal)
      rw [hid, houtcome] at hih
      exact hih
    constructor
    · intro hkept
      obtain ⟨row', hrow', houtcome⟩ := hkept 1
      refine ⟨(op.respects_iff hnumbered htimed hrow hterminal).mp ⟨row', hrow', houtcome⟩, ?_⟩
      exact (hnext hrow' houtcome).mp fun n => hkept (n + 1)
    · rintro ⟨hrespects, hrest⟩ n
      obtain ⟨row', hrow', houtcome⟩ :=
        (op.respects_iff hnumbered htimed hrow hterminal).mpr hrespects
      cases n with
      | zero => exact ⟨row, hrow, rfl⟩
      | succ n => exact (hnext hrow' houtcome).mpr hrest n

/-- In every registry that operations can produce, the outcome of an ended run stays as it
is through a further sequence of operations exactly if each of them respects it. -/
theorem Registry.play_outcome_kept_iff (history later : List RegistryOp) {row : RunRow}
    (hrow : (Registry.empty.play history).contents.findRun row.runId = some row)
    (hterminal : row.status.isTerminal = true) :
    (∀ n, ∃ row', ((Registry.empty.play history).play (later.take n)).contents.findRun row.runId =
        some row' ∧ row'.outcome = row.outcome) ↔
      (Registry.empty.play history).AllRespect row.runId later := by
  have htimed : Registry.empty.contents.EndsTimed := by
    intro stored hstored
    cases hstored
  exact outcome_kept_iff (play_journalNumbered empty_journalNumbered history)
    (play_endsTimed htimed history) hrow hterminal later

def failedRun : List RegistryOp :=
  let input : RegistryInput := ⟨fun _ => 0, "arun_1", true⟩
  [⟨.createRun ⟨"project", none, none, "hermes", none, none, .null, none⟩, input⟩,
    ⟨.updateRun "arun_1" ((RunUpdate.ofStatus .failed).withTerminalReason "out of disk"), input⟩]

/-- A later change that carries no status but a reason of its own. -/
def lateReason : RegistryOp :=
  ⟨.updateRun "arun_1" { terminalReason := some "cancelled" }, ⟨fun _ => 1, "", true⟩⟩

/-- The later change replaces the reason for which an ended run ended. -/
theorem Registry.terminalReason_overwritten :
    ((Registry.empty.play failedRun).contents.findRun "arun_1").map RunRow.outcome =
        some ⟨.failed, some 0, some "out of disk", none, none, none, none⟩ ∧
      ((Registry.empty.play (failedRun ++ [lateReason])).contents.findRun "arun_1").map
          RunRow.outcome =
        some ⟨.failed, some 0, some "cancelled", none, none, none, none⟩ := by
  decide

/-- The exact condition, at the failed run and the later change. -/
theorem Registry.failedRun_outcome_kept_iff :
    ∃ row : RunRow,
      (Registry.empty.play failedRun).contents.findRun row.runId = some row ∧
      row.status.isTerminal = true ∧
      ((∀ n, ∃ row', ((Registry.empty.play failedRun).play ([lateReason].take n)).contents.findRun
          row.runId = some row' ∧ row'.outcome = row.outcome) ↔
        (Registry.empty.play failedRun).AllRespect row.runId [lateReason]) := by
  have hstored : ((Registry.empty.play failedRun).contents.findRun "arun_1").map
      (fun row => row.status) = some .failed := by decide
  obtain ⟨row, hrow, hstatus⟩ := Option.map_eq_some_iff.mp hstored
  rw [← Tables.findRun_runId hrow] at hrow
  have hterminal : row.status.isTerminal = true := by rw [hstatus]; rfl
  exact ⟨row, hrow, hterminal, play_outcome_kept_iff failedRun [lateReason] hrow hterminal⟩

end Asterism
