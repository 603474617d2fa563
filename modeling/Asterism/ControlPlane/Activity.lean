import Asterism.ControlPlane.Updates

/-!
# What moves an update

A stored operation only moves forward: its sequence number and its bar never fall, and the bar is
full only once the operation has succeeded. A stored operation is active when a report about it is
recorded. A sweep judges by the activity it has read and writes by the stage it has read, so a
report that comes in between and leaves the stage as it is does not stop the sweep.
-/

namespace Asterism.ControlPlane

/-- The bar is full only when the operation has succeeded. -/
def UpdateOperationRecord.Short (row : UpdateOperationRecord) : Prop :=
  row.percent < 100 ∨ row.stage = .succeeded

/-- What an event can make of a stored operation. The operation is active only when it ends, when
the Node accepts it, and when it is heard of. -/
structure UpdateOperationRecord.Moves (now : ℕ) (heard : Prop)
    (row row' : UpdateOperationRecord) : Prop where
  lastSeq : row.lastSeq ≤ row'.lastSeq
  percent : row.percent ≤ row'.percent
  short : row.Short → row'.Short
  activity : row'.updatedAt = row.updatedAt ∧ row'.stage = row.stage ∨
    row'.updatedAt = now ∧ (row'.stage.isTerminal = true ∨
      row.stage = .queued ∧ row'.stage = .accepted ∨ row'.stage ≠ .queued ∧ heard)

/-- What a report applies is longer by its number, does not move the bar back and does not fill
it. -/
theorem decideUpdateProgress_advances {current : UpdateOperationRecord} {report : ProgressReport}
    {progress : AppliedProgress} (h : decideUpdateProgress current report = .apply progress) :
    current.lastSeq < report.seq ∧ current.percent ≤ progress.percent ∧
      (current.percent < 100 → progress.percent < 100) ∧ progress.stage ≠ .queued := by
  unfold decideUpdateProgress at h
  split at h
  · cases h
  · rename_i hnews
    refine ⟨Nat.lt_of_not_le hnews, ?_⟩
    split at h
    · cases h
    · split at h
      · cases h
        exact ⟨Nat.le_refl _, id, UpdateStage.noConfusion⟩
      · split at h
        · split at h
          · cases h
            exact ⟨Nat.le_refl _, id, UpdateStage.noConfusion⟩
          · cases h
            exact ⟨Nat.le_max_left _ _, fun hshort => Nat.max_lt.mpr ⟨hshort, by decide⟩,
              UpdateStage.noConfusion⟩
        · cases h
          refine ⟨Nat.le_max_left _ _, fun hshort => Nat.max_lt.mpr ⟨hshort, ?_⟩, ?_⟩
          · unfold percentForUpdate awaitingReconnectPercent
            split <;> omega
          · dsimp only
            cases report.state <;> decide

namespace Updates

/-- A report about the operation was recorded at this time. -/
def Heard (w : Updates) (operationId : String) (t : ℕ) : Prop :=
  ∃ event ∈ w.events, event.operationId = operationId ∧ event.recordedAt = t

/-- The row that a sweep has read compared with the one that is stored. -/
structure Aged (w : Updates) (read row : UpdateOperationRecord) : Prop where
  updatedAt : read.updatedAt ≤ row.updatedAt
  cause : row.updatedAt = read.updatedAt ∧ row.stage = read.stage ∨
    row.stage ≠ .queued ∧ (w.Heard read.operationId row.updatedAt ∨ read.stage = .queued ∨
      row.stage.isTerminal = true)

/-- The rows, the histories and the sweeps in progress agree about what happened when. -/
structure Dated (w : Updates) : Prop where
  past : ∀ id row, w.byId id = some row → row.updatedAt ≤ w.now
  short : ∀ id row, w.byId id = some row → row.Short
  events : ∀ event ∈ w.events, ∃ row, w.byId event.operationId = some row ∧
    event.recordedAt ≤ row.updatedAt ∧ event.seq ≤ row.lastSeq
  sweeps : ∀ sweep ∈ w.sweeps, ∀ read ∈ sweep.remaining,
    ∃ row, w.byId read.operationId = some row ∧ w.Aged read row

def after (w : Updates) (elapsed : ℕ) : Updates := { w with now := w.now + elapsed }

/-- The later state is dated, and every stored operation moved. -/
structure Advances (w w' : Updates) : Prop where
  dated : w'.Dated
  now : w'.now = w.now
  events : w.events ⊆ w'.events
  moves : ∀ id row, w.byId id = some row → ∃ row', w'.byId id = some row' ∧
    row.Moves w'.now (w'.Heard id w'.now) row'

section Steps

variable {w w' w'' : Updates}

theorem moves_refl (now : ℕ) (heard : Prop) (row : UpdateOperationRecord) :
    row.Moves now heard row :=
  ⟨Nat.le_refl _, Nat.le_refl _, id, .inl ⟨rfl, rfl⟩⟩

theorem moves_trans {now : ℕ} {heard heard' : Prop} {row row' row'' : UpdateOperationRecord}
    (h : row.Moves now heard row') (h' : row'.Moves now heard' row'') (hheard : heard → heard') :
    row.Moves now heard' row'' := by
  refine ⟨Nat.le_trans h.lastSeq h'.lastSeq, Nat.le_trans h.percent h'.percent,
    h'.short ∘ h.short, ?_⟩
  rcases h.activity with ⟨hsame, hstage⟩ | ⟨hnow, hcause⟩
  · rw [← hsame, ← hstage]
    exact h'.activity
  · rcases h'.activity with ⟨hsame', hstage'⟩ | ⟨hnow', hcause'⟩
    · rw [hsame', hstage']
      exact .inr ⟨hnow, hcause.imp_right (Or.imp_right (And.imp_right hheard))⟩
    · refine .inr ⟨hnow', ?_⟩
      rcases hcause' with hended | ⟨hqueued, _⟩ | hheard'
      · exact .inl hended
      · -- Nothing leads back to the queue.
        rcases hcause with hended | ⟨_, haccepted⟩ | ⟨hnot, _⟩
        · rw [hqueued] at hended
          exact absurd hended Bool.false_ne_true
        · rw [hqueued] at haccepted
          cases haccepted
        · exact absurd hqueued hnot
      · exact .inr (.inr hheard')

theorem updatedAt_le_of_moves {heard : Prop} {row row' : UpdateOperationRecord}
    (h : row.Moves w.now heard row') (hpast : row.updatedAt ≤ w.now) :
    row.updatedAt ≤ row'.updatedAt := by
  rcases h.activity with ⟨hsame, _⟩ | ⟨hnow, _⟩
  · exact Nat.le_of_eq hsame.symm
  · exact hnow ▸ hpast

theorem Aged.moves {read row row' : UpdateOperationRecord} (h : w.Aged read row)
    (hmoves : row.Moves w'.now (w'.Heard read.operationId w'.now) row')
    (hpast : row.updatedAt ≤ w'.now) (hevents : w.events ⊆ w'.events) : w'.Aged read row' := by
  refine ⟨Nat.le_trans h.updatedAt (updatedAt_le_of_moves hmoves hpast), ?_⟩
  rcases hmoves.activity with ⟨hsame, hstage⟩ | ⟨hnow, hended | ⟨hqueued, haccepted⟩ | hheard⟩
  · rw [hsame, hstage]
    refine h.cause.imp_right (And.imp_right (Or.imp_left ?_))
    rintro ⟨event, hevent, hheard⟩
    exact ⟨event, hevents hevent, hheard⟩
  · refine .inr ⟨fun hstage => ?_, .inr (.inr hended)⟩
    rw [hstage] at hended
    exact absurd hended Bool.false_ne_true
  · have hread : read.stage = .queued := by
      rcases h.cause with ⟨_, hstage⟩ | ⟨hnot, _⟩
      · exact hstage ▸ hqueued
      · exact absurd hqueued hnot
    refine .inr ⟨fun hstage => ?_, .inr (.inl hread)⟩
    rw [haccepted] at hstage
    cases hstage
  · exact .inr ⟨hheard.1, .inl (hnow ▸ hheard.2)⟩

theorem Dated.write (hw : w.Dated) {id : String} {p : UpdateOperationRecord → Bool}
    {f : UpdateOperationRecord → UpdateOperationRecord}
    (hoperations : w'.operations = (w.updateOperation id p f).operations)
    (hid : ∀ row, (f row).operationId = row.operationId) (hnow : w'.now = w.now)
    (hsweeps : ∀ sweep ∈ w'.sweeps, ∃ old ∈ w.sweeps, sweep.remaining ⊆ old.remaining)
    (hevents : w.events ⊆ w'.events)
    (hnew : ∀ event ∈ w'.events, event ∈ w.events ∨ event.operationId = id ∧
      ∃ row, w.byId id = some row ∧ p row = true ∧ event.recordedAt ≤ (f row).updatedAt ∧
        event.seq ≤ (f row).lastSeq)
    (hmoves : ∀ row, w.byId id = some row → p row = true →
      row.Moves w'.now (w'.Heard id w'.now) (f row)) : w.Advances w' := by
  have hbyId : ∀ i, w'.byId i = (w.byId i).map fun row =>
      if row.operationId = id ∧ p row = true then f row else row := by
    intro i
    rw [← byId_updateOperation hid, byId, hoperations, byId]
  have hforward : ∀ i row, w.byId i = some row → ∃ row', w'.byId i = some row' ∧
      row.Moves w'.now (w'.Heard i w'.now) row' := by
    intro i row hrow
    refine ⟨_, by rw [hbyId, hrow, Option.map_some], ?_⟩
    split
    · rename_i hmatch
      obtain rfl := (byId_operationId hrow).symm.trans hmatch.1
      exact hmoves row hrow hmatch.2
    · exact moves_refl _ _ row
  have hback : ∀ i row', w'.byId i = some row' → ∃ row, w.byId i = some row ∧
      row.Moves w'.now (w'.Heard i w'.now) row' := by
    intro i row' hrow'
    obtain ⟨row, hrow, _⟩ := Option.map_eq_some_iff.mp ((hbyId i).symm.trans hrow')
    obtain ⟨found, hfound, hmove⟩ := hforward i row hrow
    obtain rfl := Option.some.inj (hrow'.symm.trans hfound)
    exact ⟨row, hrow, hmove⟩
  have hpast : ∀ i row, w.byId i = some row → row.updatedAt ≤ w'.now :=
    fun i row hrow => hnow ▸ hw.past i row hrow
  refine ⟨⟨fun i row' hrow' => ?_, fun i row' hrow' => ?_, fun event hevent => ?_,
    fun sweep hsweep read hread => ?_⟩, hnow, hevents, hforward⟩
  · obtain ⟨row, hrow, hmove⟩ := hback i row' hrow'
    rcases hmove.activity with ⟨hsame, _⟩ | ⟨hlate, _⟩
    · exact hsame ▸ hpast i row hrow
    · exact Nat.le_of_eq hlate
  · obtain ⟨row, hrow, hmove⟩ := hback i row' hrow'
    exact hmove.short (hw.short i row hrow)
  · rcases hnew event hevent with hold | ⟨hsame, row, hrow, hp, hrecorded, hseq⟩
    · obtain ⟨row, hrow, hrecorded, hseq⟩ := hw.events event hold
      obtain ⟨row', hrow', hmove⟩ := hforward _ row hrow
      have hactive := updatedAt_le_of_moves hmove (hpast _ row hrow)
      exact ⟨row', hrow', Nat.le_trans hrecorded hactive, Nat.le_trans hseq hmove.lastSeq⟩
    · refine ⟨f row, ?_, hrecorded, hseq⟩
      rw [hsame, hbyId, hrow, Option.map_some, if_pos ⟨byId_operationId hrow, hp⟩]
  · obtain ⟨old, hold, hsub⟩ := hsweeps sweep hsweep
    obtain ⟨row, hrow, haged⟩ := hw.sweeps old hold read (hsub hread)
    obtain ⟨row', hrow', hmove⟩ := hforward _ row hrow
    exact ⟨row', hrow', haged.moves hmove (hpast _ row hrow) hevents⟩

theorem Dated.of_same (hw : w.Dated) (hnow : w.now ≤ w'.now)
    (hoperations : w'.operations = w.operations) (hevents : w'.events = w.events)
    (hsweeps : ∀ sweep ∈ w'.sweeps, ∀ read ∈ sweep.remaining,
      ∃ row, w.byId read.operationId = some row ∧ w.Aged read row) : w'.Dated := by
  have hbyId : ∀ i, w'.byId i = w.byId i := fun i => by rw [byId, hoperations, byId]
  refine ⟨fun i row hrow => ?_, fun i row hrow => hw.short i row (hbyId i ▸ hrow),
    fun event hevent => ?_, fun sweep hsweep read hread => ?_⟩
  · exact Nat.le_trans (hw.past i row (hbyId i ▸ hrow)) hnow
  · rw [hbyId]
    exact hw.events event (hevents ▸ hevent)
  · obtain ⟨row, hrow, haged⟩ := hsweeps sweep hsweep read hread
    refine ⟨row, (hbyId _).trans hrow, haged.updatedAt, ?_⟩
    have hcause := haged.cause
    unfold Heard at hcause ⊢
    rwa [hevents]

theorem Dated.advances_of_same (hw : w.Dated) (hnow : w'.now = w.now)
    (hoperations : w'.operations = w.operations) (hevents : w'.events = w.events)
    (hsweeps : ∀ sweep ∈ w'.sweeps, ∀ read ∈ sweep.remaining,
      ∃ row, w.byId read.operationId = some row ∧ w.Aged read row) : w.Advances w' := by
  refine ⟨hw.of_same (Nat.le_of_eq hnow.symm) hoperations hevents hsweeps, hnow,
    fun event hevent => hevents ▸ hevent, fun i row hrow => ⟨row, ?_, moves_refl _ _ row⟩⟩
  rwa [byId, hoperations]

theorem Advances.trans (h : w.Advances w') (h' : w'.Advances w'') : w.Advances w'' := by
  refine ⟨h'.dated, h'.now.trans h.now, fun _ hevent => h'.events (h.events hevent),
    fun id row hrow => ?_⟩
  obtain ⟨row', hrow', hmoves⟩ := h.moves id row hrow
  obtain ⟨row'', hrow'', hmoves'⟩ := h'.moves id row' hrow'
  rw [← h'.now] at hmoves
  refine ⟨row'', hrow'', moves_trans hmoves hmoves' ?_⟩
  rintro ⟨event, hevent, hheard⟩
  exact ⟨event, h'.events hevent, hheard⟩

theorem insertEvent_events (w : Updates) (event : UpdateEventRecord) :
    (w.insertEvent event).sweeps = w.sweeps ∧ w.events ⊆ (w.insertEvent event).events ∧
      ∀ found ∈ (w.insertEvent event).events, found ∈ w.events ∨ found = event := by
  unfold insertEvent
  split
  · exact ⟨rfl, fun _ h => h, fun _ h => .inl h⟩
  · exact ⟨rfl, List.subset_append_left _ _, fun _ h => by simpa using h⟩

theorem mem_insertEvent {event : UpdateEventRecord}
    (hnew : ∀ old ∈ w.events, old.operationId = event.operationId → old.seq ≠ event.seq) :
    event ∈ (w.insertEvent event).events := by
  unfold insertEvent
  rw [if_neg]
  · exact List.mem_append_right _ List.mem_cons_self
  · intro hany
    obtain ⟨old, hold, hsame⟩ := List.any_eq_true.mp hany
    rw [decide_eq_true_eq] at hsame
    exact hnew old hold hsame.1 hsame.2

theorem moves_ended {row : UpdateOperationRecord} (hshort : row.Short)
    (hlive : row.stage.isTerminal = false) (outcome : UpdateOutcome)
    (reportedVersion : Option String) (now : ℕ) (heard : Prop) :
    row.Moves now heard (row.ended outcome row.percent reportedVersion now).counted := by
  have hpercent : row.percent < 100 := by
    rcases hshort with hpercent | hstage
    · exact hpercent
    · rw [hstage] at hlive
      cases hlive
  cases outcome with
  | succeeded =>
    exact ⟨Nat.le_succ _, Nat.le_of_lt hpercent, fun _ => .inr rfl, .inr ⟨rfl, .inl rfl⟩⟩
  | failed code message =>
    exact ⟨Nat.le_succ _, Nat.le_refl _, fun _ => .inl hpercent, .inr ⟨rfl, .inl rfl⟩⟩

theorem settle_events (w : Updates) (operation : UpdateOperationRecord) (outcome : UpdateOutcome)
    (reportedVersion : Option String) :
    (w.settle operation outcome reportedVersion).sweeps = w.sweeps ∧
      w.events ⊆ (w.settle operation outcome reportedVersion).events ∧
      ∀ event ∈ (w.settle operation outcome reportedVersion).events, event ∈ w.events ∨
        event.operationId = operation.operationId ∧ event.seq = operation.lastSeq + 1 ∧
          event.recordedAt = w.now := by
  unfold settle
  dsimp only [updateOperation]
  obtain ⟨hsweeps, hevents, hnew⟩ := insertEvent_events _ _
  refine ⟨hsweeps, hevents, fun event hevent => (hnew event hevent).imp_right ?_⟩
  rintro rfl
  exact ⟨rfl, rfl, rfl⟩

theorem Dated.settle (hw : w.Dated) {operation : UpdateOperationRecord}
    (hfind : w.byId operation.operationId = some operation)
    (hlive : operation.stage.isTerminal = false) (outcome : UpdateOutcome)
    (reportedVersion : Option String) :
    w.Advances (w.settle operation outcome reportedVersion) := by
  obtain ⟨hnow, _, hoperations⟩ := settle_frame w operation outcome reportedVersion
  obtain ⟨hsweeps, hevents, hnew⟩ := settle_events w operation outcome reportedVersion
  refine hw.write hoperations (fun _ => rfl) hnow
    (fun sweep hsweep => ⟨sweep, hsweeps ▸ hsweep, fun _ h => h⟩) hevents
    (fun event hevent => ?_) fun row hrow _ => ?_
  · refine (hnew event hevent).imp_right fun ⟨hid, hseq, hrecorded⟩ => ?_
    exact ⟨hid, operation, hfind, rfl, Nat.le_of_eq hrecorded, Nat.le_of_eq hseq⟩
  · obtain rfl := Option.some.inj (hfind.symm.trans hrow)
    rw [hnow]
    exact moves_ended (hw.short _ _ hfind) hlive outcome reportedVersion w.now _

theorem Dated.insertProgress (hw : w.Dated) {report : ProgressReport}
    {current : UpdateOperationRecord} {progress : AppliedProgress} {event : UpdateEventRecord}
    (hfind : w.byId report.operationId = some current)
    (hdecision : decideUpdateProgress current report = .apply progress)
    (hid : event.operationId = report.operationId) (hnumber : event.seq = report.seq)
    (hrecorded : event.recordedAt = w.now) :
    w.Advances ((w.updateOperation report.operationId (fun _ => true) fun row =>
      row.progressed progress report w.now).insertEvent event) := by
  obtain ⟨hseq, hpercent, hshort, hstage⟩ := decideUpdateProgress_advances hdecision
  have hlive := (decideUpdateProgress_apply hdecision).1
  obtain ⟨hnow, hoperations, _⟩ := insertEvent_frame
    (w.updateOperation report.operationId (fun _ => true) fun row =>
      row.progressed progress report w.now) event
  obtain ⟨hsweeps, hevents, hnew⟩ := insertEvent_events
    (w.updateOperation report.operationId (fun _ => true) fun row =>
      row.progressed progress report w.now) event
  refine hw.write hoperations (fun _ => rfl) hnow
    (fun sweep hsweep => ⟨sweep, hsweeps ▸ hsweep, fun _ h => h⟩) hevents
    (fun found hfound => ?_) fun row hrow _ => ?_
  · rcases hnew found hfound with hold | rfl
    · exact .inl hold
    · exact .inr ⟨hid, current, hfind, rfl, Nat.le_of_eq hrecorded, Nat.le_of_eq hnumber⟩
  · obtain rfl := Option.some.inj (hfind.symm.trans hrow)
    refine ⟨Nat.le_of_lt hseq, hpercent, fun hrow => .inl (hshort ?_),
      .inr ⟨hnow.symm, .inr (.inr ⟨hstage, event, mem_insertEvent fun old hold hsame => ?_, hid,
        hrecorded.trans hnow.symm⟩)⟩⟩
    · refine hrow.resolve_right fun hsucceeded => ?_
      rw [hsucceeded] at hlive
      cases hlive
    · -- The history holds no number above the last one.
      obtain ⟨row, hrow, _, hle⟩ := hw.events old hold
      rw [hsame, hid, hfind] at hrow
      cases hrow
      omega

theorem Dated.recordProgress (hw : w.Dated) (report : ProgressReport) :
    w.Advances (w.recordProgress report).2 := by
  have hsame : w.Advances w := hw.advances_of_same rfl rfl rfl hw.sweeps
  unfold Updates.recordProgress
  split
  · exact hsame
  · rename_i current hfind
    split
    · rename_i progress hdecision
      exact hw.insertProgress hfind hdecision rfl rfl rfl
    · exact hsame
    · exact hsame

theorem Dated.completeIfVerified (hw : w.Dated) (operationId : String)
    (session : Option UpdateSession) :
    w.Advances (w.completeIfVerified operationId session) := by
  have hsame : w.Advances w := hw.advances_of_same rfl rfl rfl hw.sweeps
  unfold Updates.completeIfVerified
  split
  · exact hsame
  · rename_i operation hfind
    split
    · rename_i outcome hverdict
      refine hw.settle ?_ (resolveCompletion_settled hverdict).1 outcome _
      rwa [byId_operationId hfind]
    · exact hsame

theorem Dated.handleUpdateProgress (hw : w.Dated) (session : UpdateSession)
    (report : ProgressReport) : w.Advances (w.handleUpdateProgress session report) := by
  have hsame : w.Advances w := hw.advances_of_same rfl rfl rfl hw.sweeps
  have hrecord := hw.recordProgress report
  unfold Updates.handleUpdateProgress
  split
  · exact hsame
  · split
    · exact hsame
    · split
      · rename_i recorded hreport
        rwa [hreport] at hrecord
      · rename_i ended recorded hreport
        rw [hreport] at hrecord
        split
        · exact hrecord.trans (hrecord.dated.completeIfVerified _ _)
        · exact hrecord

theorem Dated.resolveOnReconnect (hw : w.Dated)
    (hfound : ∀ row ∈ w.operations, w.byId row.operationId = some row) (nodeId : String)
    (reportedVersion : Option String) :
    w.Advances (w.resolveOnReconnect nodeId reportedVersion) := by
  have hsame : w.Advances w := hw.advances_of_same rfl rfl rfl hw.sweeps
  unfold Updates.resolveOnReconnect
  split
  · exact hsame
  · rename_i operation hfind
    split
    · rename_i outcome hverdict
      exact hw.settle (hfound operation (List.mem_of_find?_eq_some hfind))
        (resolveReconnect_settled hverdict).1 outcome _
    · exact hsame

theorem Dated.create (hw : w.Dated) (operationId nodeId requestedVersion : String) :
    w.Advances (w.create operationId nodeId requestedVersion) := by
  unfold Updates.create
  split
  · exact hw.advances_of_same rfl rfl rfl hw.sweeps
  · have hkept : ∀ i row new, w.byId i = some row →
        Updates.byId { w with operations := w.operations ++ [new] } i = some row := by
      intro i row new hrow
      unfold byId at hrow ⊢
      rw [List.find?_append, hrow]
      rfl
    have hback : ∀ i row new,
        Updates.byId { w with operations := w.operations ++ [new] } i = some row →
          w.byId i = some row ∨ row = new := by
      intro i row new hrow
      unfold byId at hrow ⊢
      rw [List.find?_append, Option.or_eq_some_iff] at hrow
      exact hrow.imp_right fun h => List.mem_singleton.mp (List.mem_of_find?_eq_some h.2)
    refine ⟨⟨fun i row hrow => ?_, fun i row hrow => ?_, fun event hevent => ?_,
      fun sweep hsweep read hread => ?_⟩, rfl, fun _ h => h,
      fun i row hrow => ⟨row, hkept i row _ hrow, moves_refl _ _ row⟩⟩
    · rcases hback i row _ hrow with hold | rfl
      · exact hw.past i row hold
      · exact Nat.le_refl _
    · rcases hback i row _ hrow with hold | rfl
      · exact hw.short i row hold
      · exact .inl (by decide : 0 < 100)
    · obtain ⟨row, hrow, hdates⟩ := hw.events event hevent
      exact ⟨row, hkept _ row _ hrow, hdates⟩
    · obtain ⟨row, hrow, haged⟩ := hw.sweeps sweep hsweep read hread
      exact ⟨row, hkept _ row _ hrow, haged.updatedAt, haged.cause⟩

theorem Dated.sweepNext (hw : w.Dated) {i : ℕ} {sweep : StallSweep}
    (hsweep : w.sweeps[i]? = some sweep) : w.Advances (w.sweepNext i sweep) := by
  unfold Updates.sweepNext
  split
  · exact hw.advances_of_same rfl rfl rfl hw.sweeps
  · rename_i operation remaining hremaining
    have hsweeps : ∀ later ∈ w.sweeps.set i { sweep with remaining },
        ∃ old ∈ w.sweeps, later.remaining ⊆ old.remaining := by
      intro later hlater
      rcases List.mem_or_eq_of_mem_set hlater with hold | rfl
      · exact ⟨later, hold, fun _ h => h⟩
      · refine ⟨sweep, List.mem_of_getElem? hsweep, ?_⟩
        rw [hremaining]
        exact List.subset_cons_self _ _
    dsimp only
    split
    · refine hw.advances_of_same rfl rfl rfl fun later hlater read hread => ?_
      obtain ⟨old, hold, hsub⟩ := hsweeps later hlater
      exact hw.sweeps old hold read (hsub hread)
    · rename_i verdict hverdict
      refine hw.write rfl (fun _ => rfl) rfl hsweeps (fun _ h => h) (fun _ h => .inl h)
        fun row hrow hstage => ?_
      have hlive := not_terminal_of_stallVerdict hverdict
      rw [decide_eq_true_eq] at hstage
      refine ⟨Nat.le_refl _, Nat.le_refl _, fun hshort => .inl (hshort.resolve_right fun h => ?_),
        .inr ⟨rfl, .inl rfl⟩⟩
      rw [← hstage, h] at hlive
      cases hlive

/-- Every event moves the stored operations, and the state stays dated. -/
theorem Dated.step (hw : w.Dated) (hsound : w.Sound) (event : ℕ × Event) :
    (w.after event.1).Advances (w.step event) := by
  obtain ⟨elapsed, event⟩ := event
  have hdated : (w.after elapsed).Dated :=
    hw.of_same (Nat.le_add_right _ _) rfl rfl hw.sweeps
  have hsame : (w.after elapsed).Advances (w.after elapsed) :=
    hdated.advances_of_same rfl rfl rfl hdated.sweeps
  have hfound : ∀ row ∈ (w.after elapsed).operations,
      (w.after elapsed).byId row.operationId = some row := fun _ hrow => hsound.byId_eq_some hrow
  change (w.after elapsed).Advances ((w.after elapsed).handle event)
  generalize w.after elapsed = v at *
  cases event with
  | create operationId nodeId requestedVersion => exact hdated.create _ _ _
  | accepted operationId =>
    refine hdated.write rfl (fun _ => rfl) rfl (fun sweep h => ⟨sweep, h, fun _ h => h⟩)
      (fun _ h => h) (fun _ h => .inl h) fun row hrow hqueued => ?_
    rw [decide_eq_true_eq] at hqueued
    refine ⟨Nat.le_refl _, Nat.le_refl _, fun hshort => .inl (hshort.resolve_right fun h => ?_),
      .inr ⟨rfl, .inr (.inl ⟨hqueued, rfl⟩)⟩⟩
    rw [hqueued] at h
    cases h
  | connect nodeId softwareVersion => exact hdated.advances_of_same rfl rfl rfl hdated.sweeps
  | authenticate i =>
    simp only [handle]
    split
    · split
      · rename_i session _ _
        have hset : v.Advances
            { v with sessions := v.sessions.set i { session with recordedAt := some v.now } } :=
          hdated.advances_of_same rfl rfl rfl hdated.sweeps
        exact hset.trans (hset.dated.resolveOnReconnect hfound _ _)
      · exact hsame
    · exact hsame
  | report i report =>
    simp only [handle]
    split
    · split
      · exact hsame
      · exact hdated.handleUpdateProgress _ report
    · exact hsame
  | beginSweep now =>
    refine hdated.advances_of_same rfl rfl rfl fun sweep hsweep read hread => ?_
    rcases List.mem_append.mp hsweep with hold | hnew
    · exact hdated.sweeps sweep hold read hread
    · rw [List.mem_singleton.mp hnew] at hread
      exact ⟨read, hfound read (List.mem_filter.mp hread).1, Nat.le_refl _, .inl ⟨rfl, rfl⟩⟩
  | sweepNext i =>
    simp only [handle]
    split
    · rename_i sweep hsweep
      exact hdated.sweepNext hsweep
    · exact hsame
  | acknowledge operationId =>
    exact hdated.write rfl (fun _ => rfl) rfl (fun sweep h => ⟨sweep, h, fun _ h => h⟩)
      (fun _ h => h) (fun _ h => .inl h) fun row hrow _ =>
        ⟨Nat.le_refl _, Nat.le_refl _, id, .inl ⟨rfl, rfl⟩⟩

theorem initial_dated : initial.Dated :=
  ⟨fun _ _ h => (Option.some_ne_none _ h.symm).elim,
    fun _ _ h => (Option.some_ne_none _ h.symm).elim,
    fun _ h => (List.not_mem_nil h).elim, fun _ h => (List.not_mem_nil h).elim⟩

/-- Every run moves the stored operations forward, and the state stays dated. -/
theorem Dated.play (hw : w.Dated) (hsound : w.Sound) (script : List (ℕ × Event)) :
    (w.play script).Dated ∧ ∀ id row, w.byId id = some row →
      ∃ row', (w.play script).byId id = some row' ∧ row.lastSeq ≤ row'.lastSeq ∧
        row.percent ≤ row'.percent := by
  induction script generalizing w with
  | nil => exact ⟨hw, fun id row hrow => ⟨row, hrow, Nat.le_refl _, Nat.le_refl _⟩⟩
  | cons event script ih =>
    have hstep := hw.step hsound event
    obtain ⟨hdated, hlater⟩ := ih hstep.dated (hsound.step_follows event).sound
    refine ⟨hdated, fun id row hrow => ?_⟩
    obtain ⟨moved, hmoved, hmoves⟩ := hstep.moves id row hrow
    obtain ⟨row', hrow', hseq, hpercent⟩ := hlater id moved hmoved
    exact ⟨row', hrow', Nat.le_trans hmoves.lastSeq hseq, Nat.le_trans hmoves.percent hpercent⟩

theorem play_after_dated (script : List (ℕ × Event)) (elapsed : ℕ) :
    ((initial.play script).after elapsed).Dated :=
  have hdated := (initial_dated.play initial_sound script).1
  hdated.of_same (Nat.le_add_right _ _) rfl rfl hdated.sweeps

end Steps

/-- In every run: a report whose number is not above the last one changes nothing, and one that is
applied raises the last number. The bar is not full until the operation has succeeded, and whatever
happens later, neither the number nor the bar falls. -/
theorem reports_move_forward (script : List (ℕ × Event)) (report : ProgressReport)
    (row : UpdateOperationRecord)
    (hrow : (initial.play script).byId report.operationId = some row) :
    (report.seq ≤ row.lastSeq →
      (initial.play script).recordProgress report = (none, initial.play script)) ∧
    (∀ row' w', (initial.play script).recordProgress report = (some row', w') →
      w'.byId report.operationId = some row' ∧ row.lastSeq < row'.lastSeq) ∧
    (row.percent < 100 ∨ row.stage = .succeeded) ∧
    ∀ later : List (ℕ × Event), ∃ row',
      (initial.play (script ++ later)).byId report.operationId = some row' ∧
        row.lastSeq ≤ row'.lastSeq ∧ row.percent ≤ row'.percent := by
  obtain ⟨hdated, _⟩ := initial_dated.play initial_sound script
  refine ⟨fun hold => ?_, fun row' w' happlied => ?_, hdated.short _ row hrow, fun later => ?_⟩
  · unfold recordProgress
    rw [hrow]
    simp only [decideUpdateProgress, if_pos hold]
  · obtain ⟨current, progress, hcurrent, rfl, hstored, _⟩ := recordProgress_some happlied
    obtain rfl := Option.some.inj (hrow.symm.trans hcurrent)
    refine ⟨hstored, Nat.lt_of_not_le fun hold => ?_⟩
    unfold recordProgress at happlied
    rw [hrow] at happlied
    simp only [decideUpdateProgress, if_pos (show report.seq ≤ row.lastSeq from hold)] at happlied
    cases happlied
  · have hplay : initial.play (script ++ later) = (initial.play script).play later :=
      List.foldl_append
    rw [hplay]
    exact (hdated.play (initial_sound.play_follows script).sound later).2 _ row hrow

/-- A Node that works on an update and has reported once. -/
def working : List (ℕ × Event) :=
  [(0, .connect "node" "v1"), (0, .authenticate 0), (0, .create "op" "node" "v2"),
    (0, .accepted "op"), (0, .report 0 { operationId := "op", seq := 1, state := .planPrepared })]

/-- A report that repeats a number is not applied, and one that comes after the update failed does
not move the bar back. -/
theorem working_moves_forward : ∃ row, (initial.play working).byId "op" = some row ∧
    row.percent = 67 ∧
    (initial.play working).recordProgress
      { operationId := "op", seq := 1, state := .complete } = (none, initial.play working) ∧
    ∃ row', (initial.play (working ++
      [(1, .report 0 { operationId := "op", seq := 2, state := .failed })])).byId "op" = some row' ∧
        67 ≤ row'.percent := by
  have hpercent : ((initial.play working).byId "op").map (fun row => (row.percent, row.lastSeq)) =
      some (67, 1) := by decide
  obtain ⟨row, hrow, hpair⟩ := Option.map_eq_some_iff.mp hpercent
  obtain ⟨hpercent, hseq⟩ := Prod.mk.inj hpair
  obtain ⟨hrepeated, _, _, hlater⟩ := reports_move_forward working
    { operationId := "op", seq := 1, state := .complete } row hrow
  obtain ⟨row', hrow', _, hbar⟩ := hlater
    [(1, .report 0 { operationId := "op", seq := 2, state := .failed })]
  exact ⟨row, hrow, hpercent, hrepeated (Nat.le_of_eq hseq.symm), row', hrow', hpercent ▸ hbar⟩

/-- The stage allows no activity as old as this. -/
def PastDeadline (stage : UpdateStage) (activity now : ℕ) : Prop :=
  ∀ allowed ∈ stageDeadlineSeconds stage, activity + allowed * 1000 < now

/-- The next operation of a sweep, as the sweep has read it and as it is stored, is timed out. -/
structure TimesOut (w : Updates) (i : ℕ) (read row : UpdateOperationRecord) : Prop where
  next : ∃ sweep remaining, w.sweeps[i]? = some sweep ∧ sweep.remaining = read :: remaining
  stored : w.byId read.operationId = some row
  live : row.stage.isTerminal = false
  written : ∃ row', (w.handle (.sweepNext i)).byId read.operationId = some row' ∧
    row'.stage = .timedOut

theorem TimesOut.stage_eq {w : Updates} {i : ℕ} {read row : UpdateOperationRecord}
    (h : w.TimesOut i read row) : row.stage = read.stage := by
  obtain ⟨sweep, remaining, hsweep, hremaining⟩ := h.next
  obtain ⟨row', hrow', htimedOut⟩ := h.written
  by_contra hstage
  have hunchanged : (w.handle (.sweepNext i)).byId read.operationId = some row := by
    simp only [handle, hsweep, sweepNext, hremaining]
    split
    · exact h.stored
    · rename_i verdict _
      have hid : ∀ row : UpdateOperationRecord,
          (row.stalled verdict w.now).operationId = row.operationId := fun _ => rfl
      have hother : ¬ (row.operationId = read.operationId ∧
          decide (row.stage = read.stage) = true) :=
        fun hmatch => hstage (of_decide_eq_true hmatch.2)
      rw [byId_updateOperation hid]
      exact (congrArg _ h.stored).trans (congrArg some (if_neg hother))
  obtain rfl := Option.some.inj (hrow'.symm.trans hunchanged)
  have hlive := h.live
  rw [htimedOut] at hlive
  cases hlive

/-- After every run: the operation a sweep times out has been idle past the deadline of its stage
when it is written, exactly if what the sweep has read is past that deadline and so is every report
about the operation that was recorded. -/
theorem timeout_idle_iff (script : List (ℕ × Event)) (elapsed i : ℕ)
    (read row : UpdateOperationRecord)
    (h : ((initial.play script).after elapsed).TimesOut i read row) :
    PastDeadline row.stage row.updatedAt ((initial.play script).after elapsed).now ↔
      PastDeadline row.stage read.updatedAt ((initial.play script).after elapsed).now ∧
      ∀ event ∈ (initial.play script).events, event.operationId = read.operationId →
        PastDeadline row.stage event.recordedAt ((initial.play script).after elapsed).now := by
  have hdated := play_after_dated script elapsed
  obtain ⟨sweep, remaining, hsweep, hremaining⟩ := h.next
  obtain ⟨found, hfound, haged⟩ := hdated.sweeps sweep (List.mem_of_getElem? hsweep) read
    (hremaining ▸ List.mem_cons_self)
  obtain rfl := Option.some.inj (h.stored.symm.trans hfound)
  constructor
  · intro hidle
    refine ⟨fun allowed hallowed => ?_, fun event hevent hid allowed hallowed => ?_⟩
    · have hread := haged.updatedAt
      have hpast := hidle allowed hallowed
      omega
    · obtain ⟨stored, hstored, hrecorded, _⟩ := hdated.events event hevent
      rw [hid, hfound] at hstored
      cases hstored
      have hpast := hidle allowed hallowed
      omega
  · rintro ⟨hread, hreports⟩
    rcases haged.cause with ⟨hsame, _⟩ | ⟨hnot, hheard | hqueued | hended⟩
    · rwa [hsame]
    · obtain ⟨event, hevent, hid, hrecorded⟩ := hheard
      exact hrecorded ▸ hreports event hevent hid
    · exact absurd (h.stage_eq.trans hqueued) hnot
    · rw [h.live] at hended
      cases hended

/-- A sweep reads the operation when it has not been heard of for the time its stage allows. -/
def overdue : List (ℕ × Event) := working ++ [(1200001, .beginSweep 1200001)]

def overdueRow : UpdateOperationRecord :=
  { operationId := "op", nodeId := "node", requestedVersion := "v2", stage := .applying
    detailState := some .planPrepared, percent := 67, lastSeq := 1, createdAt := 0, updatedAt := 0
    stageChangedAt := 0 }

/-- When nothing is heard of the operation, the sweep ends one that is idle. -/
theorem overdue_timeout :
    ((initial.play overdue).after 1).TimesOut 0 overdueRow overdueRow ∧
      PastDeadline .applying overdueRow.updatedAt ((initial.play overdue).after 1).now := by
  have htimeout : ((initial.play overdue).after 1).TimesOut 0 overdueRow overdueRow :=
    ⟨⟨⟨1200001, [overdueRow]⟩, [], rfl, rfl⟩, rfl, rfl, _, rfl, rfl⟩
  refine ⟨htimeout, (timeout_idle_iff overdue 1 0 overdueRow overdueRow htimeout).mpr
    ⟨fun allowed hallowed => ?_, fun event hevent _ allowed hallowed => ?_⟩⟩
  · cases hallowed
    decide
  · have hrecorded : event.recordedAt ∈ [0] :=
      List.mem_map_of_mem (f := fun event : UpdateEventRecord => event.recordedAt) hevent
    cases hallowed
    rw [List.mem_singleton.mp hrecorded]
    decide

/-- A report that arrives after the sweep has read the operation, and before it writes. -/
def interrupted : List (ℕ × Event) :=
  overdue ++ [(0, .report 0 { operationId := "op", seq := 2, state := .runtimeInstalling })]

/-- The operation is timed out the moment it has been heard of. -/
theorem interrupted_timeout :
    ∃ row, ((initial.play interrupted).after 0).TimesOut 0 overdueRow row ∧
      row.updatedAt = ((initial.play interrupted).after 0).now ∧
      ¬ PastDeadline row.stage row.updatedAt ((initial.play interrupted).after 0).now := by
  refine ⟨{ overdueRow with
      detailState := some .runtimeInstalling, percent := 72, lastSeq := 2, updatedAt := 1200001 },
    ⟨⟨⟨1200001, [overdueRow]⟩, [], rfl, rfl⟩, rfl, rfl, _, rfl, rfl⟩, rfl, fun hidle => ?_⟩
  have hpast := hidle 1200 rfl
  revert hpast
  decide

end Updates

end Asterism.ControlPlane
