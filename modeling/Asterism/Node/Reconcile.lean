import Asterism.Node.Families

/-!
# What reconciliation does to live runs

A pass over the live runs of a project, with a backend that answers the same question
always the same way. The status a pass leaves each run in is computed exactly. From it
follow what a second pass finds and what becomes of the runs the backend reports live.
-/

namespace Asterism

open Process

/-- The pass gets the lock, the backend answers from this table, and storage works. -/
structure Undisturbed (answers : String → Except String (Option Value)) (input : NodeInput) :
    Prop where
  lock : input.lock = .taken
  status : input.status = answers
  storage : input.registry.storage = true
  files : input.files = true

/-- The status the backend reports for a run. -/
def reportedStatus (answers : String → Except String (Option Value)) (run : RunRecord) :
    Option String :=
  run.hermesRunId.bind fun hermesRunId => (answers hermesRunId).toOption.join.bind statusOf

/-- The backend reports the run with a status that is not terminal. -/
def ReportedLive (answers : String → Except String (Option Value)) (run : RunRecord) : Prop :=
  ∃ status, reportedStatus answers run = some status ∧
    (fromHermesStatus status).isTerminal = false

/-- The status a pass leaves a live run in. -/
def settledStatus (answers : String → Except String (Option Value)) (run : RunRecord) :
    RunStatus :=
  let decided :=
    (reconcileDecision run.status (reportedStatus answers run) run.lastEventSeq).1
  if decided = run.status then if Parked run then .recovering else run.status else decided

variable {run : RunRecord}

/-- A submitted run that is running or waiting is parked. -/
theorem parked_of_running (hbackend : run.hermesRunId.isSome = true)
    (hstatus : run.status = .running ∨ run.status = .waitingForApproval) : Parked run := by
  unfold Parked
  rcases hstatus with h | h
  · rw [h]
    exact ⟨hbackend, by decide, rfl⟩
  · rw [h]
    exact ⟨hbackend, by decide, rfl⟩

variable {answers : String → Except String (Option Value)}

theorem hermesRunId_isSome_of_reported {status : String}
    (h : reportedStatus answers run = some status) :
    run.hermesRunId.isSome = true := by
  obtain ⟨id, hid, _⟩ := Option.bind_eq_some_iff.mp h
  rw [hid]
  rfl

/-- The decision about a run the backend does not report live is an ending. -/
theorem reconcileDecision_isTerminal (hlive : ¬ReportedLive answers run) :
    (reconcileDecision run.status (reportedStatus answers run)
      run.lastEventSeq).1.isTerminal = true := by
  cases hreported : reportedStatus answers run with
  | some status =>
    cases hterminal : (fromHermesStatus status).isTerminal with
    | true => exact hterminal
    | false => exact absurd ⟨status, hreported, hterminal⟩ hlive
  | none =>
    unfold reconcileDecision
    split_ifs <;> rfl

theorem settledStatus_isTerminal (hactive : run.status.isActive = true)
    (hlive : ¬ReportedLive answers run) :
    (settledStatus answers run).isTerminal = true := by
  have hdecided := reconcileDecision_isTerminal hlive
  unfold settledStatus
  dsimp only
  rw [if_neg]
  · exact hdecided
  · intro hsame
    rw [hsame] at hdecided
    simp only [RunStatus.isActive, hdecided, Bool.not_true, Bool.false_eq_true] at hactive

/-- A run the backend reports live is left running, waiting, or parked if its stored status was
the reported one. -/
theorem settledStatus_of_live (hlive : ReportedLive answers run) :
    settledStatus answers run = .running ∨ settledStatus answers run = .waitingForApproval ∨
      settledStatus answers run = .recovering := by
  obtain ⟨status, hreported, hstatus⟩ := hlive
  have hdecided : (reconcileDecision run.status (reportedStatus answers run)
      run.lastEventSeq).1 = fromHermesStatus status := by rw [hreported]; rfl
  unfold settledStatus
  dsimp only
  rw [hdecided]
  split
  · rename_i hsame
    have hparked : Parked run := parked_of_running (hermesRunId_isSome_of_reported hreported)
      (hsame ▸ fromHermesStatus_live hstatus)
    rw [if_pos hparked]
    exact Or.inr (Or.inr rfl)
  · rcases fromHermesStatus_live hstatus with h | h
    · exact Or.inl h
    · exact Or.inr (Or.inl h)

/-- Sequential execution of a worker's procedures in an undisturbed pass. -/
abbrev passContract (answers : String → Except String (Option Value)) :
    Contract NodeCall NodeInput World :=
  .sequential NodeCall World (Undisturbed answers)

variable {w : World}

theorem meets_passRegistry {α : Type} {call : RegistryCall α} {post : α → World → Prop}
    (h : ∀ input, Undisturbed answers input → ∀ a r',
      call.transaction input.registry w.registry = .ok (a, r') →
        post a { w with registry := r' }) :
    (Act.registry call).run.Meets (passContract answers) nodeMachine (Attempt.onOk post) w := by
  refine Act.meets_registry fun t ht input hinput => ⟨trivial, fun a r' hexec => ?_⟩
  obtain rfl : w = t := ht
  exact h input hinput a r' (RegistryCall.exec_ok hexec)

/-- A pass has so far touched no run but this one, and left it with this status. -/
structure Tracked (run : RunRecord) (status : RunStatus) (w w' : World) : Prop where
  slots : w'.slots = w.slots
  only : w.registry.contents.OnlyRun run.runId w'.registry.contents
  numbered : w'.registry.contents.JournalNumbered
  row : ∃ row, w'.registry.contents.findRun run.runId = some row ∧
    row.hermesRunId = run.hermesRunId ∧ row.status = status

theorem Tracked.append {status : RunStatus} {w w' : World} (h : Tracked run status w w')
    (eventType : String) (fields : List (String × Value)) {update : RunUpdate}
    (hhermes : update.hermesRunId = none) :
    (appendAsterism run.runId eventType fields (some update)).run.Meets (passContract answers)
      nodeMachine (Attempt.onOk fun _ u => Tracked run (update.status.getD status) w u) w' := by
  refine meets_passRegistry fun input hinput outcome r' hok => ?_
  have happend : appendEvent input.registry run.runId
      (.asterism eventType (Value.obj fields)) (some update) w'.registry = .ok (outcome, r') := hok
  obtain ⟨row, hrow, hid, hstatus⟩ := h.row
  obtain ⟨_, row', hrow', ⟨hnone, _⟩ | ⟨u, now, hu, _, hsame⟩⟩ := appendEvent_row rfl happend hrow
  · cases hnone
  · obtain rfl := Option.some.inj hu
    have honly := appendEvent_onlyRun happend
    have hexec := RegistryCall.exec_of_transaction hinput.storage hok
    have hnumbered := RegistryCall.exec_journalNumbered
      (.appendEvent run.runId (.asterism eventType (Value.obj fields)) (some update))
      input.registry h.numbered
    rw [hexec] at hnumbered
    refine ⟨h.slots, h.only.trans honly, hnumbered, row', hrow', ?_, ?_⟩
    · rw [hsame.hermesRunId_eq, ← hid]
      simp only [RunUpdate.apply, hhermes, Option.none_or]
    · rw [hsame.status_eq, ← hstatus]
      rfl

theorem parkRun_meets {w w' : World} (h : Tracked run run.status w w') :
    (parkRun run).run.Meets (passContract answers) nodeMachine (Attempt.onOk fun _ u =>
      Tracked run (if Parked run then .recovering else run.status) w u) w' := by
  unfold parkRun
  by_cases hparked : Parked run
  · simp only [if_pos hparked]
    exact Attempt.meets_bind (h.append _ _ rfl) fun _ u hu => hu
  · simp only [if_neg hparked]
    exact h

theorem backendStatus_meets (client : HermesClient) (run : RunRecord) (w : World) :
    (backendStatus client run).run.Meets (passContract answers) nodeMachine
      (fun result u => result = .ok (reportedStatus answers run) ∧ u = w) w := by
  unfold backendStatus reportedStatus
  cases hid : run.hermesRunId with
  | none => exact ⟨rfl, rfl⟩
  | some hermesRunId =>
    rw [Attempt.run_bind]
    intro t ht input hinput
    obtain rfl : w = t := ht
    refine ⟨trivial, ?_, rfl⟩
    rw [← hinput.status]
    rfl

/-- Reconciling a run leaves it with the settled status, and every other run as it was. -/
theorem reconcileRun_meets (client : HermesClient) (h : Tracked run run.status w w) :
    (reconcileRun client run).run.Meets (passContract answers) nodeMachine
      (Attempt.onOk fun _ u => Tracked run (settledStatus answers run) w u) w := by
  refine Attempt.meets_bind (parkRun_meets h) fun _ parked hparked => ?_
  rw [Attempt.run_bind, Program.meets_bind]
  refine (backendStatus_meets client run parked).mono fun result u hu => ?_
  obtain ⟨rfl, rfl⟩ := hu
  rw [Attempt.andThen_ok]
  dsimp only
  unfold settledStatus
  dsimp only
  split
  · rename_i hsame
    exact hparked
  · refine Attempt.meets_bind (hparked.append _ _ (reconciledUpdate_hermesRunId _ _))
      fun _ v hv => ?_
    rw [reconciledUpdate_status] at hv
    exact hv

/-- A pass over some runs: their statuses are settled, and no other run is touched. -/
structure Settled (answers : String → Except String (Option Value)) (runs : List RunRecord)
    (w w' : World) : Prop where
  slots : w'.slots = w.slots
  keys : w'.registry.contents.runs.map RunRow.listKey = w.registry.contents.runs.map RunRow.listKey
  numbered : w'.registry.contents.JournalNumbered
  rows : ∀ run ∈ runs, ∃ row, w'.registry.contents.findRun run.runId = some row ∧
    row.hermesRunId = run.hermesRunId ∧ row.status = settledStatus answers run
  others : ∀ id, (∀ run ∈ runs, run.runId ≠ id) →
    w'.registry.contents.findRun id = w.registry.contents.findRun id

/-- A pass settles each run it is given, if they are stored as they were listed. -/
theorem reconcileRuns_meets (client : HermesClient) {runs : List RunRecord}
    (hnumbered : w.registry.contents.JournalNumbered)
    (hnodup : (runs.map fun run => run.runId).Nodup)
    (hstored : ∀ run ∈ runs, ∃ row, w.registry.contents.findRun run.runId = some row ∧
      row.toRunRecord = run) :
    (reconcileRuns client runs).run.Meets (passContract answers) nodeMachine
      (Attempt.onOk fun _ u => Settled answers runs w u) w := by
  induction runs generalizing w with
  | nil =>
    exact ⟨rfl, rfl, hnumbered, fun _ h => absurd h List.not_mem_nil, fun _ _ => rfl⟩
  | cons run runs ih =>
    obtain ⟨hfresh, hrest⟩ := List.nodup_cons.mp hnodup
    obtain ⟨row, hrow, rfl⟩ := hstored run List.mem_cons_self
    have hstart : Tracked row.toRunRecord row.status w w :=
      ⟨rfl, ⟨rfl, fun _ _ => rfl⟩, hnumbered, row, hrow, rfl, rfl⟩
    refine Attempt.meets_bind (reconcileRun_meets client hstart) fun _ mid hmid => ?_
    have hother : ∀ other ∈ runs, other.runId ≠ row.runId := fun other hmem heq =>
      hfresh (List.mem_map.mpr ⟨other, hmem, heq⟩)
    have hmidStored : ∀ other ∈ runs, ∃ stored,
        mid.registry.contents.findRun other.runId = some stored ∧
          stored.toRunRecord = other := by
      intro other hmem
      rw [hmid.only.others _ (hother other hmem)]
      exact hstored other (List.mem_cons_of_mem _ hmem)
    refine Attempt.meets_bind (ih hmid.numbered hrest hmidStored) fun _ u hu => ?_
    refine ⟨hu.slots.trans hmid.slots, hu.keys.trans hmid.only.keys, hu.numbered, ?_, ?_⟩
    · intro other hmem
      rcases List.mem_cons.mp hmem with rfl | hmem
      · rw [hu.others _ hother]
        exact hmid.row
      · exact hu.rows other hmem
    · intro id hid
      rw [hu.others id fun other hmem => hid other (List.mem_cons_of_mem _ hmem)]
      exact hmid.only.others id fun heq => hid row.toRunRecord List.mem_cons_self heq.symm

/-- The live runs of a project, as a pass lists them. -/
abbrev World.activeRuns (w : World) (projectId : String) : List RunRecord :=
  w.registry.contents.activeRuns projectId

/-- A pass gets the lock and lists the live runs, and then does what it does to them. -/
theorem reconcileProject_meets {projectId : String} {client : HermesClient}
    {post : Except NodeError (List Reconciliation) → World → Prop}
    (h : (reconcileListed projectId client (w.activeRuns projectId)).run.Meets
      (passContract answers) nodeMachine post w) :
    (reconcileProject projectId client).run.Meets (passContract answers) nodeMachine post w := by
  unfold reconcileProject
  rw [Attempt.run_bind, Program.meets_bind]
  intro t ht input hinput
  obtain rfl : w = t := ht
  have hlock : nodeMachine.exec (NodeCall.tryLock projectId) input w = (.ok (), w) := by
    simp only [nodeMachine, NodeCall.exec, hinput.lock]
  rw [hlock]
  refine ⟨trivial, ?_⟩
  show ((Act.registry (.activeRuns projectId)) >>= reconcileListed projectId client).run.Meets
    (passContract answers) nodeMachine post w
  rw [Attempt.run_bind, Program.meets_bind]
  intro t ht input hinput
  obtain rfl : w = t := ht
  have hlist : nodeMachine.exec (NodeCall.registry (.activeRuns projectId)) input w =
      (.ok (w.activeRuns projectId), w) := by
    have hexec : (RegistryCall.activeRuns projectId).exec input.registry w.registry =
        (.ok (w.activeRuns projectId), w.registry) :=
      RegistryCall.exec_of_transaction hinput.storage rfl
    simp only [nodeMachine, NodeCall.exec, hexec]
  rw [hlist]
  exact ⟨trivial, h⟩

/-- A successful pass settles every live run of the project and clears its slot. -/
theorem reconcileProject_settles (projectId : String) (client : HermesClient)
    (hnumbered : w.registry.contents.JournalNumbered) :
    (reconcileProject projectId client).run.Meets (passContract answers) nodeMachine
      (Attempt.onOk fun _ u => u.slots projectId = none ∧
        Settled answers (w.activeRuns projectId) w { u with slots := w.slots }) w := by
  have hvalid : w.registry.contents.Valid := w.registry.valid
  have hstored : ∀ run ∈ w.activeRuns projectId, ∃ row,
      w.registry.contents.findRun run.runId = some row ∧ row.toRunRecord = run :=
    fun run hmem => (hvalid.mem_activeRuns_iff.mp hmem).1
  refine reconcileProject_meets (Attempt.meets_bind
    (reconcileRuns_meets client hnumbered (hvalid.activeRuns_nodup projectId) hstored)
    fun outcomes v hv => ?_)
  rw [Attempt.run_bind]
  intro t ht input hinput
  obtain rfl : v = t := ht
  have hclear : nodeMachine.exec (NodeCall.clearActiveRun projectId) input v =
      (.ok (), { v with slots := Function.update v.slots projectId none }) := by
    simp only [nodeMachine, NodeCall.exec, World.setSlot, hinput.files, if_true]
  rw [hclear]
  refine ⟨trivial, Function.update_self .., ?_⟩
  exact ⟨rfl, hv.keys, hv.numbered, hv.rows, hv.others⟩

/-- A run that is live after a pass was live before it, was reported live, and kept its backend
id. -/
theorem Settled.live {projectId : String} {w w' : World}
    (h : Settled answers (w.activeRuns projectId) w w') (hrun : run ∈ w'.activeRuns projectId) :
    ∃ old ∈ w.activeRuns projectId, ReportedLive answers old ∧
      run.hermesRunId = old.hermesRunId ∧ run.status = settledStatus answers old := by
  have hvalid : w.registry.contents.Valid := w.registry.valid
  have hvalid' : w'.registry.contents.Valid := w'.registry.valid
  obtain ⟨⟨row', hrow', rfl⟩, hlisted, hactive⟩ := hvalid'.mem_activeRuns_iff.mp hrun
  rw [Tables.listedIds_eq h.keys] at hlisted
  have hbefore : ∃ old ∈ w.activeRuns projectId, old.runId = row'.runId := by
    by_contra hnone
    have hsame := h.others row'.runId fun old hold heq => hnone ⟨old, hold, heq⟩
    rw [hrow'] at hsame
    exact hnone ⟨row'.toRunRecord,
      hvalid.mem_activeRuns_iff.mpr ⟨⟨row', hsame.symm, rfl⟩, hlisted, hactive⟩, rfl⟩
  obtain ⟨old, hold, hid⟩ := hbefore
  obtain ⟨settled, hsettled, hhermes, hstatus⟩ := h.rows old hold
  rw [hid, hrow'] at hsettled
  obtain rfl := Option.some.inj hsettled
  refine ⟨old, hold, ?_, hhermes, hstatus⟩
  by_contra hlive
  have hterminal := settledStatus_isTerminal (hvalid.mem_activeRuns_iff.mp hold).2.2 hlive
  rw [← hstatus] at hterminal
  simp only [RunStatus.isActive, hterminal, Bool.not_true, Bool.false_eq_true] at hactive

theorem Settled.still_live {projectId : String} {w w' : World}
    (h : Settled answers (w.activeRuns projectId) w w') {old : RunRecord}
    (hold : old ∈ w.activeRuns projectId) (hlive : ReportedLive answers old) :
    ∃ run, run ∈ w'.activeRuns projectId := by
  have hvalid : w.registry.contents.Valid := w.registry.valid
  have hvalid' : w'.registry.contents.Valid := w'.registry.valid
  obtain ⟨row, hrow, _, hstatus⟩ := h.rows old hold
  have hid := Tables.findRun_runId hrow
  have hlisted := (hvalid.mem_activeRuns_iff.mp hold).2.1
  rw [← Tables.listedIds_eq h.keys, ← hid] at hlisted
  rw [← hid] at hrow
  refine ⟨row.toRunRecord, hvalid'.mem_activeRuns_iff.mpr ⟨⟨row, hrow, rfl⟩, hlisted, ?_⟩⟩
  rcases settledStatus_of_live hlive with hs | hs | hs <;> rw [hstatus, hs] <;> rfl

abbrev World.eventCount (w : World) : ℕ := w.registry.contents.runEvents.length

theorem meets_eventCount {α : Type} (p : Program NodeCall α) (n : ℕ) (h : n < w.eventCount) :
    p.Meets (passContract answers) nodeMachine (fun _ u => n < u.eventCount) w := by
  have hstable : ∀ u v : World, n < u.eventCount → (passContract answers).rely u v →
      n < v.eventCount := by
    intro u v hu huv
    obtain rfl : u = v := huv
    exact hu
  refine .of_preserved p (fun u : World => n < u.eventCount) hstable ?_ h
  intro γ request input u hu _
  refine ⟨trivial, ?_⟩
  rcases NodeCall.exec_registry request input u with hsame | ⟨β, op, hop⟩
  · show n < (request.exec input u).2.eventCount
    rw [World.eventCount, hsame]
    exact hu
  · show n < (request.exec input u).2.eventCount
    rw [World.eventCount, hop]
    exact hu.trans_le (op.runEvents_length_le input.registry u.registry)

theorem appendAsterism_grows {runId : String} {row : RunRow}
    (hnumbered : w.registry.contents.JournalNumbered)
    (hrow : w.registry.contents.findRun runId = some row) (eventType : String)
    (fields : List (String × Value)) {update : RunUpdate} (hhermes : update.hermesRunId = none)
    (hvalid : validateTransition row.status (update.target row) = .ok ()) :
    (appendAsterism runId eventType fields (some update)).run.Meets (passContract answers)
      nodeMachine (fun _ u => w.eventCount < u.eventCount) w := by
  unfold appendAsterism Act.registry
  rw [Attempt.run_mapError, Program.meets_bind]
  intro t ht input hinput
  obtain rfl : w = t := ht
  refine ⟨trivial, ?_⟩
  have hfree : w.registry.contents.HermesIdFree runId update := by
    intro id hid
    rw [hhermes] at hid
    cases hid
  obtain ⟨outcome, r', hok⟩ := appendEvent_succeeds hnumbered hrow
    (.asterism eventType (Value.obj fields)) (some update)
    (fun u hu => by obtain rfl := Option.some.inj hu; exact ⟨hvalid, hfree⟩) input.registry
  have hexec : (RegistryCall.appendEvent runId (.asterism eventType (Value.obj fields))
      (some update)).exec input.registry w.registry = (.ok outcome, r') :=
    RegistryCall.exec_of_transaction hinput.storage hok
  have hgrown := (appendEvent_row rfl hok hrow).1
  simp only [nodeMachine, NodeCall.exec, hexec]
  show w.registry.contents.runEvents.length < r'.contents.runEvents.length
  omega

/-- Reconciling a run that is reported live, and is running, waiting or recovering, lets the
journal grow. -/
theorem reconcileRun_grows (client : HermesClient) {row : RunRow}
    (hnumbered : w.registry.contents.JournalNumbered)
    (hrow : w.registry.contents.findRun row.runId = some row)
    (hlive : ReportedLive answers row.toRunRecord)
    (hstatus : row.status = .running ∨ row.status = .waitingForApproval ∨
      row.status = .recovering) :
    (reconcileRun client row.toRunRecord).run.Meets (passContract answers) nodeMachine
      (fun _ u => w.eventCount < u.eventCount) w := by
  obtain ⟨status, hreported, hterminal⟩ := hlive
  have hbackend := hermesRunId_isSome_of_reported hreported
  unfold reconcileRun parkRun
  rw [Attempt.run_bind, Program.meets_bind]
  by_cases hparked : Parked row.toRunRecord
  · have hvalid : validateTransition row.status
        ((RunUpdate.ofStatus .recovering).target row) = .ok () := hparked.2.2
    rw [if_pos hparked, Attempt.run_bind, Program.meets_bind]
    refine (appendAsterism_grows hnumbered hrow _ _ rfl hvalid).mono fun result u hu => ?_
    refine (meets_eventCount (Attempt.andThen _ result) _ hu).mono fun next v hv => ?_
    exact meets_eventCount _ _ hv
  · have hrecovering : row.status = .recovering := by
      rcases hstatus with h | h | h
      · exact absurd (parked_of_running hbackend (Or.inl h)) hparked
      · exact absurd (parked_of_running hbackend (Or.inr h)) hparked
      · exact h
    have hdecided : (reconcileDecision row.status (reportedStatus answers row.toRunRecord)
        row.lastEventSeq).1 = fromHermesStatus status := by rw [hreported]; rfl
    have hvalid (note : String) : validateTransition row.status
        ((reconciledUpdate (fromHermesStatus status) note).target row) = .ok () := by
      rw [hrecovering, RunUpdate.target, reconciledUpdate_status]
      rcases fromHermesStatus_live hterminal with h | h <;> rw [h] <;> rfl
    rw [if_neg hparked]
    show ((backendStatus client row.toRunRecord) >>= _).run.Meets _ _ _ w
    rw [Attempt.run_bind, Program.meets_bind]
    refine (backendStatus_meets client row.toRunRecord w).mono fun result u hu => ?_
    obtain ⟨rfl, rfl⟩ := hu
    rw [Attempt.andThen_ok]
    dsimp only
    rw [hdecided, if_neg, Attempt.run_bind, Program.meets_bind]
    · refine (appendAsterism_grows hnumbered hrow _ _ (reconciledUpdate_hermesRunId _ _)
        (hvalid _)).mono fun result v hv => ?_
      exact meets_eventCount _ _ hv
    · rw [hrecovering]
      rcases fromHermesStatus_live hterminal with h | h <;> rw [h] <;> decide

/-- A pass over runs that are all reported live lets the journal grow. -/
theorem reconcileProject_grows (projectId : String) (client : HermesClient)
    (hnumbered : w.registry.contents.JournalNumbered) (hrun : run ∈ w.activeRuns projectId)
    (hlive : ∀ run ∈ w.activeRuns projectId, ReportedLive answers run ∧
      (run.status = .running ∨ run.status = .waitingForApproval ∨ run.status = .recovering)) :
    (reconcileProject projectId client).run.Meets (passContract answers) nodeMachine
      (fun _ u => w.eventCount < u.eventCount) w := by
  have hvalid : w.registry.contents.Valid := w.registry.valid
  refine reconcileProject_meets ?_
  cases hruns : w.activeRuns projectId with
  | nil =>
    rw [hruns] at hrun
    cases hrun
  | cons first rest =>
    have hfirst : first ∈ w.activeRuns projectId := by
      rw [hruns]
      exact List.mem_cons_self
    obtain ⟨⟨row, hrow, rfl⟩, _⟩ := hvalid.mem_activeRuns_iff.mp hfirst
    obtain ⟨hreported, hstatus⟩ := hlive _ hfirst
    unfold reconcileListed reconcileRuns
    simp only [Attempt.run_bind, Program.meets_bind]
    refine (reconcileRun_grows client hnumbered hrow hreported hstatus).mono fun result u hu => ?_
    refine (meets_eventCount (Attempt.andThen _ result) _ hu).mono fun next v hv => ?_
    exact meets_eventCount _ _ hv

theorem reconcileProject_idle (projectId : String) (client : HermesClient)
    (hnone : w.activeRuns projectId = []) :
    (reconcileProject projectId client).run.Meets (passContract answers) nodeMachine
      (fun _ u => u.registry = w.registry) w := by
  refine reconcileProject_meets ?_
  rw [hnone]
  unfold reconcileListed
  rw [Attempt.run_bind, Program.meets_bind]
  show (Attempt.attempt (NodeCall.clearActiveRun projectId) >>= _).run.Meets _ _ _ w
  rw [Attempt.run_bind]
  intro t ht input hinput
  obtain rfl : w = t := ht
  refine ⟨trivial, ?_⟩
  simp only [nodeMachine, NodeCall.exec, World.setSlot, hinput.files, if_true]
  rfl

/-- What a pass should do for the runs the backend reports live. -/
structure LiveRunsKept (config : NodeConfig) (answers : String → Except String (Option Value))
    (projectId : String) (client : HermesClient) (w w' : World) : Prop where
  /-- They are stored as running or waiting. -/
  stored : ∀ run ∈ w.activeRuns projectId, ReportedLive answers run →
    ∃ row, w'.registry.contents.findRun run.runId = some row ∧
      (row.status = .running ∨ row.status = .waitingForApproval)
  /-- The service attaches a worker to them. -/
  attached : ∀ run ∈ w.activeRuns projectId, ReportedLive answers run →
    HermesClient.new client.baseUrl client.apiKey = .ok client →
    ∀ inputs : ℕ → NodeInput, (∀ n, Undisturbed answers (inputs n)) →
      (∀ n, (inputs n).runtime = .ok (client.baseUrl, client.apiKey)) →
      run.runId ∈
        ((NodeService.reconcile config projectId).run.run nodeMachine inputs w).2.1.workers
  /-- The project's slot is kept. -/
  slot_kept : ∀ run ∈ w.activeRuns projectId, ReportedLive answers run →
    w'.slots projectId = w.slots projectId
  /-- A second pass with the same answers appends no event and changes no run. -/
  repeatable : ∀ inputs : ℕ → NodeInput, (∀ n, Undisturbed answers (inputs n)) →
    ((reconcileProject projectId client).run.run nodeMachine inputs
      w').2.1.registry.contents.runEvents
        = w'.registry.contents.runEvents ∧
      ((reconcileProject projectId client).run.run nodeMachine inputs w').2.1.registry.contents.runs
        = w'.registry.contents.runs

/-- A successful pass keeps the runs the backend reports live, and can be repeated, exactly if
the backend reports none of the project's live runs as live: a run that is reported live is
parked, or adopted, again in every pass. -/
theorem reconcile_liveRunsKept_iff (ops : List RegistryOp) (slots : String → Option ActiveRun)
    (workers : List String) (draining : Bool) (config : NodeConfig)
    (answers : String → Except String (Option Value)) (projectId : String)
    (client : HermesClient) (inputs : ℕ → NodeInput) (outcomes : List Reconciliation)
    (hinputs : ∀ n, Undisturbed answers (inputs n))
    (hok : ((reconcileProject projectId client).run.run nodeMachine inputs
      ⟨Registry.empty.play ops, slots, workers, draining⟩).1 = .ok outcomes) :
    LiveRunsKept config answers projectId client
        ⟨Registry.empty.play ops, slots, workers, draining⟩
        ((reconcileProject projectId client).run.run nodeMachine inputs
          ⟨Registry.empty.play ops, slots, workers, draining⟩).2.1 ↔
      ∀ run ∈ (Registry.empty.play ops).contents.activeRuns projectId,
        ¬ReportedLive answers run := by
  generalize hw : (⟨Registry.empty.play ops, slots, workers, draining⟩ : World) = w at hok ⊢
  have hnumbered : w.registry.contents.JournalNumbered := by
    rw [← hw]
    exact Registry.play_journalNumbered Registry.empty_journalNumbered ops
  have hactive : (Registry.empty.play ops).contents.activeRuns projectId =
      w.activeRuns projectId := by rw [← hw]
  rw [hactive]
  have hpass := (reconcileProject_settles projectId client hnumbered).run_sequential hinputs
  generalize ((reconcileProject projectId client).run.run nodeMachine inputs w).2.1 = w' at hpass ⊢
  rw [hok] at hpass
  obtain ⟨_, hsettled⟩ : w'.slots projectId = none ∧
    Settled answers (w.activeRuns projectId) w { w' with slots := w.slots } := hpass
  constructor
  · intro hkept old hold hlive
    obtain ⟨run, hrun⟩ : ∃ run, run ∈ w'.activeRuns projectId := hsettled.still_live hold hlive
    have hcount : w'.registry.contents.JournalNumbered := hsettled.numbered
    have hall : ∀ run ∈ w'.activeRuns projectId, ReportedLive answers run ∧
        (run.status = .running ∨ run.status = .waitingForApproval ∨
          run.status = .recovering) := by
      intro run hrun
      obtain ⟨before, _, hreported, hhermes, hstatus⟩ := hsettled.live hrun
      refine ⟨?_, hstatus ▸ settledStatus_of_live hreported⟩
      obtain ⟨status, hstatus, hterminal⟩ := hreported
      refine ⟨status, ?_, hterminal⟩
      unfold reportedStatus at hstatus ⊢
      rw [hhermes]
      exact hstatus
    have hgrown := (reconcileProject_grows projectId client hcount hrun
      hall).run_sequential hinputs
    have hsame := (hkept.repeatable inputs hinputs).1
    unfold World.eventCount at hgrown
    rw [hsame] at hgrown
    exact Nat.lt_irrefl _ hgrown
  · intro hnone
    have hidle : w'.activeRuns projectId = [] := by
      refine List.eq_nil_iff_forall_not_mem.mpr fun run hrun => ?_
      obtain ⟨before, hbefore, hreported, _⟩ := hsettled.live hrun
      exact hnone before hbefore hreported
    refine ⟨fun run hrun hlive => absurd hlive (hnone run hrun),
      fun run hrun hlive => absurd hlive (hnone run hrun),
      fun run hrun hlive => absurd hlive (hnone run hrun), fun again hagain => ?_⟩
    have hsame := (reconcileProject_idle projectId client hidle).run_sequential hagain
    rw [hsame]
    exact ⟨rfl, rfl⟩

def followedRun : List RegistryOp :=
  let input : RegistryInput := ⟨fun _ => 0, "arun_1", true⟩
  [⟨.createRun ⟨"project", none, none, "hermes-loop", none, none, .null, none⟩, input⟩,
    ⟨.updateRun "arun_1" (.ofStatus .starting), input⟩,
    ⟨.updateRun "arun_1" ((RunUpdate.ofStatus .running).withHermesRunId "h1"), input⟩]

def followedWorld : World :=
  ⟨Registry.empty.play followedRun, fun _ => some ⟨"h1", none, 0⟩, [], false⟩

def loopbackClient : HermesClient := ⟨"http://127.0.0.1:8642", "0123456789abcdef"⟩

def answeredInput (answer : Option Value) : NodeInput :=
  { registry := ⟨fun _ => 1, "", true⟩, status := fun _ => .ok answer }

/-- The backend reports the run as running. The pass leaves it recovering and drops the slot,
the service attaches no worker, and a second pass appends another event. -/
theorem reconcileProject_parks_live_run :
    let inputs : ℕ → NodeInput := fun _ =>
      answeredInput (some (Value.obj [("status", .string "running")]))
    let pass := (reconcileProject "project" loopbackClient).run.run nodeMachine inputs followedWorld
    let again := (reconcileProject "project" loopbackClient).run.run nodeMachine inputs pass.2.1
    let service :=
      (NodeService.reconcile ⟨⟨0, 0⟩, 0, id⟩ "project").run.run nodeMachine inputs followedWorld
    followedWorld.runStatus "arun_1" = some .running ∧ pass.1 = .ok [] ∧
      pass.2.1.runStatus "arun_1" = some .recovering ∧ pass.2.1.slots "project" = none ∧
      service.2.1.workers = [] ∧ pass.2.1.eventCount = 1 ∧ again.2.1.eventCount = 2 ∧
      again.2.1.runStatus "arun_1" = some .running := by
  decide +kernel

/-- The exact condition, when the backend no longer knows the run. -/
theorem reconcile_lostRun_kept :
    Undisturbed (fun _ => .ok none) (answeredInput none) ∧
      LiveRunsKept ⟨⟨0, 0⟩, 0, id⟩ (fun _ => .ok none) "project" loopbackClient followedWorld
        ((reconcileProject "project" loopbackClient).run.run nodeMachine
          (fun _ => answeredInput none) followedWorld).2.1 := by
  have hinput : Undisturbed (fun _ => .ok none) (answeredInput none) := ⟨rfl, rfl, rfl, rfl⟩
  refine ⟨hinput, (reconcile_liveRunsKept_iff followedRun _ _ _ _ _ _ _ _
    [⟨"arun_1", .running, .lost, "Hermes no longer knows this run and no events were ever " ++
      "journalled"⟩] (fun _ => hinput) (by decide +kernel)).mpr ?_⟩
  rintro run - ⟨status, hstatus, -⟩
  unfold reportedStatus at hstatus
  cases hid : run.hermesRunId with
  | none =>
    rw [hid] at hstatus
    cases hstatus
  | some hermesRunId =>
    rw [hid] at hstatus
    cases hstatus

/-! # The status a worker observes -/

open Process

/-- A call and its answer, with the states before and after. -/
abbrev NodeStep := Step NodeCall World

def followedContext : WorkerContext :=
  ⟨"project", "arun_1", loopbackClient.baseUrl, loopbackClient.apiKey, ⟨0, 0⟩, 3⟩

/-- The run and the type of a backend event that is to be journalled. -/
def streamEvent : Event NodeCall → Option (String × String)
  | ⟨_, .registry (.appendEvent runId event _), _⟩ =>
    if event.source = .hermes then some (runId, event.eventType) else none
  | _ => none

/-- The append stored the event now. -/
def AppendOutcome.isNew : Except RegistryError AppendOutcome → Bool
  | .ok (.appended _) => true
  | _ => false

theorem AppendOutcome.isNew_iff {answer : Except RegistryError AppendOutcome} :
    isNew answer = true ↔ ∃ seq, answer = .ok (.appended seq) := by
  cases answer with
  | error e => exact ⟨nofun, nofun⟩
  | ok outcome =>
    cases outcome with
    | appended seq => exact ⟨fun _ => ⟨seq, rfl⟩, fun _ => rfl⟩
    | duplicate seq => exact ⟨nofun, nofun⟩

/-- The run and the type of a backend event that is stored now. -/
def storedEvent : Event NodeCall → Option (String × String)
  | ⟨_, .registry (.appendEvent runId event _), answer⟩ =>
    if event.source = .hermes ∧ AppendOutcome.isNew answer then some (runId, event.eventType)
    else none
  | _ => none

/-- The event shows that the backend is at work. -/
def ShowsWork (eventType : String) : Prop := Text.startsWith eventType "approval." = false

instance (eventType : String) : Decidable (ShowsWork eventType) :=
  inferInstanceAs (Decidable (_ = _))

/-- Of the events handled so far, the latest one that says something about the status is an
approval request. -/
def awaits (runId : String) : List NodeStep → Prop
  | [] => False
  | step :: history =>
    match streamEvent step.toEvent with
    | some (id, eventType) =>
      if id = runId ∧ eventType = "approval.request" then True
      else if id = runId ∧ ShowsWork eventType then False
      else awaits runId history
    | none => awaits runId history

/-- The run has not ended when the step begins. -/
def LiveBefore (runId : String) (step : NodeStep) : Prop :=
  ∀ status, step.before.runStatus runId = some status → status.isTerminal = false

/-- After a newly stored event the stored status of a live run is the one the event implies. -/
def StatusFollows (runId : String) (step : NodeStep) : Prop :=
  ∀ eventType, storedEvent step.toEvent = some (runId, eventType) → LiveBefore runId step →
    (eventType = "approval.request" →
      step.after.runStatus runId = some .waitingForApproval) ∧
    (ShowsWork eventType → step.after.runStatus runId = some .running)

/-- A newly stored event that shows work finds the run running, or the worker has just handled
an approval request. -/
def Prepared (runId : String) (history : List NodeStep) (step : NodeStep) : Prop :=
  ∀ eventType, storedEvent step.toEvent = some (runId, eventType) → LiveBefore runId step →
    ShowsWork eventType → step.before.runStatus runId = some .running ∨ awaits runId history

/-- The two conditions agree on the step. -/
abbrev Conforms (runId : String) (history : List NodeStep) (step : NodeStep) : Prop :=
  StatusFollows runId step ↔ Prepared runId history step

section Silent

def Silent {γ : Type} (call : NodeCall γ) : Prop :=
  ∀ answer, streamEvent ⟨γ, call, answer⟩ = none

theorem storedEvent_eq_none {event : Event NodeCall} (h : streamEvent event = none) :
    storedEvent event = none := by
  obtain ⟨γ, call, answer⟩ := event
  cases call with
  | registry op =>
    cases op with
    | appendEvent runId journal update =>
      have hsource : journal.source ≠ .hermes := by
        intro hsource
        cases (if_pos hsource).symm.trans h
      exact if_neg fun hstored => hsource hstored.1
    | _ => rfl
  | _ => rfl

theorem conforms_of_not_stored {runId : String} {history : List NodeStep} {step : NodeStep}
    (h : storedEvent step.toEvent = none) : Conforms runId history step := by
  refine iff_of_true (fun eventType hstored => ?_) fun eventType hstored => ?_
  · rw [h] at hstored
    cases hstored
  · rw [h] at hstored
    cases hstored

theorem act_silent {γ : Type} {call : RegistryCall γ} (h : Silent (.registry call)) :
    (Act.registry call).run.All Silent :=
  Attempt.all_mapError (Attempt.all_attempt h)

theorem requestApproval_all (context : WorkerContext) (hermesRunId : String)
    (event : NormalizedEvent) (requestSeq : ℕ) :
    (requestApproval context hermesRunId event requestSeq).run.All Silent := by
  have hresolution (enabledBy : Option String) :
      (Attempt.spawn (autoResolution context hermesRunId requestSeq enabledBy) :
        Act Unit).run.All Silent := by
    refine Attempt.all_spawn ?_
    unfold autoResolution
    split
    · trivial
    · refine ⟨fun _ => rfl, fun response => ⟨fun _ => rfl, fun appended => ?_⟩⟩
      cases appended with
      | error e => trivial
      | ok outcome => exact ⟨fun _ => rfl, fun _ => trivial⟩
  refine Attempt.all_bind (act_silent fun _ => rfl) fun _ => ?_
  refine Attempt.all_bind (act_silent fun _ => rfl) fun state => ?_
  split
  · refine Attempt.all_bind (act_silent fun _ => rfl) fun claimed => ?_
    split
    · exact hresolution state.enabledBy
    · trivial
  · trivial

theorem finalize_all (runId : String) (status : RunStatus) (update : RunUpdate)
    (fields : List (String × Value)) : (finalize runId status update fields).run.All Silent := by
  refine Attempt.all_bind (act_silent fun _ => rfl) fun _ => ?_
  refine Attempt.all_bind (act_silent fun _ => rfl) fun record => ?_
  cases record with
  | none => trivial
  | some record => trivial

theorem settle_all (context : WorkerContext) {ending : Act RunRecord} (h : ending.run.All Silent) :
    (settle context ending).run.All Silent := by
  refine Attempt.all_bind (Attempt.all_observe h) fun record => ?_
  refine Attempt.all_bind (Attempt.all_attempt fun _ => rfl) fun _ => ?_
  exact Attempt.all_bind (Attempt.all_attempt fun _ => rfl) fun _ => trivial

theorem noteProgress_all (context : WorkerContext) (state : FollowState) :
    (noteProgress context state).run.All Silent := by
  refine Attempt.all_bind (act_silent fun _ => rfl) fun record => ?_
  dsimp only
  split
  · exact Attempt.all_bind (Attempt.all_ask fun _ => rfl) fun now => trivial
  · trivial

end Silent

/-- The worker remembers a wait exactly when the events it has handled say so. -/
def Watches (runId : String) (state : FollowState) (hs : List NodeStep × World) : Prop :=
  awaits runId hs.1 ↔ state.observedStatus = .waitingForApproval

/-- The contract of a worker that follows a run, with the steps it takes. -/
abbrev watchContract (runId : String) : Contract NodeCall NodeInput (List NodeStep × World) :=
  nodeMachine.alone (fun _ _ => True) (Conforms runId)

variable {state : FollowState} {hs : List NodeStep × World}

/-- A procedure without backend events conforms, and keeps what the worker remembers. -/
theorem watches_of_all {α : Type} {p : Program NodeCall α} (hp : p.All Silent) {runId : String}
    (h : Watches runId state hs) :
    p.Meets (watchContract runId) nodeMachine.recording
      (fun _ ht => Watches runId state ht) hs := by
  refine Program.Meets.of_all (Watches runId state) ?_
    (fun call hsilent input ht hwatches _ => ?_) hp h
  · rintro hs ht hs_watches rfl
    exact hs_watches
  have hnone : streamEvent (nodeMachine.step call input ht.2).toEvent = none := hsilent _
  refine ⟨conforms_of_not_stored (storedEvent_eq_none hnone), Iff.trans ?_ hwatches⟩
  show awaits runId (nodeMachine.step call input ht.2 :: ht.1) ↔ _
  rw [awaits, hnone]

theorem ne_request {eventType : String} (h : ShowsWork eventType) :
    eventType ≠ "approval.request" := by
  rintro rfl
  revert h
  decide

theorem observed_waiting_iff (eventType : String) (current : RunStatus) :
    (statusUpdateFor eventType current).getD current = .waitingForApproval ↔
      eventType = "approval.request" ∨
        ¬ShowsWork eventType ∧ current = .waitingForApproval := by
  unfold statusUpdateFor ShowsWork
  by_cases hrequest : eventType = "approval.request"
  · simp [hrequest]
  · by_cases hcurrent : current = .waitingForApproval
    · cases hprefix : Text.startsWith eventType "approval." <;> simp [hrequest, hcurrent]
    · simp [hrequest, hcurrent]

theorem awaits_cons_iff {runId eventType : String} {step : NodeStep}
    (h : streamEvent step.toEvent = some (runId, eventType)) (history : List NodeStep) :
    awaits runId (step :: history) ↔
      eventType = "approval.request" ∨ ¬ShowsWork eventType ∧ awaits runId history := by
  rw [awaits, h]
  by_cases hrequest : eventType = "approval.request"
  · simp [hrequest]
  · by_cases hwork : ShowsWork eventType
    · simp [hrequest, hwork]
    · simp [hrequest, hwork]

theorem status_of_stored {runId : String} {event : NormalizedEvent} {update : Option RunStatus}
    {input : NodeInput} {w : World} {step : NodeStep} {named : String × String}
    (hstep : nodeMachine.step (.registry (.appendEvent runId event.journal
      (update.map RunUpdate.ofStatus))) input w = step)
    (hstored : storedEvent step.toEvent = some named) :
    named = (runId, event.eventType) ∧
      step.after.runStatus runId = update.or (step.before.runStatus runId) := by
  subst hstep
  have hnamed : (if event.journal.source = .hermes ∧ AppendOutcome.isNew
      ((RegistryCall.appendEvent runId event.journal (update.map RunUpdate.ofStatus)).exec
        input.registry w.registry).1 then some (runId, event.journal.eventType) else none) =
      some named := hstored
  split_ifs at hnamed with hnew
  refine ⟨(Option.some.inj hnamed).symm, ?_⟩
  obtain ⟨seq, hseq⟩ := AppendOutcome.isNew_iff.mp hnew.2
  have happend := RegistryCall.exec_ok (Prod.ext hseq rfl)
  obtain ⟨row, hrow, _⟩ := appendEvent_ok happend
  obtain ⟨_, row', hrow', hchange⟩ := appendEvent_stored happend hrow
  have hbefore : w.runStatus runId = some row.status := congrArg (Option.map _) hrow
  refine (congrArg (Option.map fun row => row.status) hrow').trans ?_
  show some row'.status = update.or (w.runStatus runId)
  rw [hbefore]
  rcases hchange with ⟨hnone, hsame⟩ | ⟨u, now, hu, _, hsame⟩
  · rw [Option.map_eq_none_iff.mp hnone, Option.none_or, hsame.status_eq]
  · obtain ⟨status, rfl, rfl⟩ := Option.map_eq_some_iff.mp hu
    rw [Option.some_or, hsame.status_eq]
    rfl

/-- An event journalled with the status it implies for a worker conforms. -/
theorem conforms_append {runId : String} {history : List NodeStep} {current : RunStatus}
    (hwait : awaits runId history ↔ current = .waitingForApproval) (event : NormalizedEvent)
    (input : NodeInput) (w : World) :
    Conforms runId history (nodeMachine.step (.registry (.appendEvent runId event.journal
      ((statusUpdateFor event.eventType current).map RunUpdate.ofStatus))) input w) := by
  generalize hstep : nodeMachine.step (.registry (.appendEvent runId event.journal
    ((statusUpdateFor event.eventType current).map RunUpdate.ofStatus))) input w = step
  cases hnew : storedEvent step.toEvent with
  | none => exact conforms_of_not_stored hnew
  | some named =>
    obtain ⟨rfl, hafter⟩ := status_of_stored hstep hnew
    have hwaiting (hcurrent : current = .waitingForApproval) (hwork : ShowsWork event.eventType) :
        statusUpdateFor event.eventType current = some .running := by
      rw [statusUpdateFor, if_neg (ne_request hwork), if_pos]
      simp only [hcurrent, decide_true, Bool.true_and, Bool.not_eq_true']
      exact hwork
    have hother (hcurrent : current ≠ .waitingForApproval) (hwork : ShowsWork event.eventType) :
        statusUpdateFor event.eventType current = none := by
      rw [statusUpdateFor, if_neg (ne_request hwork), if_neg]
      simp [hcurrent]
    have htype {eventType : String} (hstored : storedEvent step.toEvent = some (runId, eventType)) :
        event.eventType = eventType :=
      congrArg Prod.snd (Option.some.inj (hnew.symm.trans hstored))
    refine ⟨fun hfollows eventType hstored hlive hwork => ?_,
      fun hprepared eventType hstored hlive => ⟨fun hrequest => ?_, fun hwork => ?_⟩⟩
    · obtain rfl := htype hstored
      by_cases hcurrent : current = .waitingForApproval
      · exact .inr (hwait.mpr hcurrent)
      · left
        rw [hother hcurrent hwork, Option.none_or] at hafter
        rw [← hafter]
        exact (hfollows _ hnew hlive).2 hwork
    · obtain rfl := htype hstored
      rw [hafter, statusUpdateFor, if_pos hrequest, Option.some_or]
    · obtain rfl := htype hstored
      by_cases hcurrent : current = .waitingForApproval
      · rw [hafter, hwaiting hcurrent hwork, Option.some_or]
      · rw [hafter, hother hcurrent hwork, Option.none_or]
        refine (hprepared _ hnew hlive hwork).resolve_right fun hawaits => ?_
        exact hcurrent (hwait.mp hawaits)

theorem onEvent_watches (context : WorkerContext) (hermesRunId : String) (event : SseEvent)
    (h : Watches context.runId state hs) :
    (onEvent context hermesRunId state event).Meets (watchContract context.runId)
      nodeMachine.recording (fun handled ht => Watches context.runId handled.1 ht) hs := by
  rintro t rfl input -
  refine ⟨conforms_append h (normalizeEvent event) input hs.2, ?_⟩
  have hnext (message : Option String) : Watches context.runId
      { state with
        observedStatus := (statusUpdateFor (normalizeEvent event).eventType
          state.observedStatus).getD state.observedStatus
        failureMessage := message }
      (nodeMachine.recording.exec (.registry (.appendEvent context.runId
        (normalizeEvent event).journal ((statusUpdateFor (normalizeEvent event).eventType
          state.observedStatus).map RunUpdate.ofStatus))) input hs).2 := by
    refine (awaits_cons_iff rfl _).trans (Iff.trans ?_ (observed_waiting_iff _ _).symm)
    exact or_congr Iff.rfl (and_congr Iff.rfl h)
  generalize (nodeMachine.recording.exec _ input hs).1 = appended
  cases appended with
  | error error => exact hnext _
  | ok outcome =>
    show Program.Meets _ _ (ite _ _ _) _ _
    split
    · refine (Program.meets_bind _ _ _ _).mpr ?_
      exact watches_of_all (requestApproval_all context hermesRunId _ outcome.seq) (hnext _)
    · exact hnext _

theorem onEvents_watches (context : WorkerContext) (hermesRunId : String) (events : List SseEvent)
    (h : Watches context.runId state hs) :
    (onEvents context hermesRunId state events).Meets (watchContract context.runId)
      nodeMachine.recording (fun handled ht => Watches context.runId handled.1 ht) hs := by
  induction events generalizing state hs with
  | nil => exact h
  | cons event events ih =>
    refine (Program.meets_bind _ _ _ _).mpr
      ((onEvent_watches context hermesRunId event h).mono fun handled ht hhandled => ?_)
    split
    · exact hhandled
    · exact ih hhandled

theorem noteProgress_returns (context : WorkerContext) (state : FollowState) :
    (noteProgress context state).run.Returns fun result =>
      ∀ noted, result = .ok noted → noted.observedStatus = state.observedStatus := by
  intro answer
  cases answer with
  | error e => rintro noted ⟨⟩
  | ok record =>
    show Program.Returns _ (ExceptT.run (ite _ _ _))
    split
    · rintro now noted ⟨⟩
      rfl
    · rintro noted ⟨⟩
      rfl

/-- Noting progress conforms, and keeps what the worker remembers. -/
theorem noteProgress_watches {context : WorkerContext} (h : Watches context.runId state hs) :
    (noteProgress context state).run.Meets (watchContract context.runId) nodeMachine.recording
      (Attempt.onOk fun noted ht => Watches context.runId noted ht) hs := by
  have hnoted := Program.Meets.returns (watches_of_all (noteProgress_all context state) h)
    (noteProgress_returns context state)
  refine hnoted.mono ?_
  rintro (e | noted) ht ⟨hkept, hsame⟩
  · trivial
  · have hstatus : noted.observedStatus = state.observedStatus := hsame noted rfl
    refine Iff.trans hkept ?_
    rw [hstatus]

theorem ask_watches {γ : Type} {call : NodeCall γ} (hsilent : Silent call) {runId : String}
    (h : Watches runId state hs) :
    (Attempt.ask call : Act γ).run.Meets (watchContract runId) nodeMachine.recording
      (Attempt.onOk fun _ ht => Watches runId state ht) hs := by
  have hall : (Program.perform call).All Silent := ⟨hsilent, fun _ => trivial⟩
  exact Attempt.meets_lift (watches_of_all hall h)

theorem settle_watches {context : WorkerContext} {ending : Act RunRecord}
    (hending : ending.run.All Silent) (h : Watches context.runId state hs) :
    (settle context ending).run.Meets (watchContract context.runId) nodeMachine.recording
      (Attempt.onOk fun _ _ => True) hs :=
  (watches_of_all (settle_all context hending) h).mono fun result ht _ =>
    Attempt.onOk_true result ht

/-- Following a run conforms at every step. -/
theorem followLoop_watches (context : WorkerContext) (client : HermesClient) (hermesRunId : String)
    (reconnects : ℕ) (h : Watches context.runId state hs) :
    (followLoop context client hermesRunId reconnects state).run.Meets
      (watchContract context.runId) nodeMachine.recording (Attempt.onOk fun _ _ => True) hs := by
  induction reconnects generalizing state hs with
  | zero => trivial
  | succ reconnects ih =>
    refine Attempt.meets_bind (ask_watches (fun _ => rfl) h) fun stream ht h => ?_
    refine Attempt.meets_bind
      (Attempt.meets_lift (onEvents_watches context hermesRunId stream.events h))
      fun handled ht h => ?_
    refine Attempt.meets_bind (ask_watches (fun _ => rfl) h) fun answer ht h => ?_
    dsimp only
    split
    · exact settle_watches (finalize_all _ _ _ _) h
    · split
      · exact settle_watches (finalize_all _ _ _ _) h
      · refine Attempt.meets_bind (noteProgress_watches h) fun noted ht h => ?_
        refine Attempt.meets_bind (ask_watches (fun _ => rfl) h) fun now ht h => ?_
        split
        · exact settle_watches (finalize_all _ _ _ _) h
        · exact ih h

/-- Along every execution that follows a run, the stored status is after each newly stored event
the one the event implies, exactly if each event that shows work finds the run running or comes
after an approval request. -/
theorem followToTerminal_status_iff (context : WorkerContext) (client : HermesClient)
    (hermesRunId : String) (w : World) (inputs : ℕ → NodeInput) :
    let history := (followToTerminal context client hermesRunId).run.history nodeMachine inputs w
    Upheld (fun _ => StatusFollows context.runId) history ↔
      Upheld (Prepared context.runId) history := by
  have hstart : Watches context.runId { lastProgress := 0, lastSeq := 0 } ([], w) :=
    ⟨False.elim, nofun⟩
  have hmeets : (followToTerminal context client hermesRunId).run.Meets
      (watchContract context.runId) nodeMachine.recording (Attempt.onOk fun _ _ => True)
      ([], w) := by
    refine Attempt.meets_bind (ask_watches (fun _ => rfl) hstart) fun now ht h => ?_
    refine Attempt.meets_bind (Attempt.meets_onOk (watches_of_all (act_silent fun _ => rfl) h))
      fun found ht h => ?_
    exact followLoop_watches context client hermesRunId context.reconnects h
  have hall : Upheld (fun _ _ => True)
      ((followToTerminal context client hermesRunId).run.history nodeMachine inputs w) :=
    Program.upheld_history (fun _ _ _ _ => trivial) _ _
  exact (hmeets.run_alone trivial inputs hall).1.iff_of_forall

/-- A run that a reconciliation left recovering, or that waits for an approval, stays so while
its worker stores events that show work. -/
theorem workShown_status_kept :
    let stream : EventStream := ⟨[⟨some "tool.started", "\x7b\x7d", some (.obj [])⟩], none⟩
    let inputs : ℕ → NodeInput := fun _ =>
      { registry := ⟨fun _ => 1, "", true⟩
        stream
        status := fun _ => .ok (some (Value.obj [("status", .string "completed")])) }
    let world (status : RunStatus) : World := { followedWorld with
      registry := followedWorld.registry.play
        [⟨.updateRun "arun_1" (.ofStatus status), ⟨fun _ => 0, "", true⟩⟩] }
    let statuses (status : RunStatus) :=
      ((followToTerminal followedContext loopbackClient "h1").run.history nodeMachine inputs
        (world status)).filterMap fun step =>
          (storedEvent step.toEvent).map fun named => (named.2, step.after.runStatus "arun_1")
    statuses .recovering = [("tool.started", some .recovering)] ∧
      statuses .waitingForApproval = [("tool.started", some .waitingForApproval)] ∧
      statuses .running = [("tool.started", some .running)] := by
  decide +kernel

end Asterism
