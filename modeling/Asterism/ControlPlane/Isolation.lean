import Asterism.ControlPlane.Finality

/-!
# Which frames of a Node reach rows of another Node

The acceptance and the result of a command are applied to the command they name, whichever Node
sends them. This file determines exactly when such a frame keeps to the rows of its sender: the
command is the sender's, or the tables of commands, runs, projects and update operations have
nothing left to change for it.
-/

namespace Asterism.ControlPlane

/-- Every run belongs to the Node of the command that created it. -/
def OwnRuns (db : Database) : Prop :=
  ∀ run ∈ db.runs, ∀ row ∈ db.commands, run.createCommandId = some row.commandId →
    run.nodeId = row.nodeId

instance : DecidablePred OwnRuns := fun db => inferInstanceAs (Decidable (∀ run ∈ db.runs, _))

/-- A frame about a command. -/
inductive CommandFrame
  | accepted (payload : Value)
  | result (payload : Value)
  deriving DecidableEq

def CommandFrame.envelope : CommandFrame → Envelope
  | accepted payload => ⟨"client.command.accepted", none, payload⟩
  | result payload => ⟨"client.command.result", none, payload⟩

/-- The command that a frame names, if it is stored. -/
def CommandFrame.named (config : ChannelConfig) (db : Database) :
    CommandFrame → Option CommandRecord
  | accepted payload => (acceptedCommand config payload).bind db.commandById
  | result payload => (CommandResult.schema payload).bind fun r => db.commandById r.commandId

/-- What a frame of a Node may do: rows addressed to other Nodes stay as they are, and a frame
that names a command of another Node changes nothing. -/
structure Isolated (nodeId : String) (named : Option CommandRecord) (db db' : Database) :
    Prop where
  commands : ∀ row, row.nodeId ≠ nodeId → (row ∈ db'.commands ↔ row ∈ db.commands)
  runs : ∀ run, run.nodeId ≠ nodeId → (run ∈ db'.runs ↔ run ∈ db.runs)
  foreign : ∀ row ∈ named, row.nodeId ≠ nodeId → db' = db

/-- Refusing the run again would change nothing. -/
structure RunRecord.IsRejected (run : RunRecord) (result : CommandResult) : Prop where
  status : run.status = "failed"
  finished : run.finishedAt ≠ none
  terminalReason : run.terminalReason = some "Node rejected run creation"
  errorCode : run.errorCode = some (result.errorCode.getD "command_failed")
  errorMessage : run.errorMessage = some (result.errorMessage.getD "run creation command failed")

/-- Starting the run again would change nothing. -/
structure RunRecord.IsStarted (run : RunRecord) (commandType : String) (result : CommandResult)
    (nodeRunId : String) : Prop where
  status : run.status = "running"
  nodeRunId : run.nodeRunId = some nodeRunId
  started : run.startedAt ≠ none
  subscribed : run.subscribed = true
  model : commandType = "runs.create" → run.model = none → textField result.result "model" = none

/-- The outcome of a command has no run left to change. -/
structure RunIdle (db : Database) (row : CommandRecord) (result : CommandResult) : Prop where
  run : startsRun row.commandType = true → ∀ run ∈ db.byCreateCommand row.commandId,
    if result.state = "completed" then
      ∀ nodeRunId ∈ textField result.result "run_id",
        run.IsStarted row.commandType result nodeRunId
    else run.IsRejected result
  approval : row.commandType = "approvals.resolve" → result.state = "completed" →
    ∀ nodeRunId ∈ jsonText row.requestPayload "run_id",
      ∀ run ∈ db.byNodeRunId row.nodeId nodeRunId, run.status ≠ "waiting_for_approval"

/-- The outcome of a command has nothing left to change: no command is queued after it, no run
changes, its project does not wait for the answer, and no update waits to be accepted. -/
structure OutcomeIdle (db : Database) (row : CommandRecord) (result : CommandResult)
    (input : SqlInput) : Prop extends RunIdle db row result where
  followUp : followUpRecord row.nodeId row.commandType result.state input = none
  project : ∀ verdict ∈ projectVerdict row.commandType row.requestPayload result,
    db.ledger.awaits row.nodeId verdict = false
  update : ∀ operationId ∈ startedUpdate row result, ∀ operation ∈ db.ledger.updates,
    operation.operationId = operationId → operation.stage ≠ .queued

/-- A frame about this command has nothing left to change, or the database refuses it. -/
def CommandFrame.Idle (db : Database) (row : CommandRecord) (input : SqlInput) :
    CommandFrame → Prop
  | accepted _ => row.state.isUnaccepted = false
  | result payload => ∀ r ∈ CommandResult.schema payload,
      Refused db row r input ∨ row.state.isOpen = false ∧ OutcomeIdle db row r input

/-- Refusing a run again changes nothing exactly if it was refused in this way before. -/
theorem RunRecord.rejected_eq_self_iff (run : RunRecord) (result : CommandResult) (now : ℕ) :
    run.withStatus "failed" result.rejection now = run ↔ run.IsRejected result := by
  constructor
  · intro h
    refine ⟨?_, ?_, ?_, ?_, ?_⟩ <;> rw [← h]
    · rfl
    · exact nofun
    · rfl
    · rfl
    · rfl
  · rintro ⟨hstatus, hfinished, hreason, hcode, hmessage⟩
    obtain ⟨finishedAt, hat⟩ := Option.ne_none_iff_exists'.mp hfinished
    cases run
    simp only at hstatus hreason hcode hmessage hat
    subst hstatus hreason hcode hmessage hat
    rfl

/-- Starting a run again changes nothing exactly if it was started in this way before. -/
theorem RunRecord.started_eq_self_iff (run : RunRecord) (commandType : String)
    (result : CommandResult) (nodeRunId : String) (now : ℕ) :
    run.started commandType result nodeRunId now = run ↔
      run.IsStarted commandType result nodeRunId := by
  constructor
  · intro h
    refine ⟨?_, ?_, ?_, ?_, fun hcreate hmodel => ?_⟩
    · rw [← h]
      rfl
    · rw [← h]
      rfl
    · rw [← h]
      exact nofun
    · rw [← h]
      rfl
    · have hnew := congrArg RunRecord.model h
      simp only [RunRecord.started, hcreate, if_true, hmodel] at hnew
      simpa using hnew
  · rintro ⟨hstatus, hname, hstarted, hsubscribed, hmodel⟩
    obtain ⟨startedAt, hat⟩ := Option.ne_none_iff_exists'.mp hstarted
    cases run
    rename_i model
    simp only at hstatus hname hat hsubscribed hmodel
    subst hstatus hname hat hsubscribed
    simp only [RunRecord.started, RunRecord.attach, Option.getD_some, RunRecord.mk.injEq, true_and]
    split
    · rename_i hcreate
      cases model with
      | some model => rfl
      | none => exact hmodel hcreate rfl
    · rfl

section Result

variable {db : Database} {row : CommandRecord} {result : CommandResult} {input : SqlInput}

/-- The outcome of a command leaves the runs as they were exactly if the change it makes
leaves its run as it was. -/
theorem changedRuns_eq_iff (hvalid : db.Valid) (now : ℕ)
    (hrun : ∀ change ∈ runChange db row result now, change.1 ∈ db.runs) :
    changedRuns db row result now = db.runs ↔
      ∀ change ∈ runChange db row result now, change.2 change.1 = change.1 := by
  unfold changedRuns
  cases hchange : runChange db row result now with
  | none => exact iff_of_true rfl Table.forall_mem_none
  | some change =>
    simp only [Option.mem_some_iff, forall_eq']
    exact updateRun_runs_eq_iff hvalid (hrun change hchange) change.2

theorem runChange_mem {now : ℕ} {change : RunRecord × (RunRecord → RunRecord)}
    (h : runChange db row result now = some change) : change.1 ∈ db.runs := by
  unfold runChange at h
  split at h
  · split at h
    · obtain ⟨run, hrun, rfl⟩ := Option.map_eq_some_iff.mp h
      exact (Database.byCreateCommand_spec hrun).1
    · obtain ⟨nodeRunId, -, hrest⟩ := Option.bind_eq_some_iff.mp h
      obtain ⟨run, hrun, rfl⟩ := Option.map_eq_some_iff.mp hrest
      exact (Database.byCreateCommand_spec hrun).1
  · split at h
    · obtain ⟨nodeRunId, -, hrest⟩ := Option.bind_eq_some_iff.mp h
      obtain ⟨run, hrun, rfl⟩ := Option.map_eq_some_iff.mp hrest
      exact (Database.byNodeRunId_spec (Option.filter_eq_some_iff.mp hrun).1).1
    · cases h

theorem runChange_started_iff (hstarts : startsRun row.commandType = true) :
    (∀ change ∈ runChange db row result input.now, change.2 change.1 = change.1) ↔
      ∀ run ∈ db.byCreateCommand row.commandId,
        if result.state = "completed" then
          ∀ nodeRunId ∈ textField result.result "run_id",
            run.IsStarted row.commandType result nodeRunId
        else run.IsRejected result := by
  rw [runChange, if_pos hstarts]
  by_cases hstate : result.state = "completed"
  · simp only [hstate, ne_eq, not_true, if_false, if_true, Option.mem_def,
      Option.bind_eq_some_iff, Option.map_eq_some_iff]
    constructor
    · intro h run hrun nodeRunId hname
      exact (RunRecord.started_eq_self_iff _ _ _ _ _).mp (h _ ⟨nodeRunId, hname, run, hrun, rfl⟩)
    · rintro h change ⟨nodeRunId, hname, run, hrun, rfl⟩
      exact (RunRecord.started_eq_self_iff _ _ _ _ _).mpr (h run hrun nodeRunId hname)
  · simp only [hstate, ne_eq, not_false_eq_true, if_true, if_false, Option.mem_def,
      Option.map_eq_some_iff]
    constructor
    · intro h run hrun
      exact (RunRecord.rejected_eq_self_iff _ _ _).mp (h _ ⟨run, hrun, rfl⟩)
    · rintro h change ⟨run, hrun, rfl⟩
      exact (RunRecord.rejected_eq_self_iff _ _ _).mpr (h run hrun)

theorem runChange_approval_iff (hstarts : startsRun row.commandType = false) :
    (∀ change ∈ runChange db row result input.now, change.2 change.1 = change.1) ↔
      (row.commandType = "approvals.resolve" → result.state = "completed" →
        ∀ nodeRunId ∈ jsonText row.requestPayload "run_id",
          ∀ run ∈ db.byNodeRunId row.nodeId nodeRunId, run.status ≠ "waiting_for_approval") := by
  rw [runChange, hstarts, if_neg Bool.false_ne_true]
  by_cases happroval : row.commandType = "approvals.resolve" ∧ result.state = "completed"
  · rw [if_pos happroval]
    simp only [Option.mem_def, Option.bind_eq_some_iff, Option.map_eq_some_iff,
      Option.filter_eq_some_iff, decide_eq_true_eq]
    constructor
    · intro h _ _ nodeRunId hname run hrun hwaiting
      -- A run that waits for an approval would be running afterwards.
      have hsame := congrArg RunRecord.status (h _ ⟨nodeRunId, hname, run, ⟨hrun, hwaiting⟩, rfl⟩)
      rw [hwaiting] at hsame
      exact absurd (show "running" = "waiting_for_approval" from hsame) (by decide)
    · rintro h change ⟨nodeRunId, hname, run, ⟨hrun, hwaiting⟩, rfl⟩
      exact absurd hwaiting (h happroval.1 happroval.2 nodeRunId hname run hrun)
  · rw [if_neg happroval]
    exact iff_of_true Table.forall_mem_none fun htype hstate => absurd ⟨htype, hstate⟩ happroval

theorem changedRuns_eq_self_iff (hvalid : db.Valid) :
    changedRuns db row result input.now = db.runs ↔ RunIdle db row result := by
  rw [changedRuns_eq_iff hvalid _ fun change => runChange_mem]
  cases hstarts : startsRun row.commandType with
  | true =>
    have happroval : row.commandType ≠ "approvals.resolve" := by
      intro htype
      rw [htype] at hstarts
      exact absurd hstarts (by decide)
    rw [runChange_started_iff hstarts]
    exact ⟨fun h => ⟨fun _ => h, fun htype => absurd htype happroval⟩, fun h => h.run hstarts⟩
  | false =>
    rw [runChange_approval_iff hstarts]
    refine ⟨fun h => ⟨fun hstarted => ?_, h⟩, fun h => h.approval⟩
    rw [hstarts] at hstarted
    cases hstarted

/-- The tables of projects stay as they are exactly if the project does not wait for the answer:
otherwise the answer is put on record. -/
theorem answered_eq_self_iff (ledger : Ledger) :
    ledger.answered row result = ledger ↔
      ∀ verdict ∈ projectVerdict row.commandType row.requestPayload result,
        ledger.awaits row.nodeId verdict = false := by
  rw [Ledger.answered]
  cases projectVerdict row.commandType row.requestPayload result with
  | none => exact iff_of_true rfl Table.forall_mem_none
  | some verdict =>
    simp only [Option.map_some, Option.getD_some, Option.mem_some_iff, forall_eq', Ledger.settle]
    cases ledger.awaits row.nodeId verdict with
    | false => exact iff_of_true rfl rfl
    | true =>
      refine iff_of_false (fun h => ?_) Bool.noConfusion
      have hlength := congrArg (fun l : Ledger => l.audit.length) h
      simp at hlength

/-- The table of updates stays as it is exactly if the operation is not queued. -/
theorem acceptUpdate_eq_self_iff (ledger : Ledger) (operationId : String) :
    ledger.acceptUpdate operationId = ledger ↔
      ∀ operation ∈ ledger.updates, operation.operationId = operationId →
        operation.stage ≠ .queued := by
  have htables : ledger.acceptUpdate operationId = ledger ↔
      (ledger.acceptUpdate operationId).updates = ledger.updates :=
    ⟨fun h => congrArg Ledger.updates h,
      fun h => congrArg (fun updates => { ledger with updates := updates }) h⟩
  rw [htables]
  refine Table.updateWhere_eq_self_iff.trans (forall₂_congr fun operation _ => ?_)
  simp only [Bool.and_eq_true, decide_eq_true_eq, and_imp]
  refine forall_congr' fun _ => ⟨fun h hqueued => ?_, fun h hqueued => absurd hqueued h⟩
  -- A queued operation would be accepted afterwards.
  have hstage := congrArg UpdateRow.stage (h hqueued)
  rw [hqueued] at hstage
  exact absurd hstage nofun

theorem ledgerApplied_eq_self_iff (ledger : Ledger) :
    ledger.applied row result = ledger ↔
      (∀ verdict ∈ projectVerdict row.commandType row.requestPayload result,
        ledger.awaits row.nodeId verdict = false) ∧
      ∀ operationId ∈ startedUpdate row result, ∀ operation ∈ ledger.updates,
        operation.operationId = operationId → operation.stage ≠ .queued := by
  rw [Ledger.applied]
  cases hstarted : startedUpdate row result with
  | none =>
    rw [answered_eq_self_iff]
    exact (and_iff_left Table.forall_mem_none).symm
  | some operationId =>
    have htype : row.commandType = "node.update" :=
      (Option.ite_none_right_eq_some.mp hstarted).1.1
    have hsame : ledger.answered row result = ledger :=
      answered_of_not_project ledger (by rw [htype]; decide)
    simp only [Option.mem_some_iff, forall_eq']
    rw [hsame, acceptUpdate_eq_self_iff, and_iff_right ((answered_eq_self_iff ledger).mp hsame)]

theorem applied_eq_self_iff (hvalid : db.Valid) :
    db.applied row result input = db ↔ OutcomeIdle db row result input := by
  cases hnext : followUpRecord row.nodeId row.commandType result.state input with
  | some next =>
    refine iff_of_false (fun h => ?_) fun h => ?_
    · have hlength := congrArg (fun d : Database => d.commands.length) h
      simp [Database.applied, Database.outcome, hnext] at hlength
    · exact Option.some_ne_none next (hnext.symm.trans h.followUp)
  | none =>
    have hidle : OutcomeIdle db row result input ↔
        changedRuns db row result input.now = db.runs ∧
          db.ledger.applied row result = db.ledger := by
      rw [changedRuns_eq_self_iff hvalid, ledgerApplied_eq_self_iff]
      exact ⟨fun h => ⟨h.toRunIdle, h.project, h.update⟩, fun h => ⟨h.1, hnext, h.2.1, h.2.2⟩⟩
    rw [hidle, Database.applied, Database.outcome, hnext, Option.toList_none, List.append_nil]
    exact ⟨fun h => ⟨congrArg Database.runs h, congrArg Database.ledger h⟩, fun h => by
      rw [h.1, h.2]⟩

theorem CommandResult.outcome_closed (result : CommandResult) :
    result.outcome.state.isOpen = false := by
  unfold CommandResult.outcome
  dsimp only
  split <;> rfl

theorem settled_eq_self_iff (hvalid : db.Valid)
    (hrow : db.commandById result.commandId = some row) :
    (db.complete result.commandId result.outcome input.now).applied row result input = db ↔
      row.state.isOpen = false ∧ OutcomeIdle db row result input := by
  cases hopen : row.state.isOpen with
  | false =>
    rw [Database.complete_eq_self hvalid result.outcome input.now, applied_eq_self_iff hvalid,
      and_iff_right rfl]
    intro found hfound
    rw [← Option.some.inj (hrow.symm.trans hfound)]
    exact hopen
  | true =>
    refine iff_of_false (fun h => ?_) fun h => absurd h.1 (by decide)
    -- The command would still be found without an outcome.
    have hfound : ((db.complete result.commandId result.outcome input.now).applied row result
        input).commandById result.commandId = some (row.complete result.outcome input.now) := by
      have hdone : (db.complete result.commandId result.outcome input.now).commandById
          result.commandId = some (row.complete result.outcome input.now) := by
        rw [Database.commandById_complete, hrow, Option.map_some,
          if_pos ⟨Database.commandById_commandId hrow, hopen⟩]
      rw [Database.commandById] at hdone ⊢
      exact List.find?_append.trans (by rw [hdone]; rfl)
    rw [h, hrow, Option.some.injEq] at hfound
    have hclosed := result.outcome_closed
    rw [hfound] at hopen
    exact absurd (hopen.symm.trans hclosed) (by decide)

/-- The run that an outcome changes belongs to the Node of the command, and still does after. -/
theorem runChange_nodeId (hown : OwnRuns db) (hrow : row ∈ db.commands) {now : ℕ}
    {change : RunRecord × (RunRecord → RunRecord)}
    (h : runChange db row result now = some change) :
    change.1.nodeId = row.nodeId ∧ ∀ run, (change.2 run).nodeId = run.nodeId := by
  unfold runChange at h
  split at h
  · split at h
    · obtain ⟨run, hrun, rfl⟩ := Option.map_eq_some_iff.mp h
      obtain ⟨hmem, hcreate⟩ := Database.byCreateCommand_spec hrun
      exact ⟨hown run hmem row hrow hcreate, fun _ => rfl⟩
    · obtain ⟨nodeRunId, -, hrest⟩ := Option.bind_eq_some_iff.mp h
      obtain ⟨run, hrun, rfl⟩ := Option.map_eq_some_iff.mp hrest
      obtain ⟨hmem, hcreate⟩ := Database.byCreateCommand_spec hrun
      exact ⟨hown run hmem row hrow hcreate, fun _ => rfl⟩
  · split at h
    · obtain ⟨nodeRunId, -, hrest⟩ := Option.bind_eq_some_iff.mp h
      obtain ⟨run, hrun, rfl⟩ := Option.map_eq_some_iff.mp hrest
      have hfound := (Option.filter_eq_some_iff.mp hrun).1
      exact ⟨(Database.byNodeRunId_spec hfound).2.1, fun _ => rfl⟩
    · cases h

theorem followUpRecord_nodeId {nodeId commandType state : String} {next : CommandRecord}
    (h : followUpRecord nodeId commandType state input = some next) : next.nodeId = nodeId := by
  obtain ⟨_, _, hfirst⟩ := Option.bind_eq_some_iff.mp h
  obtain ⟨_, _, hsecond⟩ := Option.bind_eq_some_iff.mp hfirst
  rw [Option.ite_none_right_eq_some] at hsecond
  rw [← Option.some.inj hsecond.2]

theorem Database.Valid.nodeId_of_commandId (hvalid : db.Valid) {other : CommandRecord}
    (hother : other ∈ db.commands) (hrow : row ∈ db.commands)
    (hid : other.commandId = row.commandId) : other.nodeId = row.nodeId :=
  congrArg CommandRecord.nodeId (hvalid.commands_primary.eq_of_mem hother hrow
    (k := row.commandId) (congrArg some hid) rfl)

/-- What a result does to a command of the Node that sends it stays with that Node. -/
theorem isolated_settled (hvalid : db.Valid) (hown : OwnRuns db)
    (hrow : db.commandById result.commandId = some row) :
    Isolated row.nodeId (some row) db
      ((db.complete result.commandId result.outcome input.now).applied row result input) := by
  have hmem := Database.commandById_mem hrow
  have hid := Database.commandById_commandId hrow
  refine ⟨fun other hother => ?_, fun run hforeign => ?_, fun found hfound hne => ?_⟩
  · have hqueued :
        other ∉ (followUpRecord row.nodeId row.commandType result.state input).toList := by
      intro hqueue
      exact hother (followUpRecord_nodeId (Option.mem_toList.mp hqueue))
    simp only [Database.applied, Database.outcome]
    rw [List.mem_append, or_iff_left hqueued, Database.complete, Database.updateCommand]
    have hrest := Table.mem_updateWhere_of_not
      (p := fun old => old.commandId = result.commandId ∧ old.state.isOpen = true)
      (Q := fun old : CommandRecord => old.nodeId = row.nodeId)
      (f := fun old => old.complete result.outcome input.now)
      (fun old hold hmatch => hvalid.nodeId_of_commandId hold hmem (hmatch.1.trans hid.symm))
      (fun _ h => h) hother
    simpa only [Bool.decide_and, Bool.decide_eq_true] using hrest
  · simp only [Database.applied, Database.outcome, changedRuns]
    cases hchange : runChange (db.complete result.commandId result.outcome input.now) row result
        input.now with
    | none => exact Iff.rfl
    | some change =>
      have hchange' : runChange db row result input.now = some change := hchange
      obtain ⟨hnode, hkeep⟩ := runChange_nodeId hown hmem hchange'
      have hstored := runChange_mem hchange'
      refine Table.mem_updateWhere_of_not (Q := fun old : RunRecord => old.nodeId = row.nodeId)
        (fun old hold hmatch => ?_) (fun old h => (hkeep old).trans h) hforeign
      rw [hvalid.run_eq hold hstored hmatch]
      exact hnode
  · exact absurd (congrArg CommandRecord.nodeId (Option.some.inj hfound)).symm hne

end Result

section Frames

variable {db : Database} {input : SqlInput}

theorem Isolated.refl (nodeId : String) (named : Option CommandRecord) (db : Database) :
    Isolated nodeId named db db :=
  ⟨fun _ _ => Iff.rfl, fun _ _ => Iff.rfl, fun _ _ _ => rfl⟩

/-- A frame that names a command of another Node has to change nothing. -/
theorem isolated_foreign_iff {nodeId : String} {row : CommandRecord} (hne : row.nodeId ≠ nodeId)
    (db db' : Database) : Isolated nodeId (some row) db db' ↔ db' = db := by
  constructor
  · intro h
    exact h.foreign row rfl hne
  · rintro rfl
    exact Isolated.refl nodeId _ db'

theorem isolated_result_iff (hvalid : db.Valid) (hown : OwnRuns db) (nodeId : String)
    (result : CommandResult) :
    Isolated nodeId (db.commandById result.commandId) db
        (((evalSql input (handleCommandResult result) db).map Prod.snd).getD db) ↔
      ∀ row ∈ db.commandById result.commandId, row.nodeId = nodeId ∨
        Refused db row result input ∨
          row.state.isOpen = false ∧ OutcomeIdle db row result input := by
  rw [eval_handleCommandResult hvalid]
  cases hrow : db.commandById result.commandId with
  | none => exact iff_of_true (Isolated.refl _ _ _) Table.forall_mem_none
  | some row =>
    simp only [Option.mem_some_iff, forall_eq']
    by_cases hrefused : Refused db row result input
    · rw [if_pos hrefused]
      exact iff_of_true (Isolated.refl _ _ _) (Or.inr (Or.inl hrefused))
    · rw [if_neg hrefused]
      by_cases hnode : row.nodeId = nodeId
      · refine iff_of_true ?_ (Or.inl hnode)
        rw [← hnode]
        exact isolated_settled hvalid hown hrow
      · rw [isolated_foreign_iff hnode, or_iff_right hnode, or_iff_right hrefused,
          ← settled_eq_self_iff hvalid hrow]
        rfl

/-- Accepting a command leaves it as it was exactly if it cannot be accepted any more. -/
theorem markAccepted_eq_self_iff (hvalid : db.Valid) {commandId : String} {row : CommandRecord}
    (hrow : db.commandById commandId = some row) (now : ℕ) :
    db.markAccepted commandId now = db ↔ row.state.isUnaccepted = false := by
  have hid := Database.commandById_commandId hrow
  constructor
  · intro h
    by_contra hopen
    rw [Bool.not_eq_false] at hopen
    have hfind := Table.find?_updateWhere (q := fun r : CommandRecord => r.commandId = commandId)
      (p := fun r => r.commandId = commandId && r.state.isUnaccepted)
      (f := fun r => { r with state := .accepted, acknowledgedAt := some now }) (fun _ => rfl)
      db.commands
    have hstored := congrArg (fun d : Database => d.commandById commandId) h
    rw [Database.commandById] at hrow
    simp only [Database.markAccepted, Database.updateCommand, Database.commandById, hfind, hrow,
      Option.map_some, hid, hopen, decide_true, Bool.and_self, if_true, Option.some.injEq]
      at hstored
    rw [← hstored] at hopen
    exact absurd hopen Bool.false_ne_true
  · intro hclosed
    have hsame : (db.markAccepted commandId now).commands = db.commands := by
      refine Table.updateWhere_eq_self fun other hother hmatch => ?_
      simp only [Bool.and_eq_true, decide_eq_true_eq] at hmatch
      have hfound := hvalid.commandById_eq_some hother
      rw [hmatch.1, hrow, Option.some.injEq] at hfound
      rw [hfound] at hclosed
      exact absurd hmatch.2 (hclosed ▸ Bool.false_ne_true)
    exact congrArg (fun commands => { db with commands := commands }) hsame

/-- Accepting a command of the Node that sends the frame stays with that Node. -/
theorem isolated_markAccepted (hvalid : db.Valid) {commandId : String} {row : CommandRecord}
    (hrow : db.commandById commandId = some row) (now : ℕ) :
    Isolated row.nodeId (some row) db (db.markAccepted commandId now) := by
  have hid := Database.commandById_commandId hrow
  refine ⟨fun other hother => ?_, fun _ _ => Iff.rfl, fun found hfound hne => ?_⟩
  · have hrest := Table.mem_updateWhere_of_not
      (p := fun old => old.commandId = commandId ∧ old.state.isUnaccepted = true)
      (Q := fun old : CommandRecord => old.nodeId = row.nodeId)
      (f := fun old => { old with state := .accepted, acknowledgedAt := some now })
      (fun old hold hmatch => hvalid.nodeId_of_commandId hold (Database.commandById_mem hrow)
        (hmatch.1.trans hid.symm)) (fun _ h => h) hother
    simp only [Bool.decide_and, Bool.decide_eq_true] at hrest
    exact hrest
  · exact absurd (congrArg CommandRecord.nodeId (Option.some.inj hfound)).symm hne

theorem isolated_accepted_iff (hvalid : db.Valid) (nodeId commandId : String) :
    Isolated nodeId (db.commandById commandId) db (db.markAccepted commandId input.now) ↔
      ∀ row ∈ db.commandById commandId, row.nodeId = nodeId ∨ row.state.isUnaccepted = false := by
  cases hrow : db.commandById commandId with
  | none =>
    have hsame : db.markAccepted commandId input.now = db := by
      have hcommands : (db.markAccepted commandId input.now).commands = db.commands := by
        refine Table.updateWhere_eq_self fun other hother hmatch => ?_
        simp only [Bool.and_eq_true, decide_eq_true_eq] at hmatch
        have hfound := hvalid.commandById_eq_some hother
        rw [hmatch.1, hrow] at hfound
        cases hfound
      exact congrArg (fun commands => { db with commands := commands }) hcommands
    rw [hsame]
    exact iff_of_true (Isolated.refl _ _ _) Table.forall_mem_none
  | some row =>
    simp only [Option.mem_some_iff, forall_eq']
    by_cases hnode : row.nodeId = nodeId
    · refine iff_of_true ?_ (Or.inl hnode)
      rw [← hnode]
      exact isolated_markAccepted hvalid hrow input.now
    · rw [isolated_foreign_iff hnode, or_iff_right hnode, markAccepted_eq_self_iff hvalid hrow]

end Frames

def refusal : CommandFrame :=
  .result (.object [("command_id", .string "c1"), ("state", .string "failed")])

end Asterism.ControlPlane
