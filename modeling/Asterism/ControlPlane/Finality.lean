import Asterism.ControlPlane.Effects

/-!
# Which steps keep the final status of a run

A run that has ended should stay as it ended. Three handlers write the status of a run
without looking at it: a result for the command that created the run, an event that ends it,
and the timeout of that command. This file determines exactly when a step keeps every
final status, and carries it over to whole histories of the channel.
-/

namespace Asterism.ControlPlane

open Transaction

def Database.status (db : Database) (runId : String) : Option String :=
  (db.runById runId).map fun run => run.status

/-- Every run that has ended keeps its status. -/
def KeepsEndings (db db' : Database) : Prop :=
  ∀ runId, ∀ status ∈ endedStatuses, db.status runId = some status →
    db'.status runId = some status

/-- A result that does not touch a run that has ended: it repeats a refusal, or the name it
gives to the run is taken. -/
def ResultRespects (db : Database) (result : CommandResult) : Prop :=
  ∀ row ∈ db.commandById result.commandId, startsRun row.commandType = true →
    ∀ run ∈ db.byCreateCommand row.commandId, run.Ended →
      if result.state = "completed" then
        ∀ nodeRunId ∈ textField result.result "run_id", db.Taken run nodeRunId
      else run.status = "failed"

/-- An event that does not end a run differently from how it has ended. -/
def EventRespects (db : Database) (nodeId : String) (event : EventDelivery) : Prop :=
  ∀ run ∈ db.byNodeRunId nodeId event.runId, run.Ended →
    ∀ status ∈ event.ending, run.status = status ∨ ¬(event.row nodeId run).Fits

/-- A timeout that finds no run that has ended otherwise. -/
def TimeoutRespects (db : Database) (command : CommandRecord) : Prop :=
  startsRun command.commandType = true →
    ∀ run ∈ db.byCreateCommand command.commandId, run.Ended → run.status = "lost"

def FrameRespects (db : Database) (nodeId : String) (envelope : Envelope) : Prop :=
  (envelope.messageType = "client.command.result" →
    ∀ result ∈ CommandResult.schema envelope.payload, ResultRespects db result) ∧
  (envelope.messageType = "client.event" →
    ∀ event ∈ EventDelivery.schema envelope.payload, EventRespects db nodeId event)

def StepRespects (c : Channel) (op : ChannelOp) : Prop :=
  op.available = true →
    match op.step with
    | .frame nodeId envelope => FrameRespects c.store.contents nodeId envelope
    | .sweep => True
    | .expire index => ∀ command ∈ c.stale[index]?, TimeoutRespects c.store.contents command

section Steps

variable {db db' : Database}

theorem KeepsEndings.refl (db : Database) : KeepsEndings db db := fun _ _ _ h => h

theorem KeepsEndings.trans {db'' : Database} (h : KeepsEndings db db')
    (h' : KeepsEndings db' db'') : KeepsEndings db db'' :=
  fun runId status hended hstatus => h' runId status hended (h runId status hended hstatus)

theorem keepsEndings_congr {db'' : Database} (h : db'.runs = db''.runs) :
    KeepsEndings db db' ↔ KeepsEndings db db'' := by
  unfold KeepsEndings Database.status Database.runById
  rw [h]

/-- A change of one run keeps endings if the run has not ended or keeps its status. -/
theorem keepsEndings_updateRun_iff (hvalid : db.Valid) {run : RunRecord} (hrun : run ∈ db.runs)
    {f : RunRecord → RunRecord} (hf : ∀ r, (f r).runId = r.runId) :
    KeepsEndings db (db.updateRun run.runId f) ↔ (run.Ended → (f run).status = run.status) := by
  have hfind (runId : String) : (db.updateRun run.runId f).runById runId =
      (db.runById runId).map fun r => if r.runId = run.runId then f r else r :=
    Database.runById_updateRun hf runId
  constructor
  · intro h hended
    have hself := hvalid.runById_eq_some hrun
    have hstatus : db.status run.runId = some run.status := by
      rw [Database.status, hself, Option.map_some]
    have hafter := h run.runId run.status hended hstatus
    rw [Database.status, hfind, hself, Option.map_some, if_pos rfl, Option.map_some,
      Option.some.injEq] at hafter
    exact hafter
  · intro h runId status hended hstatus
    obtain ⟨found, hfound, hvalue⟩ := Option.map_eq_some_iff.mp hstatus
    rw [Database.status, hfind, hfound, Option.map_some, Option.map_some, Option.some.injEq]
    by_cases hid : found.runId = run.runId
    · have hsame := hvalid.run_eq (List.mem_of_find?_eq_some hfound) hrun hid
      subst hsame
      have hended' : found.Ended := by
        rw [RunRecord.Ended, hvalue]
        exact hended
      rw [if_pos rfl, h hended', hvalue]
    · rw [if_neg hid, hvalue]

theorem keepsEndings_applied_iff (hvalid : db.Valid) {row : CommandRecord}
    {result : CommandResult} {input : SqlInput} (hfree : ¬Refused db row result input)
    (commands : List CommandRecord) (ledger : Ledger) :
    KeepsEndings db ⟨commands, changedRuns db row result input.now, db.events, ledger⟩ ↔
      (startsRun row.commandType = true → ∀ run ∈ db.byCreateCommand row.commandId, run.Ended →
        if result.state = "completed" then
          ∀ nodeRunId ∈ textField result.result "run_id", db.Taken run nodeRunId
        else run.status = "failed") := by
  have hkeep {run : RunRecord} {f : RunRecord → RunRecord}
      (hchange : runChange db row result input.now = some (run, f)) (hrun : run ∈ db.runs)
      (hf : ∀ r, (f r).runId = r.runId) :
      KeepsEndings db ⟨commands, changedRuns db row result input.now, db.events, ledger⟩ ↔
        (run.Ended → (f run).status = run.status) := by
    rw [← keepsEndings_updateRun_iff hvalid hrun hf]
    refine keepsEndings_congr ?_
    rw [changedRuns, hchange]
    rfl
  have hnone (hchange : runChange db row result input.now = none) :
      KeepsEndings db ⟨commands, changedRuns db row result input.now, db.events, ledger⟩ := by
    refine (keepsEndings_congr ?_).mp (KeepsEndings.refl db)
    rw [changedRuns, hchange]
  cases hstarts : startsRun row.commandType with
  | false =>
    refine iff_of_true ?_ fun h => absurd h Bool.false_ne_true
    by_cases happroval : row.commandType = "approvals.resolve" ∧ result.state = "completed"
    · cases hchange : runChange db row result input.now with
      | none => exact hnone hchange
      | some change =>
        have horigin := hchange
        rw [runChange, hstarts, if_neg Bool.false_ne_true, if_pos happroval] at horigin
        obtain ⟨nodeRunId, -, hrest⟩ := Option.bind_eq_some_iff.mp horigin
        obtain ⟨run, hrun, rfl⟩ := Option.map_eq_some_iff.mp hrest
        obtain ⟨hfound, hwaiting⟩ := Option.filter_eq_some_iff.mp hrun
        refine (hkeep hchange (Database.byNodeRunId_spec hfound).1 fun _ => rfl).mpr ?_
        -- A run that waits for an approval has not ended.
        intro hended
        rw [RunRecord.Ended, of_decide_eq_true hwaiting] at hended
        exact absurd hended (by decide)
    · refine hnone ?_
      rw [runChange, hstarts, if_neg Bool.false_ne_true, if_neg happroval]
  | true =>
    have hunfold : runChange db row result input.now =
        if result.state ≠ "completed" then
          (db.byCreateCommand row.commandId).map fun run =>
            (run, fun r => r.withStatus "failed" result.rejection input.now)
        else (textField result.result "run_id").bind fun nodeRunId =>
          (db.byCreateCommand row.commandId).map fun run =>
            (run, fun r => r.started row.commandType result nodeRunId input.now) := by
      rw [runChange, if_pos hstarts]
    cases hfound : db.byCreateCommand row.commandId with
    | none =>
      refine iff_of_true (hnone ?_) fun _ => Table.forall_mem_none
      rw [hunfold, hfound]
      cases textField result.result "run_id" <;> simp
    | some run =>
      have hrun := (Database.byCreateCommand_spec hfound).1
      simp only [true_imp_iff, Option.mem_some_iff, forall_eq']
      by_cases hstate : result.state = "completed"
      · rw [if_pos hstate]
        cases hname : textField result.result "run_id" with
        | none =>
          refine iff_of_true (hnone ?_) fun _ => Table.forall_mem_none
          rw [hunfold, if_neg (not_not.mpr hstate), hname, Option.bind_none]
        | some nodeRunId =>
          have htaken : ¬db.Taken run nodeRunId := fun h =>
            hfree (Or.inl ⟨hstarts, hstate, nodeRunId, hname, run, hfound, h⟩)
          have hchange := hunfold
          rw [if_neg (not_not.mpr hstate), hname, hfound, Option.bind_some, Option.map_some]
            at hchange
          rw [hkeep hchange hrun fun _ => rfl]
          simp only [Option.mem_some_iff, forall_eq', htaken, imp_false]
          -- A started run is running, which is no ending.
          refine ⟨fun h hended => ?_, fun h hended => absurd hended h⟩
          rw [RunRecord.Ended, ← h hended] at hended
          exact absurd hended (show "running" ∉ endedStatuses by decide)
      · have hchange := hunfold
        rw [if_pos hstate, hfound, Option.map_some] at hchange
        rw [if_neg hstate, hkeep hchange hrun fun _ => rfl]
        exact imp_congr_right fun _ => eq_comm

theorem RunRecord.acknowledged_status (run read : RunRecord) (contiguous : ℤ) :
    (run.acknowledged read contiguous).status = run.status := by
  unfold RunRecord.acknowledged
  split <;> rfl

theorem RunRecord.failed_status (run : RunRecord) (event : EventDelivery) :
    (run.failed event).status = run.status := by
  unfold RunRecord.failed
  split <;> rfl

theorem RunRecord.acknowledged_runId (run read : RunRecord) (contiguous : ℤ) :
    (run.acknowledged read contiguous).runId = run.runId := by
  unfold RunRecord.acknowledged
  split <;> rfl

theorem RunRecord.afterEvent_runId (run read : RunRecord) (event : EventDelivery)
    (inserted : Bool) (now : ℕ) : (run.afterEvent read event inserted now).runId = run.runId := by
  have hfailed : (run.failed event).runId = run.runId := by
    unfold RunRecord.failed
    split <;> rfl
  unfold RunRecord.afterEvent
  split
  · rfl
  · split <;> exact hfailed

theorem keepsEndings_afterEvent_iff (hvalid : db.Valid) {nodeId : String} {run : RunRecord}
    (hrun : run ∈ db.runs) (event : EventDelivery) (now : ℕ) :
    KeepsEndings db (db.afterEvent nodeId run event now) ↔
      (run.Ended → ∀ status ∈ event.ending, run.status = status) := by
  have hruns : (db.insertEvent (event.row nodeId run)).runs = db.runs := by
    unfold Database.insertEvent
    split <;> rfl
  have hsame (f : RunRecord → RunRecord) :
      ((db.insertEvent (event.row nodeId run)).updateRun run.runId f).runs =
        (db.updateRun run.runId f).runs := by
    simp only [Database.updateRun, hruns]
  unfold Database.afterEvent
  dsimp only
  rw [keepsEndings_congr (hsame _), keepsEndings_updateRun_iff hvalid hrun fun r => by
    rw [RunRecord.afterEvent_runId, RunRecord.acknowledged_runId]]
  refine imp_congr_right fun hended => ?_
  unfold RunRecord.afterEvent
  cases event.ending with
  | some status =>
    simp only [Option.mem_some_iff, forall_eq', RunRecord.withStatus]
    exact eq_comm
  | none =>
    -- An event that ends nothing leaves a run that has ended alone.
    have hterminal : run.status ∈ terminalRunStatuses := by
      have hsubset : endedStatuses ⊆ terminalRunStatuses := by decide
      exact hsubset hended
    rw [if_neg fun h => h.2.2 hterminal, RunRecord.failed_status, RunRecord.acknowledged_status]
    exact iff_of_true rfl Table.forall_mem_none

theorem keepsEndings_expired_iff (hvalid : db.Valid) (command : CommandRecord) (now : ℕ) :
    KeepsEndings db (db.expired command now) ↔ TimeoutRespects db command := by
  unfold Database.expired TimeoutRespects
  cases startsRun command.commandType with
  | false => exact iff_of_true (KeepsEndings.refl db) fun h => absurd h Bool.false_ne_true
  | true =>
    simp only [if_true, true_imp_iff]
    cases hfound : db.byCreateCommand command.commandId with
    | none => exact iff_of_true (KeepsEndings.refl db) Table.forall_mem_none
    | some run =>
      simp only [Option.mem_some_iff, forall_eq']
      refine (keepsEndings_updateRun_iff hvalid (Database.byCreateCommand_spec hfound).1
        (f := fun row => row.lost now) fun _ => rfl).trans ?_
      exact imp_congr_right fun _ => eq_comm

theorem keepsEndings_result_iff (hvalid : db.Valid) (result : CommandResult) (input : SqlInput) :
    KeepsEndings db
        (((evalSql input (handleCommandResult result) db).map Prod.snd).getD db) ↔
      ResultRespects db result := by
  rw [eval_handleCommandResult hvalid]
  unfold ResultRespects
  cases hrow : db.commandById result.commandId with
  | none => exact iff_of_true (KeepsEndings.refl db) Table.forall_mem_none
  | some row =>
    simp only [Option.mem_some_iff, forall_eq']
    by_cases hrefused : Refused db row result input
    · rw [if_pos hrefused]
      refine iff_of_true (KeepsEndings.refl db) fun hstarts run hrun _ => ?_
      -- A transaction for a run is refused only because the name of the run is taken.
      rcases hrefused with ⟨-, hstate, nodeRunId, hname, found, hfound, htaken⟩ | ⟨next, hnext, -⟩
      · rw [if_pos hstate]
        intro name hmem
        rw [← Option.some.inj (hname.symm.trans hmem), ← Option.some.inj (hfound.symm.trans hrun)]
        exact htaken
      · rw [followUpRecord_of_startsRun row.nodeId result.state input hstarts] at hnext
        cases hnext
    · rw [if_neg hrefused]
      exact keepsEndings_applied_iff hvalid hrefused _ _

theorem keepsEndings_frame_iff (hvalid : db.Valid) (config : ChannelConfig) (nodeId : String)
    (envelope : Envelope) (input : SqlInput) :
    KeepsEndings db
        (((evalSql input (handleFrame config nodeId envelope) db).map Prod.snd).getD db) ↔
      FrameRespects db nodeId envelope := by
  unfold handleFrame FrameRespects
  by_cases haccepted : envelope.messageType = "client.command.accepted"
  · rw [if_pos haccepted, haccepted]
    refine iff_of_true ?_ ⟨fun h => absurd h (by decide), fun h => absurd h (by decide)⟩
    cases acceptedCommand config envelope.payload with
    | none => exact KeepsEndings.refl db
    | some commandId =>
      rw [show evalSql input (Process.Program.perform (.markAccepted commandId)) db =
        some ((), db.markAccepted commandId input.now) from eval_safe hvalid _ rfl]
      exact KeepsEndings.refl db
  rw [if_neg haccepted]
  by_cases hresult : envelope.messageType = "client.command.result"
  · have hevent : envelope.messageType ≠ "client.event" := by
      rw [hresult]
      decide
    rw [if_pos hresult, and_iff_left fun h => absurd h hevent]
    simp only [hresult, true_imp_iff]
    cases CommandResult.schema envelope.payload with
    | none => exact iff_of_true (KeepsEndings.refl db) Table.forall_mem_none
    | some result =>
      simp only [Option.mem_some_iff, forall_eq']
      exact keepsEndings_result_iff hvalid result input
  rw [if_neg hresult, and_iff_right fun h => absurd h hresult]
  by_cases hevent : envelope.messageType = "client.event"
  · rw [if_pos hevent]
    simp only [hevent, true_imp_iff]
    cases EventDelivery.schema envelope.payload with
    | none => exact iff_of_true (KeepsEndings.refl db) Table.forall_mem_none
    | some event =>
      simp only [Option.mem_some_iff, forall_eq']
      rw [evalSql, Dialect.eval_bind, show dialect.eval databaseSchema input
        (handleEvent nodeId event) db = _ from eval_handleEvent hvalid nodeId event]
      unfold EventRespects
      cases hfound : db.byNodeRunId nodeId event.runId with
      | none => exact iff_of_true (KeepsEndings.refl db) Table.forall_mem_none
      | some run =>
        simp only [Option.mem_some_iff, forall_eq']
        by_cases hfits : (event.row nodeId run).Fits
        · rw [if_pos hfits]
          simp only [not_true, hfits, or_false]
          exact keepsEndings_afterEvent_iff hvalid (Database.byNodeRunId_spec hfound).1 event
            input.now
        · rw [if_neg hfits]
          exact iff_of_true (KeepsEndings.refl db) fun _ _ _ => Or.inr hfits
  · rw [if_neg hevent]
    exact iff_of_true (KeepsEndings.refl db) fun h => absurd h hevent

end Steps

/-- A step keeps every ending exactly if it respects the runs that have ended. -/
theorem keepsEndings_act_iff (config : ChannelConfig) (c : Channel) (op : ChannelOp) :
    KeepsEndings c.store.contents (c.act config op).store.contents ↔ StepRespects c op := by
  have hvalid : c.store.contents.Valid := c.store.valid
  rw [Channel.act_contents]
  unfold StepRespects
  cases op.available with
  | false => exact iff_of_true (KeepsEndings.refl _) fun h => absurd h Bool.false_ne_true
  | true =>
    simp only [if_true, true_imp_iff]
    cases op.step with
    | frame nodeId envelope => exact keepsEndings_frame_iff hvalid config nodeId envelope op.input
    | sweep => exact iff_of_true (KeepsEndings.refl _) trivial
    | expire index =>
      simp only [Channel.transaction]
      cases c.stale[index]? with
      | none => exact iff_of_true (KeepsEndings.refl _) Table.forall_mem_none
      | some command =>
        simp only [Option.mem_some_iff, forall_eq']
        rw [eval_expireCommand hvalid]
        exact keepsEndings_expired_iff hvalid command op.input.now

/-- A command that was sent at the beginning and creates a run. -/
def sentCommand : CommandRecord where
  commandId := "c1"
  nodeId := "n1"
  commandType := "runs.create"
  requestPayload := .object []
  state := .dispatched
  dispatchedAt := some 0
  acknowledgedAt := none
  completedAt := none
  responsePayload := none
  errorCode := none
  errorPayload := none

def queuedRun : RunRecord where
  runId := "r1"
  nodeId := "n1"
  projectId := "p1"
  nodeRunId := none
  status := "queued"
  startedAt := none
  finishedAt := none
  terminalReason := none
  errorCode := none
  errorMessage := none
  lastEventSeq := 0
  ackedEventSeq := 0
  createCommandId := some "c1"
  subscribed := false
  model := none

/-- A channel with one command that was sent and its run. -/
def waitingChannel : Channel where
  store := ⟨⟨[sentCommand], [queuedRun], [], {}⟩,
    (by decide : Database.Valid ⟨[sentCommand], [queuedRun], [], {}⟩)⟩
  stale := []

def timesOut : List ChannelOp :=
  [⟨.sweep, ⟨100, none⟩, true⟩, ⟨.expire 0, ⟨100, none⟩, true⟩]

def lateResult : ChannelOp :=
  ⟨.frame "n1" ⟨"client.command.result", none, .object [("command_id", .string "c1"),
    ("result", .object [("run_id", .string "x1")]), ("state", .string "completed")]⟩,
    ⟨200, none⟩, true⟩

/-- The command had another state before and is given up on now. -/
def BecameIndeterminate (db db' : Database) (commandId : String) : Prop :=
  ∃ row ∈ db.commandById commandId, ∃ row' ∈ db'.commandById commandId,
    row.state ≠ .indeterminate ∧ row'.state = .indeterminate

/-- A timeout changes a run only if it gives up on the command. -/
def HonestTimeout (db db' : Database) (command : CommandRecord) : Prop :=
  db'.runs ≠ db.runs → BecameIndeterminate db db' command.commandId

/-- Marking the run as lost again would change nothing. -/
structure RunRecord.IsTimedOut (run : RunRecord) : Prop where
  status : run.status = "lost"
  finished : run.finishedAt ≠ none
  terminalReason : run.terminalReason = some "command_timeout"
  errorCode : run.errorCode = some "command_timeout"
  errorMessage : run.errorMessage =
    some "the Node never answered the command that would have started this run"
  unsubscribed : run.subscribed = false

/-- The command is still unanswered when it is given up on, or there is no run to lose. -/
def StillUnanswered (db : Database) (command : CommandRecord) : Prop :=
  startsRun command.commandType = true → ∀ run ∈ db.byCreateCommand command.commandId,
    (∃ row ∈ db.commandById command.commandId, row.state.isDelivered = true) ∨ run.IsTimedOut

theorem RunRecord.lost_eq_self_iff (run : RunRecord) (now : ℕ) :
    run.lost now = run ↔ run.IsTimedOut := by
  constructor
  · intro h
    refine ⟨?_, ?_, ?_, ?_, ?_, ?_⟩ <;> rw [← h]
    · rfl
    · exact nofun
    · rfl
    · rfl
    · rfl
    · rfl
  · rintro ⟨hstatus, hfinished, hreason, hcode, hmessage, hsubscribed⟩
    obtain ⟨finishedAt, hat⟩ := Option.ne_none_iff_exists'.mp hfinished
    cases run
    simp only at hstatus hreason hcode hmessage hsubscribed hat
    subst hstatus hreason hcode hmessage hsubscribed hat
    rfl

section Steps

variable {db : Database}

/-- Changing one stored run leaves the table as it was exactly if the run is left as it was. -/
theorem updateRun_runs_eq_iff (hvalid : db.Valid) {run : RunRecord} (hrun : run ∈ db.runs)
    (f : RunRecord → RunRecord) : (db.updateRun run.runId f).runs = db.runs ↔ f run = run := by
  refine Table.updateWhere_eq_self_iff.trans ⟨fun h => h run hrun (decide_eq_true rfl), ?_⟩
  intro h row hrow hid
  rw [hvalid.run_eq hrow hrun (of_decide_eq_true hid), h]

/-- A timeout gives up on its command exactly if the command is still unanswered. -/
theorem becameIndeterminate_iff (command : CommandRecord) (now : ℕ) :
    BecameIndeterminate db (db.expired command now) command.commandId ↔
      ∃ row ∈ db.commandById command.commandId, row.state.isDelivered = true := by
  have hcommands : (db.expired command now).commands = (db.markIndeterminate command.commandId
      "no result before the command timeout" now).commands := by
    unfold Database.expired
    dsimp only
    split
    · split <;> rfl
    · rfl
  have hfind : (db.expired command now).commandById command.commandId =
      (db.commandById command.commandId).map fun row =>
        if row.commandId = command.commandId ∧ row.state.isDelivered = true then
          { row with
            state := .indeterminate
            completedAt := some now
            errorCode := some "indeterminate"
            errorPayload := some (Value.obj
              [("reason", .string "no result before the command timeout")]) }
        else row := by
    rw [Database.commandById, hcommands]
    have hmap := Table.find?_updateWhere
      (q := fun row : CommandRecord => row.commandId = command.commandId)
      (p := fun row => row.commandId = command.commandId && row.state.isDelivered)
      (f := fun row => { row with
        state := .indeterminate
        completedAt := some now
        errorCode := some "indeterminate"
        errorPayload := some (Value.obj
          [("reason", .string "no result before the command timeout")]) })
      (fun _ => rfl) db.commands
    simp only [Bool.and_eq_true, decide_eq_true_eq] at hmap
    exact hmap
  unfold BecameIndeterminate
  rw [hfind]
  cases hrow : db.commandById command.commandId with
  | none => simp
  | some row =>
    have hid := Database.commandById_commandId hrow
    simp only [Option.mem_some_iff, exists_eq_left', Option.map_some, hid, true_and]
    cases hstate : row.state <;> simp [CommandRecordState.isDelivered, hstate]

/-- A timeout is honest exactly if its command is still unanswered. -/
theorem honestTimeout_iff (hvalid : db.Valid) (command : CommandRecord) (now : ℕ) :
    HonestTimeout db (db.expired command now) command ↔ StillUnanswered db command := by
  rw [HonestTimeout, becameIndeterminate_iff, StillUnanswered]
  have hruns : (db.expired command now).runs = if startsRun command.commandType then
      (db.byCreateCommand command.commandId).elim db.runs fun run =>
        (db.updateRun run.runId fun row => row.lost now).runs
      else db.runs := by
    unfold Database.expired
    cases startsRun command.commandType with
    | false => rfl
    | true => cases db.byCreateCommand command.commandId <;> rfl
  rw [hruns]
  cases startsRun command.commandType with
  | false => exact iff_of_true (fun h => absurd rfl h) fun h => absurd h Bool.false_ne_true
  | true =>
    simp only [if_true, true_imp_iff]
    cases hfound : db.byCreateCommand command.commandId with
    | none => exact iff_of_true (fun h => absurd rfl h) Table.forall_mem_none
    | some run =>
      simp only [Option.mem_some_iff, forall_eq', Option.elim_some]
      rw [ne_eq, updateRun_runs_eq_iff hvalid (Database.byCreateCommand_spec hfound).1,
        RunRecord.lost_eq_self_iff, or_comm, or_iff_not_imp_left]

end Steps

/-- In a history of the channel, the timeouts whose command is still unanswered are exactly
those that change a run only together with its command. -/
theorem Channel.play_honestTimeout_iff (config : ChannelConfig) (c : Channel)
    (ops : List ChannelOp) :
    (∀ first index input rest, ops = first ++ ⟨.expire index, input, true⟩ :: rest →
        ∀ command ∈ (c.play config first).stale[index]?,
          StillUnanswered (c.play config first).store.contents command) ↔
      ∀ first index input rest, ops = first ++ ⟨.expire index, input, true⟩ :: rest →
        ∀ command ∈ (c.play config first).stale[index]?,
          HonestTimeout (c.play config first).store.contents
            (c.play config (first ++ [⟨.expire index, input, true⟩])).store.contents command := by
  have hstep (first : List ChannelOp) (index : ℕ) (input : SqlInput) (command : CommandRecord)
      (hread : command ∈ (c.play config first).stale[index]?) :
      HonestTimeout (c.play config first).store.contents
          (c.play config (first ++ [⟨.expire index, input, true⟩])).store.contents command ↔
        StillUnanswered (c.play config first).store.contents command := by
    have hvalid : (c.play config first).store.contents.Valid := (c.play config first).store.valid
    rw [Channel.play_append_singleton, Channel.act_contents, if_pos rfl, Channel.transaction,
      Option.mem_def.mp hread]
    dsimp only
    rw [eval_expireCommand hvalid]
    exact honestTimeout_iff hvalid command input.now
  constructor
  · intro h first index input rest hops command hread
    exact (hstep first index input command hread).mpr (h first index input rest hops command hread)
  · intro h first index input rest hops command hread
    exact (hstep first index input command hread).mp (h first index input rest hops command hread)

/-- The command is read as stale, then answered, then given up on. -/
def answeredDuringSweep : List ChannelOp :=
  [⟨.sweep, ⟨100, none⟩, true⟩, lateResult, ⟨.expire 0, ⟨300, none⟩, true⟩]

/-- A command that was completed between the read and the write of a sweep loses its run. -/
theorem answeredDuringSweep_lost :
    ((waitingChannel.play ⟨50, fun _ => ""⟩ answeredDuringSweep).store.contents.commandById
        "c1").map (fun row => row.state) = some .completed ∧
      (waitingChannel.play ⟨50, fun _ => ""⟩ (answeredDuringSweep.take 2)).store.contents.status
        "r1" = some "running" ∧
      (waitingChannel.play ⟨50, fun _ => ""⟩ answeredDuringSweep).store.contents.status
        "r1" = some "lost" := by
  decide +kernel

end Asterism.ControlPlane
