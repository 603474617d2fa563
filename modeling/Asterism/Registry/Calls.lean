import Asterism.Registry.Runs

/-!
# Registry operations and what they can change

Every operation of the registry as data, with its execution as one atomic step: an
operation that fails leaves the registry as it was. `Change` lists once what a
writing transaction can do to the tables, and every invariant of the registry is
proved from that list.
-/

namespace Asterism

namespace Tables

def updateApprovals (t : Tables) (p : ApprovalRecord → Bool)
    (f : ApprovalRecord → ApprovalRecord) : Tables :=
  { t with runApprovals := Table.updateWhere p f t.runApprovals }

/-- The row of an approval request. -/
def findApproval (t : Tables) (runId : String) (requestSeq : ℕ) : Option ApprovalRecord :=
  t.runApprovals.find? fun row => row.runId = runId ∧ row.requestSeq = requestSeq

/-- `pending_approval`: the newest undecided approval request of a run. -/
def pendingApproval (t : Tables) (runId : String) : Option ApprovalRecord :=
  ((t.runApprovals.filter fun row => row.runId = runId ∧ row.decision = none).insertionSort
    fun a b => b.requestSeq ≤ a.requestSeq).head?

/-- `run_approval_policy`: the approval policy of a run, and the default for a run that does not
exist. -/
def runApprovalPolicy (t : Tables) (runId : String) : RunPolicyState :=
  ((t.findRun runId).map fun row => row.approvalPolicy).getD {}

/-- `remote_command`: the row of a command. -/
def findCommand (t : Tables) (commandId : String) : Option RemoteCommandRecord :=
  t.remoteCommands.find? fun row => row.commandId = commandId

def updateCommand (t : Tables) (commandId : String)
    (f : RemoteCommandRecord → RemoteCommandRecord) : Tables :=
  { t with
    remoteCommands := Table.updateWhere (fun row => row.commandId = commandId) f t.remoteCommands }

/-- `outbox_depth`: the number of unacknowledged outbox entries. -/
def outboxDepth (t : Tables) : ℕ := t.outbox.countP fun row => row.acknowledgedAt.isNone

/-- `pending_outbox`: the oldest unacknowledged outbox entries. -/
def pendingOutbox (t : Tables) (limit : ℕ) : List OutboxRow :=
  (t.outbox.filter fun row => row.acknowledgedAt.isNone).take limit

end Tables

/-- `record_approval_request`: record an approval request seen on the event stream, once. -/
def recordApprovalRequest (input : RegistryInput) (runId : String) (requestSeq : ℕ)
    (command : Option String) (choices : Option Value) : RegistryTx Unit := do
  match (← get).contents.findApproval runId requestSeq with
  | some _ => return ()
  | none =>
    Transaction.write fun t => { t with
      runApprovals := t.runApprovals ++
        [⟨runId, requestSeq, input.clock 0, command, choices, none, none, none⟩] }

/-- `record_approval_decision`: claim the decision of an approval request. Only an undecided request
is changed, and the answer says whether there was one. -/
def recordApprovalDecision (input : RegistryInput) (runId : String) (requestSeq : ℕ)
    (decision : String) : RegistryTx Bool := do
  let undecided := fun row : ApprovalRecord =>
    decide (row.runId = runId ∧ row.requestSeq = requestSeq ∧ row.decision = none)
  let changed := (← get).contents.runApprovals.countP undecided
  Transaction.write fun t => t.updateApprovals undecided fun row =>
    { row with decision := some decision, decidedAt := some (input.clock 0) }
  return changed == 1

/-- `record_approval_resolution`: record where the outcome of a decision was journalled. -/
def recordApprovalResolution (runId : String) (requestSeq resolutionSeq : ℕ) : RegistryTx Unit :=
  Transaction.write fun t => t.updateApprovals
    (fun row => row.runId = runId ∧ row.requestSeq = requestSeq)
    fun row => { row with resolutionSeq := some resolutionSeq }

/-- `set_run_approval_policy`: set the approval policy of a live run. The answer says whether it
changed. -/
def setRunApprovalPolicy (input : RegistryInput) (runId : String) (policy : RunApprovalPolicy)
    (actor : Option String) : RegistryTx Bool := do
  match (← get).contents.findRun runId with
  | none => throw (.unknownRun runId)
  | some row =>
    if row.status.isTerminal then throw (.policyOfTerminalRun runId)
    else if row.approvalPolicy.policy = policy then return false
    else do
      let now := input.clock 0
      let state : RunPolicyState :=
        { policy := policy
          enabledBy := if policy.bypassesApproval then actor else none
          enabledAt := if policy.bypassesApproval then some now else none
          updatedAt := some now }
      Transaction.write fun t => t.updateRun runId fun row => { row with approvalPolicy := state }
      return true

/-- `upsert_subscription`: subscribe to the events of a run. A repeated subscription keeps its
cursor. -/
def upsertSubscription (input : RegistryInput) (projectId runId : String) (fromSeq : ℤ) :
    RegistryTx Unit := do
  let now := input.clock 0
  if (← get).contents.eventSubscriptions.any fun row => row.runId = runId then
    Transaction.write fun t => { t with
      eventSubscriptions := Table.updateWhere (fun row => row.runId = runId)
        (fun row => { row with updatedAt := now }) t.eventSubscriptions }
  else
    Transaction.write fun t => { t with
      eventSubscriptions := t.eventSubscriptions ++ [⟨runId, projectId, max fromSeq 0, now, now⟩] }

/-- `acknowledge_events`: advance the acknowledged position of a subscription. It never moves back.
-/
def acknowledgeEvents (input : RegistryInput) (runId : String) (ackedSeq : ℤ) : RegistryTx Unit :=
  Transaction.write fun t => { t with
    eventSubscriptions := Table.updateWhere (fun row => row.runId = runId)
      (fun row => { row with ackedSeq := max row.ackedSeq ackedSeq, updatedAt := input.clock 0 })
      t.eventSubscriptions }

/-- `remove_subscription`: drop a subscription. -/
def removeSubscription (runId : String) : RegistryTx Unit :=
  Transaction.write fun t => { t with
    eventSubscriptions := t.eventSubscriptions.filter fun row => row.runId ≠ runId }

/-- `CommandAdmission`: what recording a command found. -/
inductive CommandAdmission
  /-- The command is new and is to be executed. -/
  | fresh (record : RemoteCommandRecord)
  /-- The command is known with the same work. -/
  | duplicate (record : RemoteCommandRecord)
  /-- The command id was used for different work. -/
  | payloadMismatch (storedDigest : String)
  deriving DecidableEq

/-- `admit_remote_command`: record a command before it is acknowledged or executed. -/
def admitRemoteCommand (input : RegistryInput) (commandId command : String)
    (projectId : Option String) (payloadDigest : String) : RegistryTx CommandAdmission := do
  match (← get).contents.findCommand commandId with
  | some stored =>
    if stored.payloadDigest ≠ payloadDigest then return .payloadMismatch stored.payloadDigest
    else return .duplicate stored
  | none => do
    let record : RemoteCommandRecord :=
      { commandId := commandId
        command := command
        projectId := projectId
        receivedAt := input.clock 0
        payloadDigest := payloadDigest
        state := .received
        startedAt := none
        completedAt := none
        responsePayload := none
        errorCode := none
        errorMessage := none }
    Transaction.write fun t => { t with remoteCommands := t.remoteCommands ++ [record] }
    return .fresh record

/-- `set_remote_command_state`: set the state of a command. -/
def setRemoteCommandState (input : RegistryInput) (commandId : String) (state : CommandState) :
    RegistryTx Unit :=
  Transaction.write fun t => t.updateCommand commandId fun row =>
    { row with
      state := state
      startedAt :=
        if state == .executing && row.startedAt.isNone then some (input.clock 0)
        else row.startedAt }

/-- `MAX_STORED_PAYLOAD_BYTES`. -/
def maxStoredPayloadBytes : ℕ := 64 * 1024

/-- `bounded_payload`: a payload as it is stored: redacted, and replaced by its size when it is too
large. -/
def boundedPayload (value : Value) : Value :=
  let redacted := (Redact.redact value).value
  if maxStoredPayloadBytes < Text.len redacted.encode then
    -- The size is a machine word.
    Value.obj [("truncated", .bool true),
      ("bytes", .number (.int (Text.len redacted.encode % 2 ^ 64 : ℕ)))]
  else redacted

/-- `complete_remote_command`: store the outcome of a command. -/
def completeRemoteCommand (input : RegistryInput) (commandId : String) (state : CommandState)
    (response : Option Value) (errorCode errorMessage : Option String) :
    RegistryTx RemoteCommandRecord := do
  Transaction.write fun t => t.updateCommand commandId fun row =>
    { row with
      state := state
      completedAt := some (input.clock 0)
      responsePayload := response.map boundedPayload
      errorCode := errorCode
      errorMessage := errorMessage }
  match (← get).contents.findCommand commandId with
  | none => throw (.unknownCommand commandId)
  | some record => return record

/-- `enqueue_outbox`: store a message that has to survive a reconnect. -/
def enqueueOutbox (input : RegistryInput) (kind : String) (correlationId : Option String)
    (payload : Value) : RegistryTx ℕ := do
  let t := (← get).contents
  if maxOutboxDepth ≤ t.outboxDepth then throw .outboxFull
  else do
    let id := t.outbox.length + 1
    Transaction.write fun t => { t with
      outbox := t.outbox ++
        [⟨id, kind, correlationId, boundedPayload payload, input.clock 0, none⟩] }
    return id

/-- `acknowledge_outbox`: mark an outbox entry delivered. -/
def acknowledgeOutbox (input : RegistryInput) (id : ℕ) : RegistryTx Unit :=
  Transaction.write fun t => { t with
    outbox := Table.updateWhere (fun row => row.id = id && row.acknowledgedAt.isNone)
      (fun row => { row with acknowledgedAt := some (input.clock 0) }) t.outbox }

/-- `acknowledge_outbox_correlation`: mark delivered every outbox entry about one command. -/
def acknowledgeOutboxCorrelation (input : RegistryInput) (correlationId : String) :
    RegistryTx Unit :=
  Transaction.write fun t => { t with
    outbox := Table.updateWhere
      (fun row => row.correlationId = some correlationId && row.acknowledgedAt.isNone)
      (fun row => { row with acknowledgedAt := some (input.clock 0) }) t.outbox }

/-- An operation of the `Registry`, indexed by what it returns when it succeeds. -/
inductive RegistryCall : Type → Type
  | createRun (request : NewRun) : RegistryCall RunCreation
  | run (runId : String) : RegistryCall (Option RunRecord)
  | listRuns (projectId : String) (limit : ℕ) : RegistryCall (List RunRecord)
  | activeRuns (projectId : String) : RegistryCall (List RunRecord)
  | updateRun (runId : String) (update : RunUpdate) : RegistryCall RunRecord
  | appendEvent (runId : String) (event : JournalEvent) (update : Option RunUpdate) :
      RegistryCall AppendOutcome
  | recordApprovalRequest (runId : String) (requestSeq : ℕ) (command : Option String)
      (choices : Option Value) : RegistryCall Unit
  | recordApprovalDecision (runId : String) (requestSeq : ℕ) (decision : String) :
      RegistryCall Bool
  | recordApprovalResolution (runId : String) (requestSeq resolutionSeq : ℕ) : RegistryCall Unit
  | pendingApproval (runId : String) : RegistryCall (Option ApprovalRecord)
  | runApprovalPolicy (runId : String) : RegistryCall RunPolicyState
  | setRunApprovalPolicy (runId : String) (policy : RunApprovalPolicy) (actor : Option String) :
      RegistryCall Bool
  | upsertSubscription (projectId runId : String) (fromSeq : ℤ) : RegistryCall Unit
  | acknowledgeEvents (runId : String) (ackedSeq : ℤ) : RegistryCall Unit
  | removeSubscription (runId : String) : RegistryCall Unit
  | subscription (runId : String) : RegistryCall (Option SubscriptionRow)
  | admitRemoteCommand (commandId command : String) (projectId : Option String)
      (payloadDigest : String) : RegistryCall CommandAdmission
  | setRemoteCommandState (commandId : String) (state : CommandState) : RegistryCall Unit
  | completeRemoteCommand (commandId : String) (state : CommandState) (response : Option Value)
      (errorCode errorMessage : Option String) : RegistryCall RemoteCommandRecord
  | outboxDepth : RegistryCall ℕ
  | enqueueOutbox (kind : String) (correlationId : Option String) (payload : Value) :
      RegistryCall ℕ
  | pendingOutbox (limit : ℕ) : RegistryCall (List OutboxRow)
  | acknowledgeOutbox (id : ℕ) : RegistryCall Unit
  | acknowledgeOutboxCorrelation (correlationId : String) : RegistryCall Unit

namespace RegistryCall

def transaction {α : Type} (input : RegistryInput) : RegistryCall α → RegistryTx α
  | createRun request => Asterism.createRun input request
  | run runId => do return (← get).contents.run runId
  | listRuns projectId limit => do return (← get).contents.listRuns projectId limit
  | activeRuns projectId => do return (← get).contents.activeRuns projectId
  | updateRun runId update => Asterism.updateRun input runId update
  | appendEvent runId event update => Asterism.appendEvent input runId event update
  | recordApprovalRequest runId requestSeq command choices =>
    Asterism.recordApprovalRequest input runId requestSeq command choices
  | recordApprovalDecision runId requestSeq decision =>
    Asterism.recordApprovalDecision input runId requestSeq decision
  | recordApprovalResolution runId requestSeq resolutionSeq =>
    Asterism.recordApprovalResolution runId requestSeq resolutionSeq
  | pendingApproval runId => do return (← get).contents.pendingApproval runId
  | runApprovalPolicy runId => do return (← get).contents.runApprovalPolicy runId
  | setRunApprovalPolicy runId policy actor =>
    Asterism.setRunApprovalPolicy input runId policy actor
  | upsertSubscription projectId runId fromSeq =>
    Asterism.upsertSubscription input projectId runId fromSeq
  | acknowledgeEvents runId ackedSeq => Asterism.acknowledgeEvents input runId ackedSeq
  | removeSubscription runId => Asterism.removeSubscription runId
  | subscription runId => do
    return (← get).contents.eventSubscriptions.find? fun row => row.runId = runId
  | admitRemoteCommand commandId command projectId payloadDigest =>
    Asterism.admitRemoteCommand input commandId command projectId payloadDigest
  | setRemoteCommandState commandId state =>
    Asterism.setRemoteCommandState input commandId state
  | completeRemoteCommand commandId state response errorCode errorMessage =>
    Asterism.completeRemoteCommand input commandId state response errorCode errorMessage
  | outboxDepth => do return (← get).contents.outboxDepth
  | enqueueOutbox kind correlationId payload =>
    Asterism.enqueueOutbox input kind correlationId payload
  | pendingOutbox limit => do return (← get).contents.pendingOutbox limit
  | acknowledgeOutbox id => Asterism.acknowledgeOutbox input id
  | acknowledgeOutboxCorrelation correlationId =>
    Asterism.acknowledgeOutboxCorrelation input correlationId

/-- Perform an operation of the registry as one atomic step. -/
def exec {α : Type} (call : RegistryCall α) (input : RegistryInput) (r : Registry) :
    Except RegistryError α × Registry :=
  if input.storage then Transaction.commit (call.transaction input) r else (.error .storage, r)

theorem exec_error {α : Type} {call : RegistryCall α} {input : RegistryInput} {r r' : Registry}
    {e : RegistryError} (h : call.exec input r = (.error e, r')) : r' = r := by
  unfold exec at h
  split at h
  · exact Transaction.commit_error h
  · cases h
    rfl

theorem exec_of_transaction {α : Type} {call : RegistryCall α} {input : RegistryInput}
    {r r' : Registry} {a : α} (hstorage : input.storage = true)
    (h : call.transaction input r = .ok (a, r')) : call.exec input r = (.ok a, r') := by
  unfold exec
  rw [if_pos hstorage]
  exact Transaction.commit_ok_iff.mpr h

theorem exec_ok {α : Type} {call : RegistryCall α} {input : RegistryInput} {r r' : Registry}
    {a : α} (h : call.exec input r = (.ok a, r')) : call.transaction input r = .ok (a, r') := by
  unfold exec at h
  split at h
  · exact Transaction.commit_ok_iff.mp h
  · cases h

end RegistryCall

/-- An operation with what the outside contributes to it. -/
structure RegistryOp where
  {answer : Type}
  call : RegistryCall answer
  /-- Clock readings, drawn identifier and availability of the database. -/
  input : RegistryInput

def Registry.step (r : Registry) (op : RegistryOp) : Registry := (op.call.exec op.input r).2

/-- The registry after a sequence of operations. Transactions are serialised, so this is
every interleaving of every number of callers. -/
def Registry.play (r : Registry) (ops : List RegistryOp) : Registry := ops.foldl Registry.step r

/-- The state change an operation asks for. -/
def RegistryCall.carriedUpdate {α : Type} : RegistryCall α → Option (String × RunUpdate)
  | updateRun runId update => some (runId, update)
  | appendEvent runId _ (some update) => some (runId, update)
  | _ => none

/-- What a transaction can do to the tables. The label is the state change performed, if it
was one. -/
inductive Change (t : Tables) : Option (String × RunUpdate) → Tables → Prop
  | runInserted (request : NewRun) (runId : String) (now : ℤ) :
      Change t none (t.insertRun (request.row runId now))
  | runUpdated (runId : String) (row : RunRow) (update : RunUpdate) (now : ℤ)
      (hfind : t.findRun runId = some row)
      (hvalid : validateTransition row.status (update.target row) = .ok ()) :
      Change t (some (runId, update)) (t.updateRun runId (update.apply now (update.target row)))
  | eventAppended (runId : String) (row : RunRow) (event : JournalEvent) (now now' : ℤ)
      (hfind : t.findRun runId = some row)
      (hnew : event.dedupeKey.bind (t.findDuplicate runId) = none) :
      Change t none ((t.insertEvent (event.row runId (row.lastEventSeq + 1) now)).updateRun runId
        (RunRow.journalled (row.lastEventSeq + 1) now'))
  | policySet (runId : String) (state : RunPolicyState) :
      Change t none (t.updateRun runId fun row => { row with approvalPolicy := state })
  | approvalRequested (runId : String) (requestSeq : ℕ) (now : ℤ) (command : Option String)
      (choices : Option Value) (hnew : t.findApproval runId requestSeq = none) :
      Change t none { t with
        runApprovals :=
          t.runApprovals ++ [⟨runId, requestSeq, now, command, choices, none, none, none⟩] }
  | approvalDecided (runId : String) (requestSeq : ℕ) (decision : String) (now : ℤ) :
      Change t none (t.updateApprovals
        (fun row => row.runId = runId ∧ row.requestSeq = requestSeq ∧ row.decision = none)
        fun row => { row with decision := some decision, decidedAt := some now })
  | approvalResolved (runId : String) (requestSeq resolutionSeq : ℕ) :
      Change t none (t.updateApprovals (fun row => row.runId = runId ∧ row.requestSeq = requestSeq)
        fun row => { row with resolutionSeq := some resolutionSeq })
  | subscriptionsChanged (rows : List SubscriptionRow) :
      Change t none { t with eventSubscriptions := rows }
  | commandAdmitted (record : RemoteCommandRecord)
      (hnew : t.findCommand record.commandId = none) :
      Change t none { t with remoteCommands := t.remoteCommands ++ [record] }
  | commandUpdated (commandId : String) (f : RemoteCommandRecord → RemoteCommandRecord)
      (hkeep : ∀ row, (f row).commandId = row.commandId ∧ (f row).command = row.command ∧
        (f row).projectId = row.projectId ∧ (f row).payloadDigest = row.payloadDigest) :
      Change t none (t.updateCommand commandId f)
  | outboxChanged (rows : List OutboxRow) : Change t none { t with outbox := rows }

/-- Any number of changes, one after the other, through registries that satisfy the schema. -/
abbrev Changes : Registry → Registry → Prop :=
  Relation.ReflTransGen fun r r' => ∃ label, Change r.contents label r'.contents

/-! # The effect of each operation -/

variable {runId : String} {r r' : Registry}

/-- A state change succeeds exactly if the run exists and the transition is allowed. -/
theorem applyUpdate_ok_iff {now : ℤ} {update : RunUpdate} {u : Unit} :
    applyUpdate now runId update r = .ok (u, r') ↔
      ∃ row, r.contents.findRun runId = some row ∧
        validateTransition row.status (update.target row) = .ok () ∧
        r'.contents = r.contents.updateRun runId (update.apply now (update.target row)) := by
  unfold applyUpdate
  rw [Transaction.get_bind]
  cases hfind : r.contents.findRun runId with
  | none => simp
  | some row =>
    cases hvalid : validateTransition row.status (update.target row) with
    | error e => simp [hvalid]
    | ok u => simp [hvalid, Transaction.write_ok_iff]

theorem Tables.findRun_updateRun (t : Tables) (changed runId : String) {f : RunRow → RunRow}
    (hid : ∀ row, (f row).runId = row.runId) :
    (t.updateRun changed f).findRun runId =
      if runId = changed then (t.findRun runId).map f else t.findRun runId := by
  unfold findRun updateRun
  rw [Table.find?_updateWhere (fun row => by rw [hid])]
  cases hfind : t.runs.find? fun row => row.runId = runId with
  | none => simp
  | some row =>
    have hrow : row.runId = runId := by simpa using List.find?_some hfind
    by_cases hsame : runId = changed <;> simp [hrow, hsame]

theorem Tables.findCommand_updateCommand (t : Tables) (changed commandId : String)
    {f : RemoteCommandRecord → RemoteCommandRecord}
    (hid : ∀ row, (f row).commandId = row.commandId) :
    (t.updateCommand changed f).findCommand commandId =
      if commandId = changed then (t.findCommand commandId).map f else t.findCommand commandId := by
  unfold findCommand updateCommand
  rw [Table.find?_updateWhere (fun row => by rw [hid])]
  cases hfind : t.remoteCommands.find? fun row => row.commandId = commandId with
  | none => simp
  | some row =>
    have hrow : row.commandId = commandId := by simpa using List.find?_some hfind
    by_cases hsame : commandId = changed <;> simp [hrow, hsame]

/-- The journal entry of an append that is not a duplicate, before its status update. -/
def Tables.appended (t : Tables) (input : RegistryInput) (row : RunRow) (event : JournalEvent) :
    Tables :=
  (t.insertEvent (event.row row.runId (row.lastEventSeq + 1) (input.clock 0))).updateRun row.runId
    (RunRow.journalled (row.lastEventSeq + 1) (input.clock 1))

variable {input : RegistryInput}

/-- An append that succeeds recognised a duplicate and wrote nothing, or stored the event
under the next number together with its status update. -/
theorem appendEvent_ok_steps {event : JournalEvent} {update : Option RunUpdate}
    {outcome : AppendOutcome} (h : appendEvent input runId event update r = .ok (outcome, r')) :
    ∃ row, r.contents.findRun runId = some row ∧
      ((∃ stored, event.dedupeKey.bind (r.contents.findDuplicate runId) = some stored ∧
          outcome = .duplicate stored.seq ∧ r' = r) ∨
        (event.dedupeKey.bind (r.contents.findDuplicate runId) = none ∧
          outcome = .appended (row.lastEventSeq + 1) ∧
          ∃ mid : Registry, mid.contents = r.contents.appended input row event ∧
            ((update = none ∧ r' = mid) ∨
              ∃ u, update = some u ∧ applyUpdate (input.clock 2) runId u mid = .ok ((), r')))) := by
  unfold appendEvent at h
  rw [Transaction.get_bind] at h
  cases hfind : r.contents.findRun runId with
  | none => simp [hfind] at h
  | some row =>
    have hid := Tables.findRun_runId hfind
    subst hid
    refine ⟨row, rfl, ?_⟩
    simp only [hfind] at h
    cases hdup : event.dedupeKey.bind (r.contents.findDuplicate row.runId) with
    | some stored =>
      simp only [hdup] at h
      obtain ⟨houtcome, hsame⟩ := Transaction.pure_ok_iff.mp h
      exact Or.inl ⟨stored, rfl, houtcome.symm, hsame.symm⟩
    | none =>
      simp only [hdup] at h
      obtain ⟨_, first, hfirst, h⟩ := Transaction.bind_ok_iff.mp h
      obtain ⟨_, mid, hmid, h⟩ := Transaction.bind_ok_iff.mp h
      have hcontents : mid.contents = r.contents.appended input row event := by
        rw [Transaction.write_ok_iff.mp hmid, Transaction.write_ok_iff.mp hfirst, Tables.appended]
      cases update with
      | none =>
        obtain ⟨houtcome, hsame⟩ := Transaction.pure_ok_iff.mp h
        exact Or.inr ⟨rfl, houtcome.symm, mid, hcontents, Or.inl ⟨rfl, hsame.symm⟩⟩
      | some u =>
        obtain ⟨_, last, happly, hpure⟩ := Transaction.bind_ok_iff.mp h
        obtain ⟨houtcome, hsame⟩ := Transaction.pure_ok_iff.mp hpure
        exact Or.inr ⟨rfl, houtcome.symm, mid, hcontents, Or.inr ⟨u, rfl, hsame ▸ happly⟩⟩

theorem Tables.findRun_appended {t : Tables} {row : RunRow} (hrow : t.findRun row.runId = some row)
    (input : RegistryInput) (event : JournalEvent) :
    (t.appended input row event).findRun row.runId =
      some (row.journalled (row.lastEventSeq + 1) (input.clock 1)) := by
  have hinsert (e : EventRow) : (t.insertEvent e).findRun row.runId = some row := hrow
  have hid (old : RunRow) :
    (old.journalled (row.lastEventSeq + 1) (input.clock 1)).runId = old.runId := rfl
  rw [appended, findRun_updateRun _ _ _ hid, if_pos rfl, hinsert, Option.map_some]

theorem appendEvent_ok {event : JournalEvent} {update : Option RunUpdate} {outcome : AppendOutcome}
    (h : appendEvent input runId event update r = .ok (outcome, r')) :
    ∃ row, r.contents.findRun runId = some row ∧
      ((∃ stored, event.dedupeKey.bind (r.contents.findDuplicate runId) = some stored ∧
          outcome = .duplicate stored.seq ∧ r' = r) ∨
        (event.dedupeKey.bind (r.contents.findDuplicate runId) = none ∧
          outcome = .appended (row.lastEventSeq + 1) ∧
          ((update = none ∧ r'.contents = r.contents.appended input row event) ∨
            ∃ u, update = some u ∧ validateTransition row.status (u.target row) = .ok () ∧
              r'.contents = (r.contents.appended input row event).updateRun runId
                (u.apply (input.clock 2) (u.target row))))) := by
  obtain ⟨row, hfind, hdup | ⟨hnew, houtcome, mid, hmid, hrest⟩⟩ := appendEvent_ok_steps h
  · exact ⟨row, hfind, Or.inl hdup⟩
  · refine ⟨row, hfind, Or.inr ⟨hnew, houtcome, ?_⟩⟩
    rcases hrest with ⟨hnone, rfl⟩ | ⟨u, hu, happly⟩
    · exact Or.inl ⟨hnone, hmid⟩
    · -- The status is read after the event was numbered, which does not change it.
      obtain ⟨current, hcurrent, hvalid, hcontents⟩ := applyUpdate_ok_iff.mp happly
      obtain rfl := Tables.findRun_runId hfind
      rw [hmid, Tables.findRun_appended hfind] at hcurrent
      obtain rfl := Option.some.inj hcurrent
      exact Or.inr ⟨u, hu, hvalid, by rw [hcontents, hmid]; rfl⟩

/-- Creating a run returns the run stored under the same key for the same request and writes
nothing, or stores a new run under a key that was free. -/
theorem createRun_ok {request : NewRun} {creation : RunCreation}
    (h : createRun input request r = .ok (creation, r')) :
    (∃ key stored, request.idempotencyKey = some key ∧
        r.contents.findIdempotent request.projectId key = some stored ∧
        stored.requestFingerprint = requestFingerprint request ∧
        creation = .existing stored.toRunRecord ∧ r' = r) ∨
      ((∀ key, request.idempotencyKey = some key →
          r.contents.findIdempotent request.projectId key = none) ∧
        creation = .created (request.row input.runId (input.clock 0)).toRunRecord ∧
        r'.contents = r.contents.insertRun (request.row input.runId (input.clock 0))) := by
  unfold createRun at h
  rw [Transaction.get_bind] at h
  cases hkey : request.idempotencyKey with
  | none =>
    simp only [hkey] at h
    obtain ⟨_, mid, hmid, hpure⟩ := Transaction.bind_ok_iff.mp h
    obtain ⟨hcreation, rfl⟩ := Transaction.pure_ok_iff.mp hpure
    exact Or.inr ⟨by simp, hcreation.symm, Transaction.write_ok_iff.mp hmid⟩
  | some key =>
    simp only [hkey] at h
    cases hstored : r.contents.findIdempotent request.projectId key with
    | some stored =>
      simp only [hstored] at h
      split at h
      · simp at h
      · rename_i hsame
        obtain ⟨hcreation, hr⟩ := Transaction.pure_ok_iff.mp h
        exact Or.inl ⟨key, stored, rfl, hstored, by simpa using hsame, hcreation.symm, hr.symm⟩
    | none =>
      simp only [hstored] at h
      obtain ⟨_, mid, hmid, hpure⟩ := Transaction.bind_ok_iff.mp h
      obtain ⟨hcreation, rfl⟩ := Transaction.pure_ok_iff.mp hpure
      refine Or.inr ⟨?_, hcreation.symm, Transaction.write_ok_iff.mp hmid⟩
      intro key' hkey'
      rw [← Option.some.inj hkey', hstored]

/-- Changing a run on its own is a state change, and returns the row after it. -/
theorem updateRun_ok {update : RunUpdate} {record : RunRecord}
    (h : updateRun input runId update r = .ok (record, r')) :
    applyUpdate (input.clock 0) runId update r = .ok ((), r') ∧
      r'.contents.run runId = some record := by
  unfold updateRun at h
  obtain ⟨_, mid, happly, h⟩ := Transaction.bind_ok_iff.mp h
  rw [Transaction.get_bind] at h
  cases hfind : mid.contents.findRun runId with
  | none => simp [hfind] at h
  | some row =>
    simp only [hfind] at h
    obtain ⟨hrecord, rfl⟩ := Transaction.pure_ok_iff.mp h
    exact ⟨happly, by rw [Tables.run, hfind, Option.map_some, hrecord]⟩

theorem applyUpdate_change {now : ℤ} {update : RunUpdate}
    (h : applyUpdate now runId update r = .ok ((), r')) :
    Change r.contents (some (runId, update)) r'.contents := by
  obtain ⟨row, hfind, hvalid, hcontents⟩ := applyUpdate_ok_iff.mp h
  rw [hcontents]
  exact .runUpdated runId row update now hfind hvalid

/-- Recording an approval request does nothing when it is known, and stores it otherwise. -/
theorem recordApprovalRequest_ok {requestSeq : ℕ} {command : Option String} {choices : Option Value}
    {u : Unit} (h : recordApprovalRequest input runId requestSeq command choices r = .ok (u, r')) :
    ((r.contents.findApproval runId requestSeq).isSome = true ∧ r' = r) ∨
      (r.contents.findApproval runId requestSeq = none ∧
        r'.contents = { r.contents with
          runApprovals := r.contents.runApprovals ++
            [⟨runId, requestSeq, input.clock 0, command, choices, none, none, none⟩] }) := by
  unfold recordApprovalRequest at h
  rw [Transaction.get_bind] at h
  cases hfind : r.contents.findApproval runId requestSeq with
  | some row =>
    simp only [hfind] at h
    obtain ⟨_, rfl⟩ := Transaction.pure_ok_iff.mp h
    exact Or.inl ⟨rfl, rfl⟩
  | none =>
    simp only [hfind] at h
    exact Or.inr ⟨rfl, Transaction.write_ok_iff.mp h⟩

/-- Claiming a decision writes it into the undecided rows and says whether it was one row. -/
theorem recordApprovalDecision_ok {requestSeq : ℕ} {decision : String} {claimed : Bool}
    (h : recordApprovalDecision input runId requestSeq decision r = .ok (claimed, r')) :
    claimed = ((r.contents.runApprovals.countP fun row =>
        row.runId = runId ∧ row.requestSeq = requestSeq ∧ row.decision = none) == 1) ∧
      r'.contents = r.contents.updateApprovals
        (fun row => row.runId = runId ∧ row.requestSeq = requestSeq ∧ row.decision = none)
        fun row => { row with decision := some decision, decidedAt := some (input.clock 0) } := by
  unfold recordApprovalDecision at h
  rw [Transaction.get_bind] at h
  obtain ⟨_, mid, hmid, h⟩ := Transaction.bind_ok_iff.mp h
  obtain ⟨hclaimed, rfl⟩ := Transaction.pure_ok_iff.mp h
  exact ⟨hclaimed.symm, Transaction.write_ok_iff.mp hmid⟩

theorem setRunApprovalPolicy_ok {policy : RunApprovalPolicy} {actor : Option String}
    {changed : Bool} (h : setRunApprovalPolicy input runId policy actor r = .ok (changed, r')) :
    r' = r ∨ ∃ state, r'.contents =
      r.contents.updateRun runId fun row => { row with approvalPolicy := state } := by
  unfold setRunApprovalPolicy at h
  rw [Transaction.get_bind] at h
  cases hfind : r.contents.findRun runId with
  | none => simp [hfind] at h
  | some row =>
    simp only [hfind] at h
    split at h
    · simp at h
    · split at h
      · obtain ⟨_, rfl⟩ := Transaction.pure_ok_iff.mp h
        exact Or.inl rfl
      · obtain ⟨_, mid, hmid, h⟩ := Transaction.bind_ok_iff.mp h
        obtain ⟨_, rfl⟩ := Transaction.pure_ok_iff.mp h
        exact Or.inr ⟨_, Transaction.write_ok_iff.mp hmid⟩

/-- Recording a command stores a new one, and only reports one that is known. -/
theorem admitRemoteCommand_ok {commandId command : String} {projectId : Option String}
    {payloadDigest : String} {admission : CommandAdmission}
    (h : admitRemoteCommand input commandId command projectId payloadDigest r =
      .ok (admission, r')) :
    (∃ stored, r.contents.findCommand commandId = some stored ∧ r' = r ∧
        ((stored.payloadDigest ≠ payloadDigest ∧
            admission = .payloadMismatch stored.payloadDigest) ∨
          (stored.payloadDigest = payloadDigest ∧ admission = .duplicate stored))) ∨
      ∃ record, r.contents.findCommand commandId = none ∧ admission = .fresh record ∧
        record.commandId = commandId ∧ record.payloadDigest = payloadDigest ∧
        r'.contents = { r.contents with
          remoteCommands := r.contents.remoteCommands ++ [record] } := by
  unfold admitRemoteCommand at h
  rw [Transaction.get_bind] at h
  cases hfind : r.contents.findCommand commandId with
  | some stored =>
    simp only [hfind] at h
    refine Or.inl ⟨stored, rfl, ?_⟩
    split at h
    · rename_i hne
      obtain ⟨hadmission, rfl⟩ := Transaction.pure_ok_iff.mp h
      exact ⟨rfl, Or.inl ⟨hne, hadmission.symm⟩⟩
    · rename_i heq
      obtain ⟨hadmission, rfl⟩ := Transaction.pure_ok_iff.mp h
      exact ⟨rfl, Or.inr ⟨by simpa using heq, hadmission.symm⟩⟩
  | none =>
    simp only [hfind] at h
    obtain ⟨_, mid, hmid, h⟩ := Transaction.bind_ok_iff.mp h
    obtain ⟨hadmission, rfl⟩ := Transaction.pure_ok_iff.mp h
    exact Or.inr ⟨_, rfl, hadmission.symm, rfl, rfl, Transaction.write_ok_iff.mp hmid⟩

section Outcome

variable {commandId : String} {state : CommandState} {response : Option Value}
  {errorCode errorMessage : Option String} {record : RemoteCommandRecord}

/-- Storing an outcome changes only the command's progress, and answers with its record. -/
theorem completeRemoteCommand_ok
    (h : completeRemoteCommand input commandId state response errorCode errorMessage r =
      .ok (record, r')) :
    (r'.contents = r.contents.updateCommand commandId fun row =>
      { row with
        state := state
        completedAt := some (input.clock 0)
        responsePayload := response.map boundedPayload
        errorCode := errorCode
        errorMessage := errorMessage }) ∧
      r'.contents.findCommand commandId = some record := by
  unfold completeRemoteCommand at h
  obtain ⟨_, mid, hmid, h⟩ := Transaction.bind_ok_iff.mp h
  rw [Transaction.get_bind] at h
  cases hfind : mid.contents.findCommand commandId with
  | none => simp [hfind] at h
  | some stored =>
    simp only [hfind] at h
    obtain ⟨rfl, rfl⟩ := Transaction.pure_ok_iff.mp h
    exact ⟨Transaction.write_ok_iff.mp hmid, hfind⟩

theorem completeRemoteCommand_record
    (h : completeRemoteCommand input commandId state response errorCode errorMessage r =
      .ok (record, r')) :
    r'.contents.findCommand commandId = some record ∧
      ∃ row, r.contents.findCommand commandId = some row ∧ record =
        { row with
          state := state
          completedAt := some (input.clock 0)
          responsePayload := response.map boundedPayload
          errorCode := errorCode
          errorMessage := errorMessage } := by
  obtain ⟨hcontents, hfound⟩ := completeRemoteCommand_ok h
  refine ⟨hfound, ?_⟩
  rw [hcontents, Tables.findCommand_updateCommand, if_pos rfl] at hfound
  · obtain ⟨row, hrow, hrecord⟩ := Option.map_eq_some_iff.mp hfound
    exact ⟨row, hrow, hrecord.symm⟩
  · intro row
    rfl

end Outcome

theorem enqueueOutbox_ok {kind : String} {correlationId : Option String} {payload : Value} {id : ℕ}
    (h : enqueueOutbox input kind correlationId payload r = .ok (id, r')) :
    r.contents.outboxDepth < maxOutboxDepth ∧ id = r.contents.outbox.length + 1 ∧
      r'.contents = { r.contents with
        outbox := r.contents.outbox ++
          [⟨id, kind, correlationId, boundedPayload payload, input.clock 0, none⟩] } := by
  unfold enqueueOutbox at h
  rw [Transaction.get_bind] at h
  dsimp only at h
  split at h
  · simp at h
  · rename_i hdepth
    obtain ⟨_, mid, hmid, h⟩ := Transaction.bind_ok_iff.mp h
    obtain ⟨rfl, rfl⟩ := Transaction.pure_ok_iff.mp h
    exact ⟨by omega, rfl, Transaction.write_ok_iff.mp hmid⟩

theorem upsertSubscription_ok {projectId runId : String} {fromSeq : ℤ} {u : Unit}
    (h : upsertSubscription input projectId runId fromSeq r = .ok (u, r')) :
    ∃ rows, r'.contents = { r.contents with eventSubscriptions := rows } := by
  unfold upsertSubscription at h
  rw [Transaction.get_bind] at h
  split at h <;> exact ⟨_, Transaction.write_ok_iff.mp h⟩

/-- The registry after an operation: at most one change that is not a state change, and then
at most the state change the operation asked for. -/
def RegistryCall.Effect {α : Type} (call : RegistryCall α) (r r' : Registry) : Prop :=
  ∃ mid : Registry, (mid = r ∨ Change r.contents none mid.contents) ∧
    (r' = mid ∨ ∃ label, call.carriedUpdate = some label ∧
      Change mid.contents (some label) r'.contents)

theorem RegistryCall.Effect.same {α : Type} (call : RegistryCall α) (r : Registry) :
    call.Effect r r :=
  ⟨r, Or.inl rfl, Or.inl rfl⟩

theorem RegistryCall.Effect.single {α : Type} {call : RegistryCall α} {t : Tables}
    (hcontents : r'.contents = t) (h : Change r.contents none t) :
    call.Effect r r' :=
  ⟨r', Or.inr (hcontents ▸ h), Or.inl rfl⟩

/-- Every operation, successful or not, has an effect of this form. -/
theorem RegistryCall.exec_effect {α : Type} (call : RegistryCall α) (input : RegistryInput)
    (r : Registry) : call.Effect r (call.exec input r).2 := by
  unfold exec
  split
  · refine Transaction.commit_induction (.same call r) fun a r' h => ?_
    cases call with
    | run | listRuns | activeRuns | pendingApproval | runApprovalPolicy | subscription
    | outboxDepth | pendingOutbox =>
      obtain ⟨_, rfl⟩ := Transaction.pure_ok_iff.mp h
      exact .same _ r
    | createRun request =>
      rcases createRun_ok h with ⟨_, _, _, _, _, _, rfl⟩ | ⟨_, _, hcontents⟩
      · exact .same _ r'
      · exact .single hcontents (.runInserted request _ _)
    | updateRun runId update =>
      exact ⟨r, Or.inl rfl, Or.inr ⟨_, rfl, applyUpdate_change (updateRun_ok h).1⟩⟩
    | appendEvent runId event update =>
      obtain ⟨row, hfind, ⟨_, _, _, rfl⟩ | ⟨hnew, _, mid, hmid, hrest⟩⟩ := appendEvent_ok_steps h
      · exact .same _ r'
      · obtain rfl := Tables.findRun_runId hfind
        have hfirst : Change r.contents none mid.contents := by
          rw [hmid]
          exact .eventAppended row.runId row event _ _ hfind hnew
        rcases hrest with ⟨_, rfl⟩ | ⟨u, rfl, happly⟩
        · exact ⟨r', Or.inr hfirst, Or.inl rfl⟩
        · exact ⟨mid, Or.inr hfirst, Or.inr ⟨_, rfl, applyUpdate_change happly⟩⟩
    | recordApprovalRequest runId requestSeq command choices =>
      rcases recordApprovalRequest_ok h with ⟨_, rfl⟩ | ⟨hnew, hcontents⟩
      · exact .same _ r'
      · exact .single hcontents (.approvalRequested _ _ _ _ _ hnew)
    | recordApprovalDecision runId requestSeq decision =>
      exact .single (recordApprovalDecision_ok h).2 (.approvalDecided _ _ _ _)
    | recordApprovalResolution runId requestSeq resolutionSeq =>
      exact .single (Transaction.write_ok_iff.mp h) (.approvalResolved _ _ _)
    | setRunApprovalPolicy runId policy actor =>
      rcases setRunApprovalPolicy_ok h with rfl | ⟨state, hcontents⟩
      · exact .same _ r'
      · exact .single hcontents (.policySet _ _)
    | upsertSubscription projectId runId fromSeq =>
      obtain ⟨rows, hcontents⟩ := upsertSubscription_ok h
      exact .single hcontents (.subscriptionsChanged _)
    | acknowledgeEvents runId ackedSeq =>
      exact .single (Transaction.write_ok_iff.mp h) (.subscriptionsChanged _)
    | removeSubscription runId =>
      exact .single (Transaction.write_ok_iff.mp h) (.subscriptionsChanged _)
    | admitRemoteCommand commandId command projectId payloadDigest =>
      rcases admitRemoteCommand_ok h with ⟨_, _, rfl, _⟩ | ⟨record, hnew, _, hid, _, hcontents⟩
      · exact .same _ r'
      · exact .single hcontents (.commandAdmitted _ (hid ▸ hnew))
    | setRemoteCommandState commandId state =>
      exact .single (Transaction.write_ok_iff.mp h) (.commandUpdated _ _ fun _ => by simp)
    | completeRemoteCommand commandId state response errorCode errorMessage =>
      exact .single (completeRemoteCommand_ok h).1 (.commandUpdated _ _ fun _ => by simp)
    | enqueueOutbox kind correlationId payload =>
      exact .single (enqueueOutbox_ok h).2.2 (.outboxChanged _)
    | acknowledgeOutbox id => exact .single (Transaction.write_ok_iff.mp h) (.outboxChanged _)
    | acknowledgeOutboxCorrelation correlationId =>
      exact .single (Transaction.write_ok_iff.mp h) (.outboxChanged _)
  · exact .same call r

/-- An effect is a sequence of changes. -/
theorem RegistryCall.Effect.changes {α : Type} {call : RegistryCall α}
    (h : call.Effect r r') : Changes r r' := by
  obtain ⟨mid, hfirst, hsecond⟩ := h
  have hmid : Changes r mid := by
    rcases hfirst with rfl | hchange
    · exact .refl
    · exact .single ⟨none, hchange⟩
  rcases hsecond with rfl | ⟨label, _, hchange⟩
  · exact hmid
  · exact hmid.tail ⟨some label, hchange⟩

/-- A property every change preserves is preserved by any number of changes. -/
theorem Changes.induction {motive : Registry → Prop} (h : Changes r r') (hstart : motive r)
    (hchange : ∀ (a b : Registry) label, Change a.contents label b.contents →
      motive a → motive b) :
    motive r' := by
  induction h with
  | refl => exact hstart
  | tail _ hlast ih =>
    obtain ⟨label, hlast⟩ := hlast
    exact hchange _ _ label hlast ih

theorem Registry.play_changes (r : Registry) (ops : List RegistryOp) : Changes r (r.play ops) := by
  induction ops generalizing r with
  | nil => exact .refl
  | cons op ops ih => exact (op.call.exec_effect op.input r).changes.trans (ih _)

end Asterism

/-! ## One run through one operation -/

namespace Asterism

/-- The rows differ at most in the journal counter, the time of the last change and the
approval policy. -/
def RunRow.SameRun (row row' : RunRow) : Prop :=
  row' = { row with
    lastEventSeq := row'.lastEventSeq
    updatedAt := row'.updatedAt
    approvalPolicy := row'.approvalPolicy }

namespace RunRow.SameRun

variable {row row' row'' : RunRow}

theorem refl (row : RunRow) : row.SameRun row := rfl

theorem journalled (row : RunRow) (seq : ℕ) (now : ℤ) : row.SameRun (row.journalled seq now) := rfl

theorem status_eq (h : row.SameRun row') : row'.status = row.status := by
  unfold SameRun at h
  rw [h]

theorem hermesRunId_eq (h : row.SameRun row') : row'.hermesRunId = row.hermesRunId := by
  unfold SameRun at h
  rw [h]

/-- An update finds the same target before and after bookkeeping. -/
theorem target_eq (h : row.SameRun row') (update : RunUpdate) :
    update.target row' = update.target row := by
  unfold RunUpdate.target
  rw [h.status_eq]

theorem apply (h : row.SameRun row') (update : RunUpdate) (now : ℤ) (target : RunStatus) :
    (update.apply now target row).SameRun (update.apply now target row') := by
  unfold SameRun at h
  rw [h]
  rfl

end RunRow.SameRun

theorem Tables.findRun_insertRun (t : Tables) (row : RunRow) (runId : String) :
    (t.insertRun row).findRun runId =
      (t.findRun runId).or (if row.runId = runId then some row else none) := by
  unfold findRun insertRun
  rw [List.find?_append, List.find?_singleton]
  simp only [decide_eq_true_eq]

theorem Change.findRun_quiet {t t' : Tables} (hchange : Change t none t') {runId : String}
    {row : RunRow} (hrow : t.findRun runId = some row) :
    ∃ row', t'.findRun runId = some row' ∧ row.SameRun row' := by
  cases hchange with
  | runInserted request newId now =>
    refine ⟨row, ?_, .refl row⟩
    rw [Tables.findRun_insertRun, hrow, Option.some_or]
  | eventAppended changed found event now now' =>
    have hinsert (e : EventRow) : (t.insertEvent e).findRun runId = some row := hrow
    have hid (old : RunRow) : (old.journalled (found.lastEventSeq + 1) now').runId =
      old.runId := rfl
    rw [Tables.findRun_updateRun _ _ _ hid, hinsert]
    split
    · exact ⟨_, rfl, rfl⟩
    · exact ⟨_, rfl, .refl row⟩
  | policySet changed state =>
    have hid (old : RunRow) : ({ old with approvalPolicy := state } : RunRow).runId =
      old.runId := rfl
    rw [Tables.findRun_updateRun _ _ _ hid, hrow]
    split
    · exact ⟨_, rfl, rfl⟩
    · exact ⟨_, rfl, .refl row⟩
  | approvalRequested | approvalDecided | approvalResolved | subscriptionsChanged
  | commandAdmitted | commandUpdated | outboxChanged => exact ⟨row, hrow, .refl row⟩

/-- A state change writes the row it names and leaves every other run alone. -/
theorem Change.findRun_update {t t' : Tables} {changed runId : String} {update : RunUpdate}
    (hchange : Change t (some (changed, update)) t') {row : RunRow}
    (hrow : t.findRun runId = some row) :
    ∃ row', t'.findRun runId = some row' ∧
      ((changed ≠ runId ∧ row' = row) ∨
        (changed = runId ∧ validateTransition row.status (update.target row) = .ok () ∧
          ∃ now, row' = update.apply now (update.target row) row)) := by
  cases hchange with
  | runUpdated _ found _ now hfind hvalid =>
    have hid (old : RunRow) : (update.apply now (update.target found) old).runId = old.runId := rfl
    rw [Tables.findRun_updateRun _ _ _ hid, hrow]
    by_cases hsame : runId = changed
    · subst hsame
      obtain rfl := Option.some.inj (hrow.symm.trans hfind)
      rw [if_pos rfl]
      exact ⟨_, rfl, Or.inr ⟨rfl, hvalid, now, rfl⟩⟩
    · rw [if_neg hsame]
      exact ⟨row, rfl, Or.inl ⟨fun heq => hsame heq.symm, rfl⟩⟩

/-- After any operation a run is still there. Up to bookkeeping it is what it was, or what
the state change carried by the operation makes of it. -/
theorem RegistryCall.exec_findRun {α : Type} (call : RegistryCall α) (input : RegistryInput)
    {r : Registry} {runId : String} {row : RunRow} (hrow : r.contents.findRun runId = some row) :
    ∃ row', (call.exec input r).2.contents.findRun runId = some row' ∧
      (row.SameRun row' ∨
        ∃ update now, call.carriedUpdate = some (runId, update) ∧
          validateTransition row.status (update.target row) = .ok () ∧
          (update.apply now (update.target row) row).SameRun row') := by
  obtain ⟨mid, hfirst, hsecond⟩ := call.exec_effect input r
  have hmid : ∃ row', mid.contents.findRun runId = some row' ∧ row.SameRun row' := by
    rcases hfirst with rfl | hchange
    · exact ⟨row, hrow, .refl row⟩
    · exact hchange.findRun_quiet hrow
  obtain ⟨rowMid, hrowMid, hsame⟩ := hmid
  rcases hsecond with hlast | ⟨⟨changed, update⟩, hcarried, hchange⟩
  · rw [hlast]
    exact ⟨rowMid, hrowMid, Or.inl hsame⟩
  · obtain ⟨row', hrow', hcases⟩ := hchange.findRun_update hrowMid
    refine ⟨row', hrow', ?_⟩
    rcases hcases with ⟨_, rfl⟩ | ⟨rfl, hvalid, now, rfl⟩
    · exact Or.inl hsame
    · rw [hsame.status_eq, hsame.target_eq] at hvalid
      refine Or.inr ⟨update, now, hcarried, hvalid, ?_⟩
      rw [hsame.target_eq]
      exact hsame.apply update now _

end Asterism
