import Asterism.Redact
import Asterism.Relational.Table
import Mathlib.Data.List.Sort

/-!
# Runs, their journal and the tables of the registry

A run is live until it reaches one of five terminal states, which no transition leaves. Keys,
unique indexes and foreign keys are part of the type of a registry. Each operation is one
transaction. A status change and the event that reports it are written in the same one.
-/

namespace Asterism

/-- `RunStatus`: the lifecycle status of a run. -/
inductive RunStatus
  | created
  | starting
  | running
  | waitingForApproval
  | recovering
  | completed
  | failed
  | cancelled
  | interrupted
  | lost
  deriving DecidableEq

namespace RunStatus

/-- `as_str`: the stored form of a status. -/
def asStr : RunStatus → String
  | created => "created"
  | starting => "starting"
  | running => "running"
  | waitingForApproval => "waiting_for_approval"
  | recovering => "recovering"
  | completed => "completed"
  | failed => "failed"
  | cancelled => "cancelled"
  | interrupted => "interrupted"
  | lost => "lost"

/-- `is_terminal`: the run has ended. -/
def isTerminal : RunStatus → Bool
  | completed | failed | cancelled | interrupted | lost => true
  | _ => false

/-- `is_active`: the run has not ended. -/
def isActive (status : RunStatus) : Bool := !status.isTerminal

/-- `is_retryable`: an explicit retry may replace the run. -/
def isRetryable : RunStatus → Bool
  | interrupted | lost => true
  | _ => false

/-- The edges of `validate_transition` between two different states. -/
def allowed : RunStatus → RunStatus → Bool
  | created, next => match next with
    | starting | failed | cancelled | lost => true
    | _ => false
  | starting, next => match next with
    | running | recovering => true
    | _ => next.isTerminal
  | running, next => match next with
    | waitingForApproval | recovering => true
    | _ => next.isTerminal
  | waitingForApproval, next => match next with
    | running | recovering => true
    | _ => next.isTerminal
  | recovering, next => match next with
    | running | waitingForApproval => true
    | _ => next.isTerminal
  | _, _ => false

end RunStatus

/-- `InvalidTransition`: a rejected status change. -/
structure InvalidTransition where
  source : RunStatus
  target : RunStatus
  deriving DecidableEq

/-- `Display::fmt`: the text of a rejected status change. -/
def InvalidTransition.message (e : InvalidTransition) : String :=
  "invalid run transition " ++ e.source.asStr ++ " -> " ++ e.target.asStr

/-- `validate_transition`: decide whether a status change is allowed. -/
def validateTransition (source target : RunStatus) : Except InvalidTransition Unit :=
  if source = target then .ok ()
  else if source.isTerminal then .error ⟨source, target⟩
  else if RunStatus.allowed source target then .ok ()
  else .error ⟨source, target⟩

@[simp] theorem validateTransition_self (status : RunStatus) :
    validateTransition status status = .ok () := by
  simp only [validateTransition, if_true]

/-- An accepted change of status leaves a live state along an edge. -/
theorem validateTransition_ok_iff {source target : RunStatus} :
    validateTransition source target = .ok () ↔
      source = target ∨ source.isTerminal = false ∧ RunStatus.allowed source target = true := by
  unfold validateTransition
  by_cases hsame : source = target
  · simp only [hsame, if_true, true_or]
  · cases hterminal : source.isTerminal <;> cases hallowed : RunStatus.allowed source target <;>
      simp [hsame]

theorem eq_of_validateTransition {source target : RunStatus} (hterminal : source.isTerminal = true)
    (hok : validateTransition source target = .ok ()) : target = source := by
  rcases validateTransition_ok_iff.mp hok with h | ⟨hlive, _⟩
  · exact h.symm
  · rw [hterminal] at hlive
    cases hlive

/-- `from_hermes_status`: the status a backend status stands for. An unknown one counts as still
running. -/
def fromHermesStatus (status : String) : RunStatus :=
  if status = "completed" then .completed
  else if status = "failed" then .failed
  else if status = "cancelled" then .cancelled
  else if status = "waiting_for_approval" then .waitingForApproval
  else .running

theorem fromHermesStatus_live {status : String}
    (hlive : (fromHermesStatus status).isTerminal = false) :
    fromHermesStatus status = .running ∨ fromHermesStatus status = .waitingForApproval := by
  unfold fromHermesStatus at hlive ⊢
  split_ifs at hlive ⊢ <;> first | exact Or.inl rfl | exact Or.inr rfl | cases hlive

/-- `RunApprovalPolicy`: how approval requests of one run are answered. -/
inductive RunApprovalPolicy
  /-- Every request waits for an operator. -/
  | manual
  /-- Every request of this run is resolved automatically. -/
  | allowAllForRun
  deriving DecidableEq

namespace RunApprovalPolicy

/-- `as_str`: the stored form of a policy. -/
def asStr : RunApprovalPolicy → String
  | manual => "manual"
  | allowAllForRun => "allow_all_for_run"

/-- `bypasses_approval`: the policy answers requests by itself. -/
def bypassesApproval : RunApprovalPolicy → Bool
  | manual => false
  | allowAllForRun => true

end RunApprovalPolicy

/-- `RunPolicyState`: the policy of one run, with who set it and when. -/
structure RunPolicyState where
  policy : RunApprovalPolicy := .manual
  enabledBy : Option String := none
  enabledAt : Option ℤ := none
  updatedAt : Option ℤ := none
  deriving DecidableEq

/-! # The tables of the registry -/

/-- `RunRecord`: a run as the registry hands it out. -/
structure RunRecord where
  runId : String
  projectId : String
  sessionId : Option String
  idempotencyKey : Option String
  runtimeKind : String
  provider : Option String
  model : Option String
  status : RunStatus
  createdAt : ℤ
  startedAt : Option ℤ
  updatedAt : ℤ
  finishedAt : Option ℤ
  /-- The sequence number of the newest journalled event. -/
  lastEventSeq : ℕ
  terminalReason : Option String
  errorCode : Option String
  errorMessage : Option String
  /-- The backend's own identifier of the run, once it was submitted. -/
  hermesRunId : Option String
  requestPayload : Value
  resultPayload : Option Value
  recoveryNote : Option String
  /-- The run this one replaces. -/
  retryOfRunId : Option String
  deriving DecidableEq

/-- A row of the `runs` table: a run and the columns never handed out with it. -/
structure RunRow extends RunRecord where
  /-- The digest of the request that created the run. -/
  requestFingerprint : String
  approvalPolicy : RunPolicyState
  deriving DecidableEq

/-- Who produced an event. -/
inductive EventSource
  | asterism
  | hermes
  deriving DecidableEq

/-- `StoredEvent`: an event as stored. -/
structure StoredEvent where
  runId : String
  seq : ℕ
  eventType : String
  recordedAt : ℤ
  source : EventSource
  payload : Value
  rawPayload : Option Value
  redacted : Bool
  deriving DecidableEq

/-- A row of the `run_events` table. -/
structure EventRow extends StoredEvent where
  /-- The identity under which a repeated delivery is recognised. -/
  dedupeKey : Option String
  deriving DecidableEq

/-- A row of the `run_approvals` table. -/
structure ApprovalRecord where
  runId : String
  /-- The journal position of the request. -/
  requestSeq : ℕ
  requestedAt : ℤ
  command : Option String
  choices : Option Value
  decision : Option String
  decidedAt : Option ℤ
  resolutionSeq : Option ℕ
  deriving DecidableEq

/-- A row of the `event_subscriptions` table. -/
structure SubscriptionRow where
  runId : String
  projectId : String
  ackedSeq : ℤ
  createdAt : ℤ
  updatedAt : ℤ
  deriving DecidableEq

/-- `CommandState`: the lifecycle of one remote command. -/
inductive CommandState
  | received
  | accepted
  | executing
  | completed
  | rejected
  | failed
  deriving DecidableEq

/-- `as_str`: the stored form of a command state. -/
def CommandState.asStr : CommandState → String
  | received => "received"
  | accepted => "accepted"
  | executing => "executing"
  | completed => "completed"
  | rejected => "rejected"
  | failed => "failed"

/-- A row of the `remote_commands` table. -/
structure RemoteCommandRecord where
  commandId : String
  command : String
  projectId : Option String
  receivedAt : ℤ
  /-- The digest of the work the command id stands for. -/
  payloadDigest : String
  state : CommandState
  startedAt : Option ℤ
  completedAt : Option ℤ
  responsePayload : Option Value
  errorCode : Option String
  errorMessage : Option String
  deriving DecidableEq

/-- A row of the `outbox` table. -/
structure OutboxRow where
  id : ℕ
  kind : String
  correlationId : Option String
  payload : Value
  createdAt : ℤ
  acknowledgedAt : Option ℤ
  deriving DecidableEq

/-- Everything the registry stores. -/
structure Tables where
  runs : List RunRow
  runEvents : List EventRow
  runApprovals : List ApprovalRecord
  eventSubscriptions : List SubscriptionRow
  remoteCommands : List RemoteCommandRecord
  outbox : List OutboxRow
  deriving DecidableEq

/-- The index `runs_idempotency`: the project and key of a run that has a key. -/
def idempotencyIndex (row : RunRow) : Option (String × String) :=
  row.idempotencyKey.map fun key => (row.projectId, key)

/-- The index `run_events_dedupe`: the run and dedupe key of an event that has one. -/
def dedupeIndex (event : EventRow) : Option (String × String) :=
  event.dedupeKey.map fun key => (event.runId, key)

def Tables.runIds (t : Tables) : List String := t.runs.map fun row => row.runId

/-- Every constraint the database schema declares. -/
structure Tables.Valid (t : Tables) : Prop where
  runs_primary : Table.Unique (fun row : RunRow => some row.runId) t.runs
  runs_idempotency : Table.Unique idempotencyIndex t.runs
  runs_hermesRunId : Table.Unique (fun row : RunRow => row.hermesRunId) t.runs
  runs_retryOf : ∀ original ∈ t.runs.filterMap fun row => row.retryOfRunId, original ∈ t.runIds
  events_primary : Table.Unique (fun event : EventRow => some (event.runId, event.seq)) t.runEvents
  events_dedupe : Table.Unique dedupeIndex t.runEvents
  events_run : ∀ event ∈ t.runEvents, event.runId ∈ t.runIds
  approvals_primary :
    Table.Unique (fun row : ApprovalRecord => some (row.runId, row.requestSeq)) t.runApprovals
  approvals_run : ∀ approval ∈ t.runApprovals, approval.runId ∈ t.runIds
  subscriptions_primary :
    Table.Unique (fun row : SubscriptionRow => some row.runId) t.eventSubscriptions
  subscriptions_run : ∀ row ∈ t.eventSubscriptions, row.runId ∈ t.runIds
  commands_primary :
    Table.Unique (fun row : RemoteCommandRecord => some row.commandId) t.remoteCommands
  outbox_primary : Table.Unique (fun row : OutboxRow => some row.id) t.outbox

instance : DecidablePred Tables.Valid := fun t =>
  decidable_of_iff
    (Table.Unique (fun row : RunRow => some row.runId) t.runs ∧
      Table.Unique idempotencyIndex t.runs ∧
      Table.Unique (fun row : RunRow => row.hermesRunId) t.runs ∧
      (∀ original ∈ t.runs.filterMap fun row => row.retryOfRunId, original ∈ t.runIds) ∧
      Table.Unique (fun event : EventRow => some (event.runId, event.seq)) t.runEvents ∧
      Table.Unique dedupeIndex t.runEvents ∧
      (∀ event ∈ t.runEvents, event.runId ∈ t.runIds) ∧
      Table.Unique (fun row : ApprovalRecord => some (row.runId, row.requestSeq)) t.runApprovals ∧
      (∀ approval ∈ t.runApprovals, approval.runId ∈ t.runIds) ∧
      Table.Unique (fun row : SubscriptionRow => some row.runId) t.eventSubscriptions ∧
      (∀ row ∈ t.eventSubscriptions, row.runId ∈ t.runIds) ∧
      Table.Unique (fun row : RemoteCommandRecord => some row.commandId) t.remoteCommands ∧
      Table.Unique (fun row : OutboxRow => some row.id) t.outbox)
    ⟨fun ⟨h1, h2, h3, h4, h5, h6, h7, h8, h9, h10, h11, h12, h13⟩ =>
        ⟨h1, h2, h3, h4, h5, h6, h7, h8, h9, h10, h11, h12, h13⟩,
      fun ⟨h1, h2, h3, h4, h5, h6, h7, h8, h9, h10, h11, h12, h13⟩ =>
        ⟨h1, h2, h3, h4, h5, h6, h7, h8, h9, h10, h11, h12, h13⟩⟩

/-- `IdempotencyConflict`: an idempotency key was reused with a different request. -/
structure IdempotencyConflict where
  projectId : String
  idempotencyKey : String
  existingRunId : String
  deriving DecidableEq

/-- Why an operation of the registry fails. -/
inductive RegistryError
  | invalidTransition (e : InvalidTransition)
  | idempotencyConflict (e : IdempotencyConflict)
  | appendToUnknownRun (runId : String)
  | unknownRun (runId : String)
  | policyOfTerminalRun (runId : String)
  | unknownCommand (commandId : String)
  /-- The outbox holds as many unacknowledged entries as it may. -/
  | outboxFull
  /-- A constraint of the schema was violated. -/
  | constraint
  /-- The database could not be opened, read or written. -/
  | storage
  deriving DecidableEq

/-- `MAX_OUTBOX_DEPTH`: the number of unacknowledged entries at which new work is refused. -/
def maxOutboxDepth : ℕ := 1024

/-- `Display::fmt`: the text of a registry error. The database's own messages are not modelled. -/
def RegistryError.message : RegistryError → String
  | invalidTransition e => e.message
  | idempotencyConflict e =>
    "idempotency key " ++ Text.debug e.idempotencyKey ++ " for project " ++
      e.projectId ++ " was already used by run " ++ e.existingRunId ++ " with a different request"
  | appendToUnknownRun runId => "cannot append an event to unknown run " ++ runId
  | unknownRun runId => "unknown run " ++ runId
  | policyOfTerminalRun runId =>
    "run " ++ runId ++ " is already terminal; its approval policy cannot change"
  | unknownCommand commandId => "unknown remote command " ++ commandId
  | outboxFull =>
    "outbox is full (" ++ Text.decimal maxOutboxDepth ++ " unacknowledged entries); " ++
      "refusing to accept more work until the Control Plane acknowledges"
  | constraint => "constraint failed"
  | storage => "database is unavailable"

/-- The registry's schema. -/
def registrySchema : Transaction.Schema Tables RegistryError where
  Valid := Tables.Valid
  decidable := inferInstance
  violation := .constraint

/-- `Registry`: a registry: tables that satisfy the schema. -/
abbrev Registry := Transaction.Store registrySchema

abbrev RegistryTx (α : Type) := Transaction.Tx registrySchema α

def Tables.empty : Tables := ⟨[], [], [], [], [], []⟩

def Registry.empty : Registry := ⟨.empty, (by decide : Tables.Valid .empty)⟩

/-- `load_run`: the row of a run. -/
def Tables.findRun (t : Tables) (runId : String) : Option RunRow :=
  t.runs.find? fun row => row.runId = runId

/-- The journal of a run, in append order. -/
def Tables.eventsOf (t : Tables) (runId : String) : List EventRow :=
  t.runEvents.filter fun event => event.runId = runId

theorem Tables.findRun_runId {t : Tables} {runId : String} {row : RunRow}
    (h : t.findRun runId = some row) : row.runId = runId := by
  simpa using List.find?_some h

theorem Tables.findRun_mem {t : Tables} {runId : String} {row : RunRow}
    (h : t.findRun runId = some row) : row ∈ t.runs :=
  List.mem_of_find?_eq_some h

theorem Tables.Valid.findRun_eq_some {t : Tables} (h : t.Valid) {row : RunRow}
    (hrow : row ∈ t.runs) : t.findRun row.runId = some row := by
  have hfind := h.runs_primary.find?_eq_some hrow (k := row.runId) rfl
  simpa only [Tables.findRun, Option.some.injEq] using hfind

theorem Tables.findRun_isSome_iff {t : Tables} {runId : String} :
    (∃ row, t.findRun runId = some row) ↔ runId ∈ t.runIds := by
  constructor
  · rintro ⟨row, hrow⟩
    exact List.mem_map.mpr ⟨row, findRun_mem hrow, findRun_runId hrow⟩
  · intro hmem
    obtain ⟨row, hrow, hid⟩ := List.mem_map.mp hmem
    cases hfind : t.findRun runId with
    | some found => exact ⟨found, rfl⟩
    | none =>
      have hnone := List.find?_eq_none.mp hfind row hrow
      simp only [hid, decide_true, not_true] at hnone

/-! ## Operations on runs -/

/-- What the outside contributes to one registry operation. -/
structure RegistryInput where
  /-- The clock, reading by reading. -/
  clock : ℕ → ℤ
  runId : String
  /-- The database can be opened, read and written. -/
  storage : Bool

/-- `NewRun`: a request to create a run. -/
structure NewRun where
  projectId : String
  sessionId : Option String
  idempotencyKey : Option String
  runtimeKind : String
  provider : Option String
  model : Option String
  requestPayload : Value
  retryOfRunId : Option String

/-- `RunCreation`: a new run, or the run an earlier identical request created. -/
inductive RunCreation
  | created (run : RunRecord)
  | existing (run : RunRecord)
  deriving DecidableEq

/-- `record`: the run, new or not. -/
def RunCreation.record : RunCreation → RunRecord
  | created run | existing run => run

/-- `RunUpdate`: the fields a state change may set. -/
structure RunUpdate where
  status : Option RunStatus := none
  hermesRunId : Option String := none
  terminalReason : Option String := none
  errorCode : Option String := none
  errorMessage : Option String := none
  resultPayload : Option Value := none
  recoveryNote : Option String := none
  deriving DecidableEq

namespace RunUpdate

/-- `status`: an update that sets only the status. -/
def ofStatus (status : RunStatus) : RunUpdate := { status := some status }

/-- `with_hermes_run_id`: also record the backend's run id. -/
def withHermesRunId (update : RunUpdate) (id : String) : RunUpdate :=
  { update with hermesRunId := some id }

/-- `with_error`: also record an error. -/
def withError (update : RunUpdate) (code message : String) : RunUpdate :=
  { update with errorCode := some code, errorMessage := some message }

/-- `with_terminal_reason`: also record why the run ended. -/
def withTerminalReason (update : RunUpdate) (reason : String) : RunUpdate :=
  { update with terminalReason := some reason }

/-- `with_result`: also record the result. -/
def withResult (update : RunUpdate) (payload : Value) : RunUpdate :=
  { update with resultPayload := some payload }

/-- `with_recovery_note`: also record how the run was recovered. -/
def withRecoveryNote (update : RunUpdate) (note : String) : RunUpdate :=
  { update with recoveryNote := some note }

/-- The status that a row has after `apply_update`. -/
def target (update : RunUpdate) (row : RunRow) : RunStatus := update.status.getD row.status

/-- `apply_update`, on a row. A field the update does not carry keeps its value, and the time a run
finished is never overwritten. -/
def apply (update : RunUpdate) (now : ℤ) (target : RunStatus) (row : RunRow) : RunRow :=
  { row with
    status := target
    updatedAt := now
    startedAt :=
      if row.startedAt.isNone && (target == .starting || target == .running) then some now
      else row.startedAt
    finishedAt := if target.isTerminal then row.finishedAt.or (some now) else row.finishedAt
    hermesRunId := update.hermesRunId.or row.hermesRunId
    terminalReason := update.terminalReason.or row.terminalReason
    errorCode := update.errorCode.or row.errorCode
    errorMessage := update.errorMessage.or row.errorMessage
    resultPayload :=
      (update.resultPayload.map fun payload => (Redact.redact payload).value).or row.resultPayload
    recoveryNote := update.recoveryNote.or row.recoveryNote }

end RunUpdate

/-- `JournalEvent`: an event to append to the journal. -/
structure JournalEvent where
  eventType : String
  source : EventSource
  payload : Value
  /-- The backend's own payload. -/
  raw : Option Value
  /-- The identity of the event, and `none` to append it always. -/
  dedupeKey : Option String

/-- `asterism`: an event the Node itself produces. -/
def JournalEvent.asterism (eventType : String) (payload : Value) : JournalEvent :=
  ⟨eventType, .asterism, payload, none, none⟩

/-- `append_event`, on the row: redacted, and without a raw payload that is too large. -/
def JournalEvent.row (event : JournalEvent) (runId : String) (seq : ℕ) (now : ℤ) : EventRow :=
  let payload := Redact.redact event.payload
  let raw := event.raw.bind Redact.boundedRaw
  { runId := runId
    seq := seq
    eventType := event.eventType
    recordedAt := now
    source := event.source
    payload := payload.value
    rawPayload := raw
    redacted := payload.modified || (event.raw.isSome && raw.isNone)
    dedupeKey := event.dedupeKey }

/-- `AppendOutcome`: where an event ended up in the journal. -/
inductive AppendOutcome
  | appended (seq : ℕ)
  /-- An earlier append carried the same dedupe key, and nothing was written. -/
  | duplicate (seq : ℕ)
  deriving DecidableEq

/-- `seq`: the journal position, stored now or earlier. -/
def AppendOutcome.seq : AppendOutcome → ℕ
  | appended seq | duplicate seq => seq

/-- `request_fingerprint`: the digest of the parts of a request that make it the same request. -/
def requestFingerprint (request : NewRun) : String :=
  Value.fingerprintValue (Value.obj
    [("project_id", .string request.projectId), ("session_id", .ofOption request.sessionId),
      ("runtime_kind", .string request.runtimeKind),
      ("request", (Redact.redact request.requestPayload).value)])

/-- `create_run`, on the row. -/
def NewRun.row (request : NewRun) (runId : String) (now : ℤ) : RunRow :=
  { runId := runId
    projectId := request.projectId
    sessionId := request.sessionId
    idempotencyKey := request.idempotencyKey
    runtimeKind := request.runtimeKind
    provider := request.provider
    model := request.model
    status := .created
    createdAt := now
    startedAt := none
    updatedAt := now
    finishedAt := none
    lastEventSeq := 0
    terminalReason := none
    errorCode := none
    errorMessage := none
    hermesRunId := none
    requestPayload := (Redact.redact request.requestPayload).value
    resultPayload := none
    recoveryNote := none
    retryOfRunId := request.retryOfRunId
    requestFingerprint := requestFingerprint request
    approvalPolicy := {} }

namespace Tables

/-- `create_run` looks for the run that the project created under an idempotency key. -/
def findIdempotent (t : Tables) (projectId key : String) : Option RunRow :=
  t.runs.find? fun row => idempotencyIndex row = some (projectId, key)

/-- The journalled event of a run that carries a dedupe key. -/
def findDuplicate (t : Tables) (runId key : String) : Option EventRow :=
  t.runEvents.find? fun event => dedupeIndex event = some (runId, key)

def insertRun (t : Tables) (row : RunRow) : Tables := { t with runs := t.runs ++ [row] }

def updateRun (t : Tables) (runId : String) (f : RunRow → RunRow) : Tables :=
  { t with runs := Table.updateWhere (fun row => row.runId = runId) f t.runs }

def insertEvent (t : Tables) (event : EventRow) : Tables :=
  { t with runEvents := t.runEvents ++ [event] }

end Tables

/-- The row of a run after `append_event` numbered an event. -/
def RunRow.journalled (seq : ℕ) (now : ℤ) (row : RunRow) : RunRow :=
  { row with lastEventSeq := seq, updatedAt := now }

/-- `create_run`: create a run, or return the run an identical request created under the same key.
-/
def createRun (input : RegistryInput) (request : NewRun) : RegistryTx RunCreation := do
  let t := (← get).contents
  let row := request.row input.runId (input.clock 0)
  match request.idempotencyKey with
  | none => do
    Transaction.write fun t => t.insertRun row
    return .created row.toRunRecord
  | some key =>
    match t.findIdempotent request.projectId key with
    | some stored =>
      if stored.requestFingerprint ≠ requestFingerprint request then
        throw (.idempotencyConflict ⟨request.projectId, key, stored.runId⟩)
      else return .existing stored.toRunRecord
    | none => do
      Transaction.write fun t => t.insertRun row
      return .created row.toRunRecord

/-- `apply_update`: apply a state change, rejecting a transition the state machine forbids. -/
def applyUpdate (now : ℤ) (runId : String) (update : RunUpdate) : RegistryTx Unit := do
  match (← get).contents.findRun runId with
  | none => throw (.unknownRun runId)
  | some row =>
    match validateTransition row.status (update.target row) with
    | .error e => throw (.invalidTransition e)
    | .ok _ => Transaction.write fun t => t.updateRun runId (update.apply now (update.target row))

/-- `update_run`: apply a state change on its own. -/
def updateRun (input : RegistryInput) (runId : String) (update : RunUpdate) :
    RegistryTx RunRecord := do
  applyUpdate (input.clock 0) runId update
  match (← get).contents.findRun runId with
  | none => throw (.unknownRun runId)
  | some row => return row.toRunRecord

/-- `append_event`: append an event and, in the same transaction, the state change it reports. -/
def appendEvent (input : RegistryInput) (runId : String) (event : JournalEvent)
    (update : Option RunUpdate) : RegistryTx AppendOutcome := do
  let t := (← get).contents
  match t.findRun runId with
  | none => throw (.appendToUnknownRun runId)
  | some row =>
    match event.dedupeKey.bind (t.findDuplicate runId) with
    | some stored => return .duplicate stored.seq
    | none => do
      let seq := row.lastEventSeq + 1
      Transaction.write fun t => t.insertEvent (event.row runId seq (input.clock 0))
      Transaction.write fun t => t.updateRun runId (RunRow.journalled seq (input.clock 1))
      match update with
      | none => return .appended seq
      | some update => do
        applyUpdate (input.clock 2) runId update
        return .appended seq

/-- `run`: a run by its identifier. -/
def Tables.run (t : Tables) (runId : String) : Option RunRecord :=
  (t.findRun runId).map RunRow.toRunRecord

/-- The order of `list_runs`: newer runs first, and of two created at the same time the one stored
later. -/
def Tables.newestFirst (t : Tables) (projectId : String) : List RunRow :=
  (t.runs.filter fun row => row.projectId = projectId).reverse.insertionSort
    fun a b => b.createdAt ≤ a.createdAt

theorem Tables.newestFirst_perm (t : Tables) (projectId : String) :
    (t.newestFirst projectId).Perm (t.runs.filter fun row => row.projectId = projectId) :=
  (List.perm_insertionSort _ _).trans (List.reverse_perm _)

/-- `list_runs`: the newest runs of a project. -/
def Tables.listRuns (t : Tables) (projectId : String) (limit : ℕ) : List RunRecord :=
  ((t.newestFirst projectId).take limit).map RunRow.toRunRecord

/-- `active_runs`: the live runs of a project, oldest first. -/
def Tables.activeRuns (t : Tables) (projectId : String) : List RunRecord :=
  ((t.listRuns projectId 1000).filter fun run => run.status.isActive).reverse

end Asterism
