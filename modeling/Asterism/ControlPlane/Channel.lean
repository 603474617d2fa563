import Asterism.ControlPlane.Updates
import Asterism.Protocol
import Asterism.Wire.Canonical

/-!
# The Node channel of the Control Plane

A schema reads a JSON value, checks it and returns the fields it names. Each handler of the
channel is a transaction, written as the statements it sends to the database. When the
result of a project command makes the channel queue another command, that one is an input. Of the
rows of projects and of update operations only what decides whether a result moves them is kept.
-/

namespace Asterism.ControlPlane

/-- What a schema makes of the values it accepts. -/
abbrev Schema (α : Type) := Value → Option α

namespace Schema

variable {α : Type}

/-- The length of a JavaScript string. -/
def units (text : String) : ℕ := (Js.utf16 text).length

theorem length_codeUnits_le (c : Char) : (Js.codeUnits c).length ≤ c.utf8Size := by
  unfold Js.codeUnits
  split
  · exact c.utf8Size_pos
  · rename_i hlarge
    have hval : 0xFFFF < c.val.toNat := by
      change ¬c.val.toNat < 0x10000 at hlarge
      omega
    have hsmall (bound : UInt32) (hbound : bound.toNat ≤ 0xFFFF) : ¬c.val ≤ bound := by
      rw [UInt32.le_iff_toNat_le]
      omega
    rw [Char.utf8Size, if_neg (hsmall _ (by decide)), if_neg (hsmall _ (by decide)),
      if_neg (hsmall _ (by decide)), List.length_cons, List.length_singleton]
    decide

theorem units_le_len (text : String) : units text ≤ Text.len text := by
  unfold units Js.utf16 Text.len
  induction text.toList with
  | nil => exact Nat.le_refl _
  | cons c chars ih =>
    rw [List.flatMap_cons, List.length_append, Text.byteCount_cons]
    exact Nat.add_le_add (length_codeUnits_le c) ih

theorem units_pos {text : String} (h : text ≠ "") : 1 ≤ units text := by
  unfold units Js.utf16
  cases hchars : text.toList with
  | nil => exact absurd (String.toList_eq_nil_iff.mp hchars) h
  | cons c chars =>
    rw [List.flatMap_cons, List.length_append, Js.codeUnits]
    split
    · exact Nat.le_add_right 1 _
    · exact Nat.le_add_right_of_le (Nat.le_add_left 1 _)

/-- A string with a length between these bounds. -/
def string (least most : ℕ) : Schema String
  | .string text => if least ≤ units text ∧ units text ≤ most then some text else none
  | _ => none

def int : Schema ℤ
  | .number (.int n) => some n
  | _ => none

/-- An integer that is not negative. -/
def nonnegative : Schema ℤ := fun value => (int value).filter fun n => 0 ≤ n

def bool : Schema Bool
  | .bool b => some b
  | _ => none

def field (key : String) (schema : Schema α) : Schema α := fun value => (value.get key).bind schema

/-- A field that may be missing. -/
def optional (key : String) (schema : Schema α) : Schema (Option α) := fun value =>
  match value.get key with
  | none => some none
  | some child => (schema child).map some

/-- A field that may be missing or null. -/
def nullish (key : String) (schema : Schema α) : Schema (Option α) := fun value =>
  match value.get key with
  | none | some .null => some none
  | some child => (schema child).map some

theorem nullish_ofOption {key : String} {most : ℕ} {payload : Value} {text : Option String}
    (h : payload.get key = some (.ofOption text)) :
    nullish key (string 0 most) payload =
      if ∀ found ∈ text, units found ≤ most then some text else none := by
  rw [nullish, h]
  cases text with
  | none => exact (if_pos nofun).symm
  | some text =>
    simp only [Value.ofOption, string, Nat.zero_le, true_and, Option.mem_some_iff, forall_eq']
    split <;> rfl

end Schema

/-- `CommandResult`, as the Control Plane reads it. -/
structure CommandResult where
  commandId : String
  state : String
  result : Value
  errorCode : Option String
  errorMessage : Option String
  deriving DecidableEq

/-- `CommandResultSchema`: the schema of a command result. -/
def CommandResult.schema : Schema CommandResult := fun payload => do
  let commandId ← Schema.field "command_id" (Schema.string 1 128) payload
  let state ← Schema.field "state" (Schema.string 1 32) payload
  let errorCode ← Schema.nullish "error_code" (Schema.string 0 64) payload
  let errorMessage ← Schema.nullish "error_message" (Schema.string 0 4096) payload
  let _ ← Schema.optional "deduplicated" Schema.bool payload
  return ⟨commandId, state, (payload.get "result").getD .null, errorCode, errorMessage⟩

theorem CommandResult.schema_eq {payload : Value} {commandId state : String}
    {errorCode errorMessage : Option String} {deduplicated : Option Bool}
    (hcommand : payload.get "command_id" = some (.string commandId))
    (hstate : payload.get "state" = some (.string state))
    (hcode : payload.get "error_code" = some (.ofOption errorCode))
    (hmessage : payload.get "error_message" = some (.ofOption errorMessage))
    (hdeduplicated : Schema.optional "deduplicated" Schema.bool payload = some deduplicated) :
    CommandResult.schema payload =
      if (1 ≤ Schema.units commandId ∧ Schema.units commandId ≤ 128) ∧
          (1 ≤ Schema.units state ∧ Schema.units state ≤ 32) ∧
          (∀ code ∈ errorCode, Schema.units code ≤ 64) ∧
          ∀ message ∈ errorMessage, Schema.units message ≤ 4096 then
        some ⟨commandId, state, (payload.get "result").getD .null, errorCode, errorMessage⟩
      else none := by
  simp only [CommandResult.schema, Schema.field, hcommand, hstate, Option.bind_eq_bind,
    Option.bind_some, Schema.string, Schema.nullish_ofOption hcode,
    Schema.nullish_ofOption hmessage, hdeduplicated, Option.pure_def]
  by_cases hfirst : 1 ≤ Schema.units commandId ∧ Schema.units commandId ≤ 128
  · by_cases hsecond : 1 ≤ Schema.units state ∧ Schema.units state ≤ 32
    · by_cases hthird : ∀ code ∈ errorCode, Schema.units code ≤ 64
      · simp only [if_pos hfirst, if_pos hsecond, if_pos hthird, Option.bind_some,
          and_iff_right hfirst, and_iff_right hsecond, and_iff_right hthird]
        split <;> rfl
      · simp only [if_pos hfirst, if_pos hsecond, Option.bind_some, Option.bind_none,
          hthird, false_and, and_false, if_false]
    · simp only [if_pos hfirst, Option.bind_some, Option.bind_none, hsecond,
        false_and, and_false, if_false]
  · simp only [Option.bind_none, hfirst, false_and, if_false]

def textField (value : Value) (key : String) : Option String := (value.get key).bind Value.asStr

/-- `EventDelivery`, as the Control Plane reads it. -/
structure EventDelivery where
  projectId : String
  runId : String
  seq : ℤ
  eventType : String
  recordedAt : Option ℤ
  payload : Value
  deriving DecidableEq

/-- `EventDeliverySchema`: the schema of an event. -/
def EventDelivery.schema : Schema EventDelivery := fun payload => do
  let projectId ← Schema.field "project_id" (Schema.string 1 128) payload
  let runId ← Schema.field "run_id" (Schema.string 1 128) payload
  let seq ← Schema.field "seq" Schema.nonnegative payload
  let eventType ← Schema.field "event_type" (Schema.string 1 128) payload
  let recordedAt ← Schema.optional "recorded_at" Schema.int payload
  return ⟨projectId, runId, seq, eventType, recordedAt,
    (payload.get "payload").getD (.object [])⟩

/-! # The tables behind the Node channel -/

inductive CommandRecordState
  | queued
  | dispatched
  | accepted
  | completed
  | failed
  | rejected
  | indeterminate
  deriving DecidableEq

/-- `TERMINAL_COMMAND_STATES`: no outcome has been recorded. -/
def CommandRecordState.isOpen : CommandRecordState → Bool
  | queued | dispatched | accepted => true
  | completed | failed | rejected | indeterminate => false

/-- The states that `markIndeterminate` gives up on: the command was sent and has no outcome. -/
def CommandRecordState.isDelivered : CommandRecordState → Bool
  | dispatched | accepted => true
  | queued | completed | failed | rejected | indeterminate => false

/-- The states that `markAccepted` accepts. -/
def CommandRecordState.isUnaccepted : CommandRecordState → Bool
  | queued | dispatched => true
  | accepted | completed | failed | rejected | indeterminate => false

/-- A row of `remote_commands`. -/
structure CommandRecord where
  commandId : String
  nodeId : String
  commandType : String
  requestPayload : Value
  state : CommandRecordState
  dispatchedAt : Option ℕ
  acknowledgedAt : Option ℕ
  completedAt : Option ℕ
  responsePayload : Option Value
  errorCode : Option String
  errorPayload : Option Value
  deriving DecidableEq

/-- A row of `runs`. -/
structure RunRecord where
  runId : String
  nodeId : String
  projectId : String
  /-- Assigned by the Node, and absent until the command that creates the run is answered. -/
  nodeRunId : Option String
  status : String
  startedAt : Option ℕ
  finishedAt : Option ℕ
  terminalReason : Option String
  errorCode : Option String
  errorMessage : Option String
  lastEventSeq : ℤ
  ackedEventSeq : ℤ
  createCommandId : Option String
  subscribed : Bool
  model : Option String
  deriving DecidableEq

/-- A row of `run_events`. -/
structure EventRecord where
  nodeId : String
  runId : String
  seq : ℤ
  projectId : String
  eventType : String
  recordedAt : Option ℤ
  payload : Value
  source : Option String
  deriving DecidableEq

/-- PostgreSQL can store the text: `TEXT` and `JSONB` have no `U+0000`. -/
def Storable (text : String) : Prop := Char.ofNat 0 ∉ text.toList

instance : DecidablePred Storable := fun _ => inferInstanceAs (Decidable (¬_))

/-- The row can be stored: its numbers are of type `BIGINT`, and its type and all texts of its
payload are ones that PostgreSQL has. -/
structure EventRecord.Fits (event : EventRecord) : Prop where
  seq : event.seq < 2 ^ 63
  eventType : Storable event.eventType
  recordedAt : ∀ time ∈ event.recordedAt, -2 ^ 63 ≤ time ∧ time < 2 ^ 63
  payload : ∀ text ∈ event.payload.texts, Storable text

instance : DecidablePred EventRecord.Fits := fun event =>
  decidable_of_iff (event.seq < 2 ^ 63 ∧ Storable event.eventType ∧
      (∀ time ∈ event.recordedAt, -2 ^ 63 ≤ time ∧ time < 2 ^ 63) ∧
      ∀ text ∈ event.payload.texts, Storable text)
    ⟨fun ⟨h1, h2, h3, h4⟩ => ⟨h1, h2, h3, h4⟩, fun ⟨h1, h2, h3, h4⟩ => ⟨h1, h2, h3, h4⟩⟩

/-- Something that a project waits for its Node to do, and which attempt at it this is. -/
structure ProjectRequest where
  state : String
  generation : ℤ
  deriving DecidableEq

/-- A row of `projects`, as far as results are compared with it. -/
structure ProjectRecord where
  projectId : String
  nodeId : String
  provisioning : ProjectRequest
  credentialAssignment : ProjectRequest
  modelSelection : ProjectRequest
  model : Option String
  requestedModel : Option String
  deriving DecidableEq

/-- A row of `node_update_operations`, as far as results change it. -/
structure UpdateRow where
  operationId : String
  nodeId : String
  stage : UpdateStage
  deriving DecidableEq

/-- A row that `auditRepo.record` adds for a result. -/
structure AuditRow where
  action : String
  actor : String
  targetId : String
  correlationId : String
  deriving DecidableEq

/-- The tables of projects and updates, and the audit log. -/
structure Ledger where
  projects : List ProjectRecord := []
  updates : List UpdateRow := []
  audit : List AuditRow := []
  deriving DecidableEq

/-- What the answer to a project command says about a project. -/
structure Verdict where
  projectId : String
  generation : ℤ
  request : ProjectRecord → ProjectRequest
  /-- The states in which the request takes this answer. -/
  takes : String → Bool
  write : ProjectRecord → ProjectRecord
  action : String

def intField (value : Value) (key : String) : Option ℤ :=
  match value.get key with
  | some (.number (.int n)) => some n
  | _ => none

/-- The event version of an answer is missing or the one that this build understands. -/
def understood (payload : Value) : Bool :=
  payload.get "event_version" = none || payload.get "event_version" = some (.number (.int 1))

/-- `applyProvisioningOutcome`, up to the statement that it sends. -/
def provisioningVerdict (result : CommandResult) : Option Verdict := do
  let projectId ← (textField result.result "project_id").filter fun id => id ≠ ""
  let generation ← intField result.result "provisioning_generation"
  if result.state = "completed" ∧ textField result.result "outcome" = some "provisioned" then
    some ⟨projectId, generation, ProjectRecord.provisioning, fun state => state ≠ "disabled",
      fun row => { row with provisioning.state := "ready" }, "project.provisioning_succeeded"⟩
  else
    some ⟨projectId, generation, ProjectRecord.provisioning,
      fun state => state ≠ "ready" && state ≠ "disabled",
      fun row => { row with provisioning.state := "failed" }, "project.provisioning_failed"⟩

/-- The previous choice is in force: the Node refused outright, or it says so. -/
def restored (result : CommandResult) : Bool :=
  result.state ≠ "completed" || result.result.get "restored" = some (.bool true)

/-- The Node says that it has applied a choice. -/
def tookEffect (result : CommandResult) : Bool :=
  result.state = "completed" && textField result.result "outcome" = some "applied"

/-- `applyCredentialAssignmentOutcome`, up to the statement that it sends. -/
def credentialVerdict (request : Value) (result : CommandResult) : Option Verdict := do
  let projectId ← (textField request "project_id").filter fun id => id ≠ ""
  let generation ← intField request "assignment_generation"
  let answered := if tookEffect result then "applied"
    else if restored result then "failed" else "inconsistent"
  some ⟨projectId, generation, ProjectRecord.credentialAssignment, fun state => state = "pending",
    fun row => { row with credentialAssignment.state := answered },
    if tookEffect result then "project.credential_assigned"
    else "project.credential_assignment_failed"⟩

/-- `applyModelSelectionOutcome`, up to the statement that it sends. -/
def modelVerdict (request : Value) (result : CommandResult) : Option Verdict := do
  let projectId ← (textField request "project_id").filter fun id => id ≠ ""
  let generation ← intField request "selection_generation"
  some ⟨projectId, generation, ProjectRecord.modelSelection, fun state => state = "pending",
    fun row => { row with
      modelSelection.state :=
        if tookEffect result then "applied" else if !restored result then "inconsistent"
        else if row.model = none then "legacy_default" else "failed"
      model := if tookEffect result then row.requestedModel else row.model
      requestedModel := none },
    if tookEffect result then "project.model_selected" else "project.model_selection_failed"⟩

/-- What the answer to a command says about a project, if it is one that is understood. -/
def projectVerdict (commandType : String) (request : Value) (result : CommandResult) :
    Option Verdict :=
  if !understood result.result then none
  else if commandType = "project.provision" then provisioningVerdict result
  else if commandType = "project.credential.assign" then credentialVerdict request result
  else if commandType = "project.model.select" then modelVerdict request result
  else none

namespace Ledger

/-- The project of a verdict, if it belongs to the Node and still waits for this answer. -/
def awaits (ledger : Ledger) (nodeId : String) (verdict : Verdict) : Bool :=
  (ledger.projects.find? fun row => row.projectId = verdict.projectId).any fun row =>
    row.nodeId = nodeId && (verdict.request row).generation = verdict.generation &&
      verdict.takes (verdict.request row).state

/-- A project that still waits for an answer takes it, and the answer is put on record. -/
def settle (ledger : Ledger) (commandId nodeId : String) (verdict : Verdict) : Ledger :=
  if ledger.awaits nodeId verdict then
    { ledger with
      projects := Table.updateWhere (fun row => row.projectId = verdict.projectId) verdict.write
        ledger.projects
      audit := ledger.audit ++ [⟨verdict.action, nodeId, verdict.projectId, commandId⟩] }
  else ledger

/-- `nodeUpdatesRepo.markAccepted`. -/
def acceptUpdate (ledger : Ledger) (operationId : String) : Ledger :=
  { ledger with
    updates := Table.updateWhere (fun row => row.operationId = operationId && row.stage = .queued)
      (fun row => { row with stage := .accepted }) ledger.updates }

end Ledger

/-- The tables that the channel reads and writes. -/
structure Database where
  commands : List CommandRecord
  runs : List RunRecord
  events : List EventRecord
  ledger : Ledger := {}
  deriving DecidableEq

namespace Database

/-- The index `runs_node_run`: the Node and its own name of a run that has one. -/
def nodeRunIndex (run : RunRecord) : Option (String × String) :=
  run.nodeRunId.map fun id => (run.nodeId, id)

/-- The key `run_events_unique`. -/
def eventKey (event : EventRecord) : String × String × ℤ := (event.nodeId, event.runId, event.seq)

structure Valid (db : Database) : Prop where
  commands_primary : Table.Unique (fun row : CommandRecord => some row.commandId) db.commands
  runs_primary : Table.Unique (fun row : RunRecord => some row.runId) db.runs
  runs_nodeRun : Table.Unique nodeRunIndex db.runs
  runs_createCommand : ∀ id ∈ db.runs.filterMap fun row => row.createCommandId,
    id ∈ db.commands.map fun row => row.commandId
  events_unique : Table.Unique (fun row => some (eventKey row)) db.events
  events_run : ∀ event ∈ db.events, event.runId ∈ db.runs.map fun row => row.runId
  events_fit : ∀ event ∈ db.events, event.Fits

instance : DecidablePred Valid := fun db =>
  decidable_of_iff
    (Table.Unique (fun row : CommandRecord => some row.commandId) db.commands ∧
      Table.Unique (fun row : RunRecord => some row.runId) db.runs ∧
      Table.Unique nodeRunIndex db.runs ∧
      (∀ id ∈ db.runs.filterMap fun row => row.createCommandId,
        id ∈ db.commands.map fun row => row.commandId) ∧
      Table.Unique (fun row => some (eventKey row)) db.events ∧
      (∀ event ∈ db.events, event.runId ∈ db.runs.map fun row => row.runId) ∧
      ∀ event ∈ db.events, event.Fits)
    ⟨fun ⟨h1, h2, h3, h4, h5, h6, h7⟩ => ⟨h1, h2, h3, h4, h5, h6, h7⟩,
      fun ⟨h1, h2, h3, h4, h5, h6, h7⟩ => ⟨h1, h2, h3, h4, h5, h6, h7⟩⟩

end Database

/-- The constraints of the tables `runs`, `run_events` and `remote_commands`, from the migrations.
-/
def databaseSchema : Transaction.Schema Database Unit where
  Valid := Database.Valid
  decidable := inferInstance
  violation := ()

abbrev Store := Transaction.Store databaseSchema

namespace Database

/-- `byId`: the row of a command. -/
def commandById (db : Database) (commandId : String) : Option CommandRecord :=
  db.commands.find? fun row => row.commandId = commandId

/-- `byId`: the row of a run. -/
def runById (db : Database) (runId : String) : Option RunRecord :=
  db.runs.find? fun row => row.runId = runId

/-- `byNodeRunId`: the run that a Node knows under this name. -/
def byNodeRunId (db : Database) (nodeId nodeRunId : String) : Option RunRecord :=
  db.runs.find? fun row => row.nodeId = nodeId && row.nodeRunId = some nodeRunId

/-- The run with this `create_command_id`. -/
def byCreateCommand (db : Database) (commandId : String) : Option RunRecord :=
  db.runs.find? fun row => row.createCommandId = some commandId

/-- `staleDispatched`: commands sent long ago that have no outcome. -/
def staleDispatched (db : Database) (olderThanMs now : ℕ) : List CommandRecord :=
  db.commands.filter fun row =>
    row.state.isDelivered && row.dispatchedAt.any fun at' => at' + olderThanMs < now

def updateCommand (db : Database) (commandId : String) (p : CommandRecord → Bool)
    (f : CommandRecord → CommandRecord) : Database :=
  { db with
    commands := Table.updateWhere (fun row => row.commandId = commandId && p row) f db.commands }

def updateRun (db : Database) (runId : String) (f : RunRecord → RunRecord) : Database :=
  { db with runs := Table.updateWhere (fun row => row.runId = runId) f db.runs }

/-- `markAccepted`: record that the Node has accepted a command. -/
def markAccepted (db : Database) (commandId : String) (now : ℕ) : Database :=
  db.updateCommand commandId (fun row => row.state.isUnaccepted) fun row =>
    { row with state := .accepted, acknowledgedAt := some now }

end Database

structure Outcome where
  state : CommandRecordState
  response : Value
  errorCode : Option String
  errorPayload : Value
  deriving DecidableEq

def CommandRecord.complete (row : CommandRecord) (outcome : Outcome) (now : ℕ) : CommandRecord :=
  { row with
    state := outcome.state
    completedAt := some now
    responsePayload := some outcome.response
    errorCode := outcome.errorCode
    errorPayload := some outcome.errorPayload }

/-- What is written about a run that ends. -/
structure StatusExtra where
  terminalReason : Option String := none
  errorCode : Option String := none
  errorMessage : Option String := none
  deriving DecidableEq

/-- The statuses in which `setStatus` records that a run has ended. -/
def endedStatuses : List String := ["completed", "failed", "cancelled", "interrupted", "lost"]

namespace RunRecord

def Ended (run : RunRecord) : Prop := run.status ∈ endedStatuses

/-- `attachNodeRun`: a run that its Node has started. -/
def attach (run : RunRecord) (nodeRunId : String) (now : ℕ) : RunRecord :=
  { run with
    nodeRunId := some nodeRunId
    status := "running"
    startedAt := some (run.startedAt.getD now) }

/-- `setStatus`: a run with a new status. -/
def withStatus (run : RunRecord) (status : String) (extra : StatusExtra) (now : ℕ) : RunRecord :=
  { run with
    status := status
    finishedAt := if status ∈ endedStatuses then some (run.finishedAt.getD now) else run.finishedAt
    terminalReason := extra.terminalReason <|> run.terminalReason
    errorCode := extra.errorCode <|> run.errorCode
    errorMessage := extra.errorMessage <|> run.errorMessage }

/-- `recordFailure`: a run with the reason of its failure, unless one is known. -/
def withFailure (run : RunRecord) (extra : StatusExtra) : RunRecord :=
  { run with
    errorCode := run.errorCode <|> extra.errorCode
    errorMessage := run.errorMessage <|> extra.errorMessage }

end RunRecord

namespace Database

/-- `complete`: record the outcome of a command that has none. -/
def complete (db : Database) (commandId : String) (outcome : Outcome) (now : ℕ) : Database :=
  db.updateCommand commandId (fun row => row.state.isOpen) fun row => row.complete outcome now

/-- The row that `commandsRepo.complete` returns. -/
def completed (db : Database) (commandId : String) (outcome : Outcome) (now : ℕ) :
    Option CommandRecord :=
  ((db.commandById commandId).filter fun row => row.state.isOpen).map fun row =>
    row.complete outcome now

/-- `markIndeterminate`: give up on a command that was sent and has no outcome. -/
def markIndeterminate (db : Database) (commandId reason : String) (now : ℕ) : Database :=
  db.updateCommand commandId (fun row => row.state.isDelivered) fun row =>
    { row with
      state := .indeterminate
      completedAt := some now
      errorCode := some "indeterminate"
      errorPayload := some (Value.obj [("reason", .string reason)]) }

/-- `insert`: store an event unless it is stored already. -/
def insertEvent (db : Database) (event : EventRecord) : Database :=
  if db.events.any fun row => eventKey row = eventKey event then db
  else { db with events := db.events ++ [event] }

/-- Storing an event changes the table. -/
def insertsEvent (db : Database) (event : EventRecord) : Bool :=
  !db.events.any fun row => eventKey row = eventKey event

/-- The loop of `highestContiguous`: follow a sorted list of numbers as long as each is the
successor of the one before. -/
def advance (cursor : ℤ) : List ℤ → ℤ
  | [] => cursor
  | seq :: seqs => if seq = cursor + 1 then advance seq seqs else cursor

def seqs (db : Database) (runId : String) : List ℤ :=
  (db.events.filter fun row => row.runId = runId).map fun row => row.seq

/-- The highest contiguous sequence stored for a run, starting after `start`. -/
def highestContiguous (db : Database) (runId : String) (start : ℤ) : ℤ :=
  advance start (((db.seqs runId).filter fun seq => start < seq).insertionSort (· ≤ ·))

/-- `setAckedSeq`: move the acknowledged position of a run. It never moves back. -/
def setAckedSeq (db : Database) (runId : String) (seq : ℤ) : Database :=
  db.updateRun runId fun run =>
    { run with
      ackedEventSeq := max run.ackedEventSeq seq
      lastEventSeq := max run.lastEventSeq seq }

end Database

/-! # The Node channel -/

open Process

/-- A command that the channel queues by itself. -/
structure FollowUp where
  /-- The identifier that was drawn for it. -/
  commandId : String
  requestPayload : Value
  deriving DecidableEq

/-- What the outside contributes to a transaction. -/
structure SqlInput where
  now : ℕ
  /-- The command to queue after a project command, if the project waits for one. -/
  followUp : Option FollowUp
  deriving DecidableEq

/-- The commands whose outcome is recorded on a project. -/
def projectCommands : List String :=
  ["project.provision", "project.credential.assign", "project.model.select"]

/-- The command that may be queued once a project command has succeeded. -/
def followUpType (commandType : String) : Option String :=
  if commandType = "project.provision" then some "project.credential.assign"
  else if commandType = "project.credential.assign" then some "project.model.select"
  else none

/-- `dispatchRequestedAssignment` and `dispatchRequestedModel`: the command queued for a Node after
a project command that ended in this state. -/
def followUpRecord (nodeId commandType state : String) (input : SqlInput) :
    Option CommandRecord := do
  let next ← followUpType commandType
  let followUp ← input.followUp
  if state = "completed" then
    some { commandId := followUp.commandId
           nodeId := nodeId
           commandType := next
           requestPayload := followUp.requestPayload
           state := .queued
           dispatchedAt := none
           acknowledgedAt := none
           completedAt := none
           responsePayload := none
           errorCode := none
           errorPayload := none }
  else none

/-- The statements that the transactions of the channel send. -/
inductive Statement : Type → Type 1
  | markAccepted (commandId : String) : Statement Unit
  | complete (commandId : String) (outcome : Outcome) : Statement (Option CommandRecord)
  | markIndeterminate (commandId reason : String) : Statement Unit
  | commandById (commandId : String) : Statement (Option CommandRecord)
  | byCreateCommand (commandId : String) : Statement (Option RunRecord)
  | byNodeRunId (nodeId nodeRunId : String) : Statement (Option RunRecord)
  | attachNodeRun (runId nodeRunId : String) : Statement Unit
  | setSubscribed (runId : String) (subscribed : Bool) : Statement Unit
  | setModel (runId : String) (model : Option String) : Statement Unit
  | setStatus (runId status : String) (extra : StatusExtra) : Statement Unit
  | recordFailure (runId : String) (failure : StatusExtra) : Statement Unit
  | insertEvent (event : EventRecord) : Statement Bool
  | highestContiguous (runId : String) (start : ℤ) : Statement ℤ
  | setAckedSeq (runId : String) (seq : ℤ) : Statement Unit
  /-- The statements on the tables of projects and the audit log, and the command they may queue. -/
  | settleProject (commandId nodeId commandType : String) (request : Value)
      (result : CommandResult) : Statement Unit
  /-- `nodeUpdatesRepo.markAccepted`. -/
  | acceptUpdate (operationId : String) : Statement Unit

namespace Statement

def answer {β : Type} : Statement β → SqlInput → Database → β
  | markAccepted _, _, _ => ()
  | complete commandId outcome, input, db => db.completed commandId outcome input.now
  | markIndeterminate _ _, _, _ => ()
  | commandById commandId, _, db => db.commandById commandId
  | byCreateCommand commandId, _, db => db.byCreateCommand commandId
  | byNodeRunId nodeId nodeRunId, _, db => db.byNodeRunId nodeId nodeRunId
  | attachNodeRun _ _, _, _ => ()
  | setSubscribed _ _, _, _ => ()
  | setModel _ _, _, _ => ()
  | setStatus _ _ _, _, _ => ()
  | recordFailure _ _, _, _ => ()
  | insertEvent event, _, db => db.insertsEvent event
  | highestContiguous runId start, _, db => db.highestContiguous runId start
  | setAckedSeq _ _, _, _ => ()
  | settleProject _ _ _ _ _, _, _ => ()
  | acceptUpdate _, _, _ => ()

def effect {β : Type} : Statement β → SqlInput → Database → Database
  | markAccepted commandId, input, db => db.markAccepted commandId input.now
  | complete commandId outcome, input, db => db.complete commandId outcome input.now
  | markIndeterminate commandId reason, input, db =>
    db.markIndeterminate commandId reason input.now
  | commandById _, _, db => db
  | byCreateCommand _, _, db => db
  | byNodeRunId _ _, _, db => db
  | attachNodeRun runId nodeRunId, input, db =>
    db.updateRun runId fun run => run.attach nodeRunId input.now
  | setSubscribed runId subscribed, _, db =>
    db.updateRun runId fun run => { run with subscribed := subscribed }
  | setModel runId model, _, db =>
    db.updateRun runId fun run => { run with model := run.model <|> model }
  | setStatus runId status extra, input, db =>
    db.updateRun runId fun run => run.withStatus status extra input.now
  | recordFailure runId failure, _, db => db.updateRun runId fun run => run.withFailure failure
  | insertEvent event, _, db =>
    -- A row that does not fit is refused, also if there is one under its key.
    if event.Fits then db.insertEvent event else { db with events := db.events ++ [event] }
  | highestContiguous _ _, _, db => db
  | setAckedSeq runId seq, _, db => db.setAckedSeq runId seq
  | settleProject commandId nodeId commandType request result, input, db =>
    { db with
      commands := db.commands ++ (followUpRecord nodeId commandType result.state input).toList
      ledger := ((projectVerdict commandType request result).map
        (db.ledger.settle commandId nodeId)).getD db.ledger }
  | acceptUpdate operationId, _, db => { db with ledger := db.ledger.acceptUpdate operationId }

end Statement

def dialect : Transaction.Dialect Statement SqlInput Database :=
  ⟨Statement.answer, Statement.effect⟩

abbrev Sql (α : Type) := Program Statement α

/-- The characters that JavaScript trims. -/
def Js.isSpace (c : Char) : Bool :=
  let code := c.toNat
  (9 ≤ code && code ≤ 13) || code == 0x20 || code == 0xA0 || code == 0x1680 ||
    (0x2000 ≤ code && code ≤ 0x200A) || code == 0x2028 || code == 0x2029 || code == 0x202F ||
    code == 0x205F || code == 0x3000 || code == 0xFEFF

def Js.trim (text : String) : String :=
  String.ofList ((text.toList.dropWhile Js.isSpace).rdropWhile Js.isSpace)

/-- The first code units of a string, as they are stored. Half a character becomes `U+FFFD`. -/
def Js.takeUnits : ℕ → List Char → List Char
  | _, [] => []
  | limit, c :: chars =>
    if (Js.codeUnits c).length ≤ limit then c :: takeUnits (limit - (Js.codeUnits c).length) chars
    else if limit = 0 then []
    else [Char.ofNat 0xFFFD]

/-- `readSafeMetadata`: the identifier of a credential in the metadata of an answer. -/
def safeCredentialId (record : Value) : Option String := do
  let metadata ← record.get Redact.safeMetadataKey
  let text ← (← metadata.get "credential_id").asStr
  if Redact.SafeIdentifier.credentialId.accepts text then some text else none

/-- The field that keeps the identifier of a credential. -/
def safeMetadataField (record : Value) : List (String × Value) :=
  match safeCredentialId record with
  | some id => [("safe_metadata", Value.obj [("credential_id", .string id)])]
  | none => []

/-- `storableResult`: what may be stored of the result of a command. -/
def storableResult (result : Value) : Value :=
  match result with
  | .object _ =>
    if result.get "redacted" = some (.string "device_authorization") ∧
        result.get "user_code" = none then
      Value.obj ([("redacted", .string "device_authorization")] ++
        (match result.get "delivery" with
          | some (.string delivery) =>
            if delivery = "transient" ∨ delivery = "scrubbed" then
              [("delivery", .string delivery)]
            else []
          | _ => []) ++
        (match result.get "expires_in_seconds" with
          | some (.number (.int seconds)) =>
            if 0 < seconds ∧ seconds ≤ 3600 then
              [("expires_in_seconds", .number (.int seconds))]
            else []
          | _ => []) ++ safeMetadataField result)
    else if result.get "user_code" = none ∧ result.get "verification_uri" = none then result
    else Value.obj ([("redacted", .string "device_authorization")] ++ safeMetadataField result)
  | _ => result

/-- The outcome that `handleCommandResult` records for a result. -/
def CommandResult.outcome (result : CommandResult) : Outcome where
  state := if result.state = "completed" then .completed else .failed
  response := storableResult result.result
  errorCode := result.errorCode
  errorPayload :=
    match result.errorMessage with
    | some message => if message = "" then .null else Value.obj [("message", .string message)]
    | none => .null

/-- The commands that `applyCommandOutcome` takes to create a run. -/
def startsRun (commandType : String) : Bool :=
  commandType = "runs.create" || commandType = "runs.retry"

/-- What is written about a run whose creation the Node refused. -/
def CommandResult.rejection (result : CommandResult) : StatusExtra where
  terminalReason := some "Node rejected run creation"
  errorCode := some (result.errorCode.getD "command_failed")
  errorMessage := some (result.errorMessage.getD "run creation command failed")

/-- A field of a stored object as text (`->>`). -/
def jsonText (value : Value) (key : String) : Option String :=
  match value.get key with
  | none | some .null => none
  | some (.string text) => some text
  | some other => some other.encode

/-- `applyCommandOutcome`, for the run of a command that the Node has started. -/
def startRun (command : CommandRecord) (result : CommandResult) : Sql Unit :=
  match textField result.result "run_id" with
  | none => return ()
  | some nodeRunId => do
    match ← Program.perform (.byCreateCommand command.commandId) with
    | none => return ()
    | some run => do
      Program.perform (.attachNodeRun run.runId nodeRunId)
      Program.perform (.setSubscribed run.runId true)
      if command.commandType = "runs.create" then
        Program.perform (.setModel run.runId (textField result.result "model"))

/-- `applyCommandOutcome`: translate the outcome of a command into the state of a project or a
run. -/
def applyCommandOutcome (command : CommandRecord) (result : CommandResult) : Sql Unit := do
  if command.commandType ∈ projectCommands then
    Program.perform (.settleProject command.commandId command.nodeId command.commandType
      command.requestPayload result)
  else if startsRun command.commandType then
    if result.state ≠ "completed" then
      match ← Program.perform (.byCreateCommand command.commandId) with
      | none => return ()
      | some run => Program.perform (.setStatus run.runId "failed" result.rejection)
    else startRun command result
  else if command.commandType = "approvals.resolve" ∧ result.state = "completed" then
    match jsonText command.requestPayload "run_id" with
    | none => return ()
    | some nodeRunId => do
      match ← Program.perform (.byNodeRunId command.nodeId nodeRunId) with
      | none => return ()
      | some run =>
        if run.status = "waiting_for_approval" then
          Program.perform (.setStatus run.runId "running" {})

/-- The update that the answer to a command says was started. -/
def startedUpdate (command : CommandRecord) (result : CommandResult) : Option String :=
  if command.commandType = "node.update" ∧ result.state = "completed" then
    textField command.requestPayload "operation_id"
  else none

/-- What `handleCommandResult` does with a stored command. What it records of a worker that was put
to sleep or woken is left out: that happens only together with a change of the command's row. -/
def settleCommand (command : CommandRecord) (result : CommandResult) : Sql Unit := do
  applyCommandOutcome command result
  match startedUpdate command result with
  | some operationId => Program.perform (.acceptUpdate operationId)
  | none => return ()

/-- `handleCommandResult`: persist the result of a command. -/
def handleCommandResult (result : CommandResult) : Sql Unit := do
  -- A retransmitted result does not overwrite a recorded one.
  let updated ← Program.perform (.complete result.commandId result.outcome)
  let command ← match updated with
    | some command => pure (some command)
    | none => Program.perform (.commandById result.commandId)
  match command with
  | none => return ()
  | some command => settleCommand command result

/-- `TERMINAL_RUN_STATUSES`: the statuses after which nothing happens to a run. -/
def terminalRunStatuses : List String :=
  ["completed", "failed", "cancelled", "interrupted", "lost", "rejected"]

/-- `terminalStatusFromEvent`: the status that an event ends a run with. -/
def terminalStatusFromEvent (eventType : String) (payload : Value) : Option String :=
  if eventType = "asterism.run.terminal" then textField payload "status"
  else if eventType = "asterism.reconciled" then
    (textField payload "new_status").filter fun status => status ∈ terminalRunStatuses
  else none

/-- The text of a reason, cut to what a column holds. -/
def failureText (value : Option Value) : Option String :=
  match value with
  | some (.string text) =>
    if text.toList.all Js.isSpace then none
    else some (String.ofList (Js.takeUnits 4096 text.toList))
  | _ => none

/-- `runFailureFromEvent`: the reason of a failure that an event carries. -/
def runFailureFromEvent (eventType : String) (payload : Value) : Option StatusExtra :=
  if eventType = "run.failed" then
    (failureText (payload.get "error")).map fun message => { errorMessage := some message }
  else if eventType = "asterism.run.terminal" then
    match failureText (payload.get "error"), failureText (payload.get "message") with
    | none, none => none
    | code, message => some { errorCode := code, errorMessage := message }
  else none

def EventDelivery.row (event : EventDelivery) (nodeId : String) (run : RunRecord) :
    EventRecord where
  nodeId := nodeId
  runId := run.runId
  seq := event.seq
  projectId := run.projectId
  eventType := event.eventType
  recordedAt := event.recordedAt
  payload := if event.payload = .null then .object [] else event.payload
  source := some "node"

/-- The status that an event ends a run with, which is not the empty text. -/
def EventDelivery.ending (event : EventDelivery) : Option String :=
  (terminalStatusFromEvent event.eventType event.payload).filter fun status => status ≠ ""

/-- `handleEvent`, for a failure that does not end the run. -/
def recordEventFailure (runId : String) (event : EventDelivery) : Sql Unit :=
  match runFailureFromEvent event.eventType event.payload with
  | some failure => Program.perform (.recordFailure runId failure)
  | none => return ()

/-- How `handleEvent` changes the status of the run, by `terminalStatusFromEvent` and
`liveStatusFromEvent`. -/
def applyEvent (run : RunRecord) (event : EventDelivery) (inserted : Bool) : Sql Unit :=
  match event.ending with
  | some status => do
    let failure := runFailureFromEvent event.eventType event.payload
    Program.perform (.setStatus run.runId status (failure.getD {}))
    Program.perform (.setSubscribed run.runId false)
  | none => do
    recordEventFailure run.runId event
    if inserted ∧ event.eventType = "approval.request" ∧ run.status ∉ terminalRunStatuses then
      Program.perform (.setStatus run.runId "waiting_for_approval" {})

/-- `handleEvent`, for the cursor of the run. -/
def recordContiguous (run : RunRecord) (contiguous : ℤ) : Sql Unit :=
  if run.ackedEventSeq < contiguous then Program.perform (.setAckedSeq run.runId contiguous)
  else return ()

/-- `handleEvent`: store an event of a Node and return the sequence to acknowledge. -/
def handleEvent (nodeId : String) (event : EventDelivery) : Sql (Option ℤ) := do
  match ← Program.perform (.byNodeRunId nodeId event.runId) with
  | none => return none
  | some run => do
    let inserted ← Program.perform (.insertEvent (event.row nodeId run))
    let contiguous ← Program.perform (.highestContiguous run.runId run.ackedEventSeq)
    recordContiguous run contiguous
    applyEvent run event inserted
    return some contiguous

/-- What is written about a run whose command was never answered. -/
def timeoutExtra : StatusExtra where
  terminalReason := some "command_timeout"
  errorCode := some "command_timeout"
  errorMessage := some "the Node never answered the command that would have started this run"

/-- The transaction of `expireStaleCommands` that gives up on one command. -/
def expireCommand (command : CommandRecord) : Sql Unit := do
  Program.perform (.markIndeterminate command.commandId "no result before the command timeout")
  if startsRun command.commandType then
    match ← Program.perform (.byCreateCommand command.commandId) with
    | none => return ()
    | some run => do
      Program.perform (.setStatus run.runId "lost" timeoutExtra)
      Program.perform (.setSubscribed run.runId false)

/-- The settings of the channel, and the database driver. -/
structure ChannelConfig where
  commandTimeoutMs : ℕ
  /-- The text that the driver sends for a value that is not a string. -/
  bindText : Value → String

/-- JavaScript takes the value for true. -/
def truthy : Value → Bool
  | .null => false
  | .bool b => b
  | .number n => n ≠ .int 0
  | .string text => text ≠ ""
  | .array _ | .object _ => true

/-- The command that an acceptance names. -/
def acceptedCommand (config : ChannelConfig) (payload : Value) : Option String :=
  ((payload.get "command_id").filter truthy).map fun value =>
    value.asStr.getD (config.bindText value)

/-- `handleAuthenticatedFrame`: the transaction of a frame that an authenticated Node sends, if it
has one. -/
def handleFrame (config : ChannelConfig) (nodeId : String) (envelope : Envelope) : Sql Unit :=
  if envelope.messageType = "client.command.accepted" then
    match acceptedCommand config envelope.payload with
    | some commandId => Program.perform (.markAccepted commandId)
    | none => return ()
  else if envelope.messageType = "client.command.result" then
    match CommandResult.schema envelope.payload with
    | some result => handleCommandResult result
    | none => return ()
  else if envelope.messageType = "client.event" then
    match EventDelivery.schema envelope.payload with
    | some event => do
      let _ ← handleEvent nodeId event
    | none => return ()
  else return ()

/-- `NodeChannel`: the database, and the commands that a sweep has read and not yet given up on. -/
structure Channel where
  store : Store
  stale : List CommandRecord

inductive Step
  | frame (nodeId : String) (envelope : Envelope)
  | sweep
  /-- A sweep gives up on one of the commands it has read. -/
  | expire (index : ℕ)
  deriving DecidableEq

structure ChannelOp where
  step : Step
  input : SqlInput
  available : Bool
  deriving DecidableEq

def Channel.transaction (config : ChannelConfig) (c : Channel) : Step → Sql Unit
  | .frame nodeId envelope => handleFrame config nodeId envelope
  | .sweep => return ()
  | .expire index =>
    match c.stale[index]? with
    | some command => expireCommand command
    | none => return ()

/-- One step of the channel. Transactions are serialised. -/
def Channel.act (config : ChannelConfig) (c : Channel) (op : ChannelOp) : Channel where
  store :=
    if op.available then (dialect.transact (c.transaction config op.step) op.input c.store).2
    else c.store
  stale :=
    match op.step with
    | .frame _ _ => c.stale
    | .sweep =>
      if op.available then
        c.stale ++ c.store.contents.staleDispatched config.commandTimeoutMs op.input.now
      else c.stale
    | .expire index => c.stale.eraseIdx index

def Channel.play (config : ChannelConfig) (c : Channel) (ops : List ChannelOp) : Channel :=
  ops.foldl (Channel.act config) c

end Asterism.ControlPlane
