import Asterism.Hermes
import Asterism.Process.Attempt
import Asterism.Protocol
import Asterism.Registry.Calls

/-!
# The procedures of the Node

Everything a procedure does to shared state or asks of the outside is one atomic call, and
every answer the outside can give is an input. A worker executes a run, live runs are
reconciled with the backend, and a command of the Control Plane is recorded before it is
accepted, executed through the service, and answered through the outbox.
-/

namespace Asterism

/-- `anyhow::Error`, by where it comes from. -/
inductive NodeError
  | registry (error : RegistryError)
  /-- The backend could not be reached, or did not answer usefully. -/
  | backend (message : String)
  /-- The backend cannot be addressed. -/
  | client (message : String)
  | conflict (refusal : RunConflict)
  /-- The lock file could not be opened or locked. -/
  | lock (message : String)
  /-- The slot file could not be read, written or removed. -/
  | slot
  | unknownRun (runId : String)
  /-- The stored attachments cannot be read back. -/
  | attachments (message : String)
  | vanished (runId : String)
  /-- The session with the Control Plane is gone. -/
  | session
  /-- A frame of the Control Plane ends the session. -/
  | protocol (message : String)
  /-- The worker reconnected as often as the model lets it. -/
  | unfollowed
  deriving DecidableEq

def NodeError.message : NodeError → String
  | registry error => error.message
  | backend message | client message | lock message | attachments message
  | protocol message => message
  | conflict refusal => refusal.message
  | slot => "failed to access the active run record"
  | unknownRun runId => "unknown run " ++ runId
  | vanished runId => "run " ++ runId ++ " vanished while finalizing"
  | session => "the session is closed"
  | unfollowed => "the run is no longer followed"

/-- The kinds of a `ServiceError`. -/
inductive RefusalKind
  | badRequest
  | notFound
  | conflict
  | gone
  | unprocessable
  | unavailable
  deriving DecidableEq

/-- `ServiceError`: a failure of the application service. -/
inductive ServiceError
  | refused (kind : RefusalKind) (code message : String)
  /-- Anything unexpected. The detail is logged, never returned. -/
  | internal (error : NodeError)
  deriving DecidableEq

namespace ServiceError

/-- `code`: the code a caller branches on. -/
def code : ServiceError → String
  | refused _ code _ => code
  | internal _ => "internal_error"

/-- `public_message`: the message a caller sees. -/
def publicMessage : ServiceError → String
  | refused _ _ message => message
  | internal _ => "internal node error; see the daemon log"

/-- `from`: an unexpected failure, except for the two that say something about the request. -/
def ofNode : NodeError → ServiceError
  | .registry (.idempotencyConflict error) =>
    refused .conflict "idempotency_conflict" (RegistryError.idempotencyConflict error).message
  | .registry (.invalidTransition error) => refused .conflict "invalid_transition" error.message
  | error => internal error

end ServiceError

/-- One atomic call of the Node, indexed by its answer. -/
inductive NodeCall : Type → Type 1
  | registry {α : Type} (call : RegistryCall α) : NodeCall (Except RegistryError α)
  /-- Take the project's lock without waiting. -/
  | tryLock (projectId : String) : NodeCall (Except NodeError Unit)
  | readActiveRun (projectId : String) : NodeCall (Except NodeError (Option ActiveRun))
  | recordActiveRun (projectId : String) (run : ActiveRun) : NodeCall (Except NodeError Unit)
  | clearActiveRun (projectId : String) : NodeCall (Except NodeError Unit)
  /-- Submit a run. The run it is submitted for is not part of the request. -/
  | startRun (client : HermesClient) (runId : String) (request : StartRunRequest) :
      NodeCall (Except String StartRunResponse)
  /-- Ask for a run's status. The answer `none` means that the backend does not know it. -/
  | tryRunStatus (client : HermesClient) (hermesRunId : String) :
      NodeCall (Except String (Option Value))
  | streamEvents (client : HermesClient) (hermesRunId : String) : NodeCall EventStream
  | stopRun (client : HermesClient) (hermesRunId : String) : NodeCall (Except String Value)
  /-- Forward a decision. The request it decides is not part of the message. -/
  | resolveApproval (client : HermesClient) (hermesRunId choice : String) (resolveAll : Bool)
      (runId : String) (requestSeq : ℕ) : NodeCall (Except String Value)
  | nowMillis : NodeCall ℤ
  /-- Read the monotone clock, in milliseconds. -/
  | instant : NodeCall ℕ
  | isDraining : NodeCall Bool
  | beginDrain : NodeCall Unit
  | projectRuntime (projectId : String) : NodeCall (Except ServiceError (String × String))
  | runtimeKind (projectId : String) : NodeCall String
  | credentialUsableForRun (projectId : String) : NodeCall (Except ServiceError (Option String))
  | credentialRunGuard (projectId : String) (checked : Option String) :
      NodeCall (Except ServiceError Unit)
  | projectModel (projectId : String) : NodeCall (Except NodeError (Option String))
  | attachWorker (runId : String) : NodeCall Bool
  | detachWorker (runId : String) : NodeCall Unit
  | activeWorkerCount : NodeCall ℕ
  /-- A new process takes over: nothing that the last one had in memory is left. -/
  | startProcess : NodeCall Unit
  | send (envelope : Envelope) : NodeCall (Except NodeError Unit)
  /-- Note that `execute` begins with a command. -/
  | executeCommand (commandId : String) : NodeCall Unit
  | resolveRemoteProject (projectId : String) : NodeCall (Except NodeError (Option String))
  /-- The note that addresses the task card of a run, when the command names a task. -/
  | taskNote (command : RemoteCommand) : NodeCall (Except ProtocolError (Option String))
  /-- Carry out a command that manages no run. -/
  | outsideCommand (command : RemoteCommand) : NodeCall (Except ProtocolError Value)

/-- What came of an attempt to take the lock. -/
inductive LockAttempt
  | taken
  | held
  | failed (message : String)
  deriving DecidableEq

/-- What the outside contributes to one call. -/
structure NodeInput where
  registry : RegistryInput := ⟨fun _ => 0, "", true⟩
  lock : LockAttempt := .taken
  /-- The slot file can be read and written. -/
  files : Bool := true
  start : Except String StartRunResponse := .error "connection refused"
  /-- What the backend answers about each of its runs. -/
  status : String → Except String (Option Value) := fun _ => .error "connection refused"
  stream : EventStream := ⟨[], some "connection refused"⟩
  stop : Except String Value := .error "connection refused"
  approval : Except String Value := .error "connection refused"
  nowMillis : ℤ := 0
  instant : ℕ := 0
  runtime : Except ServiceError (String × String) :=
    .ok ("http://127.0.0.1:8642", "0123456789abcdef")
  runtimeKind : String := "hermes-loop"
  credential : Except ServiceError (Option String) := .ok none
  guard : Except ServiceError Unit := .ok ()
  model : Except NodeError (Option String) := .ok none
  /-- The session with the Control Plane is up. -/
  session : Bool := true
  project : Except NodeError (Option String) := .ok none
  taskNote : Except ProtocolError (Option String) := .ok none
  command : Except ProtocolError Value := .ok .null

/-- What the procedures of a `NodeService` share. The registry and the slot files outlive the
process. The rest is in memory, and a new process begins without it. -/
structure World where
  registry : Registry
  slots : String → Option ActiveRun
  workers : List String
  draining : Bool

namespace World

def initial : World := ⟨.empty, fun _ => none, [], false⟩

def runStatus (w : World) (runId : String) : Option RunStatus :=
  (w.registry.contents.findRun runId).map fun row => row.status

/-- A write to the slot file of a project, if that is possible. -/
def setSlot (w : World) (files : Bool) (projectId : String) (run : Option ActiveRun) :
    Except NodeError Unit × World :=
  if files then (.ok (), { w with slots := Function.update w.slots projectId run })
  else (.error .slot, w)

end World

def NodeCall.exec {α : Type} (call : NodeCall α) (input : NodeInput) (w : World) : α × World :=
  match call with
  | registry call =>
    ((call.exec input.registry w.registry).1,
      { w with registry := (call.exec input.registry w.registry).2 })
  | tryLock projectId =>
    (match input.lock with
      | .taken => .ok ()
      | .held => .error (.conflict ⟨projectId, .lockHeld⟩)
      | .failed message => .error (.lock message), w)
  | readActiveRun projectId =>
    (if input.files then .ok (w.slots projectId) else .error .slot, w)
  | recordActiveRun projectId run => w.setSlot input.files projectId (some run)
  | clearActiveRun projectId => w.setSlot input.files projectId none
  | startRun _ _ _ => (input.start, w)
  | tryRunStatus _ hermesRunId => (input.status hermesRunId, w)
  | streamEvents _ _ => (input.stream, w)
  | stopRun _ _ => (input.stop, w)
  | resolveApproval _ _ _ _ _ _ => (input.approval, w)
  | nowMillis => (input.nowMillis, w)
  | instant => (input.instant, w)
  | isDraining => (w.draining, w)
  | beginDrain => ((), { w with draining := true })
  | projectRuntime _ => (input.runtime, w)
  | runtimeKind _ => (input.runtimeKind, w)
  | credentialUsableForRun _ => (input.credential, w)
  | credentialRunGuard _ _ => (input.guard, w)
  | projectModel _ => (input.model, w)
  | attachWorker runId =>
    if runId ∈ w.workers then (false, w) else (true, { w with workers := runId :: w.workers })
  | detachWorker runId => ((), { w with workers := w.workers.filter fun id => id ≠ runId })
  | activeWorkerCount => (w.workers.length, w)
  | startProcess => ((), { w with workers := [], draining := false })
  | send _ => (if input.session then .ok () else .error .session, w)
  | executeCommand _ => ((), w)
  | resolveRemoteProject _ => (input.project, w)
  | taskNote _ => (input.taskNote, w)
  | outsideCommand _ => (input.command, w)

def nodeMachine : Process.Machine NodeCall NodeInput World := ⟨NodeCall.exec⟩

theorem NodeCall.exec_registry {α : Type} (call : NodeCall α) (input : NodeInput) (w : World) :
    (call.exec input w).2.registry = w.registry ∨
      ∃ (β : Type) (op : RegistryCall β),
        (call.exec input w).2.registry = (op.exec input.registry w.registry).2 := by
  cases call with
  | registry op => exact Or.inr ⟨_, op, rfl⟩
  | recordActiveRun projectId run =>
    refine Or.inl ?_
    simp only [exec, World.setSlot]
    split <;> rfl
  | clearActiveRun projectId =>
    refine Or.inl ?_
    simp only [exec, World.setSlot]
    split <;> rfl
  | attachWorker runId =>
    refine Or.inl ?_
    simp only [exec]
    split <;> rfl
  | _ => exact Or.inl rfl

abbrev Act (α : Type) := Process.Attempt NodeCall NodeError α

abbrev Service (α : Type) := Process.Attempt NodeCall ServiceError α

def Act.registry {α : Type} (call : RegistryCall α) : Act α :=
  (Process.Attempt.attempt (NodeCall.registry call)).mapError .registry

theorem Act.meets_registry {C : Process.Contract NodeCall NodeInput World} {α : Type}
    {call : RegistryCall α} {post : α → World → Prop} {w : World}
    (h : ∀ t, C.rely w t → ∀ input, C.admits (NodeCall.registry call) input t →
      C.guarantee (NodeCall.registry call) (call.exec input.registry t.registry).1 t
          { t with registry := (call.exec input.registry t.registry).2 } ∧
        ∀ a r', call.exec input.registry t.registry = (.ok a, r') →
          post a { t with registry := r' }) :
    (Act.registry call).run.Meets C nodeMachine (Process.Attempt.onOk post) w := by
  refine Process.Attempt.meets_mapError fun t ht input hinput => ?_
  obtain ⟨hguarantee, hpost⟩ := h t ht input hinput
  refine ⟨hguarantee, ?_⟩
  have hexec : nodeMachine.exec (NodeCall.registry call) input t =
      ((call.exec input.registry t.registry).1,
        { t with registry := (call.exec input.registry t.registry).2 }) := rfl
  rw [hexec]
  cases hresult : (call.exec input.registry t.registry).1 with
  | error e => trivial
  | ok a => exact hpost a _ (Prod.ext hresult rfl)

def Service.registry {α : Type} (call : RegistryCall α) : Service α :=
  (Act.registry call).mapError .ofNode

/-! ## Executing runs -/

open Process

/-- `ERROR_RUN_CONFLICT`. -/
def errorRunConflict : String := "run_conflict"

/-- `ERROR_SUBMISSION_FAILED`. -/
def errorSubmissionFailed : String := "submission_failed"

/-- `ERROR_STREAM_BROKEN`. -/
def errorStreamBroken : String := "stream_broken"

/-- `STREAM_IDLE_BUDGET`, in milliseconds. -/
def streamIdleBudget : ℕ := 900 * 1000

/-- `HISTORY_SCAN_LIMIT`. -/
def historyScanLimit : ℕ := 200

/-- `AUTO_APPROVAL_CHOICE`. -/
def autoApprovalChoice : String := "once"

/-- `WorkerContext`: everything a worker needs to execute one run. -/
structure WorkerContext where
  projectId : String
  runId : String
  baseUrl : String
  apiKey : String
  historyLimits : HistoryLimits
  /-- How often the worker may connect to the event stream. The source sets no bound, and every
  finite execution stays below some bound. -/
  reconnects : ℕ
  deriving DecidableEq

/-- Append an event the Node itself produces, with a state change. -/
def appendAsterism (runId eventType : String) (fields : List (String × Value))
    (update : Option RunUpdate) : Act AppendOutcome :=
  Act.registry (.appendEvent runId (.asterism eventType (Value.obj fields)) update)

/-- `append_note`: append an event without a state change, and return its number. -/
def appendNote (runId eventType : String) (payload : Value) : Act ℕ := do
  return (← Act.registry (.appendEvent runId (.asterism eventType payload) none)).seq

/-- `finalize`: record how a run ended, and return it. -/
def finalize (runId : String) (status : RunStatus) (update : RunUpdate)
    (fields : List (String × Value)) : Act RunRecord := do
  let _ ← appendAsterism runId "asterism.run.terminal"
    (fields ++ [("status", .string status.asStr)]) (some update)
  match ← Act.registry (.run runId) with
  | some record => return record
  | none => throw (.vanished runId)

/-- The fields of a terminal event that reports an error. -/
def errorFields (code message : String) : List (String × Value) :=
  [("error", .string code), ("message", .string message)]

/-- `execute_run`, where a run is not admitted. -/
def refuse (context : WorkerContext) (message : String) : Act RunRecord :=
  finalize context.runId .failed
    (((RunUpdate.ofStatus .failed).withError errorRunConflict message).withTerminalReason
      "refused by single-flight admission")
    (errorFields errorRunConflict message)

/-- `spawn_auto_resolution`: forward a decision the policy of a run has claimed, and journal what
came of it. -/
def autoResolution (context : WorkerContext) (hermesRunId : String) (requestSeq : ℕ)
    (enabledBy : Option String) : Program NodeCall Unit :=
  match HermesClient.new context.baseUrl context.apiKey with
  | .error _ => .pure ()
  | .ok client => do
    let response ← Program.perform
      (.resolveApproval client hermesRunId autoApprovalChoice false context.runId requestSeq)
    let (result, detail) := match response with
      | .ok _ => ("resolved", none)
      | .error message => ("failed", some message)
    let appended ← Program.perform (.registry (.appendEvent context.runId
      { eventType := "approval.auto_resolved"
        source := .asterism
        payload := Value.obj
          [("run_id", .string context.runId), ("approval_seq", .number (.int requestSeq)),
            ("policy", .string RunApprovalPolicy.allowAllForRun.asStr),
            ("choice", .string autoApprovalChoice), ("enabled_by", .ofOption enabledBy),
            ("result", .string result), ("detail", .ofOption detail)]
        raw := none
        dedupeKey := some ("auto-approval:" ++ Text.decimal requestSeq) } none))
    match appended with
    | .error _ => .pure ()
    | .ok outcome => do
      let _ ← Program.perform
        (.registry (.recordApprovalResolution context.runId requestSeq outcome.seq))
      .pure ()

/-- `follow_to_terminal`, on an approval request: record it, and let the policy of the run decide
it. The policy is read from the registry, and its decision is claimed like an operator's. -/
def requestApproval (context : WorkerContext) (hermesRunId : String) (event : NormalizedEvent)
    (requestSeq : ℕ) : Act Unit := do
  Act.registry (.recordApprovalRequest context.runId requestSeq
    ((event.payload.get "command").bind Value.asStr)
    (supportedChoices (event.payload.get "choices")))
  let state ← Act.registry (.runApprovalPolicy context.runId)
  if state.policy.bypassesApproval then
    if ← Act.registry (.recordApprovalDecision context.runId requestSeq autoApprovalChoice) then
      Attempt.spawn (autoResolution context hermesRunId requestSeq state.enabledBy)

/-- The variables of `follow_to_terminal`. -/
structure FollowState where
  /-- The status the events seen so far imply. -/
  observedStatus : RunStatus := .running
  /-- When the journal last grew. -/
  lastProgress : ℕ
  /-- The journal's length then. -/
  lastSeq : ℕ
  lastStreamError : Option String := none
  /-- Why the run failed, as the last failure event said. -/
  failureMessage : Option String := none

/-- `follow_to_terminal`, on one event: journal it. What it implies for the status is remembered
even if it cannot be journalled, or has been before. -/
def onEvent (context : WorkerContext) (hermesRunId : String) (state : FollowState)
    (event : SseEvent) : Program NodeCall (FollowState × Except NodeError Unit) := do
  let normalized := normalizeEvent event
  let update := statusUpdateFor normalized.eventType state.observedStatus
  let state := { state with observedStatus := update.getD state.observedStatus }
  let appended ← Program.perform (.registry (.appendEvent context.runId normalized.journal
    (update.map RunUpdate.ofStatus)))
  match appended with
  | .error error => .pure (state, .error (.registry error))
  | .ok outcome => do
    let message := if normalized.eventType = "run.failed" then
        (normalized.payload.get "error").bind Value.asStr
      else none
    let state := { state with failureMessage := message.or state.failureMessage }
    if normalized.eventType = "approval.request" then
      let result ← (requestApproval context hermesRunId normalized outcome.seq).run
      .pure (state, result)
    else .pure (state, .ok ())

/-- The inner loop of `follow_to_terminal`: the events of one connection, until one cannot be
handled. -/
def onEvents (context : WorkerContext) (hermesRunId : String) :
    FollowState → List SseEvent → Program NodeCall (FollowState × Except NodeError Unit)
  | state, [] => .pure (state, .ok ())
  | state, event :: events => do
    let handled ← onEvent context hermesRunId state event
    match handled.2 with
    | .error error => .pure (handled.1, .error error)
    | .ok _ => onEvents context hermesRunId handled.1 events

/-- Why a connection ended, if it did not simply end. -/
def streamError (handled : Except NodeError Unit) (failure : Option String) : Option String :=
  match handled with
  | .error error => some error.message
  | .ok _ => failure

/-- The end of `follow_to_terminal`: record an ending, and clear the slot whether or not that
succeeded. -/
def settle (context : WorkerContext) (ending : Act RunRecord) : Act RunRecord := do
  let record ← Attempt.observe ending
  Attempt.attempt (.clearActiveRun context.projectId)
  Attempt.attempt (.clearActiveRun context.projectId)
  Attempt.ofExcept record

/-- `follow_to_terminal`, where the run's outcome cannot be learnt any more. -/
def interruptRun (context : WorkerContext) (message reason : String) : Act RunRecord :=
  finalize context.runId .interrupted
    (((RunUpdate.ofStatus .interrupted).withError errorStreamBroken message).withTerminalReason
      reason)
    (errorFields errorStreamBroken message)

/-- `follow_to_terminal`, where the backend reports how the run ended. -/
def adoptEnding (context : WorkerContext) (state : FollowState) (value : Value)
    (status : RunStatus) : Act RunRecord :=
  let update := ((RunUpdate.ofStatus status).withResult value).withTerminalReason
    "terminal status reported by Hermes"
  let update :=
    if status = .failed then
      match failureReason value state.failureMessage with
      | some message => update.withError "hermes_run_failed" message
      | none => update
    else update
  finalize context.runId status update [("hermes_status", (value.get "status").getD .null)]

/-- `follow_to_terminal` notes when the journal grew. -/
def noteProgress (context : WorkerContext) (state : FollowState) : Act FollowState := do
  let record ← Act.registry (.run context.runId)
  let currentSeq := (record.map fun run => run.lastEventSeq).getD 0
  if currentSeq ≠ state.lastSeq then
    let now ← Attempt.ask .instant
    return { state with lastSeq := currentSeq, lastProgress := now }
  else return state

/-- The loop of `follow_to_terminal`: connect, journal what comes, and ask the backend how the run
is doing, until it has ended or has been silent for too long. -/
def followLoop (context : WorkerContext) (client : HermesClient) (hermesRunId : String) :
    ℕ → FollowState → Act RunRecord
  | 0, _ => throw .unfollowed
  | reconnects + 1, state => do
    let stream ← Attempt.ask (.streamEvents client hermesRunId)
    let handled ← ExceptT.lift (onEvents context hermesRunId state stream.events)
    let lastStreamError := (streamError handled.2 stream.failure).or handled.1.lastStreamError
    let state := { handled.1 with lastStreamError }
    let backend ← Attempt.ask (.tryRunStatus client hermesRunId)
    match backend.toOption.join with
    | none =>
      settle context (interruptRun context
        (state.lastStreamError.getD "Hermes no longer knows this run")
        "Hermes lost the run before a terminal status")
    | some value =>
      let status := ((statusOf value).map fromHermesStatus).getD .interrupted
      if status.isTerminal then settle context (adoptEnding context state value status)
      else do
        let state ← noteProgress context state
        let now ← Attempt.ask .instant
        if streamIdleBudget ≤ now - state.lastProgress then
          settle context (interruptRun context
            ("no new events for " ++ Text.decimal (streamIdleBudget / 1000) ++
              "s while Hermes still reported the run as active")
            "event stream stalled while the run was still active")
        else followLoop context client hermesRunId reconnects state

/-- `follow_to_terminal`: follow a live backend run until it has ended. -/
def followToTerminal (context : WorkerContext) (client : HermesClient) (hermesRunId : String) :
    Act RunRecord := do
  let lastProgress ← Attempt.ask .instant
  let record ← Act.registry (.run context.runId)
  followLoop context client hermesRunId context.reconnects
    { lastProgress, lastSeq := (record.map fun run => run.lastEventSeq).getD 0 }

/-- `execute_run` checks the run recorded in the project's slot. A slot that no longer blocks is
cleared. -/
def recordedConflict (context : WorkerContext) (client : HermesClient) :
    Act (Option RunConflict) := do
  match ← Attempt.attempt (.readActiveRun context.projectId) with
  | none => return none
  | some recorded =>
    let answer ← (Attempt.attempt (.tryRunStatus client recorded.runId)).mapError .backend
    let decision := classifyRecordedRun (some recorded) (answer.bind statusOf)
    match conflictFromDecision context.projectId decision with
    | some conflict => return some conflict
    | none => do
      Attempt.attempt (.clearActiveRun context.projectId)
      return none

/-- The input with which `execute_run` submits a stored run. -/
def submittedInput (requestPayload : Value) : Except String Value :=
  let text := ((requestPayload.get "input").bind Value.asStr).getD ""
  (Attachments.parse (requestPayload.get "attachments")).map (Attachments.hermesInput text)

/-- `execute_run`, for a run of a session: its earlier turns. What had to be left out is journalled.
-/
def conversationHistory (context : WorkerContext) (run : RunRecord) :
    Act (List HistoryMessage) := do
  match run.sessionId with
  | none => return []
  | some sessionId =>
    let runs ← Act.registry (.listRuns run.projectId historyScanLimit)
    let built := ChatHistory.build runs sessionId run.runId context.historyLimits
    if built.truncated then
      let _ ← appendAsterism context.runId "conversation.history_truncated"
        [("omitted_turns", .number (.int built.omittedTurns)),
          ("sent_messages", .number (.int built.messages.length)),
          ("sent_bytes", .number (.int built.bytes)),
          ("max_turns", .number (.int context.historyLimits.maxTurns)),
          ("max_bytes", .number (.int context.historyLimits.maxBytes))] none
      return built.messages
    else return built.messages

/-- `execute_run`, for a run the backend already has. -/
def resumeRun (context : WorkerContext) (client : HermesClient) (run : RunRecord)
    (hermesRunId : String) : Act RunRecord := do
  let _ ← appendAsterism context.runId "asterism.run.resumed"
    [("hermes_run_id", .string hermesRunId),
      ("resumed_from_seq", .number (.int run.lastEventSeq))] none
  followToTerminal context client hermesRunId

/-- `execute_run`, for a run that is to be submitted. -/
def submitRun (context : WorkerContext) (client : HermesClient) (run : RunRecord) :
    Act RunRecord := do
  let _ ← appendAsterism context.runId "asterism.run.accepted"
    [("project_id", .string context.projectId)] (some (.ofStatus .starting))
  let input ← (Attempt.ofExcept (submittedInput run.requestPayload)).mapError .attachments
  let history ← conversationHistory context run
  let response ← Attempt.ask (.startRun client context.runId
    { input
      sessionId := run.sessionId
      instructions := (run.requestPayload.get "instructions").bind Value.asStr
      conversationHistory := history })
  match response with
  | .error message => do
    Attempt.attempt (.clearActiveRun context.projectId)
    finalize context.runId .failed
      (((RunUpdate.ofStatus .failed).withError errorSubmissionFailed message).withTerminalReason
        "Hermes rejected the submission")
      (errorFields errorSubmissionFailed message)
  | .ok response => do
    let _ ← appendAsterism context.runId "asterism.run.submitted"
      [("hermes_run_id", .string response.runId), ("hermes_status", .string response.status)]
      (some ((RunUpdate.ofStatus .running).withHermesRunId response.runId))
    let now ← Attempt.ask .nowMillis
    Attempt.attempt
      (.recordActiveRun context.projectId ⟨response.runId, run.sessionId, now / 1000⟩)
    followToTerminal context client response.runId

/-- `execute_run`, once the run was read: admit it, and submit it or re-attach to it. -/
def executeLoaded (context : WorkerContext) (run : RunRecord) : Act RunRecord := do
  match ← Attempt.observe (Attempt.attempt (.tryLock context.projectId)) with
  | .error (error : NodeError) => refuse context error.message
  | .ok _ => do
    let client ←
      (Attempt.ofExcept (HermesClient.new context.baseUrl context.apiKey)).mapError .client
    match ← recordedConflict context client with
    | some conflict => refuse context conflict.message
    | none =>
      match run.hermesRunId with
      | some hermesRunId => resumeRun context client run hermesRunId
      | none => submitRun context client run

/-- `execute_run`: execute one run end to end. -/
def executeRun (context : WorkerContext) : Act RunRecord := do
  match ← Act.registry (.run context.runId) with
  | none => throw (.unknownRun context.runId)
  | some run => executeLoaded context run

/-- `Reconciliation`: what reconciliation did to one run. -/
structure Reconciliation where
  runId : String
  previousStatus : RunStatus
  newStatus : RunStatus
  note : String
  deriving DecidableEq

/-- `reconcile_project` parks the run while its backend is queried. -/
def Parked (run : RunRecord) : Prop :=
  run.hermesRunId.isSome ∧ run.status ≠ .recovering ∧
    validateTransition run.status .recovering = .ok ()

instance (run : RunRecord) : Decidable (Parked run) :=
  inferInstanceAs (Decidable (run.hermesRunId.isSome ∧ run.status ≠ .recovering ∧
    validateTransition run.status .recovering = .ok ()))

/-- `reconcile_project` parks a run, so that its stored status says what is happening to it. -/
def parkRun (run : RunRecord) : Act Unit :=
  if Parked run then do
    let _ ← appendAsterism run.runId "asterism.run.recovering"
      [("previous_status", .string run.status.asStr)] (some (.ofStatus .recovering))
    return ()
  else return ()

/-- The query of `reconcile_project` for the status of a run. One that fails counts as an unknown
run. -/
def backendStatus (client : HermesClient) (run : RunRecord) : Act (Option String) := do
  match run.hermesRunId with
  | none => return none
  | some hermesRunId =>
    let answer ← Attempt.ask (.tryRunStatus client hermesRunId)
    return answer.toOption.join.bind statusOf

/-- The state change that `reconcile_project` decides on. -/
def reconciledUpdate (newStatus : RunStatus) (note : String) : RunUpdate :=
  let update := (RunUpdate.ofStatus newStatus).withRecoveryNote note
  if newStatus.isTerminal ∧ newStatus ≠ .completed then
    update.withTerminalReason "resolved by Asterism reconciliation"
  else update

@[simp] theorem reconciledUpdate_status (status : RunStatus) (note : String) :
    (reconciledUpdate status note).status = some status := by
  unfold reconciledUpdate
  dsimp only
  split <;> rfl

@[simp] theorem reconciledUpdate_hermesRunId (status : RunStatus) (note : String) :
    (reconciledUpdate status note).hermesRunId = none := by
  unfold reconciledUpdate
  dsimp only
  split <;> rfl

/-- The body of the loop of `reconcile_project`, for a run as it was when the project's runs were
listed. -/
def reconcileRun (client : HermesClient) (run : RunRecord) : Act (Option Reconciliation) := do
  parkRun run
  let backend ← backendStatus client run
  let decision := reconcileDecision run.status backend run.lastEventSeq
  if decision.1 = run.status then return none
  else do
    let _ ← appendAsterism run.runId "asterism.reconciled"
      [("previous_status", .string run.status.asStr), ("new_status", .string decision.1.asStr),
        ("reason", .string decision.2), ("backend_status", .ofOption backend)]
      (some (reconciledUpdate decision.1 decision.2))
    return some ⟨run.runId, run.status, decision.1, decision.2⟩

/-- The loop of `reconcile_project`. -/
def reconcileRuns (client : HermesClient) : List RunRecord → Act (List Reconciliation)
  | [] => return []
  | run :: runs => do
    let outcome ← reconcileRun client run
    let outcomes ← reconcileRuns client runs
    return outcome.toList ++ outcomes

/-- `reconcile_project` with the lock: reconcile the listed runs and drop what the slot records. -/
def reconcileListed (projectId : String) (client : HermesClient) (runs : List RunRecord) :
    Act (List Reconciliation) := do
  let outcomes ← reconcileRuns client runs
  Attempt.attempt (.clearActiveRun projectId)
  return outcomes

/-- `reconcile_project`: reconcile every live run of a project, unless a worker holds its lock. -/
def reconcileProject (projectId : String) (client : HermesClient) :
    Act (List Reconciliation) := do
  match ← Attempt.observe (Attempt.attempt (.tryLock projectId)) with
  | .error (_ : NodeError) => return []
  | .ok _ => do
    let runs ← Act.registry (.activeRuns projectId)
    reconcileListed projectId client runs

/-! # The application service -/

/-- The `Limits` of a Node and what else stays the same while it runs. -/
structure NodeConfig where
  historyLimits : HistoryLimits
  /-- How often a worker may connect to the event stream. -/
  reconnects : ℕ
  sha256 : String → String

/-- `CreateRun`: a request to create a run. -/
structure CreateRun where
  input : String
  sessionId : Option String
  instructions : Option String
  idempotencyKey : Option String
  approvalPolicy : Option RunApprovalPolicy
  /-- Who asked, for the audit trail. -/
  actor : Option String
  attachments : List Attachment
  /-- The attachments were read and validated before the request was made. -/
  attachments_parsed : ∃ value, Attachments.parse value = .ok attachments
  deriving DecidableEq

/-- The payload with which `create_run` stores a run. -/
def CreateRun.payload (request : CreateRun) : Value :=
  Value.obj
    [("input", .string request.input), ("instructions", .ofOption request.instructions),
      ("attachments", .array (request.attachments.map Attachments.toValue))]

/-- `RunCreated`: a created run. -/
structure RunCreated where
  run : RunRecord
  /-- An earlier request with the same key had created it. -/
  idempotentReplay : Bool

/-- `validate_identifier`: reject an identifier that could escape its namespace. -/
def validateIdentifier (field value : String) : Except ServiceError Unit :=
  if value = "" ∨ 128 < Text.len value then
    .error (.refused .badRequest "invalid_identifier" (field ++ " must be 1..=128 characters"))
  else if value.toList.any fun c => !(Text.isAsciiAlphanumeric c || c = '-' || c = '_' || c = '.')
  then
    .error (.refused .badRequest "invalid_identifier"
      (field ++ " may only contain ASCII letters, digits, '-', '_' and '.'"))
  else if Text.contains value ".." then
    .error (.refused .badRequest "invalid_identifier" (field ++ " must not contain '..'"))
  else .ok ()

/-- `load_owned`: a run of the project. A run of another project is reported as unknown. -/
def loadOwned (projectId runId : String) : Service RunRecord := do
  Attempt.ofExcept (validateIdentifier "project_id" projectId)
  Attempt.ofExcept (validateIdentifier "run_id" runId)
  match ← (Act.registry (.run runId)).mapError ServiceError.internal with
  | none => throw (.refused .notFound "run_not_found" ("unknown run " ++ runId))
  | some record =>
    if record.projectId ≠ projectId then
      throw (.refused .notFound "run_not_found" ("unknown run " ++ runId))
    else return record

namespace NodeService

/-- `client_for`: a client of the project's worker. -/
def clientFor (projectId : String) : Service HermesClient := do
  let runtime ← Attempt.attempt (.projectRuntime projectId)
  (Attempt.ofExcept (HermesClient.new runtime.1 runtime.2)).mapError fun message =>
    .refused .unavailable "hermes_unavailable" ("cannot address the Hermes endpoint: " ++ message)

/-- The worker that `supervise` starts. Its failures are recorded by itself, or logged. -/
def worker (context : WorkerContext) : Program NodeCall Unit := do
  let _ ← (executeRun context).run
  Program.perform (.detachWorker context.runId)

/-- `supervise`: start a worker for a run, unless there is one or the project has no address. -/
def supervise (config : NodeConfig) (projectId runId : String) : Program NodeCall Unit := do
  match ← Program.perform (.projectRuntime projectId) with
  | .error _ => .pure ()
  | .ok runtime =>
    if ← Program.perform (.attachWorker runId) then
      Program.spawn (worker
        ⟨projectId, runId, runtime.1, runtime.2, config.historyLimits, config.reconnects⟩)
    else .pure ()

/-- `create_run` and `retry_run` refuse new work while the Node shuts down. -/
def refuseWhileDraining : Service Unit := do
  if ← Attempt.ask .isDraining then
    throw (.refused .unavailable "node_draining"
      "the node is shutting down and is not accepting new runs")
  else return ()

/-- `create_run` sets the approval policy a new run asks to start under. -/
def startPolicy (request : CreateRun) (runId : String) : Service Unit := do
  match request.approvalPolicy with
  | none => return ()
  | some policy =>
    if policy.bypassesApproval then
      if ← Service.registry (.setRunApprovalPolicy runId policy request.actor) then
        let _ ← (appendAsterism runId "run.approval_policy.changed"
          [("run_id", .string runId), ("policy", .string policy.asStr),
            ("actor", .ofOption request.actor), ("source", .string "run_creation")]
          none).mapError ServiceError.ofNode
        return ()
      else return ()
    else return ()

/-- `create_run`: create a run and start it. -/
def createRun (config : NodeConfig) (projectId : String) (request : CreateRun) :
    Service RunCreated := do
  Attempt.ofExcept (validateIdentifier "project_id" projectId)
  if Text.trim request.input = "" then
    throw (.refused .unprocessable "empty_input" "input must not be empty")
  else do
    refuseWhileDraining
    let runtimeKind ← Attempt.ask (.runtimeKind projectId)
    let checked ← Attempt.attempt (.credentialUsableForRun projectId)
    Attempt.attempt (.credentialRunGuard projectId checked)
    let model ← (Attempt.attempt (.projectModel projectId)).mapError ServiceError.ofNode
    let creation ← Service.registry (.createRun
      { projectId
        sessionId := request.sessionId
        idempotencyKey := request.idempotencyKey
        runtimeKind
        provider := none
        model
        requestPayload := request.payload
        retryOfRunId := none })
    match creation with
    | .existing run => return ⟨run, true⟩
    | .created run => do
      startPolicy request run.runId
      ExceptT.lift (supervise config projectId run.runId)
      return ⟨run, false⟩

/-- `set_run_approval_policy`: change the approval policy of a live run. -/
def setRunApprovalPolicy (projectId runId : String) (policy : RunApprovalPolicy)
    (actor : Option String) : Service Value := do
  let record ← loadOwned projectId runId
  if record.status.isTerminal then
    throw (.refused .conflict "run_not_active"
      "this run has finished; its approval policy can no longer change")
  else do
    let changed ← (Act.registry (.setRunApprovalPolicy record.runId policy actor)).mapError
      fun error => ServiceError.refused .conflict "run_not_active" error.message
    if changed then
      let _ ← (appendAsterism record.runId "run.approval_policy.changed"
        [("run_id", .string record.runId), ("policy", .string policy.asStr),
          ("actor", .ofOption actor)] none).mapError ServiceError.internal
    let state ← (Act.registry (.runApprovalPolicy record.runId)).mapError ServiceError.internal
    return Value.obj
      [("run_id", .string record.runId), ("approval_policy", .string state.policy.asStr),
        ("enabled_by", .ofOption state.enabledBy),
        ("enabled_at", match state.enabledAt with
          | some time => .number (.int time)
          | none => .null),
        ("changed", .bool changed)]

/-- The choices that `resolve_approval` takes from an operator. -/
def validateChoice (choice : String) : Except ServiceError Unit :=
  if choice = "always" then
    .error (.refused .unprocessable "persistent_approval_not_supported"
      ("persistent approvals are unavailable: Hermes would record this as a permanent " ++
        "command_allowlist rule that Asterism cannot yet display or revoke. Use \"once\" or " ++
        "\"session\"."))
  else if choice = "once" ∨ choice = "session" ∨ choice = "deny" then .ok ()
  else .error (.refused .unprocessable "invalid_choice"
    ("unsupported approval choice " ++ Text.debug choice))

/-- `resolve_approval`: answer the pending approval of a run. The decision is claimed before it is
forwarded, so a repeated call cannot send a second one for the same request. -/
def resolveApproval (projectId runId choice : String) : Service Value := do
  Attempt.ofExcept (validateChoice choice)
  let client ← clientFor projectId
  let record ← loadOwned projectId runId
  match ← Service.registry (.pendingApproval record.runId) with
  | none =>
    throw (.refused .conflict "no_pending_approval"
      "this run has no approval waiting for a decision")
  | some pending =>
    match record.hermesRunId with
    | none =>
      throw (.refused .gone "backend_run_missing" "this run was never submitted to a backend")
    | some hermesRunId =>
      if ← Service.registry (.recordApprovalDecision record.runId pending.requestSeq choice) then
        let response ← Attempt.ask
          (.resolveApproval client hermesRunId choice false record.runId pending.requestSeq)
        let payload := match response with
          | .ok value => value
          | .error message => Value.obj [("error", .string message)]
        let seq ← (appendNote record.runId "asterism.approval.decision"
          (Value.obj [("choice", .string choice), ("response", payload)])).mapError
            ServiceError.ofNode
        Service.registry (.recordApprovalResolution record.runId pending.requestSeq seq)
        match response with
        | .error message =>
          throw (.refused .unavailable "hermes_unavailable"
            ("the decision was recorded but the backend rejected it: " ++ message))
        | .ok _ =>
          return Value.obj
            [("run_id", .string record.runId), ("approval_id", .number (.int pending.requestSeq)),
              ("choice", .string choice), ("applied", .bool true)]
      else
        throw (.refused .conflict "approval_already_resolved"
          "a decision was already recorded for this approval")

/-- `cancel_run`: cancel a run. A run the backend has is stopped there, and its worker observes the
outcome; a run the backend does not have is recorded as cancelled. -/
def cancelRun (projectId runId : String) : Service Value := do
  let client ← clientFor projectId
  let record ← loadOwned projectId runId
  if record.status.isTerminal then
    return Value.obj
      [("run_id", .string record.runId), ("status", .string record.status.asStr),
        ("cancel_requested", .bool false),
        ("note", .string "run already reached a terminal state")]
  else do
    let _ ← (appendNote record.runId "asterism.cancel.requested"
      (Value.obj [("requested_status", .string record.status.asStr)])).mapError ServiceError.ofNode
    match record.hermesRunId with
    | none => do
      let updated ← Service.registry (.updateRun record.runId
        ((RunUpdate.ofStatus .cancelled).withTerminalReason
          "cancelled before submission to a backend"))
      return Value.obj
        [("run_id", .string updated.runId), ("status", .string updated.status.asStr),
          ("cancel_requested", .bool true)]
    | some hermesRunId => do
      let response ← Attempt.ask (.stopRun client hermesRunId)
      let payload := match response with
        | .ok value => value
        | .error message => Value.obj [("error", .string message)]
      let _ ← (appendNote record.runId "asterism.cancel.response" payload).mapError
        ServiceError.ofNode
      return Value.obj
        [("run_id", .string record.runId), ("cancel_requested", .bool true),
          ("backend_response", payload)]

/-- The payload with which `retry_run` stores a run: the parts of the original that describe the
work. -/
def retryPayload (original : Value) : Value :=
  Value.obj
    [("input", (original.get "input").getD .null),
      ("instructions", (original.get "instructions").getD .null),
      ("attachments", (original.get "attachments").getD .null)]

/-- The run with which `retry_run` replaces another. -/
def retryRequest (projectId : String) (original : RunRecord) : NewRun :=
  { projectId
    sessionId := original.sessionId
    idempotencyKey := none
    runtimeKind := original.runtimeKind
    provider := original.provider
    model := original.model
    requestPayload := retryPayload original.requestPayload
    retryOfRunId := some original.runId }

/-- `retry_run`, once the run was read, if it ended in a way that allows it. -/
def retryLoaded (config : NodeConfig) (projectId : String) (checked : Option String)
    (original : RunRecord) : Service RunCreated := do
  if !original.status.isTerminal then
    throw (.refused .conflict "run_active" ("run " ++ original.runId ++ " is " ++
      original.status.asStr ++ " and cannot be retried"))
  else if !original.status.isRetryable then
    throw (.refused .conflict "run_not_retryable" ("run " ++ original.runId ++ " ended as " ++
      original.status.asStr ++ "; only interrupted or lost runs may be retried"))
  else do
    Attempt.attempt (.credentialRunGuard projectId checked)
    let creation ← Service.registry (.createRun (retryRequest projectId original))
    let replacement := creation.record
    let _ ← (appendAsterism original.runId "asterism.retry.created"
      [("replacement_run_id", .string replacement.runId)] none).mapError ServiceError.ofNode
    let _ ← (appendAsterism replacement.runId "asterism.retry.of"
      [("original_run_id", .string original.runId),
        ("original_status", .string original.status.asStr)] none).mapError ServiceError.ofNode
    ExceptT.lift (supervise config projectId replacement.runId)
    return ⟨replacement, false⟩

/-- `retry_run`: replace an interrupted or lost run by a new one. -/
def retryRun (config : NodeConfig) (projectId runId : String) : Service RunCreated := do
  refuseWhileDraining
  let checked ← Attempt.attempt (.credentialUsableForRun projectId)
  let original ← loadOwned projectId runId
  retryLoaded config projectId checked original

/-- The live runs that `reconcile` can attach a worker to. -/
def resumable (runs : List RunRecord) : List String :=
  (runs.filter fun run => run.hermesRunId.isSome &&
    (run.status = .running || run.status = .waitingForApproval)).map fun run => run.runId

/-- `reconcile`: reconcile the live runs of a project, and attach a worker to the first that can be
followed. -/
def reconcile (config : NodeConfig) (projectId : String) : Service (List Reconciliation) := do
  Attempt.ofExcept (validateIdentifier "project_id" projectId)
  let client ← clientFor projectId
  let outcomes ← (reconcileProject projectId client).mapError ServiceError.internal
  let active ← Service.registry (.activeRuns projectId)
  match (resumable active).head? with
  | none => return outcomes
  | some runId => do
    ExceptT.lift (supervise config projectId runId)
    return outcomes

end NodeService

/-! # The control channel -/

/-- `OUTBOX_COMMAND_RESULT`. -/
def outboxCommandResult : String := "command.result"

/-- `OUTBOX_TASK_REPORT`. -/
def outboxTaskReport : String := "task.report"

/-- Why the execution of a command did not produce a result. -/
inductive Interruption
  | refused (error : ProtocolError)
  | panicked

/-- A procedure that executes a command. -/
abbrev Execution (α : Type) := Attempt NodeCall Interruption α

namespace ControlChannel

/-- `string_field`: a text field that is present and not empty. -/
def stringField (payload : Value) (name : String) : Option String :=
  ((payload.get name).bind Value.asStr).filter fun text => text ≠ ""

/-- `required_str`: a text field the command must have. -/
def requiredStr (payload : Value) (name : String) : Execution String :=
  match (payload.get name).bind Value.asStr with
  | some text => return text
  | none => throw (.refused ⟨.malformedFrame, name ++ " is required"⟩)

/-- An integer field of a payload, with a default. -/
def intField (payload : Value) (name : String) (default : ℤ) : ℤ :=
  ((payload.get name).bind Value.asI64).getD default

/-- The closure `service_error` of `execute`. -/
def serviceError (error : ServiceError) : Interruption :=
  .refused ⟨.commandFailed, error.code ++ ": " ++ error.publicMessage⟩

/-- An unexpected failure, as the Control Plane sees it. -/
def internalError (error : NodeError) : Interruption := .refused ⟨.internal, error.message⟩

/-- The project a command that needs one names. The code expects it to be there. -/
def expectProject : Option String → Execution String
  | some projectId => return projectId
  | none => throw .panicked

/-- A run as a reply shows it. -/
def runValue (run : RunRecord) : Value :=
  let time : Option ℤ → Value := fun
    | some n => .number (.int n)
    | none => .null
  Value.obj
    [("run_id", .string run.runId), ("project_id", .string run.projectId),
      ("session_id", .ofOption run.sessionId), ("idempotency_key", .ofOption run.idempotencyKey),
      ("runtime_kind", .string run.runtimeKind), ("provider", .ofOption run.provider),
      ("model", .ofOption run.model), ("status", .string run.status.asStr),
      ("created_at", .number (.int run.createdAt)), ("started_at", time run.startedAt),
      ("updated_at", .number (.int run.updatedAt)), ("finished_at", time run.finishedAt),
      ("last_event_seq", .number (.int run.lastEventSeq)),
      ("terminal_reason", .ofOption run.terminalReason), ("error_code", .ofOption run.errorCode),
      ("error_message", .ofOption run.errorMessage), ("hermes_run_id", .ofOption run.hermesRunId),
      ("request_payload", run.requestPayload), ("result_payload", run.resultPayload.getD .null),
      ("recovery_note", .ofOption run.recoveryNote),
      ("retry_of_run_id", .ofOption run.retryOfRunId)]

/-- `parse`: read an approval policy. -/
def parsePolicy (value : String) : Execution RunApprovalPolicy :=
  if value = "manual" then return .manual
  else if value = "allow_all_for_run" then return .allowAllForRun
  else throw (.refused ⟨.malformedFrame, "unknown run approval policy " ++
    Text.debug value ++ "; expected \"manual\" or \"allow_all_for_run\""⟩)

/-- The approval policy that `runs.create` asks for. -/
def requestedPolicy (payload : Value) : Execution (Option RunApprovalPolicy) := do
  match stringField payload "approval_policy" with
  | none => return none
  | some value => return some (← parsePolicy value)

/-- `execute`, on `runs.create`. -/
def createRun (config : NodeConfig) (command : RemoteCommand) (projectId : String) :
    Execution Value := do
  let input ← requiredStr command.payload "input"
  let note ← (Attempt.attempt (.taskNote command)).mapError Interruption.refused
  let policy ← requestedPolicy command.payload
  match hparsed : Attachments.parse (command.payload.get "attachments") with
  | .error message => throw (.refused ⟨.malformedFrame, message⟩)
  | .ok attachments => do
    let created ← (NodeService.createRun config projectId
      { input := match note with
          | some note => input ++ "\n\n" ++ note
          | none => input
        sessionId := stringField command.payload "session_id"
        instructions := stringField command.payload "instructions"
        idempotencyKey := stringField command.payload "idempotency_key"
        approvalPolicy := policy
        actor := stringField command.payload "actor"
        attachments
        attachments_parsed := ⟨_, hparsed⟩ }).mapError serviceError
    return Value.obj
      [("run_id", .string created.run.runId), ("status", .string created.run.status.asStr),
        ("model", .ofOption created.run.model),
        ("idempotent_replay", .bool created.idempotentReplay)]

/-- `runs.subscribe`: subscribe to the events of a run. -/
def subscribe (command : RemoteCommand) (projectId : String) : Execution Value := do
  let runId ← requiredStr command.payload "run_id"
  let _ ← (loadOwned projectId runId).mapError serviceError
  (Act.registry (.upsertSubscription projectId runId
    (intField command.payload "from_seq" 0))).mapError internalError
  match ← (Act.registry (.subscription runId)).mapError internalError with
  | none =>
    throw (.refused ⟨.internal, "subscription vanished immediately after upsert"⟩)
  | some subscription =>
    return Value.obj
      [("subscribed", .bool true), ("run_id", .string subscription.runId),
        ("acked_seq", .number (.int subscription.ackedSeq))]

/-- The match of `execute` on the command, once the project has been looked up. -/
def dispatch (config : NodeConfig) (command : RemoteCommand) (project : Option String) :
    Execution Value := do
  if command.command = "runs.create" then
    createRun config command (← expectProject project)
  else if command.command = "runs.approval_policy" then
    let projectId ← expectProject project
    let runId ← requiredStr command.payload "run_id"
    let policy ← parsePolicy (← requiredStr command.payload "policy")
    (NodeService.setRunApprovalPolicy projectId runId policy
      (stringField command.payload "actor")).mapError serviceError
  else if command.command = "runs.list" then
    let projectId ← expectProject project
    Attempt.mapError serviceError (Attempt.ofExcept (validateIdentifier "project_id" projectId))
    let limit := max 1 (min 5000 (intField command.payload "limit" 50))
    let runs ← (Service.registry (.listRuns projectId limit.toNat)).mapError serviceError
    return Value.obj [("runs", .array (runs.map runValue))]
  else if command.command = "runs.get" then
    let projectId ← expectProject project
    let runId ← requiredStr command.payload "run_id"
    let run ← (loadOwned projectId runId).mapError serviceError
    return Value.obj [("run", runValue run)]
  else if command.command = "runs.cancel" then
    let projectId ← expectProject project
    let runId ← requiredStr command.payload "run_id"
    (NodeService.cancelRun projectId runId).mapError serviceError
  else if command.command = "runs.retry" then
    let projectId ← expectProject project
    let runId ← requiredStr command.payload "run_id"
    let created ← (NodeService.retryRun config projectId runId).mapError serviceError
    return Value.obj
      [("run_id", .string created.run.runId),
        ("retry_of_run_id", .ofOption created.run.retryOfRunId)]
  else if command.command = "approvals.resolve" then
    let projectId ← expectProject project
    let runId ← requiredStr command.payload "run_id"
    let choice ← requiredStr command.payload "choice"
    (NodeService.resolveApproval projectId runId choice).mapError serviceError
  else if command.command = "events.subscribe" then
    subscribe command (← expectProject project)
  else if command.command = "events.unsubscribe" then
    let runId ← requiredStr command.payload "run_id"
    (Act.registry (.removeSubscription runId)).mapError internalError
    return Value.obj [("unsubscribed", .bool true), ("run_id", .string runId)]
  else if command.command = "node.drain" then
    Attempt.ask .beginDrain
    let active ← Attempt.ask .activeWorkerCount
    return Value.obj [("draining", .bool true), ("active_runs", .number (.int active))]
  else (Attempt.attempt (.outsideCommand command)).mapError Interruption.refused

/-- What `execute` does with a command: it resolves the project that the command names. -/
def resolveAndDispatch (config : NodeConfig) (command : RemoteCommand) : Execution Value := do
  if command.command = "credentials.authorize" ∨ command.command = "credentials.reauthorize" ∨
      command.command = "project.provision" then
    (Attempt.attempt (.outsideCommand command)).mapError Interruption.refused
  else
    match command.projectId with
    | none => dispatch config command none
    | some projectId =>
      match ← (Attempt.attempt (.resolveRemoteProject projectId)).mapError internalError with
      | some project => dispatch config command (some project)
      | none =>
        throw (.refused ⟨.projectNotRegistered, "project " ++
          Text.debug projectId ++ " is not registered on this Node"⟩)

/-- `execute`. That it begins is noted, so that every execution is counted. -/
def execute (config : NodeConfig) (command : RemoteCommand) : Execution Value := do
  Attempt.ask (.executeCommand command.commandId)
  resolveAndDispatch config command

/-- The loop of `flush_outbox`. -/
def sendEntries : List OutboxRow → Act Unit
  | [] => return ()
  | entry :: entries => do
    Attempt.attempt (.send
      ⟨if entry.kind = outboxTaskReport then "client.task.report" else "client.command.result",
        entry.correlationId, entry.payload⟩)
    sendEntries entries

/-- `flush_outbox`: resend what the Control Plane has not acknowledged. -/
def flushOutbox : Act Unit := do
  sendEntries (← Act.registry (.pendingOutbox 64))

/-- The `CommandResult` that reports the stored outcome of a command. -/
def outcomeValue (record : RemoteCommandRecord) (deduplicated : Bool) : Value :=
  Value.obj
    ([("command_id", .string record.commandId), ("state", .string record.state.asStr),
      ("result", record.responsePayload.getD .null), ("error_code", .ofOption record.errorCode),
      ("error_message", .ofOption record.errorMessage)] ++
      if deduplicated then [("deduplicated", .bool true)] else [])

/-- `handle_command` stores a reply and sends it with everything else that is pending. -/
def reply (record : RemoteCommandRecord) (deduplicated : Bool) : Act Unit := do
  let _ ← Act.registry (.enqueueOutbox outboxCommandResult (some record.commandId)
    (outcomeValue record deduplicated))
  flushOutbox

/-- The end of `handle_command`: store and answer what came of a command. -/
def conclude (command : RemoteCommand) : Except Interruption Value → Act Unit
  | .ok value => do
    let record ← Act.registry
      (.completeRemoteCommand command.commandId .completed (some value) none none)
    reply record false
  | .error (.refused error) => do
    let record ← Act.registry (.completeRemoteCommand command.commandId .failed none
      (some error.code.asStr) (some error.message))
    reply record false
  | .error .panicked => throw .session

/-- `handle_command`, once the command was admitted: execute it, and store what came of it. -/
def carryOut (config : NodeConfig) (command : RemoteCommand) : Act Unit := do
  conclude command (← Attempt.observe (execute config command))

/-- A command frame, as `handle_command` finds it. -/
structure Delivery where
  messageId : String
  /-- The command, or why the payload is not one. -/
  command : Except String RemoteCommand
  deriving DecidableEq

/-- `handle_command`: admit, execute and durably answer one command. -/
def handleCommand (config : NodeConfig) (delivery : Delivery) : Act Unit := do
  let answer (error : ProtocolError) : Act Unit :=
    Attempt.attempt (.send (error.envelope (some delivery.messageId)))
  match delivery.command with
  | .error message => answer ⟨.malformedFrame, "malformed command: " ++ message⟩
  | .ok command =>
    match command.validate with
    | .error error => answer error
    | .ok _ => do
      if maxOutboxDepth ≤ (← Act.registry .outboxDepth) then
        answer ⟨.internal, "the response outbox is full; refusing new commands"⟩
      else
        match ← Act.registry (.admitRemoteCommand command.commandId command.command
          command.projectId (command.fingerprint config.sha256)) with
        | .payloadMismatch _ =>
          answer ⟨.duplicatePayloadMismatch,
            "this command id was already used with a different payload"⟩
        | .duplicate record => reply record true
        | .fresh _ => do
          Attempt.attempt (.send ⟨"client.command.accepted", some delivery.messageId,
            Value.obj [("command_id", .string command.commandId)]⟩)
          Act.registry (.setRemoteCommandState command.commandId .executing)
          carryOut config command

end ControlChannel

/-- What starts a procedure of the Node: a frame, a local request, or the process itself. -/
inductive NodeTask
  | command (delivery : ControlChannel.Delivery)
  | commandResultAck (commandId : String)
  | eventAck (runId : String) (ackedSeq : ℤ)
  | createRun (projectId : String) (request : CreateRun)
  | retryRun (projectId runId : String)
  | cancelRun (projectId runId : String)
  | resolveApproval (projectId runId choice : String)
  | setRunApprovalPolicy (projectId runId : String) (policy : RunApprovalPolicy)
      (actor : Option String)
  | reconcile (projectId : String)
  | executeRun (context : WorkerContext)
  | startProcess
  deriving DecidableEq

/-- The procedure of each task. `dispatch_frame` starts those of the frames. -/
def NodeTask.program (config : NodeConfig) : NodeTask → Program NodeCall Unit
  | command delivery => (ControlChannel.handleCommand config delivery).discard
  | commandResultAck commandId => (Act.registry (.acknowledgeOutboxCorrelation commandId)).discard
  | eventAck runId ackedSeq => (Act.registry (.acknowledgeEvents runId ackedSeq)).discard
  | createRun projectId request => (NodeService.createRun config projectId request).discard
  | retryRun projectId runId => (NodeService.retryRun config projectId runId).discard
  | cancelRun projectId runId => (NodeService.cancelRun projectId runId).discard
  | resolveApproval projectId runId choice =>
    (NodeService.resolveApproval projectId runId choice).discard
  | setRunApprovalPolicy projectId runId policy actor =>
    (NodeService.setRunApprovalPolicy projectId runId policy actor).discard
  | reconcile projectId => (NodeService.reconcile config projectId).discard
  | executeRun context => (Asterism.executeRun context).discard
  | startProcess => Program.perform .startProcess

/-- The Node: its calls, and the procedures that may arrive in any number and any order. -/
def node (config : NodeConfig) : System NodeCall NodeInput NodeTask World :=
  ⟨nodeMachine, NodeTask.program config⟩

def idleNode (w : World) : Pool NodeCall NodeTask World := ⟨w, []⟩

end Asterism
