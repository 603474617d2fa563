import Asterism.Relational.Table

/-!
# Updates of a Node

An update is a durable operation. The updater on the host reports how far it is, the Node
disconnects and comes back, and a sweep ends what has stopped moving. An operation succeeds on
two facts that arrive in any order: the updater proved what it installed, and the Node is
connected on the requested release.
-/

namespace Asterism.ControlPlane

/-- `UPDATE_STAGES`: the coarse stage a person reads. -/
inductive UpdateStage
  | queued | accepted | applying | awaitingReconnect | succeeded | failed | timedOut
  deriving DecidableEq, Repr

/-- `TERMINAL`: nothing follows these stages. -/
def UpdateStage.isTerminal : UpdateStage → Bool
  | succeeded | failed | timedOut => true
  | queued | accepted | applying | awaitingReconnect => false

/-- `LIVE_STAGES`: the stages an operation is still running in. -/
def UpdateStage.isLive : UpdateStage → Bool
  | queued | accepted | applying | awaitingReconnect => true
  | succeeded | failed | timedOut => false

/-- `INSTALLATION_STATES`: every stage an installation can be in. -/
inductive InstallationState
  | codeIssued | bootstrapDownloaded | bundleMetadataFetched | bundleDownloading
  | bundleVerified | planPrepared | prerequisitesInstalling | runtimeInstalling
  | configurationWriting | identityEnrolling | servicesStarting | nodeConnecting
  | healthVerifying | complete | failed | cancelled | expired
  deriving DecidableEq, Repr

namespace InstallationState

/-- `STAGE_PERCENT`: where each stage sits on the bar. -/
def stagePercent : InstallationState → ℕ
  | codeIssued => 0
  | bootstrapDownloaded => 2
  | bundleMetadataFetched => 5
  | bundleDownloading => 5
  | bundleVerified => 65
  | planPrepared => 67
  | prerequisitesInstalling => 70
  | runtimeInstalling => 72
  | configurationWriting => 84
  | identityEnrolling => 88
  | servicesStarting => 92
  | nodeConnecting => 95
  | healthVerifying => 97
  | complete => 100
  | failed | cancelled | expired => 0

/-- `percentFor`: a download is interpolated by real bytes and rounded. -/
def percentFor (state : InstallationState) (done total : Option ℕ) : ℕ :=
  match state, done, total with
  | bundleDownloading, some done, some total =>
    let start := bundleDownloading.stagePercent
    let span := bundleVerified.stagePercent - start
    if total = 0 then start
    else (2 * (start * total + min done total * span) + total) / (2 * total)
  | state, _, _ => state.stagePercent

/-- `stageForState`: the coarse stage behind a fine-grained updater state. -/
def updateStage : InstallationState → UpdateStage
  | failed => .failed
  | complete => .awaitingReconnect
  -- An update has no enrollment code to issue, cancel or expire.
  | cancelled | expired | codeIssued => .failed
  | _ => .applying

end InstallationState

/-- `AWAITING_RECONNECT_PERCENT`: where the bar stops while the answer is not yet known. -/
def awaitingReconnectPercent : ℕ := 99

/-- `percentForUpdate`: the percentage for an update report, capped short of done until it is. -/
def percentForUpdate (state : InstallationState) (done total : Option ℕ) : ℕ :=
  if state = .complete then awaitingReconnectPercent
  else min (state.percentFor done total) awaitingReconnectPercent

/-- `ServiceRoleSchema`: a service an updater verified, as a role rather than a unit name or path.
-/
inductive ServiceRole
  | node
  | hostHermes
  | projectWorker (projectId : String)
  deriving DecidableEq, Repr

/-- `ROLE_NAME`: a service as a sentence names it. -/
def ServiceRole.name : ServiceRole → String
  | projectWorker projectId => "the worker for project " ++ projectId
  | hostHermes => "the host Hermes"
  | node => "the Node"

/-- A service that held a stable process. -/
structure VerifiedService where
  role : ServiceRole
  mainPid : ℕ
  deriving DecidableEq, Repr

/-- `UpdateEvidenceSchema`: the updater's proof that one operation produced one coherent
installation. -/
structure UpdateEvidence where
  targetRelease : String
  nodeRelease : String
  runtimeRelease : String
  runtimeRevision : String
  services : List VerifiedService
  deriving DecidableEq, Repr

/-- Why a service did not settle. -/
inductive NotConvergedReason
  | notActive | noMainProcess | wrongExecutable | unsettled
  deriving DecidableEq, Repr

def NotConvergedReason.text : NotConvergedReason → String
  | notActive => "not_active"
  | noMainProcess => "no_main_process"
  | wrongExecutable => "wrong_executable"
  | unsettled => "unsettled"

/-- `ActiveState` of a unit. -/
inductive ActiveState
  | active | activating | deactivating | reloading | inactive | failed | unknown
  deriving DecidableEq, Repr

def ActiveState.text : ActiveState → String
  | active => "active"
  | activating => "activating"
  | deactivating => "deactivating"
  | reloading => "reloading"
  | inactive => "inactive"
  | failed => "failed"
  | unknown => "unknown"

/-- What the process of a unit executes. -/
inductive ServiceExecutable
  | expected | previous | deleted | replaced | outside | unreadable | noProcess
  deriving DecidableEq, Repr

def ServiceExecutable.text : ServiceExecutable → String
  | expected => "expected"
  | previous => "previous"
  | deleted => "deleted"
  | replaced => "replaced"
  | outside => "outside"
  | unreadable => "unreadable"
  | noProcess => "no_process"

/-- `NotConvergedSchema`: a service that did not settle, and what was last seen of it. -/
structure NotConverged where
  role : ServiceRole
  reason : NotConvergedReason
  activeState : ActiveState
  mainPid : Option ℕ
  executable : ServiceExecutable
  deriving DecidableEq, Repr

/-- The check that stopped an update. -/
inductive UpdateCheck
  | install | nodeBinary | runtimeRelease | health | services
  deriving DecidableEq, Repr

/-- What became of the previous installation. -/
inductive UpdateRollback
  | restored | incomplete | notAttempted
  deriving DecidableEq, Repr

/-- `UpdateFailureDetailSchema`: why an update failed: which check, which service, and the rollback.
-/
structure UpdateFailureDetail where
  check : UpdateCheck
  services : List NotConverged
  foundRuntimeRelease : Option String
  rollback : UpdateRollback
  rollbackServices : List NotConverged
  deriving DecidableEq, Repr

/-- One service that did not settle, for a person. -/
def NotConverged.describe (service : NotConverged) : String :=
  service.role.name ++ " did not settle (" ++ service.reason.text ++ ": " ++
    service.activeState.text ++ ", " ++
    (match service.mainPid with
      | none => "no main process"
      | some pid => "pid " ++ toString pid) ++
    ", executable " ++ service.executable.text ++ ")"

/-- `describeServices`: the services that did not settle, for a person. -/
def describeServices (services : List NotConverged) : String :=
  "; ".intercalate (services.map NotConverged.describe)

/-- What stopped an update, for a person. -/
def UpdateFailureDetail.cause (detail : UpdateFailureDetail) : String :=
  match detail.check with
  | .services =>
    if detail.services ≠ [] then describeServices detail.services
    else "a service could not be restarted"
  | .nodeBinary => "the installed Node binary was not the requested release"
  | .runtimeRelease =>
    "the live runtime was " ++ detail.foundRuntimeRelease.getD "unmarked" ++
      ", not the requested release"
  | .health => "the Node did not answer on the new installation"
  | .install => "the release could not be installed"

/-- `describeFailure`: a sentence for a person, built only from typed fields. -/
def describeFailure (detail : UpdateFailureDetail) : String :=
  match detail.rollback with
  | .restored => detail.cause ++ "; the previous installation was restored and verified"
  | .incomplete =>
    detail.cause ++
      "; the previous installation could not be fully restored and this host needs attention" ++
      (if detail.rollbackServices ≠ [] then ": " ++ describeServices detail.rollbackServices
        else "")
  | .notAttempted => detail.cause

/-- `EvidenceVerdict`: whether evidence establishes a release. -/
inductive EvidenceVerdict
  | ok
  | refused (failureCode message : String)
  deriving DecidableEq, Repr

/-- `checkEvidence`: whether an updater's evidence establishes the requested release. -/
def checkEvidence (requestedVersion : String) : Option UpdateEvidence → EvidenceVerdict
  | none =>
    .refused "unverified_completion"
      ("the updater finished without proving the installation is " ++ requestedVersion)
  | some evidence =>
    let mismatched := [("target release", evidence.targetRelease),
      ("Node binary", evidence.nodeRelease), ("runtime", evidence.runtimeRelease)].filter
        fun part => part.2 ≠ requestedVersion
    if mismatched ≠ [] then
      .refused "evidence_mismatch" ("; ".intercalate (mismatched.map fun part =>
        "the " ++ part.1 ++ " is " ++ part.2 ++ ", not " ++ requestedVersion))
    else if evidence.services.any fun service => service.role = .node then .ok
    else .refused "evidence_mismatch" "the updater did not verify the Node service"

/-- The evidence shows the release in every part of the installation, with the Node running. -/
structure UpdateEvidence.Verifies (evidence : UpdateEvidence) (release : String) : Prop where
  target : evidence.targetRelease = release
  node : evidence.nodeRelease = release
  runtime : evidence.runtimeRelease = release
  running : ∃ service ∈ evidence.services, service.role = .node

theorem verifies_of_checkEvidence {release : String} {evidence : Option UpdateEvidence}
    (h : checkEvidence release evidence = .ok) :
    ∃ found, evidence = some found ∧ found.Verifies release := by
  cases evidence with
  | none => cases h
  | some evidence =>
    refine ⟨evidence, rfl, ?_⟩
    unfold checkEvidence at h
    dsimp only at h
    split at h
    · cases h
    · rename_i hnone
      split at h
      · rename_i hservice
        simp only [ne_eq, not_not, List.filter_eq_nil_iff, List.mem_cons, List.not_mem_nil,
          or_false, forall_eq_or_imp, forall_eq, decide_eq_true_eq] at hnone
        simp only [List.any_eq_true, decide_eq_true_eq] at hservice
        exact ⟨hnone.1, hnone.2.1, hnone.2.2, hservice⟩
      · cases h

/-- `UpdateProgressSchema`: a progress report of an updater. -/
structure ProgressReport where
  operationId : String
  seq : ℕ
  state : InstallationState
  bytesDone : Option ℕ := none
  bytesTotal : Option ℕ := none
  failureCode : Option String := none
  /-- When the updater observed it, in seconds. -/
  observedAt : Option ℕ := none
  evidence : Option UpdateEvidence := none
  failureDetail : Option UpdateFailureDetail := none

/-- `OperationView`: an update operation as it is stored. Times are in milliseconds. -/
structure UpdateOperationRecord where
  operationId : String
  nodeId : String
  requestedVersion : String
  reportedVersion : Option String := none
  stage : UpdateStage := .queued
  detailState : Option InstallationState := none
  percent : ℕ := 0
  bytesDone : Option ℕ := none
  bytesTotal : Option ℕ := none
  failureCode : Option String := none
  failureMessage : Option String := none
  lastSeq : ℕ := 0
  createdAt : ℕ
  updatedAt : ℕ
  stageChangedAt : ℕ
  terminalAt : Option ℕ := none
  evidence : Option UpdateEvidence := none
  failureDetail : Option UpdateFailureDetail := none
  acknowledgedAt : Option ℕ := none

/-- What a report changes. -/
structure AppliedProgress where
  stage : UpdateStage
  percent : ℕ
  failureCode : Option String := none
  message : Option String := none
  evidence : Option UpdateEvidence := none

/-- `ProgressDecision`: whether a report moves the operation, and to where. -/
inductive ProgressDecision
  | apply (progress : AppliedProgress)
  | alreadyApplied
  | alreadyTerminal

/-- `decideUpdateProgress`: decide whether a report moves the operation, and to where. -/
def decideUpdateProgress (current : UpdateOperationRecord) (report : ProgressReport) :
    ProgressDecision :=
  if report.seq ≤ current.lastSeq then .alreadyApplied
  else if current.stage.isTerminal then .alreadyTerminal
  else if report.state.updateStage = .failed then
    .apply
      { stage := .failed, percent := current.percent,
        message := report.failureDetail.map describeFailure }
  else if report.state = .complete then
    match checkEvidence current.requestedVersion report.evidence with
    | .refused failureCode message =>
      .apply
        { stage := .failed, percent := current.percent, failureCode := some failureCode,
          message := some message }
    | .ok =>
      .apply
        { stage := .awaitingReconnect
          percent := max current.percent awaitingReconnectPercent
          evidence := report.evidence }
  else
    .apply
      { stage := report.state.updateStage
        percent := max current.percent
          (percentForUpdate report.state report.bytesDone report.bytesTotal) }

theorem updateStage_ne_succeeded (state : InstallationState) : state.updateStage ≠ .succeeded := by
  cases state <;> decide

/-- A report moves only an operation that has not ended, never to success, and brings only
evidence for the requested release. -/
theorem decideUpdateProgress_apply {current : UpdateOperationRecord} {report : ProgressReport}
    {progress : AppliedProgress} (h : decideUpdateProgress current report = .apply progress) :
    current.stage.isTerminal = false ∧ progress.stage ≠ .succeeded ∧
      ∀ evidence, progress.evidence = some evidence →
        evidence.Verifies current.requestedVersion := by
  unfold decideUpdateProgress at h
  split at h
  · cases h
  · split at h
    · cases h
    · rename_i hlive
      refine ⟨Bool.eq_false_iff.mpr hlive, ?_⟩
      split at h
      · cases h
        exact ⟨UpdateStage.noConfusion, fun _ he => absurd he (by simp)⟩
      · split at h
        · split at h
          · cases h
            exact ⟨UpdateStage.noConfusion, fun _ he => absurd he (by simp)⟩
          · rename_i hok
            cases h
            obtain ⟨found, hfound, hverifies⟩ := verifies_of_checkEvidence hok
            refine ⟨UpdateStage.noConfusion, fun evidence he => ?_⟩
            cases hfound.symm.trans he
            exact hverifies
        · cases h
          exact ⟨updateStage_ne_succeeded _, fun _ he => absurd he (by simp)⟩

/-- `SessionView`: the session a Node is connected on. -/
structure UpdateSession where
  nodeId : String
  softwareVersion : String
  /-- When the session object was built. -/
  authenticatedAt : ℕ
  /-- When the database recorded that the session is authenticated, if it has. -/
  recordedAt : Option ℕ := none

/-- How an operation ends when the Node is heard of. -/
inductive UpdateOutcome
  | succeeded
  | failed (failureCode message : String)

/-- Why hearing of the Node ends nothing. -/
inductive IgnoreReason
  | alreadyTerminal | stillWorking | notConnected | notOnTheRequestedRelease | notThisAttempt
  deriving DecidableEq, Repr

/-- `ReconnectVerdict`: what hearing of the Node means for an operation. -/
inductive SettlementVerdict
  | settled (outcome : UpdateOutcome)
  | ignore (reason : IgnoreReason)

/-- `resolveCompletion`: whether verified evidence, just recorded, completes the operation given the
session the Node is connected on. -/
def resolveCompletion (operation : UpdateOperationRecord) :
    Option UpdateSession → SettlementVerdict := fun session =>
  if operation.stage.isTerminal then .ignore .alreadyTerminal
  else if operation.stage ≠ .awaitingReconnect ∨ operation.evidence = none then
    .ignore .stillWorking
  else
    match session with
    | none => .ignore .notConnected
    | some session =>
      if session.softwareVersion ≠ operation.requestedVersion then
        .ignore .notOnTheRequestedRelease
      else if session.authenticatedAt < operation.createdAt then .ignore .notThisAttempt
      else .settled .succeeded

/-- `resolveReconnect`: what a Node reconnecting means for an operation in flight. -/
def resolveReconnect (operation : UpdateOperationRecord) (reportedVersion : Option String) :
    SettlementVerdict :=
  if operation.stage.isTerminal then .ignore .alreadyTerminal
  else if operation.stage ≠ .awaitingReconnect ∨ operation.evidence = none then
    .ignore .stillWorking
  else if reportedVersion ≠ some "" ∧ reportedVersion = some operation.requestedVersion then
    .settled .succeeded
  else
    .settled (.failed "version_mismatch"
      ("the Node came back reporting " ++ reportedVersion.getD "no version" ++ ", not " ++
        operation.requestedVersion))

variable {operation : UpdateOperationRecord}

/-- Evidence completes a running operation only if it is there and the session is on the
requested release and no older than the operation. -/
theorem resolveCompletion_settled {session : Option UpdateSession} {outcome : UpdateOutcome}
    (h : resolveCompletion operation session = .settled outcome) :
    operation.stage.isTerminal = false ∧ operation.evidence ≠ none ∧
      ∃ found, session = some found ∧ found.softwareVersion = operation.requestedVersion ∧
        operation.createdAt ≤ found.authenticatedAt := by
  unfold resolveCompletion at h
  split at h
  · cases h
  · rename_i hlive
    split at h
    · cases h
    · rename_i hawaiting
      push Not at hawaiting
      split at h
      · cases h
      · rename_i found
        split at h
        · cases h
        · rename_i hversion
          split at h
          · cases h
          · rename_i htime
            exact ⟨Bool.eq_false_iff.mpr hlive, hawaiting.2, found, rfl, not_not.mp hversion,
              Nat.le_of_not_lt htime⟩

/-- A reconnect settles a running operation, and as a success only if the evidence is there and
the Node reports the requested release. -/
theorem resolveReconnect_settled {reportedVersion : Option String} {outcome : UpdateOutcome}
    (h : resolveReconnect operation reportedVersion = .settled outcome) :
    operation.stage.isTerminal = false ∧ operation.evidence ≠ none ∧
      (outcome = .succeeded → reportedVersion = some operation.requestedVersion) := by
  unfold resolveReconnect at h
  split at h
  · cases h
  · rename_i hlive
    split at h
    · cases h
    · rename_i hawaiting
      push Not at hawaiting
      refine ⟨Bool.eq_false_iff.mpr hlive, hawaiting.2, ?_⟩
      split at h
      · rename_i hversion
        exact fun _ => hversion.2
      · cases h
        exact UpdateOutcome.noConfusion

/-- `STAGE_DEADLINE_SECONDS`: how long each live stage may sit without news, in seconds. -/
def stageDeadlineSeconds : UpdateStage → Option ℕ
  | .queued => some 300
  | .accepted => some 600
  | .applying => some 1200
  | .awaitingReconnect => some 900
  | .succeeded | .failed | .timedOut => none

/-- `StallVerdict`: why an operation is called stalled: a code and a message. -/
def stallVerdict (operation : UpdateOperationRecord) (now : ℕ) : Option (String × String) :=
  if operation.stage.isTerminal then none
  else
    match stageDeadlineSeconds operation.stage with
    | none => none
    | some allowed =>
      if now ≤ operation.updatedAt + allowed * 1000 then none
      else
        match operation.stage with
        | .queued =>
          some ("not_accepted", "the Node did not accept the update within the time allowed")
        | .awaitingReconnect =>
          some ("no_reconnect",
            "the updater finished but the Node did not come back within the time allowed")
        | _ => some ("no_progress", "the update stopped reporting progress")

theorem not_terminal_of_stallVerdict {now : ℕ} {verdict : String × String}
    (h : stallVerdict operation now = some verdict) :
    operation.stage.isTerminal = false := by
  unfold stallVerdict at h
  split at h
  · cases h
  · rename_i hlive
    exact Bool.eq_false_iff.mpr hlive

/-- What an event of an operation carries. -/
inductive UpdateEventDetail
  | failure (detail : UpdateFailureDetail)
  | evidence (evidence : UpdateEvidence)
  | reportedVersion (version : Option String)

/-- `UpdateEventRecord`: one event of an operation's history. -/
structure UpdateEventRecord where
  operationId : String
  seq : ℕ
  stage : UpdateStage
  detailState : Option InstallationState := none
  percent : ℕ
  bytesDone : Option ℕ := none
  bytesTotal : Option ℕ := none
  failureCode : Option String := none
  detail : Option UpdateEventDetail := none
  occurredAt : Option ℕ := none
  recordedAt : ℕ

namespace UpdateOperationRecord

def progressed (row : UpdateOperationRecord) (progress : AppliedProgress)
    (report : ProgressReport) (now : ℕ) : UpdateOperationRecord :=
  { row with
    stage := progress.stage
    detailState := some report.state
    percent := progress.percent
    bytesDone := report.bytesDone <|> row.bytesDone
    bytesTotal := report.bytesTotal <|> row.bytesTotal
    failureCode := progress.failureCode <|> report.failureCode <|> row.failureCode
    failureMessage := progress.message <|> row.failureMessage
    lastSeq := report.seq
    stageChangedAt := if row.stage = progress.stage then row.stageChangedAt else now
    terminalAt := if progress.stage.isTerminal then some now else row.terminalAt
    evidence := progress.evidence <|> row.evidence
    failureDetail := report.failureDetail <|> row.failureDetail
    updatedAt := now }

def ended (row : UpdateOperationRecord) (outcome : UpdateOutcome) (percent : ℕ)
    (reportedVersion : Option String) (now : ℕ) : UpdateOperationRecord :=
  { row with
    stage := match outcome with
      | .succeeded => .succeeded
      | .failed _ _ => .failed
    percent := match outcome with
      | .succeeded => 100
      | .failed _ _ => percent
    reportedVersion := reportedVersion
    failureCode := match outcome with
      | .succeeded => none
      | .failed failureCode _ => some failureCode
    failureMessage := match outcome with
      | .succeeded => none
      | .failed _ message => some message
    stageChangedAt := now
    terminalAt := some now
    updatedAt := now }

def counted (row : UpdateOperationRecord) : UpdateOperationRecord :=
  { row with lastSeq := row.lastSeq + 1 }

def putAway (row : UpdateOperationRecord) (acknowledgedAt : Option ℕ) : UpdateOperationRecord :=
  { row with acknowledgedAt }

def stalled (row : UpdateOperationRecord) (verdict : String × String) (now : ℕ) :
    UpdateOperationRecord :=
  { row with
    stage := .timedOut
    failureCode := some verdict.1
    failureMessage := some verdict.2
    stageChangedAt := now
    terminalAt := some now
    updatedAt := now }

end UpdateOperationRecord

/-- A sweep in progress: the rows it read and has not come to yet. -/
structure StallSweep where
  now : ℕ
  remaining : List UpdateOperationRecord

/-- The operations, their histories, the sessions and the sweeps in progress. A session is known
by its position. -/
structure Updates where
  now : ℕ
  operations : List UpdateOperationRecord
  events : List UpdateEventRecord
  sessions : List UpdateSession
  sweeps : List StallSweep

namespace Updates

def initial : Updates := ⟨0, [], [], [], []⟩

/-- `byId`: the operation with an id. -/
def byId (w : Updates) (operationId : String) : Option UpdateOperationRecord :=
  w.operations.find? fun row => row.operationId = operationId

/-- `liveForNode`: the operation still running on a Node, if any. An index keeps it to one. -/
def liveForNode (w : Updates) (nodeId : String) : Option UpdateOperationRecord :=
  w.operations.find? fun row => row.nodeId = nodeId ∧ row.stage.isLive

/-- The `UPDATE` of the operation with an id, if it meets a condition. -/
def updateOperation (w : Updates) (operationId : String) (p : UpdateOperationRecord → Bool)
    (f : UpdateOperationRecord → UpdateOperationRecord) : Updates :=
  { w with
    operations :=
      Table.updateWhere (fun row => row.operationId = operationId ∧ p row) f w.operations }

/-- `INSERT … ON CONFLICT DO NOTHING`: add an event, unless the operation has one with its sequence
number. -/
def insertEvent (w : Updates) (event : UpdateEventRecord) : Updates :=
  if w.events.any fun old => old.operationId = event.operationId ∧ old.seq = event.seq then w
  else { w with events := w.events ++ [event] }

/-- `create`: store a new operation. The id must be new and no operation may be running on the Node.
-/
def create (w : Updates) (operationId nodeId requestedVersion : String) : Updates :=
  if (w.byId operationId).isSome ∨ (w.liveForNode nodeId).isSome then w
  else
    { w with
      operations := w.operations ++
        [{ operationId, nodeId, requestedVersion, createdAt := w.now, updatedAt := w.now,
           stageChangedAt := w.now }] }

/-- `markAccepted`: the Node took the command and started its updater. -/
def markAccepted (w : Updates) (operationId : String) : Updates :=
  w.updateOperation operationId (fun row => row.stage = .queued) fun row =>
    { row with stage := .accepted, stageChangedAt := w.now, updatedAt := w.now }

/-- `acknowledge`: put a finished result away. -/
def acknowledge (w : Updates) (operationId : String) : Updates :=
  w.updateOperation operationId (fun row => row.terminalAt.isSome) fun row =>
    row.putAway (row.acknowledgedAt <|> some w.now)

/-- `settle`: write an operation's end, and the event a page replays for it. -/
def settle (w : Updates) (operation : UpdateOperationRecord) (outcome : UpdateOutcome)
    (reportedVersion : Option String) : Updates :=
  let final := operation.ended outcome operation.percent reportedVersion w.now
  let written := w.updateOperation operation.operationId (fun _ => true) fun row =>
    row.ended outcome operation.percent reportedVersion w.now
  let logged := written.insertEvent
    { operationId := operation.operationId, seq := operation.lastSeq + 1, stage := final.stage
      percent := final.percent, failureCode := final.failureCode
      detail := some (.reportedVersion reportedVersion), recordedAt := w.now }
  logged.updateOperation operation.operationId (fun _ => true) .counted

/-- `recordProgress`: record one progress report. Returns the operation, if the report changed it.
-/
def recordProgress (w : Updates) (report : ProgressReport) :
    Option UpdateOperationRecord × Updates :=
  match w.byId report.operationId with
  | none => (none, w)
  | some current =>
    match decideUpdateProgress current report with
    | .apply progress =>
      let written := w.updateOperation report.operationId (fun _ => true) fun row =>
        row.progressed progress report w.now
      let logged := written.insertEvent
        { operationId := report.operationId, seq := report.seq, stage := progress.stage
          detailState := some report.state, percent := progress.percent
          bytesDone := report.bytesDone, bytesTotal := report.bytesTotal
          failureCode := progress.failureCode <|> report.failureCode
          detail :=
            report.failureDetail.map .failure <|> progress.evidence.map .evidence
          occurredAt := report.observedAt.map (· * 1000)
          recordedAt := w.now }
      (some (current.progressed progress report w.now), logged)
    | .alreadyApplied | .alreadyTerminal => (none, w)

/-- `completeIfVerified`: complete an operation whose verified evidence has just been recorded, if
the Node is already connected on the requested release in a session that began after the operation
did. -/
def completeIfVerified (w : Updates) (operationId : String) (session : Option UpdateSession) :
    Updates :=
  match w.byId operationId with
  | none => w
  | some operation =>
    match resolveCompletion operation session with
    | .settled outcome => w.settle operation outcome (session.map (·.softwareVersion))
    | .ignore _ => w

/-- `resolveOnReconnect`: settle whatever the Node had in flight, now that it has said what release
it is on. -/
def resolveOnReconnect (w : Updates) (nodeId : String) (reportedVersion : Option String) :
    Updates :=
  match w.liveForNode nodeId with
  | none => w
  | some operation =>
    match resolveReconnect operation reportedVersion with
    | .settled outcome => w.settle operation outcome reportedVersion
    | .ignore _ => w

/-- `handleUpdateProgress`: a report of the Node on a session. -/
def handleUpdateProgress (w : Updates) (session : UpdateSession) (report : ProgressReport) :
    Updates :=
  match w.byId report.operationId with
  | none => w
  | some operation =>
    if operation.nodeId ≠ session.nodeId then w
    else
      match w.recordProgress report with
      | (none, recorded) => recorded
      | (some ended, recorded) =>
        if ended.stage = .awaitingReconnect then
          recorded.completeIfVerified ended.operationId (some session)
        else recorded

/-- `authenticate`: the transaction that records a session as authenticated and settles the update
of its Node. -/
def authenticate (w : Updates) (i : ℕ) (session : UpdateSession) : Updates :=
  resolveOnReconnect
    { w with sessions := w.sessions.set i { session with recordedAt := some w.now } }
    session.nodeId (some session.softwareVersion)

/-- `sweepStalled` reads the operations that are still running. -/
def beginSweep (w : Updates) (now : ℕ) : Updates :=
  { w with
    sweeps := w.sweeps ++ [⟨now, w.operations.filter fun row => row.stage.isLive⟩] }

/-- `sweepStalled`: end the next operation of a sweep if it has waited past what its stage allows,
and is still in the stage the sweep read. -/
def sweepNext (w : Updates) (i : ℕ) (sweep : StallSweep) : Updates :=
  match sweep.remaining with
  | [] => w
  | operation :: remaining =>
    let rest := { w with sweeps := w.sweeps.set i { sweep with remaining } }
    match stallVerdict operation sweep.now with
    | none => rest
    | some verdict =>
      rest.updateOperation operation.operationId (fun row => row.stage = operation.stage)
        fun row => row.stalled verdict w.now

inductive Event
  /-- An operator asks for an update. -/
  | create (operationId nodeId requestedVersion : String)
  /-- The Node answers the command that starts the update. -/
  | accepted (operationId : String)
  /-- A Node proves who it is and a session is built for it. -/
  | connect (nodeId softwareVersion : String)
  /-- The transaction that records the session commits. -/
  | authenticate (session : ℕ)
  /-- The Node reports progress on a session. -/
  | report (session : ℕ) (report : ProgressReport)
  | beginSweep (now : ℕ)
  | sweepNext (sweep : ℕ)
  | acknowledge (operationId : String)

def handle (w : Updates) : Event → Updates
  | .create operationId nodeId requestedVersion => w.create operationId nodeId requestedVersion
  | .accepted operationId => w.markAccepted operationId
  | .connect nodeId softwareVersion =>
    { w with sessions := w.sessions ++ [{ nodeId, softwareVersion, authenticatedAt := w.now }] }
  | .authenticate i =>
    match w.sessions[i]? with
    | some session => if session.recordedAt = none then w.authenticate i session else w
    | none => w
  -- Frames are read only once the session is recorded.
  | .report i report =>
    match w.sessions[i]? with
    | some session =>
      if session.recordedAt = none then w else w.handleUpdateProgress session report
    | none => w
  | .beginSweep now => w.beginSweep now
  | .sweepNext i =>
    match w.sweeps[i]? with
    | some sweep => w.sweepNext i sweep
    | none => w
  | .acknowledge operationId => w.acknowledge operationId

/-- What happens does so some time after what happened before. -/
def step (w : Updates) (event : ℕ × Event) : Updates :=
  { w with now := w.now + event.1 }.handle event.2

def play (w : Updates) (script : List (ℕ × Event)) : Updates := script.foldl step w

/-- A session of the operation's Node on the requested release was authenticated after the
operation was created. -/
def Reconnected (w : Updates) (operation : UpdateOperationRecord) : Prop :=
  ∃ session ∈ w.sessions, session.nodeId = operation.nodeId ∧
    session.softwareVersion = operation.requestedVersion ∧
    ∃ t, session.recordedAt = some t ∧ operation.createdAt ≤ t

/-- What is known of a stored operation. -/
structure RowSound (w : Updates) (row : UpdateOperationRecord) : Prop where
  created : row.createdAt ≤ w.now
  verified : ∀ evidence, row.evidence = some evidence → evidence.Verifies row.requestedVersion
  supported : row.stage = .succeeded → row.evidence ≠ none ∧ w.Reconnected row

/-- What is known of every state that is reached. -/
structure Sound (w : Updates) : Prop where
  unique : Table.Unique (fun row => some row.operationId) w.operations
  rows : ∀ row ∈ w.operations, w.RowSound row
  sessions : ∀ session ∈ w.sessions, session.authenticatedAt ≤ w.now ∧
    ∀ t, session.recordedAt = some t → session.authenticatedAt ≤ t

/-- The later state is sound, and an operation that had ended is still there as it ended, except
that its result may have been put away. -/
structure Follows (w w' : Updates) : Prop where
  sound : w'.Sound
  keeps : ∀ operationId operation, w.byId operationId = some operation →
    operation.stage.isTerminal = true →
    ∃ acknowledgedAt, w'.byId operationId = some (operation.putAway acknowledgedAt)

section Steps

variable {w w' w'' : Updates}

theorem Follows.trans (h : w.Follows w') (h' : w'.Follows w'') : w.Follows w'' := by
  refine ⟨h'.sound, fun operationId operation hfind hterminal => ?_⟩
  obtain ⟨_, hfind'⟩ := h.keeps operationId operation hfind hterminal
  obtain ⟨acknowledgedAt, hfind''⟩ := h'.keeps operationId _ hfind' hterminal
  exact ⟨acknowledgedAt, hfind''⟩

variable {row : UpdateOperationRecord}

/-- What is known of an operation stays true as time passes and sessions are recorded. -/
theorem RowSound.mono (h : w.RowSound row) (hnow : w.now ≤ w'.now)
    (hsessions : ∀ session ∈ w.sessions, session.recordedAt ≠ none → session ∈ w'.sessions) :
    w'.RowSound row := by
  refine ⟨Nat.le_trans h.created hnow, h.verified, fun hstage => ?_⟩
  obtain ⟨hevidence, session, hsession, hnode, hversion, t, ht, hle⟩ := h.supported hstage
  refine ⟨hevidence, session, hsessions session hsession ?_, hnode, hversion, t, ht, hle⟩
  rw [ht]
  exact Option.some_ne_none t

theorem Sound.follows_of_operations (hw : w.Sound) (hnow : w.now ≤ w'.now)
    (hoperations : w'.operations = w.operations)
    (hsessions : ∀ session ∈ w.sessions, session.recordedAt ≠ none → session ∈ w'.sessions)
    (hsound : ∀ session ∈ w'.sessions, session.authenticatedAt ≤ w'.now ∧
      ∀ t, session.recordedAt = some t → session.authenticatedAt ≤ t) :
    w.Follows w' := by
  refine ⟨⟨hoperations ▸ hw.unique, fun row hrow => ?_, hsound⟩,
    fun operationId operation hfind _ => ⟨operation.acknowledgedAt, ?_⟩⟩
  · exact (hw.rows row (hoperations ▸ hrow)).mono hnow hsessions
  · unfold byId at hfind ⊢
    rw [hoperations, hfind]
    rfl

theorem Sound.follows_of_same (hw : w.Sound) (hnow : w'.now = w.now)
    (hoperations : w'.operations = w.operations) (hsessions : w'.sessions = w.sessions) :
    w.Follows w' := by
  refine hw.follows_of_operations (Nat.le_of_eq hnow.symm) hoperations
    (fun _ h _ => hsessions ▸ h) ?_
  rw [hsessions, hnow]
  exact hw.sessions

theorem Sound.follows_self (hw : w.Sound) : w.Follows w := hw.follows_of_same rfl rfl rfl

theorem Sound.byId_eq_some (hw : w.Sound)
    (hrow : row ∈ w.operations) : w.byId row.operationId = some row := by
  have hfind := hw.unique.find?_eq_some hrow rfl
  simp only [Option.some.injEq] at hfind
  exact hfind

variable {operationId : String}

theorem byId_operationId (h : w.byId operationId = some row) : row.operationId = operationId := by
  simpa using List.find?_some h

theorem byId_updateOperation {p : UpdateOperationRecord → Bool}
    {f : UpdateOperationRecord → UpdateOperationRecord}
    (hid : ∀ row, (f row).operationId = row.operationId) (id : String) :
    (w.updateOperation operationId p f).byId id =
      (w.byId id).map fun row =>
        if row.operationId = operationId ∧ p row = true then f row else row := by
  unfold byId updateOperation
  rw [Table.find?_updateWhere fun row => by rw [hid row]]
  simp only [decide_eq_true_eq]

/-- Updating one operation follows if the new row is sound, and is not new if the operation had
ended. -/
theorem Sound.updateOperation_follows (hw : w.Sound) {p : UpdateOperationRecord → Bool}
    {f : UpdateOperationRecord → UpdateOperationRecord}
    (hid : ∀ row, (f row).operationId = row.operationId)
    (hrow : ∀ row, w.byId operationId = some row → p row = true →
      w.RowSound (f row) ∧ (row.stage.isTerminal = true →
        ∃ acknowledgedAt, f row = row.putAway acknowledgedAt)) :
    w.Follows (w.updateOperation operationId p f) := by
  refine ⟨⟨?_, fun row hmem => ?_, hw.sessions⟩, fun id operation hfind hterminal => ?_⟩
  · exact hw.unique.of_updateWhere fun row => congrArg some (hid row)
  · obtain ⟨old, hold, rfl⟩ := Table.mem_updateWhere.mp hmem
    split
    · rename_i hmatch
      rw [decide_eq_true_eq] at hmatch
      have hsound := (hrow old (hmatch.1 ▸ hw.byId_eq_some hold) hmatch.2).1
      exact hsound.mono (Nat.le_refl _) fun _ h _ => h
    · exact (hw.rows old hold).mono (Nat.le_refl _) fun _ h _ => h
  · rw [byId_updateOperation hid, hfind, Option.map_some]
    split
    · rename_i hmatch
      rw [← byId_operationId hfind, hmatch.1] at hfind
      obtain ⟨acknowledgedAt, heq⟩ := (hrow operation hfind hmatch.2).2 hterminal
      exact ⟨acknowledgedAt, congrArg some heq⟩
    · exact ⟨operation.acknowledgedAt, rfl⟩

theorem insertEvent_frame (w : Updates) (event : UpdateEventRecord) :
    (w.insertEvent event).now = w.now ∧ (w.insertEvent event).operations = w.operations ∧
      (w.insertEvent event).sessions = w.sessions := by
  unfold insertEvent
  split
  · exact ⟨rfl, rfl, rfl⟩
  · exact ⟨rfl, rfl, rfl⟩

theorem Sound.of_byId (hw : w.Sound) (h : w.byId operationId = some row) : w.RowSound row :=
  hw.rows row (List.mem_of_find?_eq_some h)

theorem Sound.create_follows (hw : w.Sound) (operationId nodeId requestedVersion : String) :
    w.Follows (w.create operationId nodeId requestedVersion) := by
  unfold create
  split
  · exact hw.follows_self
  · rename_i hnew
    push Not at hnew
    have hfresh : w.byId operationId = none := by simpa using hnew.1
    refine ⟨⟨?_, fun row hmem => ?_, hw.sessions⟩, fun id operation hfind _ =>
      ⟨operation.acknowledgedAt, ?_⟩⟩
    · refine Table.unique_append_singleton.mpr ⟨hw.unique, fun k hk old hold hkey => ?_⟩
      have hnone := List.find?_eq_none.mp hfresh old hold
      rw [← hk, Option.some.injEq] at hkey
      simp only [hkey, decide_true, not_true] at hnone
    · rcases List.mem_append.mp hmem with hold | hnew
      · exact (hw.rows row hold).mono (Nat.le_refl _) fun _ h _ => h
      · rw [List.mem_singleton.mp hnew]
        exact ⟨Nat.le_refl _, fun _ h => (Option.some_ne_none _ h.symm).elim,
          fun h => UpdateStage.noConfusion h⟩
    · unfold byId at hfind ⊢
      rw [List.find?_append, hfind]
      rfl

theorem Sound.markAccepted_follows (hw : w.Sound) (operationId : String) :
    w.Follows (w.markAccepted operationId) := by
  refine hw.updateOperation_follows (fun _ => rfl) fun row hfind hqueued => ?_
  rw [decide_eq_true_eq] at hqueued
  have hrow := hw.of_byId hfind
  refine ⟨⟨hrow.created, hrow.verified, fun h => UpdateStage.noConfusion h⟩, fun hterminal => ?_⟩
  rw [hqueued] at hterminal
  exact absurd hterminal Bool.false_ne_true

theorem Sound.acknowledge_follows (hw : w.Sound) (operationId : String) :
    w.Follows (w.acknowledge operationId) := by
  refine hw.updateOperation_follows (fun _ => rfl) fun row hfind _ => ?_
  have hrow := hw.of_byId hfind
  exact ⟨⟨hrow.created, hrow.verified, hrow.supported⟩, fun _ => ⟨_, rfl⟩⟩

theorem settle_frame (w : Updates) (operation : UpdateOperationRecord) (outcome : UpdateOutcome)
    (reportedVersion : Option String) :
    (w.settle operation outcome reportedVersion).now = w.now ∧
      (w.settle operation outcome reportedVersion).sessions = w.sessions ∧
      (w.settle operation outcome reportedVersion).operations =
        (w.updateOperation operation.operationId (fun _ => true) fun row =>
          (row.ended outcome operation.percent reportedVersion w.now).counted).operations := by
  unfold settle
  dsimp only [updateOperation]
  obtain ⟨hnow, hoperations, hsessions⟩ := insertEvent_frame _ _
  refine ⟨hnow, hsessions, ?_⟩
  rw [hoperations]
  exact Table.updateWhere_updateWhere
    (f := fun row : UpdateOperationRecord =>
      row.ended outcome operation.percent reportedVersion w.now) (fun _ => rfl) _

theorem Sound.settle_follows (hw : w.Sound) {outcome : UpdateOutcome}
    {reportedVersion : Option String} (hmem : operation ∈ w.operations)
    (hlive : operation.stage.isTerminal = false) (hevidence : operation.evidence ≠ none)
    (hsession : outcome = .succeeded → w.Reconnected operation) :
    w.Follows (w.settle operation outcome reportedVersion) := by
  obtain ⟨hnow, hsessions, hoperations⟩ := settle_frame w operation outcome reportedVersion
  have hwritten : w.Follows (w.updateOperation operation.operationId (fun _ => true) fun row =>
      (row.ended outcome operation.percent reportedVersion w.now).counted) := by
    refine hw.updateOperation_follows (fun _ => rfl) fun row hfind _ => ?_
    cases (hw.byId_eq_some hmem).symm.trans hfind
    have hrow := hw.rows operation hmem
    refine ⟨⟨hrow.created, hrow.verified, fun hstage => ⟨hevidence, hsession ?_⟩⟩, fun h => ?_⟩
    · cases outcome with
      | succeeded => rfl
      | failed => cases hstage
    · rw [hlive] at h
      exact absurd h Bool.false_ne_true
  exact hwritten.trans (hwritten.sound.follows_of_same hnow hoperations hsessions)

theorem Sound.recordProgress_follows (hw : w.Sound) (report : ProgressReport) :
    w.Follows (w.recordProgress report).2 := by
  unfold recordProgress
  split
  · exact hw.follows_self
  · rename_i current hfind
    split
    · rename_i progress hdecision
      obtain ⟨hlive, hstage, hevidence⟩ := decideUpdateProgress_apply hdecision
      obtain ⟨hnow, hoperations, hsessions⟩ := insertEvent_frame _ _
      have hwritten : w.Follows (w.updateOperation report.operationId (fun _ => true) fun row =>
          row.progressed progress report w.now) := by
        refine hw.updateOperation_follows (fun _ => rfl) fun row hrow _ => ?_
        cases hfind.symm.trans hrow
        have hcurrent := hw.of_byId hfind
        refine ⟨⟨hcurrent.created, fun evidence hfound => ?_, fun h => absurd h hstage⟩,
          fun h => ?_⟩
        · cases hnew : progress.evidence with
          | none =>
            simp only [UpdateOperationRecord.progressed, hnew, Option.orElse_eq_orElse,
              Option.orElse_none] at hfound
            exact hcurrent.verified evidence hfound
          | some reported =>
            simp only [UpdateOperationRecord.progressed, hnew, Option.orElse_eq_orElse,
              Option.orElse_some, Option.some.injEq] at hfound
            exact hevidence evidence (hfound ▸ hnew)
        · rw [hlive] at h
          exact absurd h Bool.false_ne_true
      exact hwritten.trans (hwritten.sound.follows_of_same hnow hoperations hsessions)
    · exact hw.follows_self
    · exact hw.follows_self

variable {session : UpdateSession}

theorem Sound.completeIfVerified_follows (hw : w.Sound) (hsession : session ∈ w.sessions)
    (hrecorded : session.recordedAt ≠ none)
    (hnode : ∀ operation, w.byId operationId = some operation →
      session.nodeId = operation.nodeId) :
    w.Follows (w.completeIfVerified operationId (some session)) := by
  unfold completeIfVerified
  split
  · exact hw.follows_self
  · rename_i operation hfind
    split
    · rename_i outcome hverdict
      obtain ⟨hlive, hevidence, found, hfound, hversion, hcreated⟩ :=
        resolveCompletion_settled hverdict
      cases hfound
      refine hw.settle_follows (List.mem_of_find?_eq_some hfind) hlive hevidence fun _ => ?_
      obtain ⟨t, ht⟩ := Option.ne_none_iff_exists'.mp hrecorded
      exact ⟨session, hsession, hnode operation hfind, hversion, t, ht,
        Nat.le_trans hcreated ((hw.sessions session hsession).2 t ht)⟩
    · exact hw.follows_self

theorem Sound.resolveOnReconnect_follows (hw : w.Sound) (hsession : session ∈ w.sessions)
    (hrecorded : session.recordedAt = some w.now) :
    w.Follows (w.resolveOnReconnect session.nodeId (some session.softwareVersion)) := by
  unfold resolveOnReconnect
  split
  · exact hw.follows_self
  · rename_i operation hfind
    have hmem : operation ∈ w.operations := List.mem_of_find?_eq_some hfind
    have hnode : operation.nodeId = session.nodeId ∧ operation.stage.isLive = true := by
      simpa using List.find?_some hfind
    split
    · rename_i outcome hverdict
      obtain ⟨hlive, hevidence, hversion⟩ := resolveReconnect_settled hverdict
      refine hw.settle_follows hmem hlive hevidence fun hsucceeded => ?_
      exact ⟨session, hsession, hnode.1.symm, Option.some.inj (hversion hsucceeded), w.now,
        hrecorded, (hw.rows operation hmem).created⟩
    · exact hw.follows_self

theorem recordProgress_some {report : ProgressReport} {ended : UpdateOperationRecord}
    {recorded : Updates} (h : w.recordProgress report = (some ended, recorded)) :
    ∃ current progress, w.byId report.operationId = some current ∧
      ended = current.progressed progress report w.now ∧
      recorded.byId report.operationId = some ended ∧ recorded.sessions = w.sessions := by
  unfold recordProgress at h
  split at h
  · cases h
  · rename_i current hfind
    split at h
    · rename_i progress _
      cases h
      obtain ⟨_, hoperations, hsessions⟩ := insertEvent_frame _ _
      refine ⟨current, progress, hfind, rfl, ?_, hsessions⟩
      have hwritten : (w.updateOperation report.operationId (fun _ => true) fun row =>
          row.progressed progress report w.now).byId report.operationId =
            some (current.progressed progress report w.now) := by
        have hid : ∀ row : UpdateOperationRecord,
            (row.progressed progress report w.now).operationId = row.operationId := fun _ => rfl
        rw [byId_updateOperation hid, hfind, Option.map_some,
          if_pos ⟨byId_operationId hfind, rfl⟩]
      rw [← hwritten, byId, hoperations, byId]
    · cases h
    · cases h

theorem Sound.handleUpdateProgress_follows (hw : w.Sound) (hsession : session ∈ w.sessions)
    (hrecorded : session.recordedAt ≠ none)
    (report : ProgressReport) : w.Follows (w.handleUpdateProgress session report) := by
  unfold handleUpdateProgress
  split
  · exact hw.follows_self
  · rename_i operation hfind
    split
    · exact hw.follows_self
    · rename_i hnode
      have hfollows := hw.recordProgress_follows report
      split
      · rename_i recorded hreport
        rwa [hreport] at hfollows
      · rename_i ended recorded hreport
        rw [hreport] at hfollows
        split
        · obtain ⟨current, progress, hcurrent, hended, hstored, hsessions⟩ :=
            recordProgress_some hreport
          cases hfind.symm.trans hcurrent
          refine hfollows.trans (hfollows.sound.completeIfVerified_follows (hsessions ▸ hsession)
            hrecorded fun found hfound => ?_)
          cases hstored.symm.trans (byId_operationId hstored ▸ hfound)
          rw [hended]
          exact (not_not.mp hnode).symm
        · exact hfollows

theorem Sound.authenticate_follows (hw : w.Sound) {i : ℕ} (hsession : w.sessions[i]? = some session)
    (hrecorded : session.recordedAt = none) :
    w.Follows (w.authenticate i session) := by
  obtain ⟨hi, hget⟩ := List.getElem?_eq_some_iff.mp hsession
  have hmem : session ∈ w.sessions := List.mem_of_getElem? hsession
  have hset : w.Follows
      { w with sessions := w.sessions.set i { session with recordedAt := some w.now } } := by
    refine hw.follows_of_operations (Nat.le_refl _) rfl (fun other hother hother' => ?_)
      fun other hother => ?_
    · obtain ⟨j, hj, rfl⟩ := List.mem_iff_getElem.mp hother
      refine List.mem_iff_getElem.mpr ⟨j, by simpa using hj, ?_⟩
      rw [List.getElem_set_ne]
      rintro rfl
      rw [hget] at hother'
      exact hother' hrecorded
    · rcases List.mem_or_eq_of_mem_set hother with hold | rfl
      · exact hw.sessions other hold
      · refine ⟨(hw.sessions session hmem).1, fun t ht => ?_⟩
        cases ht
        exact (hw.sessions session hmem).1
  have hresolved := hset.sound.resolveOnReconnect_follows (List.mem_set hi _) rfl
  exact hset.trans hresolved

theorem Sound.sweepNext_follows (hw : w.Sound) (i : ℕ) (sweep : StallSweep) :
    w.Follows (w.sweepNext i sweep) := by
  unfold sweepNext
  split
  · exact hw.follows_self
  · rename_i operation remaining _
    have hrest : w.Follows { w with sweeps := w.sweeps.set i { sweep with remaining } } :=
      hw.follows_of_same rfl rfl rfl
    dsimp only
    split
    · exact hrest
    · rename_i verdict hverdict
      have hlive := not_terminal_of_stallVerdict hverdict
      refine hrest.trans (hrest.sound.updateOperation_follows (fun _ => rfl)
        fun row hfind hstage => ?_)
      rw [decide_eq_true_eq] at hstage
      have hrow := hrest.sound.of_byId hfind
      refine ⟨⟨hrow.created, hrow.verified, fun h => UpdateStage.noConfusion h⟩, fun h => ?_⟩
      rw [hstage, hlive] at h
      exact absurd h Bool.false_ne_true

/-- Every event leads to a sound state and changes no operation that has ended. -/
theorem Sound.step_follows (hw : w.Sound) (event : ℕ × Event) : w.Follows (w.step event) := by
  obtain ⟨elapsed, event⟩ := event
  have hlater : w.Follows { w with now := w.now + elapsed } := by
    refine hw.follows_of_operations (Nat.le_add_right _ _) rfl (fun _ h _ => h)
      fun session hsession => ⟨?_, (hw.sessions session hsession).2⟩
    exact Nat.le_trans (hw.sessions session hsession).1 (Nat.le_add_right _ _)
  refine hlater.trans ?_
  have hw' := hlater.sound
  unfold step
  generalize { w with now := w.now + elapsed } = v at hw'
  cases event with
  | create operationId nodeId requestedVersion => exact hw'.create_follows _ _ _
  | accepted operationId => exact hw'.markAccepted_follows _
  | connect nodeId softwareVersion =>
    refine hw'.follows_of_operations (Nat.le_refl _) rfl
      (fun _ h _ => List.mem_append_left _ h) fun session hsession => ?_
    rcases List.mem_append.mp hsession with hold | hnew
    · exact hw'.sessions session hold
    · rw [List.mem_singleton.mp hnew]
      exact ⟨Nat.le_refl _, fun _ h => (Option.some_ne_none _ h.symm).elim⟩
  | authenticate i =>
    simp only [handle]
    split
    · rename_i session hsession
      split
      · rename_i hrecorded
        exact hw'.authenticate_follows hsession hrecorded
      · exact hw'.follows_self
    · exact hw'.follows_self
  | report i report =>
    simp only [handle]
    split
    · rename_i session hsession
      split
      · exact hw'.follows_self
      · rename_i hrecorded
        exact hw'.handleUpdateProgress_follows (List.mem_of_getElem? hsession) hrecorded report
    · exact hw'.follows_self
  | beginSweep now => exact hw'.follows_of_same rfl rfl rfl
  | sweepNext i =>
    simp only [handle]
    split
    · exact hw'.sweepNext_follows _ _
    · exact hw'.follows_self
  | acknowledge operationId => exact hw'.acknowledge_follows _

/-- Every run leads to a sound state and changes no operation that has ended. -/
theorem Sound.play_follows (hw : w.Sound) (script : List (ℕ × Event)) :
    w.Follows (w.play script) := by
  induction script generalizing w with
  | nil => exact hw.follows_self
  | cons event script ih =>
    have hstep := hw.step_follows event
    exact hstep.trans (ih hstep.sound)

theorem initial_sound : initial.Sound :=
  ⟨List.nodup_nil, fun _ h => (List.not_mem_nil h).elim, fun _ h => (List.not_mem_nil h).elim⟩

end Steps

/-- For every order of reports, reconnects and sweeps: an operation that has succeeded has
verified evidence for the requested release recorded on it, and a session of its Node on that
release was authenticated after it was created. An operation that has ended stays as it ended
whatever happens later, except that its result may be put away. -/
theorem succeeded_verified_and_final (script : List (ℕ × Event)) (operationId : String)
    (operation : UpdateOperationRecord)
    (hfind : (initial.play script).byId operationId = some operation) :
    (operation.stage = .succeeded →
      (∃ evidence, operation.evidence = some evidence ∧
        evidence.Verifies operation.requestedVersion) ∧
      (initial.play script).Reconnected operation) ∧
    (operation.stage.isTerminal = true → ∀ later : List (ℕ × Event),
      ∃ acknowledgedAt, (initial.play (script ++ later)).byId operationId =
        some (operation.putAway acknowledgedAt)) := by
  have hsound : (initial.play script).Sound := (initial_sound.play_follows script).sound
  refine ⟨fun hstage => ?_, fun hterminal later => ?_⟩
  · have hrow := hsound.of_byId hfind
    obtain ⟨hevidence, hsession⟩ := hrow.supported hstage
    obtain ⟨evidence, hfound⟩ := Option.ne_none_iff_exists'.mp hevidence
    exact ⟨⟨evidence, hfound, hrow.verified evidence hfound⟩, hsession⟩
  · have hplay : initial.play (script ++ later) = (initial.play script).play later :=
      List.foldl_append
    rw [hplay]
    exact (hsound.play_follows later).keeps operationId operation hfind hterminal

/-- An update from `v1` to `v2`: the updater proves the installation on the old session, and the
Node comes back on the new release. -/
def updated : List (ℕ × Event) :=
  [(0, .connect "node" "v1"), (1, .authenticate 0), (5, .create "op" "node" "v2"),
    (1, .accepted "op"),
    (9, .report 0
      { operationId := "op", seq := 1, state := .complete
        evidence := some ⟨"v2", "v2", "v2", "abc", [⟨.node, 7⟩]⟩ }),
    (3, .connect "node" "v2"), (1, .authenticate 1)]

/-- The update succeeds, on a session that is newer than the operation, and a report that comes
later does not change that. -/
theorem updated_succeeded : ∃ operation, (initial.play updated).byId "op" = some operation ∧
    operation.stage = .succeeded ∧ (initial.play updated).Reconnected operation ∧
    ∃ acknowledgedAt, (initial.play (updated ++
      [(1, .report 1 { operationId := "op", seq := 9, state := .failed })])).byId "op" =
        some (operation.putAway acknowledgedAt) := by
  have hstage : ((initial.play updated).byId "op").map (·.stage) = some .succeeded := by decide
  obtain ⟨operation, hfind, hsucceeded⟩ := Option.map_eq_some_iff.mp hstage
  obtain ⟨hverified, hfinal⟩ := succeeded_verified_and_final updated "op" operation hfind
  exact ⟨operation, hfind, hsucceeded, (hverified hsucceeded).2,
    hfinal (hsucceeded ▸ rfl) _⟩

end Updates

end Asterism.ControlPlane
