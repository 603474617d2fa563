import Asterism.Node.Control
import Asterism.Registry.Once

/-!
# Checking a property of the Node's procedures call by call

The calls that matter for what the Node owes the backend and the Control Plane are sorted
into kinds. A family of procedures that has the calls of some kinds has every procedure
made of them. Procedures whose own order of calls matters are parameters, so that a
property can treat them by themselves and have the rest of the Node from here.
-/

namespace Asterism

open Process

inductive CallKind
  /-- It asks for something, or writes something else than the state of a run. -/
  | quiet
  /-- It writes the state of a run. -/
  | change
  | create
  /-- It claims the decision of an approval request. -/
  | claim
  | admission
  /-- It writes what came of a command, an answer, or that an answer arrived. -/
  | report
  | submit
  | stop
  /-- It forwards a decision. -/
  | forward
  | execute
  deriving DecidableEq

def RegistryCall.kind {α : Type} : RegistryCall α → CallKind
  | createRun _ => .create
  | updateRun _ _ => .change
  | appendEvent _ _ (some _) => .change
  | recordApprovalDecision _ _ _ => .claim
  | admitRemoteCommand _ _ _ _ => .admission
  | setRemoteCommandState _ _ => .report
  | completeRemoteCommand _ _ _ _ _ => .report
  | enqueueOutbox _ _ _ => .report
  | acknowledgeOutbox _ => .report
  | acknowledgeOutboxCorrelation _ => .report
  | _ => .quiet

def NodeCall.kind {α : Type} : NodeCall α → CallKind
  | registry call => call.kind
  | startRun _ _ _ => .submit
  | stopRun _ _ => .stop
  | resolveApproval _ _ _ _ _ _ => .forward
  | executeCommand _ => .execute
  | _ => .quiet

/-- A family has every call of a kind. -/
def HasKind (K : Family NodeCall) (kind : CallKind) : Prop :=
  ∀ ⦃β : Type⦄ (call : NodeCall β), call.kind = kind → K.Holds (Program.perform call)

/-- A family has the events of a run that carry a state change. -/
def Appends (K : Family NodeCall) (runId : String) : Prop :=
  ∀ event update,
    K.Holds (Program.perform (NodeCall.registry (.appendEvent runId event (some update))))

namespace HasKind

variable {K : Family NodeCall} {kind : CallKind} {α ε : Type}

theorem ask (h : HasKind K kind) {call : NodeCall α} (hkind : call.kind = kind) :
    K.Holds (Attempt.ask call : Attempt NodeCall ε α).run :=
  K.ask (h call hkind)

theorem attempt (h : HasKind K kind) {call : NodeCall (Except ε α)} (hkind : call.kind = kind) :
    K.Holds (Attempt.attempt call).run :=
  h call hkind

theorem act (h : HasKind K kind) {call : RegistryCall α} (hkind : call.kind = kind) :
    K.Holds (Act.registry call).run :=
  K.mapError (h.attempt hkind)

theorem service (h : HasKind K kind) {call : RegistryCall α} (hkind : call.kind = kind) :
    K.Holds (Service.registry call).run :=
  K.mapError (h.act hkind)

theorem appends (h : HasKind K .change) (runId : String) : Appends K runId :=
  fun _ _ => h _ rfl

end HasKind

theorem Appends.act {K : Family NodeCall} {runId : String} (h : Appends K runId)
    (event : JournalEvent) (update : RunUpdate) :
    K.Holds (Act.registry (.appendEvent runId event (some update))).run :=
  K.mapError (h event update)

section Runner

variable {K : Family NodeCall}

theorem appendNote_mem (hquiet : HasKind K .quiet) (runId eventType : String) (payload : Value) :
    K.Holds (appendNote runId eventType payload).run :=
  K.attempt_bind (hquiet.act rfl) fun _ => K.pure _

theorem noteProgress_mem (hquiet : HasKind K .quiet) (context : WorkerContext)
    (state : FollowState) : K.Holds (noteProgress context state).run := by
  refine K.attempt_bind (hquiet.act rfl) fun record => ?_
  dsimp only
  split
  · exact K.attempt_bind (hquiet.ask rfl) fun _ => K.pure _
  · exact K.pure _

theorem recordedConflict_mem (hquiet : HasKind K .quiet) (context : WorkerContext)
    (client : HermesClient) : K.Holds (recordedConflict context client).run := by
  refine K.attempt_bind (hquiet.attempt rfl) fun recorded => ?_
  cases recorded with
  | none => exact K.pure _
  | some recorded =>
    refine K.attempt_bind (K.mapError (hquiet.attempt rfl)) fun answer => ?_
    dsimp only
    split
    · exact K.pure _
    · exact K.attempt_bind (hquiet.attempt rfl) fun _ => K.pure _

theorem conversationHistory_mem (hquiet : HasKind K .quiet) (context : WorkerContext)
    (run : RunRecord) : K.Holds (conversationHistory context run).run := by
  unfold conversationHistory
  split
  · exact K.pure _
  · refine K.attempt_bind (hquiet.act rfl) fun runs => ?_
    dsimp only
    split
    · exact K.attempt_bind (hquiet.act rfl) fun _ => K.pure _
    · exact K.pure _

theorem autoResolution_mem (hquiet : HasKind K .quiet) (hforward : HasKind K .forward)
    (context : WorkerContext) (hermesRunId : String) (requestSeq : ℕ)
    (enabledBy : Option String) :
    K.Holds (autoResolution context hermesRunId requestSeq enabledBy) := by
  unfold autoResolution
  split
  · exact K.pure _
  · refine K.bind (hforward _ rfl) fun response => ?_
    refine K.bind (hquiet _ rfl) fun appended => ?_
    cases appended with
    | error _ => exact K.pure _
    | ok outcome => exact K.bind (hquiet _ rfl) fun _ => K.pure _

theorem requestApproval_mem (hquiet : HasKind K .quiet) (hclaim : HasKind K .claim)
    (hforward : HasKind K .forward) (context : WorkerContext) (hermesRunId : String)
    (event : NormalizedEvent) (requestSeq : ℕ) :
    K.Holds (requestApproval context hermesRunId event requestSeq).run := by
  refine K.attempt_bind (hquiet.act rfl) fun _ => ?_
  refine K.attempt_bind (hquiet.act rfl) fun state => ?_
  split
  · refine K.attempt_bind (hclaim.act rfl) fun claimed => ?_
    split
    · exact K.lift (K.spawn (autoResolution_mem hquiet hforward _ _ _ _))
    · exact K.pure _
  · exact K.pure _

section Changing

variable (hquiet : HasKind K .quiet)

include hquiet

theorem finalize_mem {runId : String} {update : RunUpdate}
    (hwrite : ∀ event, K.Holds
      (Program.perform (NodeCall.registry (.appendEvent runId event (some update)))))
    (status : RunStatus) (fields : List (String × Value)) :
    K.Holds (finalize runId status update fields).run := by
  refine K.attempt_bind (K.mapError (hwrite _)) fun _ => ?_
  refine K.attempt_bind (hquiet.act rfl) fun record => ?_
  cases record with
  | some record => exact K.pure _
  | none => exact K.pure _

theorem settle_mem {context : WorkerContext} (hchange : Appends K context.runId)
    (status : RunStatus) (update : RunUpdate) (fields : List (String × Value)) :
    K.Holds (settle context (finalize context.runId status update fields)).run := by
  refine K.attempt_bind (K.observe (finalize_mem hquiet (hchange · update) _ _)) fun _ => ?_
  refine K.attempt_bind (hquiet.attempt rfl) fun _ => ?_
  exact K.attempt_bind (hquiet.attempt rfl) fun _ => K.pure _

theorem reconcileRun_mem (client : HermesClient) {run : RunRecord} (hchange : Appends K run.runId) :
    K.Holds (reconcileRun client run).run := by
  refine K.attempt_bind ?_ fun _ => K.attempt_bind ?_ fun backend => ?_
  · unfold parkRun
    split
    · exact K.attempt_bind (hchange.act _ _) fun _ => K.pure _
    · exact K.pure _
  · unfold backendStatus
    split
    · exact K.pure _
    · exact K.attempt_bind (hquiet.ask rfl) fun _ => K.pure _
  · dsimp only
    split
    · exact K.pure _
    · exact K.attempt_bind (hchange.act _ _) fun _ => K.pure _

theorem reconcileRuns_mem (hchange : ∀ runId, Appends K runId) (client : HermesClient)
    (runs : List RunRecord) :
    K.Holds (reconcileRuns client runs).run := by
  induction runs with
  | nil => exact K.pure _
  | cons run runs ih =>
    refine K.attempt_bind (reconcileRun_mem hquiet client (hchange _)) fun _ => ?_
    exact K.attempt_bind ih fun _ => K.pure _

theorem reconcileProject_mem (hchange : ∀ runId, Appends K runId) (projectId : String)
    (client : HermesClient) :
    K.Holds (reconcileProject projectId client).run := by
  refine K.attempt_bind (K.observe (hquiet.attempt rfl)) fun lock => ?_
  cases lock with
  | error _ => exact K.pure _
  | ok _ =>
    refine K.attempt_bind (hquiet.act rfl) fun runs => ?_
    refine K.attempt_bind (reconcileRuns_mem hquiet hchange client runs) fun _ => ?_
    exact K.attempt_bind (hquiet.attempt rfl) fun _ => K.pure _

section Events

variable {context : WorkerContext}
  (hwrite : ∀ event eventType current status, statusUpdateFor eventType current = some status →
    K.Holds (Program.perform (NodeCall.registry
      (.appendEvent context.runId event (some (RunUpdate.ofStatus status))))))
  (hrequest : ∀ hermesRunId event requestSeq,
    K.Holds (requestApproval context hermesRunId event requestSeq).run)

include hwrite hrequest

theorem onEvent_mem (hermesRunId : String) (state : FollowState) (event : SseEvent) :
    K.Holds (onEvent context hermesRunId state event) := by
  refine K.bind ?_ fun appended => ?_
  · cases hupdate : statusUpdateFor (normalizeEvent event).eventType state.observedStatus with
    | none => exact hquiet _ rfl
    | some status => exact hwrite _ _ _ _ hupdate
  · cases appended with
    | error error => exact K.pure _
    | ok outcome =>
      dsimp only
      split
      · exact K.bind (hrequest _ _ _) fun _ => K.pure _
      · exact K.pure _

theorem onEvents_mem (hermesRunId : String) (state : FollowState) (events : List SseEvent) :
    K.Holds (onEvents context hermesRunId state events) := by
  induction events generalizing state with
  | nil => exact K.pure _
  | cons event events ih =>
    refine K.bind (onEvent_mem hquiet hwrite hrequest _ _ _) fun handled => ?_
    split
    · exact K.pure _
    · exact ih _

end Events

section Following

variable {context : WorkerContext} (hchange : Appends K context.runId)
  (hrequest : ∀ hermesRunId event requestSeq,
    K.Holds (requestApproval context hermesRunId event requestSeq).run)

include hchange hrequest

theorem followLoop_mem (client : HermesClient) (hermesRunId : String) (reconnects : ℕ)
    (state : FollowState) :
    K.Holds (followLoop context client hermesRunId reconnects state).run := by
  induction reconnects generalizing state with
  | zero => exact K.pure _
  | succ reconnects ih =>
    refine K.attempt_bind (hquiet.ask rfl) fun stream => ?_
    have hwrite (event : JournalEvent) (eventType : String) (current status : RunStatus)
        (_ : statusUpdateFor eventType current = some status) := hchange event (.ofStatus status)
    refine K.attempt_bind (K.lift (onEvents_mem hquiet hwrite hrequest _ _ _)) fun handled => ?_
    refine K.attempt_bind (hquiet.ask rfl) fun backend => ?_
    cases backend.toOption.join with
    | none => exact settle_mem hquiet hchange _ _ _
    | some value =>
      dsimp only
      split
      · exact settle_mem hquiet hchange _ _ _
      · refine K.attempt_bind (noteProgress_mem hquiet _ _) fun state => ?_
        refine K.attempt_bind (hquiet.ask rfl) fun now => ?_
        split
        · exact settle_mem hquiet hchange _ _ _
        · exact ih state

theorem followToTerminal_mem (client : HermesClient) (hermesRunId : String) :
    K.Holds (followToTerminal context client hermesRunId).run := by
  refine K.attempt_bind (hquiet.ask rfl) fun _ => ?_
  refine K.attempt_bind (hquiet.act rfl) fun _ => ?_
  exact followLoop_mem hquiet hchange hrequest _ _ _ _

theorem resumeRun_mem (client : HermesClient) (run : RunRecord) (hermesRunId : String) :
    K.Holds (resumeRun context client run hermesRunId).run := by
  refine K.attempt_bind (hquiet.act rfl) fun _ => ?_
  exact followToTerminal_mem hquiet hchange hrequest _ _

theorem submitRun_mem {client : HermesClient} {run : RunRecord}
    (hsubmit : ∀ request : StartRunRequest, submittedInput run.requestPayload = .ok request.input →
      K.Holds (Program.perform (NodeCall.startRun client context.runId request))) :
    K.Holds (submitRun context client run).run := by
  refine K.attempt_bind (hchange.act _ _) fun _ => ?_
  refine K.ofExcept_bind fun input hinput => ?_
  refine K.attempt_bind (conversationHistory_mem hquiet _ _) fun history => ?_
  refine K.attempt_bind (K.ask (hsubmit _ hinput)) fun response => ?_
  cases response with
  | error message =>
    refine K.attempt_bind (hquiet.attempt rfl) fun _ => ?_
    exact finalize_mem hquiet (hchange · _) _ _
  | ok response =>
    refine K.attempt_bind (hchange.act _ _) fun _ => ?_
    refine K.attempt_bind (hquiet.ask rfl) fun now => ?_
    refine K.attempt_bind (hquiet.attempt rfl) fun _ => ?_
    exact followToTerminal_mem hquiet hchange hrequest _ _

theorem executeLoaded_mem {run : RunRecord}
    (hsubmit : ∀ client, K.Holds (submitRun context client run).run) :
    K.Holds (executeLoaded context run).run := by
  refine K.attempt_bind (K.observe (hquiet.attempt rfl)) fun lock => ?_
  cases lock with
  | error error => exact finalize_mem hquiet (hchange · _) _ _
  | ok _ =>
    refine K.attempt_bind (K.mapError (K.pure _)) fun client => ?_
    refine K.attempt_bind (recordedConflict_mem hquiet _ _) fun conflict => ?_
    cases conflict with
    | some conflict => exact finalize_mem hquiet (hchange · _) _ _
    | none =>
      dsimp only
      split
      · exact resumeRun_mem hquiet hchange hrequest _ _ _
      · exact hsubmit _

theorem executeRun_mem (hsubmit : ∀ client run, K.Holds (submitRun context client run).run) :
    K.Holds (executeRun context).run := by
  refine K.attempt_bind (hquiet.act rfl) fun run => ?_
  cases run with
  | none => exact K.pure _
  | some run => exact executeLoaded_mem hquiet hchange hrequest fun client => hsubmit client run

end Following

end Changing

end Runner

section Service

variable {K : Family NodeCall} (hquiet : HasKind K .quiet)

include hquiet

theorem loadOwned_mem (projectId runId : String) : K.Holds (loadOwned projectId runId).run := by
  refine K.attempt_bind (K.pure _) fun _ => K.attempt_bind (K.pure _) fun _ => ?_
  refine K.attempt_bind (K.mapError (hquiet.act rfl)) fun record => ?_
  cases record with
  | none => exact K.pure _
  | some record =>
    dsimp only
    split
    · exact K.pure _
    · exact K.pure _

namespace NodeService

theorem clientFor_mem (projectId : String) : K.Holds (clientFor projectId).run :=
  K.attempt_bind (hquiet.attempt rfl) fun _ => K.mapError (K.pure _)

theorem refuseWhileDraining_mem : K.Holds refuseWhileDraining.run := by
  refine K.attempt_bind (hquiet.ask rfl) fun draining => ?_
  split
  · exact K.pure _
  · exact K.pure _

theorem startPolicy_mem (request : CreateRun) (runId : String) :
    K.Holds (startPolicy request runId).run := by
  unfold startPolicy
  split
  · exact K.pure _
  · split
    · refine K.attempt_bind (hquiet.service rfl) fun changed => ?_
      split
      · exact K.attempt_bind (K.mapError (hquiet.act rfl)) fun _ => K.pure _
      · exact K.pure _
    · exact K.pure _

theorem setRunApprovalPolicy_mem (projectId runId : String) (policy : RunApprovalPolicy)
    (actor : Option String) :
    K.Holds (setRunApprovalPolicy projectId runId policy actor).run := by
  refine K.attempt_bind (loadOwned_mem hquiet _ _) fun record => ?_
  split
  · exact K.pure _
  · refine K.attempt_bind (K.mapError (hquiet.act rfl)) fun changed => ?_
    have hstate : K.Holds
        ((Act.registry (.runApprovalPolicy record.runId)).mapError ServiceError.internal).run :=
      K.mapError (hquiet.act rfl)
    split
    · refine K.attempt_bind (K.mapError (hquiet.act rfl)) fun _ => ?_
      exact K.attempt_bind hstate fun _ => K.pure _
    · exact K.attempt_bind hstate fun _ => K.pure _

theorem resolveApproval_mem (hclaim : HasKind K .claim) (hforward : HasKind K .forward)
    (projectId runId choice : String) :
    K.Holds (resolveApproval projectId runId choice).run := by
  refine K.attempt_bind (K.pure _) fun _ => ?_
  refine K.attempt_bind (clientFor_mem hquiet _) fun client => ?_
  refine K.attempt_bind (loadOwned_mem hquiet _ _) fun record => ?_
  refine K.attempt_bind (hquiet.service rfl) fun pending => ?_
  cases pending with
  | none => exact K.pure _
  | some pending =>
    dsimp only
    split
    · exact K.pure _
    · refine K.attempt_bind (hclaim.service rfl) fun claimed => ?_
      split
      · refine K.attempt_bind (hforward.ask rfl) fun response => ?_
        refine K.attempt_bind (K.mapError (appendNote_mem hquiet _ _ _)) fun seq => ?_
        refine K.attempt_bind (hquiet.service rfl) fun _ => ?_
        cases response with
        | error message => exact K.pure _
        | ok value => exact K.pure _
      · exact K.pure _

theorem cancelRun_mem (hstop : HasKind K .stop)
    (hwrite : ∀ runId reason, K.Holds (Program.perform (NodeCall.registry
      (.updateRun runId ((RunUpdate.ofStatus .cancelled).withTerminalReason reason)))))
    (projectId runId : String) : K.Holds (cancelRun projectId runId).run := by
  refine K.attempt_bind (clientFor_mem hquiet _) fun client => ?_
  refine K.attempt_bind (loadOwned_mem hquiet _ _) fun record => ?_
  split
  · exact K.pure _
  · refine K.attempt_bind (K.mapError (appendNote_mem hquiet _ _ _)) fun _ => ?_
    split
    · exact K.attempt_bind (K.mapError (K.mapError (hwrite _ _))) fun _ => K.pure _
    · refine K.attempt_bind (hstop.ask rfl) fun response => ?_
      exact K.attempt_bind (K.mapError (appendNote_mem hquiet _ _ _)) fun _ => K.pure _

section Executing

variable (hexecute : ∀ context, K.Holds (executeRun context).run)

include hexecute

theorem supervise_mem (config : NodeConfig) (projectId runId : String) :
    K.Holds (supervise config projectId runId) := by
  refine K.bind (hquiet _ rfl) fun runtime => ?_
  cases runtime with
  | error _ => exact K.pure _
  | ok runtime =>
    refine K.bind (hquiet _ rfl) fun attached => ?_
    split
    · exact K.spawn (K.bind (hexecute _) fun _ => hquiet _ rfl)
    · exact K.pure _

theorem createRun_mem {request : CreateRun} (hcreate : ∀ new : NewRun, new.retryOfRunId = none →
      new.requestPayload = request.payload →
      K.Holds (Program.perform (NodeCall.registry (.createRun new))))
    (config : NodeConfig) (projectId : String) :
    K.Holds (createRun config projectId request).run := by
  refine K.attempt_bind (K.pure _) fun _ => ?_
  split
  · exact K.pure _
  · refine K.attempt_bind (refuseWhileDraining_mem hquiet) fun _ => ?_
    refine K.attempt_bind (hquiet.ask rfl) fun _ => ?_
    refine K.attempt_bind (hquiet.attempt rfl) fun _ => ?_
    refine K.attempt_bind (hquiet.attempt rfl) fun _ => ?_
    refine K.attempt_bind (K.mapError (hquiet.attempt rfl)) fun _ => ?_
    refine K.attempt_bind (K.mapError (K.mapError (hcreate _ rfl rfl))) fun creation => ?_
    cases creation with
    | existing run => exact K.pure _
    | created run =>
      refine K.attempt_bind (startPolicy_mem hquiet _ _) fun _ => ?_
      exact K.attempt_bind (K.lift (supervise_mem hquiet hexecute _ _ _)) fun _ => K.pure _

theorem retryLoaded_mem {projectId : String} {original : RunRecord}
    (hcreate : K.Holds
      (Program.perform (NodeCall.registry (.createRun (retryRequest projectId original)))))
    (config : NodeConfig) (checked : Option String) :
    K.Holds (retryLoaded config projectId checked original).run := by
  unfold retryLoaded
  split
  · exact K.pure _
  · split
    · exact K.pure _
    · refine K.attempt_bind (hquiet.attempt rfl) fun _ => ?_
      refine K.attempt_bind (K.mapError (K.mapError hcreate)) fun creation => ?_
      refine K.attempt_bind (K.mapError (hquiet.act rfl)) fun _ => ?_
      refine K.attempt_bind (K.mapError (hquiet.act rfl)) fun _ => ?_
      exact K.attempt_bind (K.lift (supervise_mem hquiet hexecute _ _ _)) fun _ => K.pure _

theorem retryRun_mem (hcreate : HasKind K .create) (config : NodeConfig)
    (projectId runId : String) : K.Holds (retryRun config projectId runId).run := by
  refine K.attempt_bind (refuseWhileDraining_mem hquiet) fun _ => ?_
  refine K.attempt_bind (hquiet.attempt rfl) fun _ => ?_
  refine K.attempt_bind (loadOwned_mem hquiet _ _) fun original => ?_
  exact retryLoaded_mem hquiet hexecute (hcreate _ rfl) _ _

theorem reconcile_mem (hreconcile : ∀ projectId client,
    K.Holds (reconcileProject projectId client).run) (config : NodeConfig) (projectId : String) :
    K.Holds (reconcile config projectId).run := by
  refine K.attempt_bind (K.pure _) fun _ => ?_
  refine K.attempt_bind (clientFor_mem hquiet _) fun client => ?_
  refine K.attempt_bind (K.mapError (hreconcile _ _)) fun outcomes => ?_
  refine K.attempt_bind (hquiet.service rfl) fun active => ?_
  split
  · exact K.pure _
  · exact K.attempt_bind (K.lift (supervise_mem hquiet hexecute _ _ _)) fun _ => K.pure _

end Executing

end NodeService

end Service

/-- A family has the quiet calls and the procedures whose own order of calls may matter. -/
structure HasProcedures (K : Family NodeCall) : Prop where
  quiet : HasKind K .quiet
  /-- The creation of a run that is no retry. -/
  create : ∀ request, request.retryOfRunId = none →
    K.Holds (Program.perform (NodeCall.registry (.createRun request)))
  execute : ∀ context, K.Holds (executeRun context).run
  retry : ∀ config projectId runId, K.Holds (NodeService.retryRun config projectId runId).run
  cancel : ∀ projectId runId, K.Holds (NodeService.cancelRun projectId runId).run
  resolve : ∀ projectId runId choice,
    K.Holds (NodeService.resolveApproval projectId runId choice).run
  reconcile : ∀ projectId client, K.Holds (reconcileProject projectId client).run

theorem HasProcedures.of_kinds {K : Family NodeCall}
    (hkind : ∀ kind, kind ≠ .admission → kind ≠ .execute → kind ≠ .report → HasKind K kind) :
    HasProcedures K := by
  have hquiet := hkind .quiet (by decide) (by decide) (by decide)
  have hcreate := hkind .create (by decide) (by decide) (by decide)
  have hchange := hkind .change (by decide) (by decide) (by decide)
  have hclaim := hkind .claim (by decide) (by decide) (by decide)
  have hforward := hkind .forward (by decide) (by decide) (by decide)
  have hsubmit := hkind .submit (by decide) (by decide) (by decide)
  have hstop := hkind .stop (by decide) (by decide) (by decide)
  have hexecute (context : WorkerContext) : K.Holds (executeRun context).run := by
    have hrequest := requestApproval_mem hquiet hclaim hforward context
    exact executeRun_mem hquiet (hchange.appends _) hrequest fun _ _ =>
      submitRun_mem hquiet (hchange.appends _) hrequest fun _ _ => hsubmit _ rfl
  exact
    { quiet := hquiet
      create := fun request _ => hcreate _ rfl
      execute := hexecute
      retry := NodeService.retryRun_mem hquiet hexecute hcreate
      cancel := NodeService.cancelRun_mem hquiet hstop fun _ _ => hchange _ rfl
      resolve := NodeService.resolveApproval_mem hquiet hclaim hforward
      reconcile := reconcileProject_mem hquiet hchange.appends }

section Control

variable {K : Family NodeCall}

namespace ControlChannel

theorem requiredStr_mem (payload : Value) (name : String) :
    K.Holds (requiredStr payload name).run := by
  unfold requiredStr
  split
  · exact K.pure _
  · exact K.pure _

theorem parsePolicy_mem (value : String) : K.Holds (parsePolicy value).run := by
  unfold parsePolicy
  split
  · exact K.pure _
  · split
    · exact K.pure _
    · exact K.pure _

theorem requestedPolicy_mem (payload : Value) : K.Holds (requestedPolicy payload).run := by
  unfold requestedPolicy
  split
  · exact K.pure _
  · exact K.attempt_bind (parsePolicy_mem _) fun _ => K.pure _

theorem expectProject_mem (project : Option String) : K.Holds (expectProject project).run := by
  cases project with
  | none => exact K.pure _
  | some projectId => exact K.pure _

section Quiet

variable (hquiet : HasKind K .quiet)

include hquiet

theorem subscribe_mem (command : RemoteCommand) (projectId : String) :
    K.Holds (subscribe command projectId).run := by
  refine K.attempt_bind (requiredStr_mem _ _) fun runId => ?_
  refine K.attempt_bind (K.mapError (loadOwned_mem hquiet _ _)) fun _ => ?_
  refine K.attempt_bind (K.mapError (hquiet.act rfl)) fun _ => ?_
  refine K.attempt_bind (K.mapError (hquiet.act rfl)) fun found => ?_
  cases found with
  | none => exact K.pure _
  | some subscription => exact K.pure _

theorem sendEntries_mem (entries : List OutboxRow) : K.Holds (sendEntries entries).run := by
  induction entries with
  | nil => exact K.pure _
  | cons entry entries ih => exact K.attempt_bind (hquiet.attempt rfl) fun _ => ih

theorem reply_mem (hreport : HasKind K .report) (record : RemoteCommandRecord)
    (deduplicated : Bool) : K.Holds (reply record deduplicated).run := by
  refine K.attempt_bind (hreport.act rfl) fun _ => ?_
  exact K.attempt_bind (hquiet.act rfl) fun entries => sendEntries_mem hquiet entries

end Quiet

section Executing

variable (h : HasProcedures K)

include h

theorem createRun_mem (config : NodeConfig) (command : RemoteCommand) (projectId : String) :
    K.Holds (createRun config command projectId).run := by
  refine K.attempt_bind (requiredStr_mem _ _) fun input => ?_
  refine K.attempt_bind (K.mapError (h.quiet.attempt rfl)) fun note => ?_
  refine K.attempt_bind (requestedPolicy_mem _) fun policy => ?_
  split
  · exact K.pure _
  · refine K.attempt_bind ?_ fun _ => K.pure _
    exact K.mapError
      (NodeService.createRun_mem h.quiet h.execute (fun new hretry _ => h.create new hretry) _ _)

theorem dispatch_mem (config : NodeConfig) (command : RemoteCommand) (project : Option String) :
    K.Holds (dispatch config command project).run := by
  have hproject : K.Holds (expectProject project).run := expectProject_mem project
  have hfield (name : String) : K.Holds (requiredStr command.payload name).run :=
    requiredStr_mem _ _
  unfold dispatch
  apply K.attempt_ite
  · exact K.attempt_bind hproject fun _ => createRun_mem h _ _ _
  apply K.attempt_ite
  · refine K.attempt_bind hproject fun projectId => K.attempt_bind (hfield _) fun runId => ?_
    refine K.attempt_bind (hfield _) fun value => ?_
    refine K.attempt_bind (parsePolicy_mem _) fun policy => ?_
    exact K.mapError (NodeService.setRunApprovalPolicy_mem h.quiet _ _ _ _)
  apply K.attempt_ite
  · refine K.attempt_bind hproject fun projectId => ?_
    refine K.attempt_bind (K.mapError (K.pure _)) fun _ => ?_
    exact K.attempt_bind (K.mapError (h.quiet.service rfl)) fun _ => K.pure _
  apply K.attempt_ite
  · refine K.attempt_bind hproject fun projectId => K.attempt_bind (hfield _) fun runId => ?_
    exact K.attempt_bind (K.mapError (loadOwned_mem h.quiet _ _)) fun _ => K.pure _
  apply K.attempt_ite
  · refine K.attempt_bind hproject fun projectId => K.attempt_bind (hfield _) fun runId => ?_
    exact K.mapError (h.cancel _ _)
  apply K.attempt_ite
  · refine K.attempt_bind hproject fun projectId => K.attempt_bind (hfield _) fun runId => ?_
    refine K.attempt_bind ?_ fun _ => K.pure _
    exact K.mapError (h.retry _ _ _)
  apply K.attempt_ite
  · refine K.attempt_bind hproject fun projectId => K.attempt_bind (hfield _) fun runId => ?_
    exact K.attempt_bind (hfield _) fun choice => K.mapError (h.resolve _ _ _)
  apply K.attempt_ite
  · exact K.attempt_bind hproject fun _ => subscribe_mem h.quiet _ _
  apply K.attempt_ite
  · refine K.attempt_bind (hfield _) fun runId => ?_
    exact K.attempt_bind (K.mapError (h.quiet.act rfl)) fun _ => K.pure _
  apply K.attempt_ite
  · refine K.attempt_bind (h.quiet.ask rfl) fun _ => ?_
    exact K.attempt_bind (h.quiet.ask rfl) fun _ => K.pure _
  · exact K.mapError (h.quiet.attempt rfl)

theorem resolveAndDispatch_mem (config : NodeConfig) (command : RemoteCommand) :
    K.Holds (resolveAndDispatch config command).run := by
  have hdispatch (project : Option String) : K.Holds (dispatch config command project).run :=
    dispatch_mem h config command project
  unfold resolveAndDispatch
  split
  · exact K.mapError (h.quiet.attempt rfl)
  · split
    · exact hdispatch _
    · refine K.attempt_bind (K.mapError (h.quiet.attempt rfl)) fun found => ?_
      cases found with
      | some project => exact hdispatch _
      | none => exact K.pure _

theorem conclude_mem (hreport : HasKind K .report) (command : RemoteCommand)
    (result : Except Interruption Value) : K.Holds (conclude command result).run := by
  cases result with
  | ok value =>
    exact K.attempt_bind (hreport.act rfl) fun record => reply_mem h.quiet hreport record false
  | error interruption =>
    cases interruption with
    | refused error =>
      exact K.attempt_bind (hreport.act rfl) fun record => reply_mem h.quiet hreport record false
    | panicked => exact K.pure _

theorem handleCommand_mem (hadmission : HasKind K .admission) (hbegin : HasKind K .execute)
    (hreport : HasKind K .report) (config : NodeConfig) (delivery : Delivery) :
    K.Holds (handleCommand config delivery).run := by
  unfold handleCommand
  cases delivery.command with
  | error message => exact h.quiet.attempt rfl
  | ok command =>
    cases hvalid : command.validate with
    | error error =>
      simp only [hvalid]
      exact h.quiet.attempt rfl
    | ok _ =>
      simp only [hvalid]
      refine K.attempt_bind (h.quiet.act rfl) fun depth => ?_
      split
      · exact h.quiet.attempt rfl
      refine K.attempt_bind (hadmission.act rfl) fun admission => ?_
      cases admission with
      | payloadMismatch digest => exact h.quiet.attempt rfl
      | duplicate record => exact reply_mem h.quiet hreport _ _
      | fresh record =>
        refine K.attempt_bind (h.quiet.attempt rfl) fun _ => ?_
        refine K.attempt_bind (hreport.act rfl) fun _ => ?_
        refine K.attempt_bind (K.observe ?_) (conclude_mem h hreport command)
        exact K.attempt_bind (hbegin.ask rfl) fun _ => resolveAndDispatch_mem h config command

end Executing

end ControlChannel

/-- A family with these procedures has every task but acknowledgements of answers, if it has
the deliveries of commands. -/
theorem NodeTask.program_mem_of_ne (h : HasProcedures K) (config : NodeConfig)
    (hcommand : ∀ delivery, K.Holds (ControlChannel.handleCommand config delivery).run)
    {task : NodeTask} (hne : ∀ commandId, task ≠ .commandResultAck commandId) :
    K.Holds (task.program config) := by
  cases task with
  | command delivery => exact K.discard (hcommand delivery)
  | commandResultAck commandId => exact absurd rfl (hne commandId)
  | eventAck runId ackedSeq => exact K.discard (h.quiet.act rfl)
  | createRun projectId request =>
    exact K.discard
      (NodeService.createRun_mem h.quiet h.execute (fun new hretry _ => h.create new hretry) _ _)
  | retryRun projectId runId => exact K.discard (h.retry _ _ _)
  | cancelRun projectId runId => exact K.discard (h.cancel _ _)
  | resolveApproval projectId runId choice => exact K.discard (h.resolve _ _ _)
  | setRunApprovalPolicy projectId runId policy actor =>
    exact K.discard (NodeService.setRunApprovalPolicy_mem h.quiet _ _ _ _)
  | reconcile projectId =>
    exact K.discard (NodeService.reconcile_mem h.quiet h.execute h.reconcile _ _)
  | executeRun context => exact K.discard (h.execute context)
  | startProcess => exact h.quiet _ rfl

theorem NodeTask.program_mem (h : HasProcedures K) (hreport : HasKind K .report)
    (config : NodeConfig)
    (hcommand : ∀ delivery, K.Holds (ControlChannel.handleCommand config delivery).run)
    (task : NodeTask) : K.Holds (task.program config) := by
  cases task with
  | commandResultAck commandId => exact K.discard (hreport.act rfl)
  | _ => exact program_mem_of_ne h config hcommand fun _ heq => nomatch heq

end Control

/-! ## What the Node's calls do to a stored run -/

/-- The state change a call asks for. -/
def NodeCall.carriedUpdate {α : Type} : NodeCall α → Option (String × RunUpdate)
  | registry call => call.carriedUpdate
  | _ => none

theorem NodeCall.carriedUpdate_eq_none {α : Type} {call : NodeCall α}
    (hkind : call.kind ≠ .change) : call.carriedUpdate = none := by
  cases call with
  | registry op =>
    cases op with
    | updateRun => exact absurd rfl hkind
    | appendEvent runId event update =>
      cases update with
      | none => rfl
      | some update => exact absurd rfl hkind
    | _ => rfl
  | _ => rfl

/-- After any call a run is still there. Up to bookkeeping it is what it was, or what the state
change carried by the call makes of it. -/
theorem NodeCall.exec_findRun {α : Type} (call : NodeCall α) (input : NodeInput) {w : World}
    {runId : String} {row : RunRow} (hrow : w.registry.contents.findRun runId = some row) :
    ∃ row', (call.exec input w).2.registry.contents.findRun runId = some row' ∧
      (row.SameRun row' ∨
        ∃ update now, call.carriedUpdate = some (runId, update) ∧
          validateTransition row.status (update.target row) = .ok () ∧
          (update.apply now (update.target row) row).SameRun row') := by
  cases call with
  | registry op => exact op.exec_findRun input.registry hrow
  | recordActiveRun projectId run =>
    refine ⟨row, ?_, Or.inl (.refl row)⟩
    simp only [exec, World.setSlot]
    split <;> exact hrow
  | clearActiveRun projectId =>
    refine ⟨row, ?_, Or.inl (.refl row)⟩
    simp only [exec, World.setSlot]
    split <;> exact hrow
  | attachWorker id =>
    refine ⟨row, ?_, Or.inl (.refl row)⟩
    simp only [exec]
    split <;> exact hrow
  | _ => exact ⟨row, hrow, Or.inl (.refl row)⟩

theorem RegistryCall.exec_run {runId : String} {input : RegistryInput} {r r' : Registry}
    {found : Option RunRecord} (h : (RegistryCall.run runId).exec input r = (.ok found, r')) :
    r' = r ∧ found = (r.contents.findRun runId).map RunRow.toRunRecord := by
  cases exec_ok h
  exact ⟨rfl, rfl⟩

theorem RegistryCall.exec_activeRuns {projectId : String} {input : RegistryInput}
    {r r' : Registry} {runs : List RunRecord}
    (h : (RegistryCall.activeRuns projectId).exec input r = (.ok runs, r')) :
    r' = r ∧ ∀ run ∈ runs, ∃ row, r.contents.findRun run.runId = some row ∧
      row.toRunRecord = run := by
  cases exec_ok h
  exact ⟨rfl, fun run hrun => (r.valid.mem_activeRuns_iff.mp hrun).1⟩

/-- An event the Node produces is stored, and its state change is performed. -/
theorem RegistryCall.exec_appendEvent {runId : String} {event : JournalEvent}
    {update : RunUpdate} {input : RegistryInput} {r r' : Registry} {outcome : AppendOutcome}
    (hkey : event.dedupeKey = none)
    (h : (RegistryCall.appendEvent runId event (some update)).exec input r = (.ok outcome, r')) :
    ∃ row row' now, r.contents.findRun runId = some row ∧ r'.contents.findRun runId = some row' ∧
      validateTransition row.status (update.target row) = .ok () ∧
      (update.apply now (update.target row) row).SameRun row' := by
  have happend : Asterism.appendEvent input runId event (some update) r = .ok (outcome, r') :=
    exec_ok h
  obtain ⟨row, hrow, _⟩ := appendEvent_ok happend
  obtain ⟨_, row', hrow', ⟨hnone, _⟩ | ⟨u, now, hu, hvalid, hsame⟩⟩ :=
    appendEvent_row hkey happend hrow
  · cases hnone
  · obtain rfl := Option.some.inj hu
    exact ⟨row, row', now, hrow, hrow', hvalid, hsame⟩

end Asterism
