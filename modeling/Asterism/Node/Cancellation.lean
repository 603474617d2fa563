import Asterism.Node.Families

/-!
# Cancelling a run while it is being submitted

A run without a backend id is cancelled in the registry alone. A worker that submits the
run at the same time can then start it in the backend and fail to record it. This file
shows that the write of a cancellation that finds the run starting is the only way to
lose a submission, whatever else the Node does meanwhile.
-/

namespace Asterism

open Process

/-- A submission of this run is not lost: its backend id is stored, or it is still starting, or
it has ended, but not by being cancelled. -/
def RunRow.Accounted (row : RunRow) : Prop :=
  row.hermesRunId ≠ none ∨ row.status = .starting ∨
    (row.status.isTerminal = true ∧ row.status ≠ .cancelled)

/-- A state change that cannot lose a submission. -/
def RunUpdate.Harmless (update : RunUpdate) (row : RunRow) : Prop :=
  update.hermesRunId ≠ none ∨ row.hermesRunId ≠ none ∨ row.status ≠ .starting ∨
    ∀ status, update.status = some status →
      status = .starting ∨ (status.isTerminal = true ∧ status ≠ .cancelled)

namespace RunRow.Accounted

variable {row row' : RunRow}

theorem sameRun (h : row.Accounted) (hsame : row.SameRun row') : row'.Accounted := by
  unfold RunRow.Accounted at h ⊢
  rw [hsame.hermesRunId_eq, hsame.status_eq]
  exact h

theorem apply (h : row.Accounted) {update : RunUpdate} (hharmless : update.Harmless row) (now : ℤ)
    (hvalid : validateTransition row.status (update.target row) = .ok ()) :
    (update.apply now (update.target row) row).Accounted := by
  -- A backend id that is stored or carried is stored afterwards.
  have hid (hid : update.hermesRunId ≠ none ∨ row.hermesRunId ≠ none) :
      (update.apply now (update.target row) row).Accounted := by
    refine Or.inl ?_
    simp only [RunUpdate.apply, ne_eq, Option.or_eq_none_iff, not_and_or]
    exact hid
  rcases h with h | h | ⟨hterminal, hstatus⟩
  · exact hid (Or.inr h)
  · rcases hharmless with hupdate | hrow | hne | hstatus
    · exact hid (Or.inl hupdate)
    · exact hid (Or.inr hrow)
    · exact absurd h hne
    · cases htarget : update.status with
      | none =>
        refine Or.inr (Or.inl ?_)
        simp only [RunUpdate.apply, RunUpdate.target, htarget, Option.getD_none, h]
      | some status =>
        have hcases := hstatus status htarget
        refine Or.inr ?_
        simpa only [RunUpdate.apply, RunUpdate.target, htarget, Option.getD_some] using hcases
  · have hsame := eq_of_validateTransition hterminal hvalid
    refine Or.inr (Or.inr ?_)
    simp only [RunUpdate.apply, hsame]
    exact ⟨hterminal, hstatus⟩

end RunRow.Accounted

/-- The backend id of the run is stored. -/
def World.Submitted (runId : String) (w : World) : Prop :=
  ∃ row, w.registry.contents.findRun runId = some row ∧ row.hermesRunId ≠ none

/-- A submission of the run is not lost. -/
def World.Accounted (runId : String) (w : World) : Prop :=
  ∃ row, w.registry.contents.findRun runId = some row ∧ row.Accounted

/-- The run a call cancels in the registry. -/
def NodeCall.cancels {α : Type} : NodeCall α → Option String
  | registry (.updateRun runId update) =>
    if update.status = some .cancelled then some runId else none
  | _ => none

/-- The run a call submitted, and the backend's id for it. -/
def startedRun : Event NodeCall → Option (String × String)
  | ⟨_, .startRun _ runId _, .ok response⟩ => some (runId, response.runId)
  | _ => none

/-- The contract of the Node's procedures about one run. A cancellation finds it not starting,
and then no call loses a submission, and a submission is made only if it is not lost. -/
def submissionContract (runId : String) : Contract NodeCall NodeInput World where
  admits request _ s := request.cancels = some runId → s.runStatus runId ≠ some .starting
  rely s t := (s.Submitted runId → t.Submitted runId) ∧ (s.Accounted runId → t.Accounted runId)
  rely_refl _ := ⟨id, id⟩
  rely_trans hst htu := ⟨fun h => htu.1 (hst.1 h), fun h => htu.2 (hst.2 h)⟩
  guarantee request answer s t :=
    ((s.Submitted runId → t.Submitted runId) ∧ (s.Accounted runId → t.Accounted runId)) ∧
      ∀ id, startedRun ⟨_, request, answer⟩ = some (runId, id) → s.Accounted runId

section Calls

variable {runId : String} {w : World}

theorem NodeCall.exec_submitted {α : Type} (call : NodeCall α) (input : NodeInput)
    (h : w.Submitted runId) : (call.exec input w).2.Submitted runId := by
  obtain ⟨row, hrow, hid⟩ := h
  obtain ⟨row', hrow', hsame | ⟨update, now, _, _, hsame⟩⟩ := call.exec_findRun input hrow
  · exact ⟨row', hrow', by rw [hsame.hermesRunId_eq]; exact hid⟩
  · refine ⟨row', hrow', ?_⟩
    rw [hsame.hermesRunId_eq]
    simp only [RunUpdate.apply, ne_eq, Option.or_eq_none_iff, not_and_or]
    exact Or.inr hid

theorem NodeCall.exec_accounted {α : Type} (call : NodeCall α) (input : NodeInput)
    (hharmless : ∀ update row, call.carriedUpdate = some (runId, update) →
      w.registry.contents.findRun runId = some row → update.Harmless row)
    (h : w.Accounted runId) : (call.exec input w).2.Accounted runId := by
  obtain ⟨row, hrow, haccounted⟩ := h
  obtain ⟨row', hrow', hsame | ⟨update, now, hcarried, hvalid, hsame⟩⟩ :=
    call.exec_findRun input hrow
  · exact ⟨row', hrow', haccounted.sameRun hsame⟩
  · have happlied := haccounted.apply (hharmless update row hcarried hrow) now hvalid
    exact ⟨row', hrow', happlied.sameRun hsame⟩

theorem startedRun_eq_none {α : Type} {call : NodeCall α} {answer : α}
    (hkind : call.kind ≠ .submit) : startedRun ⟨α, call, answer⟩ = none := by
  cases call with
  | startRun => exact absurd rfl hkind
  | _ => rfl

theorem startedRun_runId {client : HermesClient} {target : String} {request : StartRunRequest}
    {answer : Except String StartRunResponse} {id : String}
    (h : startedRun ⟨_, .startRun client target request, answer⟩ = some (runId, id)) :
    target = runId := by
  cases answer with
  | error message => cases h
  | ok response => exact (Prod.mk.inj (Option.some.inj h)).1

theorem guarantee_of_harmless (runId : String) (w : World) {α : Type} (call : NodeCall α)
    (input : NodeInput) (hkind : call.kind ≠ .submit)
    (hharmless : ∀ update row, call.carriedUpdate = some (runId, update) →
      w.registry.contents.findRun runId = some row → update.Harmless row) :
    (submissionContract runId).guarantee call (call.exec input w).1 w (call.exec input w).2 := by
  refine ⟨⟨call.exec_submitted input, call.exec_accounted input hharmless⟩, fun id hstarted => ?_⟩
  rw [startedRun_eq_none hkind] at hstarted
  cases hstarted

theorem guarantee_of_kind (runId : String) (w : World) {α : Type} (call : NodeCall α)
    (input : NodeInput) (hchange : call.kind ≠ .change) (hsubmit : call.kind ≠ .submit) :
    (submissionContract runId).guarantee call (call.exec input w).1 w (call.exec input w).2 := by
  refine guarantee_of_harmless runId w call input hsubmit fun update row hcarried => ?_
  rw [NodeCall.carriedUpdate_eq_none hchange] at hcarried
  cases hcarried

end Calls

section Procedures

variable {runId : String} {P : World → Prop}
  (hstable : ∀ s t, P s → (submissionContract runId).rely s t → P t)

/-- The procedures that keep the contract and a property the others cannot break. -/
abbrev submissionFamily (runId : String) (P : World → Prop) : Family NodeCall :=
  .keeping (submissionContract runId) nodeMachine P

include hstable

theorem hasKind_submission (kind : CallKind) (hchange : kind ≠ .change) (hsubmit : kind ≠ .submit) :
    HasKind (submissionFamily runId P) kind := by
  rintro β call rfl s hs t hst input _
  have hguarantee := guarantee_of_kind runId t call input hchange hsubmit
  exact ⟨hguarantee, hstable t _ (hstable s t hs hst) hguarantee.1⟩

theorem append_submission {target : String} {update : RunUpdate}
    (hharmless : target = runId → ∀ s row, P s → s.registry.contents.findRun runId = some row →
      update.Harmless row) (event : JournalEvent) :
    (submissionFamily runId P).Holds
      (Program.perform (NodeCall.registry (.appendEvent target event (some update)))) := by
  intro s hs t hst input _
  have ht := hstable s t hs hst
  have hguarantee := guarantee_of_harmless runId t
    (NodeCall.registry (.appendEvent target event (some update))) input nofun
    fun update' row hcarried hrow => by
      obtain ⟨rfl, rfl⟩ := Prod.mk.inj (Option.some.inj hcarried)
      exact hharmless rfl t row ht hrow
  exact ⟨hguarantee, hstable t _ ht hguarantee.1⟩

end Procedures

theorem submitted_stable (target runId : String) (s t : World)
    (hs : target = runId → s.Submitted runId) (hst : (submissionContract runId).rely s t) :
    target = runId → t.Submitted runId :=
  fun heq => hst.1 (hs heq)

theorem appends_submitted (target runId : String) :
    Appends (submissionFamily runId fun s => target = runId → s.Submitted runId) target := by
  refine fun event update => append_submission (submitted_stable target runId)
    (fun heq s row hs hrow => ?_) event
  obtain ⟨stored, hstored, hid⟩ := hs heq
  obtain rfl := Option.some.inj (hrow.symm.trans hstored)
  exact Or.inr (Or.inl hid)

theorem followToTerminal_submission (runId : String) (context : WorkerContext)
    (client : HermesClient) (hermesRunId : String) :
    (submissionFamily runId fun s => context.runId = runId → s.Submitted runId).Holds
      (followToTerminal context client hermesRunId).run := by
  have hkind := hasKind_submission (submitted_stable context.runId runId)
  have hquiet := hkind .quiet (by decide) (by decide)
  exact followToTerminal_mem hquiet (appends_submitted _ _)
    (requestApproval_mem hquiet (hkind .claim (by decide) (by decide))
      (hkind .forward (by decide) (by decide)) context) client hermesRunId

theorem resumeRun_submission (runId : String) (context : WorkerContext) (client : HermesClient)
    (run : RunRecord) (hermesRunId : String) :
    (submissionFamily runId fun s => context.runId = runId → s.Submitted runId).Holds
      (resumeRun context client run hermesRunId).run := by
  have hquiet := hasKind_submission (submitted_stable context.runId runId) .quiet (by decide)
    (by decide)
  refine Family.attempt_bind _ (hquiet.act rfl) fun _ => ?_
  exact followToTerminal_submission runId context client hermesRunId

theorem true_stable (runId : String) (s t : World) (_ : True)
    (_ : (submissionContract runId).rely s t) : True :=
  trivial

theorem finalize_submission (runId target : String) {update : RunUpdate}
    (hfailed : update.status = some .failed) (status : RunStatus)
    (fields : List (String × Value)) :
    (submissionFamily runId fun _ => True).Holds (finalize target status update fields).run := by
  have hquiet := hasKind_submission (true_stable runId) .quiet (by decide) (by decide)
  refine finalize_mem hquiet (append_submission (true_stable runId) fun _ _ row _ _ => ?_) _ _
  refine Or.inr (Or.inr (Or.inr fun status hstatus => Or.inr ?_))
  obtain rfl := Option.some.inj (hfailed.symm.trans hstatus)
  exact ⟨rfl, by decide⟩

/-- The run is what this state change makes of a run. -/
def World.Updated (runId : String) (update : RunUpdate) (w : World) : Prop :=
  ∃ row row' now, w.registry.contents.findRun runId = some row' ∧
    (update.apply now (update.target row) row).SameRun row'

/-- An event with a harmless state change keeps the contract and performs the change. -/
theorem appendAsterism_submission {runId target : String} {update : RunUpdate}
    (hharmless : ∀ row, update.Harmless row) (eventType : String)
    (fields : List (String × Value)) (w : World) :
    (appendAsterism target eventType fields (some update)).run.Meets (submissionContract runId)
      nodeMachine (Attempt.onOk fun _ t => target = runId → t.Updated runId update) w := by
  refine Act.meets_registry fun t _ input _ => ⟨?_, fun outcome r' hexec => ?_⟩
  · refine guarantee_of_harmless runId t
      (NodeCall.registry (.appendEvent target _ (some update))) input nofun
      fun update' row hcarried _ => ?_
    obtain ⟨rfl, rfl⟩ := Prod.mk.inj (Option.some.inj hcarried)
    exact hharmless row
  · rintro rfl
    obtain ⟨row, row', now, _, hrow', _, hsame⟩ := RegistryCall.exec_appendEvent rfl hexec
    exact ⟨row, row', now, hrow', hsame⟩

theorem submitRun_submission (runId : String) (context : WorkerContext) (client : HermesClient)
    (run : RunRecord) (w : World) :
    (submitRun context client run).run.Meets (submissionContract runId) nodeMachine
      (Attempt.onOk fun _ _ => True) w := by
  let K := submissionFamily runId fun s => context.runId = runId → s.Accounted runId
  let L := submissionFamily runId fun s => context.runId = runId → s.Submitted runId
  have hK : HasKind K .quiet :=
    hasKind_submission (fun s t hs hst heq => hst.2 (hs heq)) .quiet (by decide) (by decide)
  have hL : HasKind L .quiet :=
    hasKind_submission (submitted_stable context.runId runId) .quiet (by decide) (by decide)
  -- The run is starting once it is accepted.
  have haccept (row : RunRow) : (RunUpdate.ofStatus .starting).Harmless row :=
    Or.inr (Or.inr (Or.inr fun status hstatus => Or.inl (Option.some.inj hstatus).symm))
  refine Attempt.meets_bind (appendAsterism_submission haccept _ _ w) fun _ t ht => ?_
  have haccounted : context.runId = runId → t.Accounted runId := by
    intro heq
    obtain ⟨row, row', now, hrow', hsame⟩ := ht heq
    exact ⟨row', hrow', RunRow.Accounted.sameRun (Or.inr (Or.inl rfl)) hsame⟩
  refine Attempt.meets_bind (Family.onOk_of_keeping (K.mapError (K.pure _)) haccounted)
    fun input t ht => ?_
  refine Attempt.meets_bind (Family.onOk_of_keeping (conversationHistory_mem hK _ _) ht)
    fun history t ht => ?_
  have hstart (request : StartRunRequest) : (Attempt.ask (.startRun client context.runId request) :
      Act (Except String StartRunResponse)).run.Meets (submissionContract runId) nodeMachine
        (Attempt.onOk fun _ _ => True) t := by
    intro u htu input _
    refine ⟨⟨⟨id, id⟩, fun id hstarted => ?_⟩, trivial⟩
    exact htu.2 (ht (startedRun_runId hstarted))
  refine Attempt.meets_bind (hstart _) fun response t _ => ?_
  cases response with
  | error message =>
    have hT := hasKind_submission (true_stable runId) .quiet (by decide) (by decide)
    refine Attempt.meets_bind (Family.onOk_of_keeping (hT.attempt rfl) trivial) fun _ t _ => ?_
    exact Family.onOk_of_keeping (finalize_submission runId _ rfl _ _) trivial
  | ok response =>
    have hsubmit (row : RunRow) :
        ((RunUpdate.ofStatus .running).withHermesRunId response.runId).Harmless row :=
      Or.inl nofun
    refine Attempt.meets_bind (appendAsterism_submission hsubmit _ _ t) fun _ t ht => ?_
    have hsubmitted : context.runId = runId → t.Submitted runId := by
      intro heq
      obtain ⟨row, row', now, hrow', hsame⟩ := ht heq
      exact ⟨row', hrow', by rw [hsame.hermesRunId_eq]; exact nofun⟩
    refine Attempt.meets_bind (Family.onOk_of_keeping (hL.ask rfl) hsubmitted) fun now t ht => ?_
    refine Attempt.meets_bind (Family.onOk_of_keeping (hL.attempt rfl) ht) fun _ t ht => ?_
    refine (followToTerminal_submission runId context client response.runId t ht).mono ?_
    exact fun result t _ => Attempt.onOk_true result t

/-- Executing a run that was read keeps the contract, if a backend id it was read with is
stored. -/
theorem executeLoaded_submission (runId : String) (context : WorkerContext) (run : RunRecord)
    (w : World)
    (hread : run.hermesRunId ≠ none → context.runId = runId → w.Submitted runId) :
    (executeLoaded context run).run.Meets (submissionContract runId) nodeMachine
      (Attempt.onOk fun _ _ => True) w := by
  have hrefuse (message : String) (t : World) : (refuse context message).run.Meets
      (submissionContract runId) nodeMachine (Attempt.onOk fun _ _ => True) t :=
    Family.onOk_of_keeping (finalize_submission runId _ rfl _ _) trivial
  let K := submissionFamily runId fun s =>
    run.hermesRunId ≠ none → context.runId = runId → s.Submitted runId
  have hK : HasKind K .quiet := hasKind_submission
    (fun s t hs hst hid heq => hst.1 (hs hid heq)) .quiet (by decide) (by decide)
  refine Attempt.meets_bind (Family.onOk_of_keeping (K.observe (hK.attempt rfl)) hread)
    fun lock t ht => ?_
  cases lock with
  | error error => exact hrefuse _ t
  | ok _ =>
    generalize HermesClient.new context.baseUrl context.apiKey = opened
    refine Attempt.meets_bind (Family.onOk_of_keeping (K.mapError (K.pure opened)) ht)
      fun client t ht => ?_
    refine Attempt.meets_bind (Family.onOk_of_keeping (recordedConflict_mem hK _ _) ht)
      fun conflict t ht => ?_
    cases conflict with
    | some conflict => exact hrefuse _ t
    | none =>
      cases hid : run.hermesRunId with
      | some hermesRunId =>
        have hsubmitted : context.runId = runId → t.Submitted runId :=
          ht (by rw [hid]; exact nofun)
        refine (resumeRun_submission runId context client run hermesRunId t hsubmitted).mono ?_
        exact fun result t _ => Attempt.onOk_true result t
      | none => exact submitRun_submission runId context client run t

theorem executeRun_submission (runId : String) (context : WorkerContext) :
    (submissionFamily runId fun _ => True).Holds (executeRun context).run := by
  have hread (w : World) : (Act.registry (.run context.runId)).run.Meets
      (submissionContract runId) nodeMachine (Attempt.onOk fun found t => ∀ run, found = some run →
        run.hermesRunId ≠ none → context.runId = runId → t.Submitted runId) w := by
    refine Act.meets_registry fun t _ input _ => ⟨?_, fun found r' hexec => ?_⟩
    · exact guarantee_of_kind runId t (NodeCall.registry (.run context.runId)) input nofun nofun
    · obtain ⟨rfl, rfl⟩ := RegistryCall.exec_run hexec
      rintro run hrun hid rfl
      obtain ⟨row, hrow, rfl⟩ := Option.map_eq_some_iff.mp hrun
      exact ⟨row, hrow, hid⟩
  intro w _
  have hexecute : (executeRun context).run.Meets (submissionContract runId) nodeMachine
      (Attempt.onOk fun _ _ => True) w := by
    refine Attempt.meets_bind (hread w) fun found t ht => ?_
    cases found with
    | none => trivial
    | some run => exact executeLoaded_submission runId context run t (ht run rfl)
  exact hexecute.mono fun _ _ _ => trivial

/-- A cancellation that finds the run not starting keeps the contract. -/
theorem cancelRun_submission (runId projectId target : String) :
    (submissionFamily runId fun _ => True).Holds (NodeService.cancelRun projectId target).run := by
  have hkind := hasKind_submission (true_stable runId)
  refine NodeService.cancelRun_mem (hkind .quiet (by decide) (by decide))
    (hkind .stop (by decide) (by decide)) (fun written reason s _ t _ input hadmits => ?_) _ _
  refine ⟨guarantee_of_harmless runId t (NodeCall.registry (.updateRun written _)) input nofun
    fun update row hcarried hrow => ?_, trivial⟩
  obtain ⟨rfl, rfl⟩ := Prod.mk.inj (Option.some.inj hcarried)
  refine Or.inr (Or.inr (Or.inl fun hstarting => hadmits rfl ?_))
  rw [World.runStatus, hrow, Option.map_some, hstarting]

/-- A run the backend does not know is reconciled to an ending that loses nothing. -/
theorem reconciledUpdate_harmless (current : RunStatus) (events : ℕ) (row : RunRow) :
    (reconciledUpdate (reconcileDecision current none events).1
      (reconcileDecision current none events).2).Harmless row := by
  refine Or.inr (Or.inr (Or.inr fun status hstatus => Or.inr ?_))
  rw [reconciledUpdate_status] at hstatus
  obtain rfl := Option.some.inj hstatus
  simp only [reconcileDecision]
  split_ifs <;> decide

section Reconciling

variable {runId : String} {P : World → Prop}
  (hstable : ∀ s t, P s → (submissionContract runId).rely s t → P t)

include hstable

/-- Reconciling a run keeps the contract, if a backend id it was listed with is stored. -/
theorem reconcileRun_submission (client : HermesClient) {run : RunRecord}
    (hlisted : ∀ s, P s → run.hermesRunId ≠ none → run.runId = runId → s.Submitted runId) :
    (submissionFamily runId P).Holds (reconcileRun client run).run := by
  cases hid : run.hermesRunId with
  | some hermesRunId =>
    refine reconcileRun_mem (hasKind_submission hstable .quiet (by decide) (by decide)) client
      fun event update => append_submission hstable (fun heq s row hs hrow => ?_) event
    obtain ⟨stored, hstored, hsubmitted⟩ := hlisted s hs (by rw [hid]; exact nofun) heq
    obtain rfl := Option.some.inj (hrow.symm.trans hstored)
    exact Or.inr (Or.inl hsubmitted)
  | none =>
    have hparked : ¬Parked run := by
      rintro ⟨hsome, -⟩
      rw [hid] at hsome
      cases hsome
    have hpark : parkRun run = return () := if_neg hparked
    have hbackend : backendStatus client run = return none := by
      simp only [backendStatus, hid]
    rw [reconcileRun, hpark, hbackend]
    -- The backend is not asked, so the decision is known.
    refine Family.attempt_bind _ (Family.pure _ _) fun _ => ?_
    show (submissionFamily runId P).Holds (ite _ _ _ : Act (Option Reconciliation)).run
    split
    · exact Family.pure _ _
    · refine Family.attempt_bind _ (Family.mapError _ ?_) fun _ => Family.pure _ _
      exact append_submission hstable
        (fun _ _ row _ _ => reconciledUpdate_harmless run.status run.lastEventSeq row) _

theorem reconcileRuns_submission (client : HermesClient) {runs : List RunRecord}
    (hlisted : ∀ run ∈ runs, ∀ s, P s → run.hermesRunId ≠ none → run.runId = runId →
      s.Submitted runId) :
    (submissionFamily runId P).Holds (reconcileRuns client runs).run := by
  induction runs with
  | nil => exact Family.pure _ _
  | cons run runs ih =>
    obtain ⟨hrun, hruns⟩ := List.forall_mem_cons.mp hlisted
    refine Family.attempt_bind _ (reconcileRun_submission hstable client hrun) fun _ => ?_
    exact Family.attempt_bind _ (ih hruns) fun _ => Family.pure _ _

end Reconciling

theorem reconcileProject_submission (runId projectId : String) (client : HermesClient) :
    (submissionFamily runId fun _ => True).Holds (reconcileProject projectId client).run := by
  have hquiet := hasKind_submission (true_stable runId) .quiet (by decide) (by decide)
  have hlist (w : World) : (Act.registry (.activeRuns projectId)).run.Meets
      (submissionContract runId) nodeMachine (Attempt.onOk fun runs t => ∀ run ∈ runs,
        run.hermesRunId ≠ none → run.runId = runId → t.Submitted runId) w := by
    refine Act.meets_registry fun t _ input _ => ⟨?_, fun runs r' hexec => ?_⟩
    · exact guarantee_of_kind runId t (NodeCall.registry (.activeRuns projectId)) input nofun nofun
    · obtain ⟨rfl, hruns⟩ := RegistryCall.exec_activeRuns hexec
      rintro run hrun hid rfl
      obtain ⟨row, hrow, rfl⟩ := hruns run hrun
      exact ⟨row, hrow, hid⟩
  refine Family.attempt_bind _ (Family.observe _ (hquiet.attempt rfl)) fun lock => ?_
  cases lock with
  | error _ => exact Family.pure _ _
  | ok _ =>
    intro w _
    have hpass : (do
        let runs ← Act.registry (.activeRuns projectId)
        reconcileListed projectId client runs : Act (List Reconciliation)).run.Meets
          (submissionContract runId) nodeMachine (Attempt.onOk fun _ _ => True) w := by
      refine Attempt.meets_bind (hlist w) fun runs t ht => ?_
      let K := submissionFamily runId fun s => ∀ run ∈ runs,
        run.hermesRunId ≠ none → run.runId = runId → s.Submitted runId
      have hstable (s t : World)
          (hs : ∀ run ∈ runs, run.hermesRunId ≠ none → run.runId = runId → s.Submitted runId)
          (hst : (submissionContract runId).rely s t) :
          ∀ run ∈ runs, run.hermesRunId ≠ none → run.runId = runId → t.Submitted runId :=
        fun run hrun hid heq => hst.1 (hs run hrun hid heq)
      have hK : K.Holds (reconcileListed projectId client runs).run := by
        refine K.attempt_bind (reconcileRuns_submission hstable client
          fun run hrun s hs => hs run hrun) fun _ => ?_
        have hclear := hasKind_submission hstable .quiet (by decide) (by decide)
        exact K.attempt_bind (hclear.attempt rfl) fun _ => K.pure _
      exact (hK t ht).mono fun result t _ => Attempt.onOk_true result t
    exact hpass.mono fun _ _ _ => trivial

theorem hasProcedures_submission (runId : String) :
    HasProcedures (submissionFamily runId fun _ => True) := by
  have hkind := hasKind_submission (true_stable runId)
  have hquiet := hkind .quiet (by decide) (by decide)
  have hcreate := hkind .create (by decide) (by decide)
  exact
    { quiet := hquiet
      create := fun request _ => hcreate _ rfl
      execute := executeRun_submission runId
      retry := NodeService.retryRun_mem hquiet (executeRun_submission runId) hcreate
      cancel := cancelRun_submission runId
      resolve := NodeService.resolveApproval_mem hquiet (hkind .claim (by decide) (by decide))
        (hkind .forward (by decide) (by decide))
      reconcile := reconcileProject_submission runId }

/-- The backend run a call stopped. -/
def stoppedRun : Event NodeCall → Option String
  | ⟨_, .stopRun _ hermesRunId, .ok _⟩ => some hermesRunId
  | _ => none

/-- If the run is recorded as cancelled without a backend id, every backend run that was started
for it has been stopped. -/
def NoOrphan (runId : String) (pool : Pool NodeCall NodeTask World) : Prop :=
  ∀ row, pool.state.registry.contents.findRun runId = some row → row.status = .cancelled →
    row.hermesRunId = none → ∀ t ∈ pool.threads, ∀ e ∈ t.done, ∀ hermesRunId,
      startedRun e = some (runId, hermesRunId) →
        ∃ stopper ∈ pool.threads, ∃ e ∈ stopper.done, stoppedRun e = some hermesRunId

/-- Whatever the Node does, in whatever order: if no cancellation is written while the run is
starting, a run recorded as cancelled without a backend id has no run in the backend. -/
theorem play_noOrphan (config : NodeConfig) (w : World) (runId : String)
    (script : List (Action NodeInput NodeTask))
    (hscript : (idleNode w).AllAdmissible (node config)
      (fun request _ s => request.cancels = some runId → s.runStatus runId ≠ some .starting)
      script) :
    NoOrphan runId ((idleNode w).play (node config) script) := by
  have hprocedures := hasProcedures_submission runId
  have hkind := hasKind_submission (true_stable runId)
  have hreport := hkind .report (by decide) (by decide)
  have hstart (task : NodeTask) (s : World) : ((node config).start task).Meets
      (submissionContract runId) (node config).machine (fun _ _ => True) s :=
    NodeTask.program_mem hprocedures hreport config (ControlChannel.handleCommand_mem hprocedures
      (hkind .admission (by decide) (by decide)) (hkind .execute (by decide) (by decide)) hreport
      config) task s trivial
  have hidle : (idleNode w).Keeps (node config) (submissionContract runId) w :=
    ⟨⟨id, id⟩, fun _ h => absurd h List.not_mem_nil, fun _ h => absurd h List.not_mem_nil⟩
  have hkeeps := Pool.play_meets hidle (fun _ _ _ _ h => h.1)
    (fun task s _ => hstart task s) hscript
  intro row hrow hcancelled hnone t ht e he hermesRunId hstarted
  obtain ⟨before, after, ⟨hstep, hsubmission⟩, _, hafter⟩ := hkeeps.done t ht e he
  obtain ⟨stored, hstored, haccounted⟩ := hafter.2 (hstep.2 (hsubmission hermesRunId hstarted))
  obtain rfl := Option.some.inj (hrow.symm.trans hstored)
  rcases haccounted with hid | hstarting | ⟨_, hother⟩
  · exact absurd hnone hid
  · rw [hcancelled] at hstarting
    cases hstarting
  · exact absurd hcancelled hother

/-- A Node with one run that has not been started. -/
def createdWorld : World :=
  let request : NewRun := ⟨"project", none, none, "hermes-loop", none, none,
    Value.obj [("input", .string "build")], none⟩
  { World.initial with
    registry := Registry.empty.play [⟨.createRun request, ⟨fun _ => 0, "arun_1", true⟩⟩] }

def createdContext : WorkerContext :=
  ⟨"project", "arun_1", "http://127.0.0.1:8642", "0123456789abcdef", ⟨0, 0⟩, 0⟩

/-- The run is cancelled after it was accepted, and then submitted. -/
def cancelledWhileStarting : List (Action NodeInput NodeTask) :=
  .arrive (.executeRun createdContext) :: List.replicate 4 (.step 0 {}) ++
    .arrive (.cancelRun "project" "arun_1") :: List.replicate 4 (.step 1 {}) ++
    [.step 0 { start := .ok ⟨"h1", "running"⟩ }, .step 0 {}]

/-- The backend has started the run, both procedures have returned, and the run is recorded as
cancelled without the backend's id and was never stopped. -/
theorem cancelRun_orphans_submission :
    let pool := (idleNode createdWorld).play (node ⟨⟨0, 0⟩, 0, id⟩) cancelledWhileStarting
    (pool.state.registry.contents.findRun "arun_1").map
        (fun row => (row.status, row.hermesRunId)) = some (.cancelled, none) ∧
      pool.observed startedRun = [[("arun_1", "h1")], []] ∧ pool.observed stoppedRun = [[], []] ∧
      (pool.nextCall 0).isNone ∧ (pool.nextCall 1).isNone ∧ ¬NoOrphan "arun_1" pool := by
  intro pool
  have hrow : (pool.state.registry.contents.findRun "arun_1").map
      (fun row => (row.status, row.hermesRunId)) = some (.cancelled, none) := by decide +kernel
  have hstarted : pool.observed startedRun = [[("arun_1", "h1")], []] := by decide +kernel
  have hstopped : pool.observed stoppedRun = [[], []] := by decide +kernel
  refine ⟨hrow, hstarted, hstopped, by decide +kernel, by decide +kernel, fun hnone => ?_⟩
  clear_value pool
  obtain ⟨row, hfound, hparts⟩ := Option.map_eq_some_iff.mp hrow
  obtain ⟨hcancelled, hid⟩ := Prod.mk.inj hparts
  obtain ⟨t, ht, e, he, hstart⟩ := Pool.exists_of_observed (x := ("arun_1", "h1"))
    (hstarted ▸ List.mem_cons_self) List.mem_cons_self
  obtain ⟨stopper, hstopper, stop, hstop, heq⟩ :=
    hnone row hfound hcancelled hid t ht e he "h1" hstart
  obtain ⟨seen, hseen, hmem⟩ := Pool.mem_observed hstopper hstop heq
  rw [hstopped] at hseen
  simp only [List.mem_cons, List.not_mem_nil, or_false, or_self] at hseen
  rw [hseen] at hmem
  cases hmem

def cancelledWhileCreated : List (Action NodeInput NodeTask) :=
  .arrive (.executeRun createdContext) :: List.replicate 3 (.step 0 {}) ++
    .arrive (.cancelRun "project" "arun_1") :: List.replicate 4 (.step 1 {}) ++
    [.step 0 {}, .step 0 { start := .ok ⟨"h1", "running"⟩ }]

/-- Such a run is recorded as cancelled and never submitted. -/
theorem cancelledWhileCreated_noOrphan :
    let pool := (idleNode createdWorld).play (node ⟨⟨0, 0⟩, 0, id⟩) cancelledWhileCreated
    pool.state.runStatus "arun_1" = some .cancelled ∧ NoOrphan "arun_1" pool := by
  intro pool
  refine ⟨by decide +kernel, ?_⟩
  exact play_noOrphan _ createdWorld "arun_1" cancelledWhileCreated (by decide +kernel)

end Asterism
