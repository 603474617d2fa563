import Asterism.Node.Families

/-!
# Decisions and commands at most once

The policy of a run and an operator race for an approval request. Each claims the decision in
the registry before it forwards one. A command is executed only by the delivery that recorded
it. Both hold for every interleaving, and across lost sessions and crashes.
-/

namespace Asterism

open Process

/-- How often a call claims the decision of a request. -/
def claims (runId : String) (requestSeq : ℕ) : Event NodeCall → ℕ
  | ⟨_, .registry (.recordApprovalDecision run seq _), .ok true⟩ =>
    if run = runId ∧ seq = requestSeq then 1 else 0
  | _ => 0

/-- How often a call forwards a decision of a request. -/
def forwards (runId : String) (requestSeq : ℕ) : Event NodeCall → ℕ
  | ⟨_, .resolveApproval _ _ _ _ run seq, _⟩ => if run = runId ∧ seq = requestSeq then 1 else 0
  | _ => 0

section Forwarding

variable (runId : String) (requestSeq : ℕ)

theorem hasKind_forwards (kind : CallKind) (hkind : kind ≠ .forward) :
    HasKind (Family.funded (claims runId requestSeq) (forwards runId requestSeq)) kind := by
  intro β call hcall answer
  have hzero : forwards runId requestSeq ⟨β, call, answer⟩ = 0 := by
    cases call with
    | resolveApproval => exact absurd hcall.symm hkind
    | _ => rfl
  exact ⟨by rw [hzero]; exact Nat.zero_le _, trivial⟩

def forwardPrice (run : String) (seq : ℕ) : ℕ := if run = runId ∧ seq = requestSeq then 1 else 0

/-- A claimed decision earns what it costs to forward it. -/
theorem claim_funded (run : String) (seq : ℕ) (decision : String) :
    (Act.registry (.recordApprovalDecision run seq decision)).run.Funded
      (claims runId requestSeq) (forwards runId requestSeq)
      (Attempt.okLeft fun claimed left =>
        claimed = true → forwardPrice runId requestSeq run seq ≤ left) 0 := by
  intro answer
  refine ⟨Nat.zero_le _, ?_⟩
  cases answer with
  | error e => trivial
  | ok claimed =>
    rintro rfl
    exact Nat.le_add_left _ 0

/-- A task that forwards the decision may be started once the decision is claimed. -/
theorem claim_spawn_funded (run : String) (seq : ℕ) (decision : String)
    {task : Program NodeCall Unit}
    (htask : ∀ {credit : ℕ}, forwardPrice runId requestSeq run seq ≤ credit →
      task.Funded (claims runId requestSeq) (forwards runId requestSeq) (fun _ _ => True) credit) :
    (Family.funded (claims runId requestSeq) (forwards runId requestSeq)).Holds
      (do if ← Act.registry (.recordApprovalDecision run seq decision) then
            Attempt.spawn task : Act Unit).run := by
  refine Family.funded_of_okLeft ?_
  refine Attempt.funded_bind (claim_funded runId requestSeq run seq decision)
    fun claimed left hclaimed => ?_
  split
  · rename_i htrue
    exact ⟨left, 0, Nat.le_refl left, htask (hclaimed htrue), trivial⟩
  · trivial

theorem autoResolution_funded (context : WorkerContext) (hermesRunId : String) (seq : ℕ)
    (enabledBy : Option String) {credit : ℕ}
    (hcredit : forwardPrice runId requestSeq context.runId seq ≤ credit) :
    (autoResolution context hermesRunId seq enabledBy).Funded (claims runId requestSeq)
      (forwards runId requestSeq) (fun _ _ => True) credit := by
  let K := Family.funded (claims runId requestSeq) (forwards runId requestSeq)
  have hquiet : HasKind K .quiet := hasKind_forwards runId requestSeq .quiet (by decide)
  unfold autoResolution
  split
  · trivial
  · have hrest {p : Program NodeCall Unit} (h : K.Holds p) (left : ℕ) :
        p.Funded (claims runId requestSeq) (forwards runId requestSeq) (fun _ _ => True) left :=
      Program.Funded.more h (Nat.zero_le left)
    refine fun response => ⟨hcredit, hrest ?_ _⟩
    refine K.bind (K.pure response) fun response => ?_
    refine K.bind (hquiet _ rfl) fun appended => ?_
    cases appended with
    | error _ => exact K.pure _
    | ok outcome => exact K.bind (hquiet _ rfl) fun _ => K.pure _

/-- The policy forwards a decision only after it has claimed it. -/
theorem requestApproval_funded (context : WorkerContext) (hermesRunId : String)
    (event : NormalizedEvent) (seq : ℕ) :
    (Family.funded (claims runId requestSeq) (forwards runId requestSeq)).Holds
      (requestApproval context hermesRunId event seq).run := by
  have hquiet := hasKind_forwards runId requestSeq .quiet (by decide)
  refine Family.attempt_bind _ (hquiet.act rfl) fun _ => ?_
  refine Family.attempt_bind _ (hquiet.act rfl) fun state => ?_
  split
  · refine claim_spawn_funded runId requestSeq context.runId seq autoApprovalChoice ?_
    exact @autoResolution_funded runId requestSeq context hermesRunId seq state.enabledBy
  · trivial

/-- An operator's decision is forwarded only after it has been claimed. -/
theorem resolveApproval_funded (projectId run choice : String) :
    (Family.funded (claims runId requestSeq) (forwards runId requestSeq)).Holds
      (NodeService.resolveApproval projectId run choice).run := by
  let K := Family.funded (claims runId requestSeq) (forwards runId requestSeq)
  have hquiet : HasKind K .quiet := hasKind_forwards runId requestSeq .quiet (by decide)
  refine K.attempt_bind (K.pure _) fun _ => ?_
  refine K.attempt_bind (NodeService.clientFor_mem hquiet _) fun client => ?_
  refine K.attempt_bind (loadOwned_mem hquiet _ _) fun record => ?_
  refine K.attempt_bind (hquiet.service rfl) fun pending => ?_
  cases pending with
  | none => exact K.pure _
  | some pending =>
    dsimp only
    split
    · exact K.pure _
    · refine Family.funded_of_okLeft (Attempt.funded_bind
        (Attempt.funded_mapError (claim_funded _ _ _ _ _)) fun claimed left hclaimed => ?_)
      split
      · rename_i htrue
        have hforward (client : HermesClient) (hermesRunId : String) :
            (Attempt.ask (.resolveApproval client hermesRunId choice false record.runId
              pending.requestSeq) : Service (Except String Value)).run.Funded
              (claims runId requestSeq) (forwards runId requestSeq)
              (Attempt.okLeft fun _ _ => True) left :=
          fun _ => ⟨hclaimed htrue, trivial⟩
        refine Attempt.funded_bind (hforward client _) fun response left _ =>
          Family.okLeft_of_funded ?_ left
        refine K.attempt_bind (K.mapError (appendNote_mem hquiet _ _ _)) fun seq => ?_
        refine K.attempt_bind (hquiet.service rfl) fun _ => ?_
        cases response with
        | error message => exact K.pure _
        | ok value => exact K.pure _
      · trivial

/-- Every task of the Node forwards only what was claimed. -/
theorem program_forwards_funded (config : NodeConfig) (task : NodeTask) :
    (task.program config).Funded (claims runId requestSeq) (forwards runId requestSeq)
      (fun _ _ => True) 0 := by
  let K := Family.funded (claims runId requestSeq) (forwards runId requestSeq)
  have hkind (kind : CallKind) (hne : kind ≠ .forward) : HasKind K kind :=
    hasKind_forwards runId requestSeq kind hne
  have hquiet := hkind .quiet (by decide)
  have hcreate := hkind .create (by decide)
  have hchange := hkind .change (by decide)
  have hexecute (context : WorkerContext) : K.Holds (executeRun context).run := by
    have hrequest := requestApproval_funded runId requestSeq context
    exact executeRun_mem hquiet (hchange.appends _) hrequest fun _ _ =>
      submitRun_mem hquiet (hchange.appends _) hrequest fun _ _ => hkind .submit (by decide) _ rfl
  have hprocedures : HasProcedures K :=
    { quiet := hquiet
      create := fun request _ => hcreate _ rfl
      execute := hexecute
      retry := NodeService.retryRun_mem hquiet hexecute hcreate
      cancel := NodeService.cancelRun_mem hquiet (hkind .stop (by decide)) fun _ _ => hchange _ rfl
      resolve := resolveApproval_funded runId requestSeq
      reconcile := reconcileProject_mem hquiet hchange.appends }
  have hcommand := ControlChannel.handleCommand_mem hprocedures (hkind .admission (by decide))
    (hkind .execute (by decide)) (hkind .report (by decide)) config
  exact NodeTask.program_mem hprocedures (hkind .report (by decide)) config hcommand task

end Forwarding

/-- How often the decision of a request can still be claimed. -/
def World.claimable (runId : String) (requestSeq : ℕ) (w : World) : ℕ :=
  if w.registry.contents.Decided runId requestSeq then 0 else 1

theorem NodeCall.exec_claimable (runId : String) (requestSeq : ℕ) {β : Type} (call : NodeCall β)
    (input : NodeInput) (w : World) :
    claims runId requestSeq ⟨β, call, (call.exec input w).1⟩ +
      (call.exec input w).2.claimable runId requestSeq ≤ w.claimable runId requestSeq := by
  have hkept (h : w.registry.contents.Decided runId requestSeq) :
      (call.exec input w).2.registry.contents.Decided runId requestSeq := by
    rcases call.exec_registry input w with heq | ⟨β, op, heq⟩ <;> rw [heq]
    · exact h
    · exact op.exec_decided input.registry h
  have hle : (call.exec input w).2.claimable runId requestSeq ≤ w.claimable runId requestSeq := by
    unfold World.claimable
    by_cases h : w.registry.contents.Decided runId requestSeq
    · rw [if_pos h, if_pos (hkept h)]
    · rw [if_neg h]
      split <;> omega
  cases call with
  | registry op =>
    cases op with
    | recordApprovalDecision run seq decision =>
      cases hexec : (RegistryCall.recordApprovalDecision run seq decision).exec
        input.registry w.registry with
      | mk answer r' =>
        simp only [exec, hexec] at hle ⊢
        cases answer with
        | error e => simpa only [claims, Nat.zero_add] using hle
        | ok claimed =>
          cases claimed with
          | false => simpa only [claims, Nat.zero_add] using hle
          | true =>
            obtain ⟨hopen, hdecided⟩ := RegistryCall.exec_claim hexec
            by_cases hsame : run = runId ∧ seq = requestSeq
            · obtain ⟨rfl, rfl⟩ := hsame
              simp only [claims, World.claimable, if_neg hopen, if_pos hdecided, and_self, if_true]
              omega
            · simpa only [claims, hsame, if_false, Nat.zero_add] using hle
    | _ => exact (Nat.zero_add _).trans_le hle
  | _ => exact (Nat.zero_add _).trans_le hle

/-- Along every script, with replays, reconnects, policies and operators in any order, the
decision of a request is claimed at most once and forwarded at most as often as it is claimed.
A procedure that arrived and did not claim a request itself has forwarded no decision of it. -/
theorem play_decisions_once (config : NodeConfig) (w : World)
    (script : List (Action NodeInput NodeTask)) (runId : String) (requestSeq : ℕ) :
    ((idleNode w).play (node config) script).total (claims runId requestSeq) ≤ 1 ∧
    ((idleNode w).play (node config) script).total (forwards runId requestSeq) ≤
      ((idleNode w).play (node config) script).total (claims runId requestSeq) ∧
    ∀ t ∈ ((idleNode w).play (node config) script).threads, t.origin ≠ none →
      t.weigh (forwards runId requestSeq) ≤ t.weigh (claims runId requestSeq) := by
  have hfunded := program_forwards_funded runId requestSeq config
  refine ⟨?_, ?_, ?_⟩
  · have hclaimed := Pool.total_play_le (node config) (World.claimable runId requestSeq)
      (fun request input s => request.exec_claimable runId requestSeq input s) (idleNode w) script
    have hstart : w.claimable runId requestSeq ≤ 1 := by
      unfold World.claimable
      split <;> omega
    have hempty : (idleNode w).total (claims runId requestSeq) = 0 := rfl
    have hstate : (idleNode w).state = w := rfl
    rw [hempty, hstate] at hclaimed
    omega
  · have hsolvent : (idleNode w).Solvent (claims runId requestSeq) (forwards runId requestSeq) :=
      ⟨[], rfl, fun _ h => absurd h List.not_mem_nil, Nat.le_refl _⟩
    exact Pool.total_spends_le (Y := node config) hsolvent hfunded script
  · exact Pool.weigh_spends_le (Y := node config) (c := idleNode w) rfl hfunded script

/-! ## Commands -/

open Process

/-- How often a call begins to execute a command. -/
def executions (commandId : String) : Event NodeCall → ℕ
  | ⟨_, .executeCommand id, _⟩ => if id = commandId then 1 else 0
  | _ => 0

/-- How often a call records a command as new. -/
def admissions (commandId : String) : Event NodeCall → ℕ
  | ⟨_, .registry (.admitRemoteCommand id _ _ _), .ok (.fresh _)⟩ => if id = commandId then 1 else 0
  | _ => 0

theorem executions_eq_zero {commandId : String} {γ : Type} {request : NodeCall γ} {answer : γ}
    (hkind : request.kind ≠ .execute) : executions commandId ⟨γ, request, answer⟩ = 0 := by
  cases request with
  | executeCommand id => exact absurd rfl hkind
  | _ => rfl

theorem hasKind_executions (commandId : String) (kind : CallKind) (hkind : kind ≠ .execute) :
    HasKind (Family.funded (admissions commandId) (executions commandId)) kind := by
  intro β call hcall answer
  have hzero : executions commandId ⟨β, call, answer⟩ = 0 :=
    executions_eq_zero (by rw [hcall]; exact hkind)
  exact ⟨by rw [hzero]; exact Nat.zero_le _, trivial⟩

theorem hasProcedures_executions (commandId : String) :
    HasProcedures (Family.funded (admissions commandId) (executions commandId)) :=
  .of_kinds fun kind _ hne _ => hasKind_executions commandId kind hne

namespace ControlChannel

def price (commandId : String) (command : RemoteCommand) : ℕ :=
  if command.commandId = commandId then 1 else 0

variable (config : NodeConfig) (commandId : String) (command : RemoteCommand)

theorem admit_funded (digest : String) (credit : ℕ) :
    (Act.registry (.admitRemoteCommand command.commandId command.command command.projectId
      digest)).run.Funded (admissions commandId) (executions commandId)
      (Attempt.okLeft fun admission left =>
        ∀ record, admission = .fresh record → price commandId command ≤ left) credit := by
  intro answer
  refine ⟨Nat.zero_le _, ?_⟩
  cases answer with
  | error e => trivial
  | ok admission =>
    rintro record rfl
    exact Nat.le_add_left _ credit

theorem carryOut_funded {credit : ℕ} (hcredit : price commandId command ≤ credit) :
    (carryOut config command).run.Funded (admissions commandId) (executions commandId)
      (Attempt.okLeft fun _ _ => True) credit := by
  have hprocedures := hasProcedures_executions commandId
  have hrest : (Family.funded (admissions commandId) (executions commandId)).Holds
      (do conclude command (← Attempt.observe (resolveAndDispatch config command)) :
        Act Unit).run :=
    Family.attempt_bind _ (Family.observe _ (resolveAndDispatch_mem hprocedures config command))
      (conclude_mem hprocedures (hasKind_executions commandId .report (by decide)) command)
  exact fun _ => ⟨hcredit, Family.okLeft_of_funded hrest _⟩

theorem send_funded (envelope : Envelope) (credit : ℕ) :
    (Attempt.attempt (NodeCall.send envelope)).run.Funded (admissions commandId)
      (executions commandId) (Attempt.okLeft fun _ left => credit ≤ left) credit := by
  refine fun answer => ⟨Nat.zero_le _, ?_⟩
  cases answer with
  | ok _ => exact Nat.le_refl credit
  | error e => trivial

theorem setExecuting_funded (credit : ℕ) :
    (Act.registry (.setRemoteCommandState command.commandId .executing)).run.Funded
      (admissions commandId) (executions commandId)
      (Attempt.okLeft fun _ left => credit ≤ left) credit := by
  refine fun answer => ⟨Nat.zero_le _, ?_⟩
  cases answer with
  | ok _ => exact Nat.le_refl credit
  | error e => trivial

/-- A delivery pays for the execution with the admission. -/
theorem handleCommand_funded (delivery : Delivery) :
    (Family.funded (admissions commandId) (executions commandId)).Holds
      (handleCommand config delivery).run := by
  have hquiet := hasKind_executions commandId .quiet (by decide)
  have hreport := hasKind_executions commandId .report (by decide)
  unfold handleCommand
  cases delivery.command with
  | error message => exact hquiet.attempt rfl
  | ok command =>
    cases hvalid : command.validate with
    | error error =>
      simp only [hvalid]
      exact hquiet.attempt rfl
    | ok _ =>
      simp only [hvalid]
      refine Family.attempt_bind _ (hquiet.act rfl) fun depth => ?_
      split
      · exact hquiet.attempt rfl
      refine Family.funded_of_okLeft (Attempt.funded_bind (admit_funded commandId command _ 0)
        fun admission left hadmitted => ?_)
      cases admission with
      | payloadMismatch digest => exact Family.okLeft_of_funded (hquiet.attempt rfl) left
      | duplicate record => exact Family.okLeft_of_funded (reply_mem hquiet hreport _ _) left
      | fresh record =>
        have hprice := hadmitted record rfl
        refine Attempt.funded_bind (send_funded commandId _ left) fun _ left' hleft' => ?_
        refine Attempt.funded_bind (setExecuting_funded commandId command left')
          fun _ left'' hleft'' => ?_
        exact carryOut_funded config commandId command (by omega)

end ControlChannel

/-- How often a command can still be admitted. -/
def World.admissible (commandId : String) (w : World) : ℕ :=
  if (w.registry.contents.findCommand commandId).isSome then 0 else 1

theorem World.admissible_le {w w' : World} (commandId : String)
    (hkept : ∀ record, w.registry.contents.findCommand commandId = some record →
      ∃ record', w'.registry.contents.findCommand commandId = some record' ∧
        record'.payloadDigest = record.payloadDigest) :
    w'.admissible commandId ≤ w.admissible commandId := by
  unfold World.admissible
  cases hrecord : w.registry.contents.findCommand commandId with
  | none =>
    simp only [Option.isSome_none, Bool.false_eq_true, if_false]
    split <;> omega
  | some record =>
    obtain ⟨record', hrecord', _⟩ := hkept record hrecord
    simp only [hrecord', Option.isSome_some, if_true, Nat.le_refl]

theorem NodeCall.exec_findCommand {α : Type} (call : NodeCall α) (input : NodeInput) {w : World}
    {commandId : String} {record : RemoteCommandRecord}
    (hrecord : w.registry.contents.findCommand commandId = some record) :
    ∃ record', (call.exec input w).2.registry.contents.findCommand commandId = some record' ∧
      record'.payloadDigest = record.payloadDigest := by
  rcases call.exec_registry input w with h | ⟨β, op, h⟩ <;> rw [h]
  · exact ⟨record, hrecord, rfl⟩
  · exact op.exec_findCommand input.registry hrecord

theorem NodeCall.exec_admissible (commandId : String) {β : Type} (call : NodeCall β)
    (input : NodeInput) (w : World) :
    admissions commandId ⟨β, call, (call.exec input w).1⟩ +
      (call.exec input w).2.admissible commandId ≤ w.admissible commandId := by
  have hle : (call.exec input w).2.admissible commandId ≤ w.admissible commandId :=
    World.admissible_le commandId fun record hrecord => call.exec_findCommand input hrecord
  cases call with
  | registry op =>
    cases op with
    | admitRemoteCommand id command projectId digest =>
      cases hexec : (RegistryCall.admitRemoteCommand id command projectId digest).exec
        input.registry w.registry with
      | mk answer r' =>
        simp only [exec, hexec] at hle ⊢
        cases answer with
        | error e => simpa only [admissions, Nat.zero_add] using hle
        | ok admission =>
          cases admission with
          | fresh record =>
            obtain ⟨hnone, hsome⟩ := RegistryCall.exec_admit_fresh hexec
            by_cases hid : id = commandId
            · subst hid
              simp only [admissions, World.admissible, hnone, hsome, if_true, Option.isSome_some,
                Option.isSome_none, Bool.false_eq_true, if_false]
              omega
            · simpa only [admissions, hid, if_false, Nat.zero_add] using hle
          | duplicate record => simpa only [admissions, Nat.zero_add] using hle
          | payloadMismatch digest => simpa only [admissions, Nat.zero_add] using hle
    | _ => exact (Nat.zero_add _).trans_le hle
  | _ => exact (Nat.zero_add _).trans_le hle

/-- The command is recorded under this digest. -/
def World.Recorded (w : World) (commandId digest : String) : Prop :=
  ∃ record, w.registry.contents.findCommand commandId = some record ∧
    record.payloadDigest = digest

/-- The contract of a delivery: it executes a command, or touches the recorded one, only when
that is recorded under its own digest. -/
def deliveryContract (commandId digest : String) : Contract NodeCall NodeInput World where
  admits _ _ _ := True
  rely s t := ∀ recorded, s.Recorded commandId recorded → t.Recorded commandId recorded
  rely_refl _ _ := id
  rely_trans hst htu recorded hs := htu recorded (hst recorded hs)
  guarantee request _ s t :=
    (request.kind = .execute ∨
      t.registry.contents.findCommand commandId ≠ s.registry.contents.findCommand commandId) →
    t.Recorded commandId digest

theorem NodeCall.exec_recorded {α : Type} (call : NodeCall α) (input : NodeInput) {w : World}
    {commandId digest : String} (h : w.Recorded commandId digest) :
    (call.exec input w).2.Recorded commandId digest := by
  obtain ⟨record, hrecord, hdigest⟩ := h
  obtain ⟨record', hrecord', hkept⟩ := call.exec_findCommand input hrecord
  exact ⟨record', hrecord', hkept.trans hdigest⟩

namespace ControlChannel

variable {commandId digest : String}

/-- A delivery may do anything once the command is recorded under its digest. -/
theorem meets_recorded {α : Type} (p : Program NodeCall α) {w : World}
    (hw : w.Recorded commandId digest) :
    p.Meets (deliveryContract commandId digest) nodeMachine (fun _ _ => True) w := by
  have hstable (s t : World) (hs : s.Recorded commandId digest)
      (hst : (deliveryContract commandId digest).rely s t) : t.Recorded commandId digest := by
    exact hst digest hs
  refine (Program.Meets.of_preserved p _ hstable (fun request input s hs _ => ?_) hw).mono
    fun _ _ _ => trivial
  have hafter := request.exec_recorded input hs
  exact ⟨fun _ => hafter, hafter⟩

/-- A call that leaves the registry alone and executes nothing keeps the contract. -/
theorem guarantee_unchanged {β : Type} {request : NodeCall β} (answer : β) {s t : World}
    (hkind : request.kind ≠ .execute) (hsame : t.registry = s.registry) :
    (deliveryContract commandId digest).guarantee request answer s t := by
  rintro (h | h)
  · exact absurd h hkind
  · exact absurd (by rw [hsame]) h

theorem meets_send (envelope : Envelope) (w : World) :
    (Attempt.attempt (NodeCall.send envelope)).run.Meets (deliveryContract commandId digest)
      nodeMachine (Attempt.onOk fun _ _ => True) w := by
  intro t _ input _
  exact ⟨guarantee_unchanged _ nofun rfl, Attempt.onOk_true _ _⟩

/-- Asking for the command leaves it as it is unless it is new, and finds it recorded under
another digest otherwise. -/
theorem meets_admission (command : String) (projectId : Option String) (w : World) :
    (Act.registry (.admitRemoteCommand commandId command projectId digest)).run.Meets
      (deliveryContract commandId digest) nodeMachine
      (Attempt.onOk fun admission t =>
        (∃ other, admission = .payloadMismatch other) ∨ t.Recorded commandId digest) w := by
  intro t _ input _
  cases hexec : (RegistryCall.admitRemoteCommand commandId command projectId digest).exec
    input.registry t.registry with
  | mk answer r' =>
    simp only [nodeMachine, NodeCall.exec, hexec]
    cases answer with
    | error e =>
      obtain rfl := RegistryCall.exec_error hexec
      exact ⟨guarantee_unchanged _ (fun hkind => by cases hkind) rfl, trivial⟩
    | ok admission =>
      rcases admitRemoteCommand_ok (RegistryCall.exec_ok hexec) with
        ⟨stored, hstored, rfl, hmismatch | hduplicate⟩ | ⟨record, _, rfl, _, hdigest, _⟩
      · exact ⟨guarantee_unchanged _ (fun hkind => by cases hkind) rfl,
          Or.inl ⟨_, hmismatch.2⟩⟩
      · have hrecorded : World.Recorded { t with registry := t.registry } commandId digest :=
          ⟨stored, hstored, hduplicate.1⟩
        exact ⟨fun _ => hrecorded, Or.inr hrecorded⟩
      · have hrecorded : World.Recorded { t with registry := r' } commandId digest :=
          ⟨record, (RegistryCall.exec_admit_fresh hexec).2, hdigest⟩
        exact ⟨fun _ => hrecorded, Or.inr hrecorded⟩

theorem handleCommand_meets (config : NodeConfig) {delivery : Delivery} {command : RemoteCommand}
    (hcommand : delivery.command = .ok command) (w : World) :
    (handleCommand config delivery).run.Meets
      (deliveryContract command.commandId (command.fingerprint config.sha256)) nodeMachine
      (Attempt.onOk fun _ _ => True) w := by
  unfold handleCommand
  simp only [hcommand]
  cases command.validate with
  | error error => exact meets_send _ w
  | ok _ =>
    have hdepth : (Act.registry .outboxDepth).run.Meets
        (deliveryContract command.commandId (command.fingerprint config.sha256)) nodeMachine
        (Attempt.onOk fun _ _ => True) w := by
      intro t _ input _
      have hsame : (RegistryCall.outboxDepth.exec input.registry t.registry).2 = t.registry := by
        unfold RegistryCall.exec
        split <;> rfl
      exact ⟨guarantee_unchanged _ nofun hsame, Attempt.onOk_true _ _⟩
    refine Attempt.meets_bind hdepth fun depth t _ => ?_
    split
    · exact meets_send _ t
    refine Attempt.meets_bind (meets_admission command.command command.projectId t)
      fun admission u hu => ?_
    have hrest {α : Type} (x : Act α) (hrecorded : u.Recorded command.commandId
        (command.fingerprint config.sha256)) : x.run.Meets
          (deliveryContract command.commandId (command.fingerprint config.sha256)) nodeMachine
          (Attempt.onOk fun _ _ => True) u :=
      (meets_recorded x.run hrecorded).mono fun result t _ => Attempt.onOk_true result t
    rcases hu with ⟨other, rfl⟩ | hrecorded
    · exact meets_send _ u
    · cases admission with
      | payloadMismatch other => exact meets_send _ u
      | duplicate record => exact hrest _ hrecorded
      | fresh record => exact hrest _ hrecorded

end ControlChannel

/-- Along every script, the delivery in a thread keeps its contract. -/
theorem play_delivery (config : NodeConfig) (w : World) (script : List (Action NodeInput NodeTask))
    {t : Thread NodeCall NodeTask} (ht : t ∈ ((idleNode w).play (node config) script).threads)
    {delivery : ControlChannel.Delivery} (horigin : t.origin = some (.command delivery))
    {command : RemoteCommand} (hcommand : delivery.command = .ok command) :
    t.code.Meets (deliveryContract command.commandId (command.fingerprint config.sha256))
        nodeMachine (fun _ _ => True) ((idleNode w).play (node config) script).state ∧
      ∀ e ∈ t.done, e.request.kind = .execute →
        ((idleNode w).play (node config) script).state.Recorded command.commandId
          (command.fingerprint config.sha256) := by
  have hidle : (idleNode w).OriginMeets (node config)
      (deliveryContract command.commandId (command.fingerprint config.sha256))
      (.command delivery) := fun t ht => absurd ht List.not_mem_nil
  have hrely {β : Type} (request : NodeCall β) (input : NodeInput) (s : World) (recorded : String)
      (hs : s.Recorded command.commandId recorded) :
      (request.exec input s).2.Recorded command.commandId recorded :=
    request.exec_recorded input hs
  have hplay := hidle.play hrely (fun _ _ _ => trivial)
    (fun s => Attempt.meets_discard (ControlChannel.handleCommand_meets config hcommand s)) script
  obtain ⟨hmeets, hdone⟩ := hplay t ht horigin
  refine ⟨hmeets, fun e he hkind => ?_⟩
  obtain ⟨before, after, hguarantee, hlater⟩ := hdone e he
  exact hlater _ (hguarantee (Or.inl hkind))

/-- Along every script of deliveries and everything else the Node does, with losses and crashes
anywhere, no command is executed twice. A delivery that repeats a recorded command with another
digest has executed nothing, and whatever it does next leaves the recorded command as it is. -/
theorem play_commands_once (config : NodeConfig) (w : World)
    (script : List (Action NodeInput NodeTask)) :
    (∀ commandId,
      ((idleNode w).play (node config) script).total (executions commandId) ≤ 1) ∧
    ∀ (i : ℕ) (t : Thread NodeCall NodeTask) (delivery : ControlChannel.Delivery)
      (command : RemoteCommand) (record : RemoteCommandRecord),
      ((idleNode w).play (node config) script).threads[i]? = some t →
      t.origin = some (.command delivery) → delivery.command = .ok command →
      ((idleNode w).play (node config) script).state.registry.contents.findCommand
        command.commandId = some record →
      record.payloadDigest ≠ command.fingerprint config.sha256 →
      (∀ e ∈ t.done, ∀ commandId, executions commandId e = 0) ∧
        ∀ input,
          (((idleNode w).play (node config) script).step (node config) i
              input).state.registry.contents.findCommand command.commandId = some record := by
  refine ⟨fun commandId => ?_, fun i t delivery command record hget horigin hcommand hrecord
    hdigest => ?_⟩
  · have hsolvent : (idleNode w).Solvent (admissions commandId) (executions commandId) :=
      ⟨[], rfl, fun _ h => absurd h List.not_mem_nil, Nat.le_refl _⟩
    have hpaid := Pool.total_spends_le (Y := node config) hsolvent
      (NodeTask.program_mem (hasProcedures_executions commandId)
        (hasKind_executions commandId .report (by decide)) config
        (ControlChannel.handleCommand_funded config commandId)) script
    have hadmitted := Pool.total_play_le (node config) (World.admissible commandId)
      (fun request input s => request.exec_admissible commandId input s) (idleNode w) script
    have hstart : w.admissible commandId ≤ 1 := by
      unfold World.admissible
      split <;> omega
    have hempty : (idleNode w).total (admissions commandId) = 0 := rfl
    have hstate : (idleNode w).state = w := rfl
    rw [hempty, hstate] at hadmitted
    omega
  · have hother : ¬((idleNode w).play (node config) script).state.Recorded command.commandId
        (command.fingerprint config.sha256) := by
      rintro ⟨found, hfound, heq⟩
      obtain rfl := Option.some.inj (hrecord.symm.trans hfound)
      exact hdigest heq
    obtain ⟨hmeets, hdone⟩ :=
      play_delivery config w script (List.mem_of_getElem? hget) horigin hcommand
    refine ⟨fun e he commandId => ?_, fun input => ?_⟩
    · exact executions_eq_zero fun hkind => hother (hdone e he hkind)
    · generalize (idleNode w).play (node config) script = pool at *
      rcases Pool.step_cases (node config) pool i input with
        h | ⟨u, β, request, next, hu, hcode, h⟩ |
        ⟨u, child, next, _, _, h⟩
      · rw [h, hrecord]
      · obtain rfl := Option.some.inj (hget.symm.trans hu)
        rw [hcode] at hmeets
        obtain ⟨hguarantee, _⟩ := hmeets pool.state (fun _ => id) input trivial
        obtain ⟨kept, hkept, hsame⟩ := request.exec_findCommand input hrecord
        rw [h]
        by_contra hchanged
        obtain ⟨found, hfound, heq⟩ := hguarantee (Or.inr fun heq => hchanged (heq.trans hrecord))
        obtain rfl := Option.some.inj (hkept.symm.trans hfound)
        exact hdigest (hsame.symm.trans heq)
      · rw [h]
        exact hrecord

/-- A command and a second delivery of its identifier with another payload. -/
def drainDelivery (payload : Value) : ControlChannel.Delivery :=
  ⟨"m", .ok ⟨"c1", "node.drain", none, payload⟩⟩

/-- The first delivery begins to execute, the process dies, and the next one handles the second
delivery. -/
def repeatedCommand : List (Action NodeInput NodeTask) :=
  .arrive (.command (drainDelivery .null)) :: List.replicate 5 (.step 0 {}) ++
    [.crash, .arrive .startProcess, .step 1 {}, .arrive (.command (drainDelivery (.bool true)))] ++
    List.replicate 3 (.step 2 {})

/-- The command is executed once, and the second delivery executes nothing. -/
theorem repeatedCommand_refused :
    ((idleNode .initial).play (node ⟨⟨0, 0⟩, 0, id⟩) repeatedCommand).total (executions "c1") = 1 ∧
    ∃ t record, ((idleNode .initial).play (node ⟨⟨0, 0⟩, 0, id⟩) repeatedCommand).threads[2]? =
        some t ∧
      ((idleNode .initial).play (node ⟨⟨0, 0⟩, 0, id⟩)
        repeatedCommand).state.registry.contents.findCommand "c1" = some record ∧
      record.payloadDigest ≠ (RemoteCommand.mk "c1" "node.drain" none (.bool true)).fingerprint id ∧
      t.done.length = 3 ∧ ∀ e ∈ t.done, executions "c1" e = 0 := by
  have htotal : ((idleNode .initial).play (node ⟨⟨0, 0⟩, 0, id⟩) repeatedCommand).total
      (executions "c1") = 1 := by decide +kernel
  have hthread : (((idleNode .initial).play (node ⟨⟨0, 0⟩, 0, id⟩) repeatedCommand).threads[2]?).map
      (fun t => (t.origin, t.done.length)) =
        some (some (.command (drainDelivery (.bool true))), 3) := by decide +kernel
  have hstored : (((idleNode .initial).play (node ⟨⟨0, 0⟩, 0, id⟩)
      repeatedCommand).state.registry.contents.findCommand "c1").map
        (fun record => decide (record.payloadDigest =
          (RemoteCommand.mk "c1" "node.drain" none (.bool true)).fingerprint id)) = some false := by
    decide +kernel
  have hexact := play_commands_once ⟨⟨0, 0⟩, 0, id⟩ .initial repeatedCommand
  generalize (idleNode .initial).play (node ⟨⟨0, 0⟩, 0, id⟩) repeatedCommand = pool at *
  obtain ⟨t, hget, hparts⟩ := Option.map_eq_some_iff.mp hthread
  obtain ⟨horigin, hlength⟩ := Prod.mk.inj hparts
  obtain ⟨record, hrecord, hdigest⟩ := Option.map_eq_some_iff.mp hstored
  have hother := of_decide_eq_false hdigest
  refine ⟨htotal, t, record, hget, hrecord, hother, hlength, fun e he => ?_⟩
  exact (hexact.2 2 t _ _ record hget horigin rfl hrecord hother).1 e he "c1"

end Asterism
