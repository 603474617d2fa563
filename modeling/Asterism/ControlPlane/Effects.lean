import Asterism.ControlPlane.Channel

/-!
# What the transactions of the channel do

One equation for each transaction of the channel: when it is refused by the database, and
the tables it leaves otherwise.
-/

namespace Asterism.ControlPlane

open Process Transaction

/-- The run keeps what it is found by. -/
structure RunRecord.SameKeys (run run' : RunRecord) : Prop where
  runId : run'.runId = run.runId
  nodeId : run'.nodeId = run.nodeId
  nodeRunId : run'.nodeRunId = run.nodeRunId
  createCommandId : run'.createCommandId = run.createCommandId

namespace Database

variable {db : Database}

theorem updateRun_updateRun {runId : String} {f g : RunRecord → RunRecord}
    (hf : ∀ run, (f run).runId = run.runId) :
    (db.updateRun runId f).updateRun runId g = db.updateRun runId fun run => g (f run) := by
  simp only [updateRun, Table.updateWhere_updateWhere
    (p := fun row : RunRecord => row.runId = runId) (f := f) (fun row => by rw [hf row])]

theorem runById_updateRun {runId : String} {f : RunRecord → RunRecord}
    (hf : ∀ run, (f run).runId = run.runId) (other : String) :
    (db.updateRun runId f).runById other =
      (db.runById other).map fun run => if run.runId = runId then f run else run := by
  have hmap := Table.find?_updateWhere (q := fun run : RunRecord => run.runId = other)
    (p := fun run => run.runId = runId) (f := f) (fun run => by rw [hf run]) db.runs
  simp only [decide_eq_true_eq] at hmap
  exact hmap

theorem commandById_commandId {commandId : String} {row : CommandRecord}
    (h : db.commandById commandId = some row) : row.commandId = commandId := by
  simpa using List.find?_some h

theorem commandById_mem {commandId : String} {row : CommandRecord}
    (h : db.commandById commandId = some row) : row ∈ db.commands :=
  List.mem_of_find?_eq_some h

theorem Valid.commandById_eq_some (h : db.Valid) {row : CommandRecord} (hrow : row ∈ db.commands) :
    db.commandById row.commandId = some row := by
  have hfind := h.commands_primary.find?_eq_some hrow (k := row.commandId) rfl
  simpa only [commandById, Option.some.injEq] using hfind

theorem Valid.runById_eq_some (h : db.Valid) {run : RunRecord} (hrun : run ∈ db.runs) :
    db.runById run.runId = some run := by
  have hfind := h.runs_primary.find?_eq_some hrun (k := run.runId) rfl
  simpa only [runById, Option.some.injEq] using hfind

theorem Valid.run_eq (h : db.Valid) {run other : RunRecord} (hrun : run ∈ db.runs)
    (hother : other ∈ db.runs) (hid : run.runId = other.runId) : run = other :=
  h.runs_primary.eq_of_mem hrun hother (k := run.runId) rfl (congrArg some hid.symm)

theorem byCreateCommand_spec {commandId : String} {run : RunRecord}
    (h : db.byCreateCommand commandId = some run) :
    run ∈ db.runs ∧ run.createCommandId = some commandId :=
  ⟨List.mem_of_find?_eq_some h, by simpa using List.find?_some h⟩

theorem byNodeRunId_spec {nodeId nodeRunId : String} {run : RunRecord}
    (h : db.byNodeRunId nodeId nodeRunId = some run) :
    run ∈ db.runs ∧ run.nodeId = nodeId ∧ run.nodeRunId = some nodeRunId := by
  have hfound := List.find?_some h
  simp only [Bool.and_eq_true, decide_eq_true_eq] at hfound
  exact ⟨List.mem_of_find?_eq_some h, hfound.1, hfound.2⟩

/-- An update of a run that keeps what it is found by keeps the constraints. -/
theorem Valid.updateRun (h : db.Valid) (runId : String) {f : RunRecord → RunRecord}
    (hf : ∀ run : RunRecord, run.SameKeys (f run)) : (db.updateRun runId f).Valid where
  commands_primary := h.commands_primary
  runs_primary := by
    unfold Table.Unique Database.updateRun
    rw [Table.filterMap_updateWhere _ fun row => by rw [(hf row).runId]]
    exact h.runs_primary
  runs_nodeRun := by
    unfold Table.Unique Database.updateRun
    rw [Table.filterMap_updateWhere _ fun row => by
      rw [nodeRunIndex, (hf row).nodeRunId, (hf row).nodeId, nodeRunIndex]]
    exact h.runs_nodeRun
  runs_createCommand := by
    unfold Database.updateRun
    rw [Table.filterMap_updateWhere _ fun row => by rw [(hf row).createCommandId]]
    exact h.runs_createCommand
  events_unique := h.events_unique
  events_run := by
    unfold Database.updateRun
    rw [Table.map_updateWhere _ fun row => by rw [(hf row).runId]]
    exact h.events_run
  events_fit := h.events_fit

/-- An update of a command that keeps its identifier keeps the constraints. -/
theorem Valid.updateCommand (h : db.Valid) (commandId : String) (p : CommandRecord → Bool)
    {f : CommandRecord → CommandRecord} (hf : ∀ row, (f row).commandId = row.commandId) :
    (db.updateCommand commandId p f).Valid where
  commands_primary := by
    unfold Table.Unique Database.updateCommand
    rw [Table.filterMap_updateWhere _ fun row => by rw [hf row]]
    exact h.commands_primary
  runs_primary := h.runs_primary
  runs_nodeRun := h.runs_nodeRun
  runs_createCommand := by
    unfold Database.updateCommand
    rw [Table.map_updateWhere _ hf]
    exact h.runs_createCommand
  events_unique := h.events_unique
  events_run := h.events_run
  events_fit := h.events_fit

/-- Another run of the same Node has this name. -/
def Taken (db : Database) (run : RunRecord) (nodeRunId : String) : Prop :=
  ∃ other ∈ db.runs, other.runId ≠ run.runId ∧ other.nodeId = run.nodeId ∧
    other.nodeRunId = some nodeRunId

instance (db : Database) (run : RunRecord) (nodeRunId : String) :
    Decidable (db.Taken run nodeRunId) := inferInstanceAs (Decidable (∃ other ∈ db.runs, _))

theorem Valid.attach_iff (h : db.Valid) {run : RunRecord} (hrun : run ∈ db.runs)
    (nodeRunId : String) (now : ℕ) :
    (db.updateRun run.runId fun row => row.attach nodeRunId now).Valid ↔
      ¬db.Taken run nodeRunId := by
  constructor
  · rintro hvalid ⟨other, hother, hne, hnode, hname⟩
    -- Both rows would have the same name on the same Node.
    have hold : other ∈ (db.updateRun run.runId fun row => row.attach nodeRunId now).runs :=
      Table.mem_updateWhere.mpr ⟨other, hother, by simp [hne]⟩
    have hnew : run.attach nodeRunId now ∈
        (db.updateRun run.runId fun row => row.attach nodeRunId now).runs :=
      Table.mem_updateWhere.mpr ⟨run, hrun, by simp⟩
    have hsame := hvalid.runs_nodeRun.eq_of_mem hold hnew (k := (run.nodeId, nodeRunId))
      (by rw [nodeRunIndex, hname, hnode]; rfl) rfl
    exact hne (by rw [hsame]; rfl)
  · intro hfree
    refine ⟨h.commands_primary, ?_, ?_, ?_, h.events_unique, ?_, h.events_fit⟩
    · unfold Table.Unique Database.updateRun
      rw [Table.filterMap_updateWhere (f := fun row => row.attach nodeRunId now)
        (fun row : RunRecord => some row.runId) fun _ => rfl]
      exact h.runs_primary
    · refine h.runs_nodeRun.updateWhere (fun row => row.runId) h.runs_primary run.runId
        (fun row hrow => of_decide_eq_true hrow) fun row hrow hid k hk => ?_
      have hsame : row = run := h.run_eq hrow hrun (of_decide_eq_true hid)
      subst hsame
      have hkey : k = (row.nodeId, nodeRunId) := (Option.some.inj hk).symm
      by_cases hold : row.nodeRunId = some nodeRunId
      · exact Or.inl (by rw [nodeRunIndex, hold, hkey]; rfl)
      · refine Or.inr fun other hother hkeyOther => hfree ⟨other, hother, ?_⟩
        obtain ⟨name, hname, hpair⟩ := Option.map_eq_some_iff.mp hkeyOther
        rw [hkey] at hpair
        obtain ⟨hnode, rfl⟩ := Prod.mk.inj hpair
        refine ⟨fun hid => hold ?_, hnode, hname⟩
        rw [← h.run_eq hother hrow hid, hname]
    · unfold Database.updateRun
      rw [Table.filterMap_updateWhere (f := fun row => row.attach nodeRunId now)
        (fun row : RunRecord => row.createCommandId) fun _ => rfl]
      exact h.runs_createCommand
    · unfold Database.updateRun
      rw [Table.map_updateWhere (f := fun row => row.attach nodeRunId now)
        (fun row : RunRecord => row.runId) fun _ => rfl]
      exact h.events_run

theorem Valid.ledger (h : db.Valid) (ledger : Ledger) :
    ({ db with ledger := ledger } : Database).Valid :=
  ⟨h.commands_primary, h.runs_primary, h.runs_nodeRun, h.runs_createCommand, h.events_unique,
    h.events_run, h.events_fit⟩

theorem Valid.queue_iff (h : db.Valid) (row : CommandRecord) :
    ({ db with commands := db.commands ++ [row] } : Database).Valid ↔
      db.commandById row.commandId = none := by
  have hnone : db.commandById row.commandId = none ↔
      ∀ old ∈ db.commands, old.commandId ≠ row.commandId := by
    simp [commandById, List.find?_eq_none]
  rw [hnone]
  constructor
  · intro hvalid old hold hid
    exact (Table.unique_append_singleton.mp hvalid.commands_primary).2 row.commandId rfl old hold
      (congrArg some hid)
  · intro hnew
    refine ⟨Table.unique_append_singleton.mpr ⟨h.commands_primary, ?_⟩, h.runs_primary,
      h.runs_nodeRun, fun id hid => ?_, h.events_unique, h.events_run, h.events_fit⟩
    · intro k hk old hold hkey
      cases hk
      exact hnew old hold (Option.some.inj hkey)
    · rw [List.map_append]
      exact List.mem_append_left _ (h.runs_createCommand id hid)

theorem Valid.insertEvent (h : db.Valid) {event : EventRecord}
    (hrun : event.runId ∈ db.runs.map fun row => row.runId) (hfits : event.Fits) :
    (db.insertEvent event).Valid := by
  unfold Database.insertEvent
  split
  · exact h
  · rename_i hold
    have hnew : ∀ row ∈ db.events, eventKey row ≠ eventKey event := by
      simpa [List.any_eq_true] using hold
    refine ⟨h.commands_primary, h.runs_primary, h.runs_nodeRun, h.runs_createCommand,
      Table.unique_append_singleton.mpr ⟨h.events_unique, ?_⟩, ?_, ?_⟩
    · intro k hk old hmem hkey
      cases hk
      exact hnew old hmem (Option.some.inj hkey)
    · intro row hrow
      rcases List.mem_append.mp hrow with hmem | hmem
      · exact h.events_run row hmem
      · rw [List.mem_singleton.mp hmem]
        exact hrun
    · intro row hrow
      rcases List.mem_append.mp hrow with hmem | hmem
      · exact h.events_fit row hmem
      · rw [List.mem_singleton.mp hmem]
        exact hfits

end Database

/-- The outcome of a transaction of the channel that nothing disturbs. -/
abbrev evalSql {α : Type} (input : SqlInput) (p : Sql α) (db : Database) : Option (α × Database) :=
  dialect.eval databaseSchema input p db

section Evaluation

variable {α β : Type} {input : SqlInput} {db : Database}

theorem eval_statement (request : Statement β) {next : β → Sql α}
    (h : (request.effect input db).Valid) :
    evalSql input (.call request next) db =
      evalSql input (next (request.answer input db)) (request.effect input db) :=
  Dialect.eval_call h

theorem eval_statement_of_not (request : Statement β) {next : β → Sql α}
    (h : ¬(request.effect input db).Valid) : evalSql input (.call request next) db = none :=
  Dialect.eval_call_of_not h

/-- No contents make this statement break the constraints. -/
def Statement.isSafe {β : Type} : Statement β → Bool
  | attachNodeRun _ _ | insertEvent _ | settleProject _ _ _ _ _ => false
  | _ => true

theorem Statement.valid_effect (request : Statement β) (hvalid : db.Valid)
    (hsafe : request.isSafe = true) : (request.effect input db).Valid := by
  cases request with
  | markAccepted commandId => exact hvalid.updateCommand _ _ fun _ => rfl
  | complete commandId outcome => exact hvalid.updateCommand _ _ fun _ => rfl
  | markIndeterminate commandId reason => exact hvalid.updateCommand _ _ fun _ => rfl
  | commandById commandId => exact hvalid
  | byCreateCommand commandId => exact hvalid
  | byNodeRunId nodeId nodeRunId => exact hvalid
  | attachNodeRun runId nodeRunId => cases hsafe
  | setSubscribed runId subscribed => exact hvalid.updateRun _ fun _ => ⟨rfl, rfl, rfl, rfl⟩
  | setModel runId model => exact hvalid.updateRun _ fun _ => ⟨rfl, rfl, rfl, rfl⟩
  | setStatus runId status extra => exact hvalid.updateRun _ fun _ => ⟨rfl, rfl, rfl, rfl⟩
  | recordFailure runId failure => exact hvalid.updateRun _ fun _ => ⟨rfl, rfl, rfl, rfl⟩
  | insertEvent event => cases hsafe
  | highestContiguous runId start => exact hvalid
  | setAckedSeq runId seq => exact hvalid.updateRun _ fun _ => ⟨rfl, rfl, rfl, rfl⟩
  | settleProject commandId nodeId commandType request result => cases hsafe
  | acceptUpdate operationId => exact hvalid.ledger _

theorem eval_safe (hvalid : db.Valid) (request : Statement β) {next : β → Sql α}
    (hsafe : request.isSafe = true) :
    evalSql input (.call request next) db =
      evalSql input (next (request.answer input db)) (request.effect input db) :=
  eval_statement request (request.valid_effect hvalid hsafe)

theorem eval_perform (request : Statement β) (h : (request.effect input db).Valid) :
    evalSql input (Program.perform request) db =
      some (request.answer input db, request.effect input db) :=
  eval_statement request h

end Evaluation

def RunRecord.started (run : RunRecord) (commandType : String) (result : CommandResult)
    (nodeRunId : String) (now : ℕ) : RunRecord :=
  { run.attach nodeRunId now with
    subscribed := true
    model := if commandType = "runs.create" then run.model <|> textField result.result "model"
      else run.model }

/-- The run that the outcome of a command changes, and how. -/
def runChange (db : Database) (row : CommandRecord) (result : CommandResult) (now : ℕ) :
    Option (RunRecord × (RunRecord → RunRecord)) :=
  if startsRun row.commandType then
    if result.state ≠ "completed" then
      (db.byCreateCommand row.commandId).map fun run =>
        (run, fun r => r.withStatus "failed" result.rejection now)
    else
      (textField result.result "run_id").bind fun nodeRunId =>
        (db.byCreateCommand row.commandId).map fun run =>
          (run, fun r => r.started row.commandType result nodeRunId now)
  else if row.commandType = "approvals.resolve" ∧ result.state = "completed" then
    (jsonText row.requestPayload "run_id").bind fun nodeRunId =>
      ((db.byNodeRunId row.nodeId nodeRunId).filter fun run =>
          run.status = "waiting_for_approval").map fun run =>
        (run, fun r => r.withStatus "running" {} now)
  else none

/-- The Node names a run that is another run of its own. -/
def Collides (db : Database) (row : CommandRecord) (result : CommandResult) : Prop :=
  startsRun row.commandType = true ∧ result.state = "completed" ∧
    ∃ nodeRunId ∈ textField result.result "run_id",
      ∃ run ∈ db.byCreateCommand row.commandId, db.Taken run nodeRunId

instance (db : Database) (row : CommandRecord) (result : CommandResult) :
    Decidable (Collides db row result) := inferInstanceAs (Decidable (_ ∧ _ ∧ _))

/-- The database refuses what the outcome of a command writes. -/
def Refused (db : Database) (row : CommandRecord) (result : CommandResult) (input : SqlInput) :
    Prop :=
  Collides db row result ∨
    ∃ next ∈ followUpRecord row.nodeId row.commandType result.state input,
      db.commandById next.commandId ≠ none

instance (db : Database) (row : CommandRecord) (result : CommandResult) (input : SqlInput) :
    Decidable (Refused db row result input) := inferInstanceAs (Decidable (_ ∨ _))

def changedRuns (db : Database) (row : CommandRecord) (result : CommandResult) (now : ℕ) :
    List RunRecord :=
  match runChange db row result now with
  | none => db.runs
  | some (run, f) => Table.updateWhere (fun r => r.runId = run.runId) f db.runs

/-- The tables of projects after the outcome of a command. -/
def Ledger.answered (ledger : Ledger) (row : CommandRecord) (result : CommandResult) : Ledger :=
  ((projectVerdict row.commandType row.requestPayload result).map
    (ledger.settle row.commandId row.nodeId)).getD ledger

/-- The tables of projects and updates after the result of a command. -/
def Ledger.applied (ledger : Ledger) (row : CommandRecord) (result : CommandResult) : Ledger :=
  match startedUpdate row result with
  | some operationId => (ledger.answered row result).acceptUpdate operationId
  | none => ledger.answered row result

/-- The tables after `applyCommandOutcome`. -/
def Database.outcome (db : Database) (row : CommandRecord) (result : CommandResult)
    (input : SqlInput) : Database :=
  { db with
    commands := db.commands ++ (followUpRecord row.nodeId row.commandType result.state input).toList
    runs := changedRuns db row result input.now
    ledger := db.ledger.answered row result }

/-- The tables after the result of a command was applied. -/
def Database.applied (db : Database) (row : CommandRecord) (result : CommandResult)
    (input : SqlInput) : Database :=
  { db.outcome row result input with ledger := db.ledger.applied row result }

section Outcome

variable {db : Database} {row : CommandRecord} {result : CommandResult} {input : SqlInput}

theorem followUpRecord_of_startsRun {commandType : String} (nodeId state : String)
    (input : SqlInput) (h : startsRun commandType = true) :
    followUpRecord nodeId commandType state input = none := by
  have htype : commandType = "runs.create" ∨ commandType = "runs.retry" := by
    simpa [startsRun] using h
  rcases htype with rfl | rfl <;> rfl

theorem refused_iff_of_not_startsRun (h : startsRun row.commandType = false) :
    Refused db row result input ↔
      ∃ next ∈ followUpRecord row.nodeId row.commandType result.state input,
      db.commandById next.commandId ≠ none := by
  refine or_iff_right fun hcollides => ?_
  exact Bool.false_ne_true (h.symm.trans hcollides.1)

theorem not_refused (hnext : followUpRecord row.nodeId row.commandType result.state input = none)
    (hstarts : startsRun row.commandType = true → result.state ≠ "completed") :
    ¬Refused db row result input := by
  rintro (hcollides | ⟨next, hmem, -⟩)
  · exact hstarts hcollides.1 hcollides.2.1
  · rw [hnext] at hmem
    cases hmem

theorem answered_of_not_project (ledger : Ledger) (h : row.commandType ∉ projectCommands) :
    ledger.answered row result = ledger := by
  simp only [projectCommands, List.mem_cons, List.not_mem_nil, or_false, not_or] at h
  have hnone : projectVerdict row.commandType row.requestPayload result = none := by
    unfold projectVerdict
    rw [if_neg h.1, if_neg h.2.1, if_neg h.2.2, ite_self]
  rw [Ledger.answered, hnone, Option.map_none, Option.getD_none]

theorem outcome_of_other (hproject : row.commandType ∉ projectCommands)
    (hstarts : startsRun row.commandType = false)
    (happroval : ¬(row.commandType = "approvals.resolve" ∧ result.state = "completed"))
    (hnext : followUpRecord row.nodeId row.commandType result.state input = none) :
    db.outcome row result input = db := by
  have hchange : runChange db row result input.now = none := by
    rw [runChange, hstarts, if_neg Bool.false_ne_true, if_neg happroval]
  rw [Database.outcome, changedRuns, hchange, hnext, Option.toList_none, List.append_nil,
    answered_of_not_project _ hproject]

theorem eval_settleProject (hvalid : db.Valid) (hproject : row.commandType ∈ projectCommands) :
    evalSql input (Program.perform (.settleProject row.commandId row.nodeId row.commandType
        row.requestPayload result)) db =
      if Refused db row result input then none else some ((), db.outcome row result input) := by
  have hstarts : startsRun row.commandType = false := by
    simp only [projectCommands, List.mem_cons, List.not_mem_nil, or_false] at hproject
    rcases hproject with h | h | h <;> rw [h] <;> rfl
  have happroval : ¬(row.commandType = "approvals.resolve" ∧ result.state = "completed") := by
    rintro ⟨htype, -⟩
    rw [htype] at hproject
    exact absurd hproject (by decide)
  have hchange : runChange db row result input.now = none := by
    rw [runChange, hstarts, if_neg Bool.false_ne_true, if_neg happroval]
  have heffect : Statement.effect (.settleProject row.commandId row.nodeId row.commandType
      row.requestPayload result) input db = db.outcome row result input := by
    rw [Database.outcome, changedRuns, hchange]
    rfl
  have hkeeps : (db.outcome row result input).Valid ↔ ¬Refused db row result input := by
    rw [refused_iff_of_not_startsRun hstarts, Database.outcome, changedRuns, hchange]
    cases hnext : followUpRecord row.nodeId row.commandType result.state input with
    | none =>
      rw [Option.toList_none, List.append_nil]
      exact iff_of_true (hvalid.ledger _) fun ⟨_, hmem, _⟩ => by cases hmem
    | some next =>
      simp only [Option.toList_some, Option.mem_some_iff, exists_eq_left', not_not]
      rw [← hvalid.queue_iff next]
      exact ⟨fun h => h.ledger db.ledger, fun h => h.ledger _⟩
  by_cases hrefused : Refused db row result input
  · rw [if_pos hrefused]
    refine eval_statement_of_not _ fun h => ?_
    rw [heffect] at h
    exact hkeeps.mp h hrefused
  · have hdone := hkeeps.mpr hrefused
    rw [← heffect] at hdone
    rw [if_neg hrefused, eval_perform _ hdone, heffect]

theorem not_project_of_startsRun (h : startsRun row.commandType = true) :
    row.commandType ∉ projectCommands := by
  have htype : row.commandType = "runs.create" ∨ row.commandType = "runs.retry" := by
    simpa [startsRun] using h
  rcases htype with htype | htype <;> rw [htype] <;> decide

theorem eval_rejectRun (hvalid : db.Valid) (hstarts : startsRun row.commandType = true)
    (hstate : result.state ≠ "completed") :
    evalSql input (Program.perform (.byCreateCommand row.commandId) >>= fun found =>
        match found with
        | none => pure ()
        | some run => Program.perform (.setStatus run.runId "failed" result.rejection)) db =
      if Refused db row result input then none else some ((), db.outcome row result input) := by
  have hnext := followUpRecord_of_startsRun row.nodeId result.state input hstarts
  have hfree : ¬Refused db row result input := not_refused hnext fun _ => hstate
  rw [if_neg hfree, Program.perform_bind, eval_safe hvalid _ rfl, Database.outcome, changedRuns,
    runChange, if_pos hstarts, if_pos hstate, hnext, Option.toList_none, List.append_nil,
    answered_of_not_project _ (not_project_of_startsRun hstarts)]
  simp only [Statement.answer, Statement.effect]
  cases db.byCreateCommand row.commandId with
  | none => rfl
  | some run => exact eval_safe hvalid _ rfl

theorem eval_startRun (hvalid : db.Valid) (hstarts : startsRun row.commandType = true)
    (hstate : result.state = "completed") :
    evalSql input (startRun row result) db =
      if Refused db row result input then none else some ((), db.outcome row result input) := by
  have hnext := followUpRecord_of_startsRun row.nodeId result.state input hstarts
  have hrefused : Refused db row result input ↔ Collides db row result := by
    refine or_iff_left ?_
    rintro ⟨next, hmem, -⟩
    rw [hnext] at hmem
    cases hmem
  have hcollides : Collides db row result ↔ ∃ nodeRunId ∈ textField result.result "run_id",
      ∃ run ∈ db.byCreateCommand row.commandId, db.Taken run nodeRunId := by
    rw [Collides, and_iff_right hstarts, and_iff_right hstate]
  rw [Database.outcome, hnext, Option.toList_none, List.append_nil,
    answered_of_not_project _ (not_project_of_startsRun hstarts)]
  simp only [hrefused, hcollides, startRun, changedRuns, runChange, hstarts, if_true, hstate, ne_eq,
    not_true, if_false]
  cases hname : textField result.result "run_id" with
  | none => simp [evalSql]
  | some nodeRunId =>
    dsimp only
    rw [Program.perform_bind, eval_safe hvalid _ rfl]
    simp only [Statement.answer, Statement.effect, Option.mem_def, Option.some.injEq,
      exists_eq_left', Option.bind_some]
    cases hfound : db.byCreateCommand row.commandId with
    | none => simp [evalSql]
    | some run =>
      have hattach := hvalid.attach_iff (Database.byCreateCommand_spec hfound).1 nodeRunId input.now
      simp only [Option.some.injEq, exists_eq_left', Option.map_some]
      by_cases htaken : db.Taken run nodeRunId
      · rw [if_pos htaken, Program.perform_bind]
        exact eval_statement_of_not (.attachNodeRun run.runId nodeRunId) fun h =>
          hattach.mp h htaken
      · have hattached : (Statement.effect (.attachNodeRun run.runId nodeRunId) input db).Valid :=
          hattach.mpr htaken
        rw [if_neg htaken, Program.perform_bind, eval_statement _ hattached, Program.perform_bind,
          eval_safe hattached _ rfl]
        have hmerge (g : RunRecord → RunRecord) :
            (db.updateRun run.runId fun r => r.attach nodeRunId input.now).updateRun run.runId g =
              db.updateRun run.runId fun r => g (r.attach nodeRunId input.now) :=
          Database.updateRun_updateRun fun _ => rfl
        by_cases hcreate : row.commandType = "runs.create"
        · rw [if_pos hcreate]
          have hsubscribed : (Statement.effect (.setSubscribed run.runId true) input
              (Statement.effect (.attachNodeRun run.runId nodeRunId) input db)).Valid :=
            Statement.valid_effect _ hattached rfl
          rw [eval_perform _ (Statement.valid_effect (.setModel _ _) hsubscribed rfl)]
          simp only [Statement.effect, RunRecord.started, hcreate, if_true, hmerge]
          rw [Database.updateRun_updateRun]
          · rfl
          · exact fun _ => rfl
        · rw [if_neg hcreate]
          simp only [Statement.effect, RunRecord.started, hcreate, if_false, hmerge]
          rfl

theorem eval_approval (hvalid : db.Valid) (htype : row.commandType = "approvals.resolve")
    (hstate : result.state = "completed") :
    evalSql input (match jsonText row.requestPayload "run_id" with
      | none => pure ()
      | some nodeRunId => do
        match ← Program.perform (.byNodeRunId row.nodeId nodeRunId) with
        | none => pure ()
        | some run =>
          if run.status = "waiting_for_approval" then
            Program.perform (.setStatus run.runId "running" {})) db =
      if Refused db row result input then none else some ((), db.outcome row result input) := by
  have hstarts : startsRun row.commandType = false := by rw [htype]; rfl
  have hnext : followUpRecord row.nodeId row.commandType result.state input = none := by
    rw [htype]; rfl
  have hfree : ¬Refused db row result input :=
    not_refused hnext fun h => absurd (hstarts.symm.trans h) Bool.false_ne_true
  rw [if_neg hfree, Database.outcome, changedRuns, runChange, hstarts, if_neg Bool.false_ne_true,
    if_pos ⟨htype, hstate⟩, hnext, Option.toList_none, List.append_nil,
    answered_of_not_project _ (by rw [htype]; decide)]
  cases jsonText row.requestPayload "run_id" with
  | none => rfl
  | some nodeRunId =>
    dsimp only
    rw [Program.perform_bind, eval_safe hvalid _ rfl]
    simp only [Statement.answer, Statement.effect, Option.bind_some]
    cases db.byNodeRunId row.nodeId nodeRunId with
    | none => rfl
    | some run =>
      by_cases hwaiting : run.status = "waiting_for_approval"
      · simp only [hwaiting, if_true, Option.filter_some, decide_true, Option.map_some]
        exact eval_safe hvalid _ rfl
      · simp only [hwaiting, if_false, Option.filter_some, decide_false, Bool.false_eq_true,
          Option.map_none]
        rfl

theorem eval_applyCommandOutcome (hvalid : db.Valid) :
    evalSql input (applyCommandOutcome row result) db =
      if Refused db row result input then none else some ((), db.outcome row result input) := by
  unfold applyCommandOutcome
  by_cases hproject : row.commandType ∈ projectCommands
  · rw [if_pos hproject]
    exact eval_settleProject hvalid hproject
  rw [if_neg hproject]
  cases hstarts : startsRun row.commandType with
  | true =>
    rw [if_pos rfl]
    by_cases hstate : result.state = "completed"
    · rw [if_neg (not_not.mpr hstate)]
      exact eval_startRun hvalid hstarts hstate
    · rw [if_pos hstate]
      exact eval_rejectRun hvalid hstarts hstate
  | false =>
    rw [if_neg Bool.false_ne_true]
    by_cases happroval : row.commandType = "approvals.resolve" ∧ result.state = "completed"
    · rw [if_pos happroval]
      exact eval_approval hvalid happroval.1 happroval.2
    · have hnext : followUpRecord row.nodeId row.commandType result.state input = none := by
        have htype : followUpType row.commandType = none := by
          simp only [projectCommands, List.mem_cons, not_or] at hproject
          rw [followUpType, if_neg hproject.1, if_neg hproject.2.1]
        simp [followUpRecord, htype]
      have hfree : ¬Refused db row result input :=
        not_refused hnext fun h => absurd (hstarts.symm.trans h) Bool.false_ne_true
      rw [if_neg happroval, if_neg hfree, outcome_of_other hproject hstarts happroval hnext]
      rfl

theorem eval_settleCommand (hvalid : db.Valid) :
    evalSql input (settleCommand row result) db =
      if Refused db row result input then none else some ((), db.applied row result input) := by
  have houtcome := @eval_applyCommandOutcome _ row result input hvalid
  rw [evalSql] at houtcome
  rw [settleCommand, evalSql, Dialect.eval_bind, houtcome]
  split
  · rfl
  · rw [Option.bind_some, Database.applied, Ledger.applied]
    cases hstarted : startedUpdate row result with
    | none => rfl
    | some operationId =>
      have htype : row.commandType = "node.update" :=
        (Option.ite_none_right_eq_some.mp hstarted).1.1
      have hsame : db.outcome row result input = db :=
        outcome_of_other (by rw [htype]; decide) (by rw [htype]; rfl)
          (fun h => absurd (htype.symm.trans h.1) (by decide)) (by rw [htype]; rfl)
      have hledger : db.ledger.answered row result = db.ledger :=
        answered_of_not_project _ (by rw [htype]; decide)
      rw [hsame, hledger]
      exact eval_safe hvalid (.acceptUpdate operationId) rfl

/-- Nothing is recorded for a command that is not stored or has an outcome. -/
theorem Database.complete_eq_self (hvalid : db.Valid) {commandId : String} (outcome : Outcome)
    (now : ℕ) (h : ∀ row ∈ db.commandById commandId, row.state.isOpen = false) :
    db.complete commandId outcome now = db := by
  have hsame : (db.complete commandId outcome now).commands = db.commands := by
    refine Table.updateWhere_eq_self fun row hrow hmatch => ?_
    simp only [Bool.and_eq_true, decide_eq_true_eq] at hmatch
    have hclosed := h row (hmatch.1 ▸ hvalid.commandById_eq_some hrow)
    exact absurd hmatch.2 (hclosed ▸ Bool.false_ne_true)
  exact congrArg (fun commands => { db with commands := commands }) hsame

theorem Database.commandById_complete (commandId other : String) (outcome : Outcome) (now : ℕ) :
    (db.complete commandId outcome now).commandById other =
      (db.commandById other).map fun row =>
        if row.commandId = commandId ∧ row.state.isOpen = true then row.complete outcome now
        else row := by
  have hfind := Table.find?_updateWhere (q := fun row : CommandRecord => row.commandId = other)
    (p := fun row => row.commandId = commandId && row.state.isOpen)
    (f := fun row => row.complete outcome now) (fun _ => rfl) db.commands
  simp only [Bool.and_eq_true, decide_eq_true_eq] at hfind
  exact hfind

/-- Recording the outcome of a command does not change what is refused afterwards. -/
theorem refused_complete (commandId : String) (outcome : Outcome) (now : ℕ) :
    Refused (db.complete commandId outcome now) row result input ↔
      Refused db row result input := by
  have hcollides : Collides (db.complete commandId outcome now) row result ↔
      Collides db row result := Iff.rfl
  simp only [Refused, hcollides, Database.commandById_complete, ne_eq, Option.map_eq_none_iff]

theorem eval_handleCommandResult (hvalid : db.Valid) :
    evalSql input (handleCommandResult result) db =
      match db.commandById result.commandId with
      | none => some ((), db)
      | some row =>
        if Refused db row result input then none
        else some ((), (db.complete result.commandId result.outcome input.now).applied row result
          input) := by
  unfold handleCommandResult
  rw [Program.perform_bind, eval_safe hvalid _ rfl]
  simp only [Statement.answer, Statement.effect]
  have hdone : (db.complete result.commandId result.outcome input.now).Valid :=
    hvalid.updateCommand _ _ fun _ => rfl
  cases hrow : db.commandById result.commandId with
  | none =>
    have hsame := Database.complete_eq_self hvalid result.outcome input.now
      (fun row hmem => by rw [hrow] at hmem; cases hmem)
    simp only [Database.completed, hrow, Option.filter_none, Option.map_none, hsame,
      Program.perform_bind]
    rw [eval_safe hvalid _ rfl]
    simp only [Statement.answer, Statement.effect, hrow]
    rfl
  | some row =>
    cases hopen : row.state.isOpen with
    | true =>
      simp only [Database.completed, hrow, Option.filter_some, hopen, if_true, Option.map_some]
      have houtcome : evalSql input (settleCommand row result)
          (db.complete result.commandId result.outcome input.now) = _ :=
        eval_settleCommand hdone
      simp only [refused_complete] at houtcome
      exact houtcome
    | false =>
      have hsame := Database.complete_eq_self hvalid result.outcome input.now
        (fun found hmem => by
          rw [hrow, Option.mem_some_iff] at hmem
          rw [← hmem]
          exact hopen)
      simp only [Database.completed, hrow, Option.filter_some, hopen, Bool.false_eq_true, if_false,
        Option.map_none, hsame, Program.perform_bind]
      rw [eval_safe hvalid _ rfl]
      simp only [Statement.answer, Statement.effect, hrow]
      exact eval_settleCommand hvalid

end Outcome

/-- A transaction that does no more than change one run. -/
def Amounts (input : SqlInput) (p : Sql Unit) (runId : String) (f : RunRecord → RunRecord) : Prop :=
  (∀ run : RunRecord, run.SameKeys (f run)) ∧
    ∀ db : Database, db.Valid → evalSql input p db = some ((), db.updateRun runId f)

namespace Amounts

variable {input : SqlInput} {p q : Sql Unit} {runId : String} {f g : RunRecord → RunRecord}

theorem nothing : Amounts input (pure ()) runId fun run => run := by
  refine ⟨fun _ => ⟨rfl, rfl, rfl, rfl⟩, fun db _ => ?_⟩
  have hsame : (db.updateRun runId fun run => run) = db :=
    congrArg (fun runs => { db with runs := runs }) (Table.updateWhere_eq_self fun _ _ _ => rfl)
  rw [hsame]
  rfl

theorem andThen (hp : Amounts input p runId f) (hq : Amounts input q runId g) :
    Amounts input (p >>= fun _ => q) runId fun run => g (f run) := by
  refine ⟨fun run => ?_, fun db hvalid => ?_⟩
  · have hf := hp.1 run
    have hg := hq.1 (f run)
    exact ⟨hg.runId.trans hf.runId, hg.nodeId.trans hf.nodeId, hg.nodeRunId.trans hf.nodeRunId,
      hg.createCommandId.trans hf.createCommandId⟩
  · have hfirst := hp.2 db hvalid
    have hsecond := hq.2 _ (hvalid.updateRun runId hp.1)
    rw [evalSql] at hfirst hsecond
    rw [evalSql, Dialect.eval_bind, hfirst, Option.bind_some, hsecond,
      Database.updateRun_updateRun fun run => (hp.1 run).runId]

theorem setStatus (runId status : String) (extra : StatusExtra) :
    Amounts input (Program.perform (.setStatus runId status extra)) runId fun run =>
      run.withStatus status extra input.now :=
  ⟨fun _ => ⟨rfl, rfl, rfl, rfl⟩, fun _ hvalid => eval_safe hvalid _ rfl⟩

theorem setSubscribed (runId : String) (subscribed : Bool) :
    Amounts input (Program.perform (.setSubscribed runId subscribed)) runId fun run =>
      { run with subscribed := subscribed } :=
  ⟨fun _ => ⟨rfl, rfl, rfl, rfl⟩, fun _ hvalid => eval_safe hvalid _ rfl⟩

theorem recordFailure (runId : String) (failure : StatusExtra) :
    Amounts input (Program.perform (.recordFailure runId failure)) runId fun run =>
      run.withFailure failure :=
  ⟨fun _ => ⟨rfl, rfl, rfl, rfl⟩, fun _ hvalid => eval_safe hvalid _ rfl⟩

end Amounts

/-- A run after the cursor was recorded, as it was read. -/
def RunRecord.acknowledged (run read : RunRecord) (contiguous : ℤ) : RunRecord :=
  if read.ackedEventSeq < contiguous then
    { run with
      ackedEventSeq := max run.ackedEventSeq contiguous
      lastEventSeq := max run.lastEventSeq contiguous }
  else run

def RunRecord.failed (run : RunRecord) (event : EventDelivery) : RunRecord :=
  match runFailureFromEvent event.eventType event.payload with
  | some failure => run.withFailure failure
  | none => run

def RunRecord.afterEvent (run read : RunRecord) (event : EventDelivery) (inserted : Bool)
    (now : ℕ) : RunRecord :=
  match event.ending with
  | some status =>
    { run.withStatus status ((runFailureFromEvent event.eventType event.payload).getD {}) now with
      subscribed := false }
  | none =>
    if inserted ∧ event.eventType = "approval.request" ∧ read.status ∉ terminalRunStatuses then
      (run.failed event).withStatus "waiting_for_approval" {} now
    else run.failed event

section Event

variable {input : SqlInput} {db : Database}

theorem amounts_recordContiguous (input : SqlInput) (read : RunRecord) (contiguous : ℤ) :
    Amounts input (recordContiguous read contiguous) read.runId fun run =>
      run.acknowledged read contiguous := by
  unfold recordContiguous RunRecord.acknowledged
  by_cases hless : read.ackedEventSeq < contiguous
  · simp only [hless, if_true]
    exact ⟨fun _ => ⟨rfl, rfl, rfl, rfl⟩, fun _ hvalid => eval_safe hvalid _ rfl⟩
  · simp only [hless, if_false]
    exact Amounts.nothing

theorem amounts_failed (runId : String) (event : EventDelivery) :
    Amounts input (recordEventFailure runId event) runId fun run => run.failed event := by
  unfold recordEventFailure RunRecord.failed
  cases runFailureFromEvent event.eventType event.payload with
  | none => exact Amounts.nothing
  | some failure => exact Amounts.recordFailure runId failure

theorem amounts_applyEvent (input : SqlInput) (read : RunRecord) (event : EventDelivery)
    (inserted : Bool) :
    Amounts input (applyEvent read event inserted) read.runId fun run =>
      run.afterEvent read event inserted input.now := by
  unfold applyEvent RunRecord.afterEvent
  cases event.ending with
  | some status =>
    exact (Amounts.setStatus _ _ _).andThen (Amounts.setSubscribed _ _)
  | none =>
    by_cases hwaits : inserted = true ∧ event.eventType = "approval.request" ∧
        read.status ∉ terminalRunStatuses
    · simp only [if_pos hwaits]
      exact (amounts_failed read.runId event).andThen (Amounts.setStatus _ _ _)
    · simp only [if_neg hwaits]
      exact (amounts_failed read.runId event).andThen Amounts.nothing

def Database.afterEvent (db : Database) (nodeId : String) (run : RunRecord)
    (event : EventDelivery) (now : ℕ) : Database :=
  let stored := db.insertEvent (event.row nodeId run)
  stored.updateRun run.runId fun row =>
    (row.acknowledged run (stored.highestContiguous run.runId run.ackedEventSeq)).afterEvent run
      event (db.insertsEvent (event.row nodeId run)) now

theorem eval_handleEvent (hvalid : db.Valid) (nodeId : String) (event : EventDelivery) :
    evalSql input (handleEvent nodeId event) db =
      match db.byNodeRunId nodeId event.runId with
      | none => some (none, db)
      | some run =>
        if (event.row nodeId run).Fits then
          some (some ((db.insertEvent (event.row nodeId run)).highestContiguous run.runId
            run.ackedEventSeq), db.afterEvent nodeId run event input.now)
        else none := by
  unfold handleEvent
  rw [Program.perform_bind, eval_safe hvalid _ rfl]
  simp only [Statement.answer, Statement.effect]
  cases hfound : db.byNodeRunId nodeId event.runId with
  | none => rfl
  | some run =>
    have hstored : (event.row nodeId run).runId ∈ db.runs.map fun row => row.runId :=
      List.mem_map_of_mem (Database.byNodeRunId_spec hfound).1
    dsimp only
    rw [Program.perform_bind]
    by_cases hfits : (event.row nodeId run).Fits
    · have hkeeps : (db.insertEvent (event.row nodeId run)).Valid :=
        hvalid.insertEvent hstored hfits
      have heffect : (Statement.insertEvent (event.row nodeId run)).effect input db =
          db.insertEvent (event.row nodeId run) := if_pos hfits
      rw [if_pos hfits, eval_statement (.insertEvent (event.row nodeId run))
        (heffect.symm ▸ hkeeps), heffect]
      simp only [Statement.answer]
      rw [Program.perform_bind, eval_safe hkeeps _ rfl]
      simp only [Statement.answer, Statement.effect]
      have hrecord := amounts_recordContiguous input run
        ((db.insertEvent (event.row nodeId run)).highestContiguous run.runId run.ackedEventSeq)
      have happly := amounts_applyEvent input run event (db.insertsEvent (event.row nodeId run))
      have hboth := (hrecord.andThen happly).2 _ hkeeps
      rw [evalSql] at hboth
      rw [← Program.bind_assoc_eq, evalSql, Dialect.eval_bind, hboth]
      rfl
    · rw [if_neg hfits]
      refine eval_statement_of_not (.insertEvent (event.row nodeId run)) fun h => hfits ?_
      rw [Statement.effect, if_neg hfits] at h
      exact h.events_fit _ (List.mem_append_right _ (List.mem_singleton_self _))

/-- A run whose command was never answered. -/
def RunRecord.lost (run : RunRecord) (now : ℕ) : RunRecord :=
  { run.withStatus "lost" timeoutExtra now with subscribed := false }

def Database.expired (db : Database) (command : CommandRecord) (now : ℕ) : Database :=
  let marked := db.markIndeterminate command.commandId "no result before the command timeout" now
  if startsRun command.commandType then
    match db.byCreateCommand command.commandId with
    | none => marked
    | some run => marked.updateRun run.runId fun row => row.lost now
  else marked

theorem eval_expireCommand (hvalid : db.Valid) (command : CommandRecord) :
    evalSql input (expireCommand command) db = some ((), db.expired command input.now) := by
  have hmarked : (db.markIndeterminate command.commandId "no result before the command timeout"
      input.now).Valid := hvalid.updateCommand _ _ fun _ => rfl
  unfold expireCommand Database.expired
  rw [Program.perform_bind, eval_safe hvalid _ rfl]
  simp only [Statement.effect]
  cases startsRun command.commandType with
  | false => rfl
  | true =>
    simp only [if_true, Program.perform_bind]
    rw [eval_safe hmarked _ rfl]
    have hfound : (db.markIndeterminate command.commandId "no result before the command timeout"
        input.now).byCreateCommand command.commandId = db.byCreateCommand command.commandId := rfl
    simp only [Statement.answer, Statement.effect, hfound]
    cases db.byCreateCommand command.commandId with
    | none => rfl
    | some run =>
      have hlost : Amounts input
          (Program.perform (.setStatus run.runId "lost" timeoutExtra) >>= fun _ =>
            Program.perform (.setSubscribed run.runId false)) run.runId fun row =>
          row.lost input.now := (Amounts.setStatus _ _ _).andThen (Amounts.setSubscribed _ _)
      exact hlost.2 _ hmarked

end Event

theorem Channel.act_contents (config : ChannelConfig) (c : Channel) (op : ChannelOp) :
    (c.act config op).store.contents =
      if op.available then
        ((evalSql op.input (c.transaction config op.step) c.store.contents).map Prod.snd).getD
          c.store.contents
      else c.store.contents := by
  unfold Channel.act
  dsimp only
  split
  · exact Dialect.transact_contents _ _
  · rfl

theorem Channel.play_append_singleton (config : ChannelConfig) (c : Channel)
    (ops : List ChannelOp) (op : ChannelOp) :
    c.play config (ops ++ [op]) = (c.play config ops).act config op := by
  unfold Channel.play
  rw [List.foldl_append, List.foldl_cons, List.foldl_nil]

end Asterism.ControlPlane
