import Asterism.ControlPlane.Channel

/-!
# Task reports

An agent reports by writing rows into the board of its project. The Node stamps what it finds
there. The Control Plane checks it: the schema bounds every text, in JavaScript's units and
after JavaScript's trimming; the run must belong to the task and be its current attempt.
-/

namespace Asterism.Workdesk

open ControlPlane

/-- `TASK_STATES`: the state of a task. -/
inductive TaskState
  | backlog | ready | running | waitingInput | review | completed | failed | cancelled
  deriving DecidableEq, Repr

/-- `TASK_ACTIONS`: every action that can be asked for. -/
inductive TaskAction
  | markReady | returnToBacklog | start | cancel | complete | requestChanges | reopen
  | answerInput | runFinished | runFinishedCompleting | runFailed | runCancelled
  | agentNeedsInput | agentReportedResult | agentReportedFailure | requestCompletion
  deriving DecidableEq, Repr

/-- `COMPLETION_POLICIES`: whether an accepted explicit outcome may finish a task, or a person must
look first. -/
inductive CompletionPolicy
  | agentOutcome | explicitReview
  deriving DecidableEq, Repr

inductive RequestSource
  | user | agent | integration
  deriving DecidableEq, Repr

/-- `RequestOutcome`: the answer to a request. -/
inductive RequestOutcome
  | pending | accepted | rejected
  deriving DecidableEq, Repr

/-- What wall an agent hit. -/
inductive InputKind
  | needsInput | capability | transient | dependency
  deriving DecidableEq, Repr

/-- A row of `projects`, and whether its Node or the project itself is in Trash. -/
structure ProjectRecord where
  projectId : String
  organizationId : String
  nodeId : String
  nodeTrashed : Bool
  trashed : Bool
  deriving DecidableEq

/-- A row of `tasks`. -/
structure TaskRecord where
  taskId : String
  organizationId : String
  projectId : String
  title : String
  goal : String
  status : TaskState
  version : ℕ
  generation : ℕ
  completionPolicy : CompletionPolicy
  currentRunId : Option String
  blockedReason : Option String
  resultSummary : Option String
  resultArtifacts : List String
  deriving DecidableEq

/-- `create`: the row of a new task. -/
def TaskRecord.create (taskId organizationId projectId title goal : String) : TaskRecord where
  taskId := taskId
  organizationId := organizationId
  projectId := projectId
  title := title
  goal := goal
  status := .backlog
  version := 1
  generation := 0
  completionPolicy := .agentOutcome
  currentRunId := none
  blockedReason := none
  resultSummary := none
  resultArtifacts := []

def newCommand (commandId nodeId commandType : String) (payload : Value) : CommandRecord where
  commandId := commandId
  nodeId := nodeId
  commandType := commandType
  requestPayload := payload
  state := .queued
  dispatchedAt := none
  acknowledgedAt := none
  completedAt := none
  responsePayload := none
  errorCode := none
  errorPayload := none

/-- `create`: the row of a new run, which its command will create on the Node. -/
def newRun (runId nodeId projectId createCommandId : String) : ControlPlane.RunRecord where
  runId := runId
  nodeId := nodeId
  projectId := projectId
  nodeRunId := none
  status := "queued"
  startedAt := none
  finishedAt := none
  terminalReason := none
  errorCode := none
  errorMessage := none
  lastEventSeq := 0
  ackedEventSeq := 0
  createCommandId := some createCommandId
  subscribed := false
  model := none

/-- A row of `task_runs`. -/
structure TaskRunRow where
  taskId : String
  runId : String
  deriving DecidableEq

/-- A row of `task_requests`. -/
structure TaskRequest where
  requestId : String
  taskId : String
  source : RequestSource
  actorUserId : Option String
  actorRunId : Option String
  action : TaskAction
  observedVersion : Option ℕ
  generation : Option ℕ
  outcome : RequestOutcome
  outcomeReason : Option String
  createdAt : ℕ
  deriving DecidableEq

/-- A row of `task_input_requests`. -/
structure TaskInputRequest where
  inputRequestId : String
  taskId : String
  runId : Option String
  prompt : String
  kind : InputKind
  answeredAt : Option ℕ
  answeredBySource : Option RequestSource
  answeredByUserId : Option String
  answer : Option String
  deriving DecidableEq

/-- A row of `task_events`. -/
structure TaskEvent where
  taskId : String
  seq : ℕ
  runId : Option String
  eventType : String
  summary : String
  detail : Value
  agentReported : Bool
  deriving DecidableEq

/-- A row of `task_reports`. -/
structure TaskReportRow where
  reportId : String
  taskId : String
  runId : String
  generation : ℕ
  kind : String
  accepted : Bool
  refusalReason : Option String
  deriving DecidableEq

/-- A row of `task_plan_steps`. -/
structure PlanStep where
  stepId : String
  taskId : String
  position : ℕ
  title : String
  reportedByRunId : String
  deriving DecidableEq

/-- The tables: those of the Node channel, and those of the Workdesk. -/
structure Tables where
  database : Database
  projects : List ProjectRecord
  tasks : List TaskRecord
  taskRuns : List TaskRunRow
  requests : List TaskRequest
  inputRequests : List TaskInputRequest
  events : List TaskEvent
  reports : List TaskReportRow
  planSteps : List PlanStep
  deriving DecidableEq

/-- The completion is waiting for its run to end. -/
def TaskRequest.isWaiting (row : TaskRequest) : Bool :=
  row.action = .complete && row.outcome = .pending

/-- The index `task_requests_one_pending_completion`. -/
def TaskRequest.pendingKey (row : TaskRequest) : Option (String × ℕ) :=
  if row.isWaiting then row.generation.map fun generation => (row.taskId, generation) else none

namespace Tables

/-- The constraints of the tables of tasks, from the migrations. -/
structure Valid (t : Tables) : Prop where
  database : t.database.Valid
  tasks_primary : Table.Unique (fun row => some row.taskId) t.tasks
  tasks_currentRun : Table.Unique (fun row => row.currentRunId) t.tasks
  taskRuns_primary : Table.Unique (fun row => some row.runId) t.taskRuns
  requests_primary : Table.Unique (fun row => some row.requestId) t.requests
  requests_pending : Table.Unique TaskRequest.pendingKey t.requests
  inputRequests_primary : Table.Unique (fun row => some row.inputRequestId) t.inputRequests
  events_unique : Table.Unique (fun row => some (row.taskId, row.seq)) t.events
  reports_primary : Table.Unique (fun row => some row.reportId) t.reports
  tasks_run : ∀ id ∈ t.tasks.filterMap fun row => row.currentRunId,
    id ∈ t.database.runs.map fun run => run.runId
  taskRuns_run : ∀ id ∈ t.taskRuns.map fun row => row.runId,
    id ∈ t.database.runs.map fun run => run.runId
  requests_run : ∀ id ∈ t.requests.filterMap fun row => row.actorRunId,
    id ∈ t.database.runs.map fun run => run.runId

instance : DecidablePred Valid := fun t =>
  decidable_of_iff
    (t.database.Valid ∧ Table.Unique (fun row => some row.taskId) t.tasks ∧
      Table.Unique (fun row => row.currentRunId) t.tasks ∧
      Table.Unique (fun row => some row.runId) t.taskRuns ∧
      Table.Unique (fun row => some row.requestId) t.requests ∧
      Table.Unique TaskRequest.pendingKey t.requests ∧
      Table.Unique (fun row => some row.inputRequestId) t.inputRequests ∧
      Table.Unique (fun row => some (row.taskId, row.seq)) t.events ∧
      Table.Unique (fun row => some row.reportId) t.reports ∧
      (∀ id ∈ t.tasks.filterMap fun row => row.currentRunId,
        id ∈ t.database.runs.map fun run => run.runId) ∧
      (∀ id ∈ t.taskRuns.map fun row => row.runId,
        id ∈ t.database.runs.map fun run => run.runId) ∧
      ∀ id ∈ t.requests.filterMap fun row => row.actorRunId,
        id ∈ t.database.runs.map fun run => run.runId)
    ⟨fun ⟨h1, h2, h3, h4, h5, h6, h7, h8, h9, h10, h11, h12⟩ =>
        ⟨h1, h2, h3, h4, h5, h6, h7, h8, h9, h10, h11, h12⟩,
      fun ⟨h1, h2, h3, h4, h5, h6, h7, h8, h9, h10, h11, h12⟩ =>
        ⟨h1, h2, h3, h4, h5, h6, h7, h8, h9, h10, h11, h12⟩⟩

def run (t : Tables) (runId : String) : Option ControlPlane.RunRecord := t.database.runById runId

end Tables

end Asterism.Workdesk

namespace Asterism

namespace ControlPlane.Schema

variable {α : Type}

/-- `z.string().trim().min().max()`. -/
def trimmed (least most : ℕ) : Schema String
  | .string text => string least most (.string (Js.trim text))
  | _ => none

/-- `z.array().max()`. -/
def array (schema : Schema α) (most : ℕ) : Schema (List α)
  | .array items => if items.length ≤ most then items.mapM schema else none
  | _ => none

def natural : Schema ℕ := fun value => (nonnegative value).map Int.toNat

end ControlPlane.Schema

namespace Workdesk

open ControlPlane

/-- What the tool call of an agent said. -/
inductive ReportBody
  | activity (note : String)
  | note (body : String)
  | plan (steps : List String)
  | blocked (reason : String) (kind : InputKind)
  | resultReady (summary : String) (artifacts : List String)
  | completionRequested (summary : String) (artifacts : List String)
  deriving DecidableEq

/-- `TaskReport`: a report, as the Control Plane reads it. -/
structure TaskReport where
  reportId : String
  taskId : String
  runId : String
  generation : ℕ
  sourceSeq : ℕ
  body : ReportBody
  deriving DecidableEq

def InputKind.schema : Schema InputKind
  | .string "needs_input" => some .needsInput
  | .string "capability" => some .capability
  | .string "transient" => some .transient
  | .string "dependency" => some .dependency
  | _ => none

def artifactsSchema : Schema (List String) := Schema.array (Schema.trimmed 1 1000) 64

/-- The part of `TaskReportSchema` about what was reported. -/
def ReportBody.schema : Schema ReportBody := fun payload => do
  match ← textField payload "report" with
  | "activity" => return activity (← Schema.field "note" (Schema.trimmed 1 2000) payload)
  | "note" => return note (← Schema.field "body" (Schema.trimmed 1 20000) payload)
  | "blocked" =>
    return blocked (← Schema.field "reason" (Schema.trimmed 1 4000) payload)
      (← Schema.field "kind" InputKind.schema payload)
  | "result_ready" =>
    return resultReady (← Schema.field "summary" (Schema.trimmed 1 20000) payload)
      (← Schema.field "artifacts" artifactsSchema payload)
  | "completion_requested" =>
    return completionRequested (← Schema.field "summary" (Schema.trimmed 1 20000) payload)
      (← Schema.field "artifacts" artifactsSchema payload)
  | "plan" =>
    return plan (← Schema.field "steps" (Schema.array (Schema.trimmed 1 500) 64) payload)
  | _ => none

/-- `TaskReportSchema`: the schema of a report. -/
def TaskReport.schema : Schema TaskReport := fun payload => do
  let reportId ← Schema.field "report_id" (Schema.trimmed 1 300) payload
  let taskId ← Schema.field "task_id" (Schema.trimmed 1 200) payload
  let runId ← Schema.field "run_id" (Schema.trimmed 1 200) payload
  let generation ← Schema.field "generation" Schema.natural payload
  let sourceSeq ← Schema.field "source_seq" Schema.natural payload
  let body ← Schema.field "report" ReportBody.schema payload
  return ⟨reportId, taskId, runId, generation, sourceSeq, body⟩

/-- `handleTaskReport` finds that the run has ended. -/
def hasEnded (run : Option ControlPlane.RunRecord) : Bool :=
  run.any fun row => row.status ∈ terminalRunStatuses

namespace Tables

/-- `handleTaskReport` finds the run attached to the task. -/
def isAttached (t : Tables) (taskId runId : String) : Bool :=
  t.taskRuns.any fun row => row.taskId = taskId && row.runId = runId

/-- Why `handleTaskReport` refuses a report. -/
def refusal (t : Tables) (report : TaskReport) (task : TaskRecord) : Option String :=
  if !t.isAttached report.taskId report.runId then
    some "That report names a run that does not belong to this task."
  else if task.generation ≠ report.generation then
    some "That report came from an earlier attempt at this task."
  else if !hasEnded (t.run report.runId) && task.currentRunId ≠ some report.runId then
    some "That report came from a run that has been superseded."
  else none

variable {t : Tables} {report : TaskReport}

theorem Valid.mem_runs_of_isAttached (h : t.Valid) {taskId runId : String}
    (hattached : t.isAttached taskId runId = true) :
    runId ∈ t.database.runs.map fun run => run.runId := by
  obtain ⟨row, hrow, hids⟩ := List.any_eq_true.mp hattached
  simp only [Bool.and_eq_true, decide_eq_true_eq] at hids
  exact h.taskRuns_run runId (List.mem_map.mpr ⟨row, hrow, hids.2⟩)

end Tables

end Workdesk

end Asterism

/-! # The board of an agent and its reports -/

namespace Asterism.Board

/-- `CardBinding`: the binding of a minted card. -/
structure CardBinding where
  cardId : String
  projectId : String
  taskId : String
  runId : String
  generation : ℤ
  deriving DecidableEq

/-- `TaskBinding`: the task attached to a command that creates a run. -/
structure TaskBinding where
  taskId : String
  generation : ℤ
  deriving DecidableEq

/-- `MalformedTask`: why an attachment could not be read. -/
inductive MalformedTask
  | notAnObject
  | missingTaskId
  | emptyTaskId
  | missingGeneration
  | negativeGeneration
  deriving DecidableEq

/-- `TaskAttachment`: what the attachment of a command turned out to be. -/
inductive TaskAttachment
  | absent
  | malformed (reason : MalformedTask) (taskId : Option String)
  | present (binding : TaskBinding)
  deriving DecidableEq

/-- `from_payload`: read the attachment out of the payload of a command. -/
def TaskAttachment.fromPayload (payload : Value) : TaskAttachment :=
  match payload.get "task" with
  | none | some .null => .absent
  | some (.object fields) =>
    let task := Value.object fields
    match (task.get "task_id").bind Value.asStr with
    | none => .malformed .missingTaskId none
    | some raw =>
      if Text.trim raw = "" then .malformed .emptyTaskId none
      else
        match (task.get "generation").bind Value.asI64 with
        | none => .malformed .missingGeneration (some (Text.trim raw))
        | some generation =>
          if generation < 0 then .malformed .negativeGeneration (some (Text.trim raw))
          else .present ⟨Text.trim raw, generation⟩
  | some _ => .malformed .notAnObject none

/-- `new_run_id`: the identifier of a run, from the twelve bytes drawn for it. -/
def newRunId (drawn : ℕ) : String := "arun_" ++ String.ofList (Text.hex 24 drawn)

/-- `mint_card`: the identifier of a card, from the sixteen bytes drawn for it. -/
def newCardId (drawn : ℕ) : String := "ast-" ++ String.ofList (Text.hex 32 drawn)

/-- The `CardBinding` for a run that was created with a task attached. -/
def TaskBinding.bound (binding : TaskBinding) (projectId : String) (card run : ℕ) :
    CardBinding where
  cardId := newCardId card
  projectId := projectId
  taskId := binding.taskId
  runId := newRunId run
  generation := binding.generation

/-- `AgentReport`: what the agent reported. -/
inductive AgentReport
  | activity (note : String)
  | note (body : String)
  | blocked (reason kind : String)
  | resultReady (summary : String) (artifacts : List String)
  | completionRequested (summary : String) (artifacts : List String)
  | plan (steps : List String)
  deriving DecidableEq

def texts (items : List String) : Value := .array (items.map Value.string)

def AgentReport.toValue : AgentReport → Value
  | activity text => Value.obj [("report", .string "activity"), ("note", .string text)]
  | note body => Value.obj [("report", .string "note"), ("body", .string body)]
  | blocked reason kind =>
    Value.obj [("report", .string "blocked"), ("reason", .string reason), ("kind", .string kind)]
  | resultReady summary artifacts =>
    Value.obj [("report", .string "result_ready"), ("summary", .string summary),
      ("artifacts", texts artifacts)]
  | completionRequested summary artifacts =>
    Value.obj [("report", .string "completion_requested"), ("summary", .string summary),
      ("artifacts", texts artifacts)]
  | plan steps => Value.obj [("report", .string "plan"), ("steps", texts steps)]

/-- `ReportStream`: the two streams of rows, each with a cursor of its own. -/
inductive ReportStream
  | event
  | comment
  deriving DecidableEq

/-- `tag`: the name of a stream. -/
def ReportStream.tag : ReportStream → String
  | event => "event"
  | comment => "comment"

/-- `StampedReport`: a report with what identifies it. -/
structure StampedReport where
  reportId : String
  taskId : String
  runId : String
  generation : ℤ
  sourceSeq : ℕ
  report : AgentReport
  deriving DecidableEq

/-- `stamp`: stamp the report of one row. -/
def stamp (binding : CardBinding) (stream : ReportStream) (sourceSeq : ℕ) (report : AgentReport) :
    StampedReport where
  reportId := binding.cardId ++ ":" ++ stream.tag ++ ":" ++ Text.decimal sourceSeq
  taskId := binding.taskId
  runId := binding.runId
  generation := binding.generation
  sourceSeq := sourceSeq
  report := report

def StampedReport.toValue (stamped : StampedReport) : Value :=
  Value.obj [("report_id", .string stamped.reportId), ("task_id", .string stamped.taskId),
    ("run_id", .string stamped.runId), ("generation", .number (.int stamped.generation)),
    ("source_seq", .number (.int stamped.sourceSeq)), ("report", stamped.report.toValue)]

structure EventRow where
  id : ℕ
  kind : String
  payload : Option String
  deriving DecidableEq

structure CommentRow where
  id : ℕ
  body : String
  deriving DecidableEq

/-- The columns of a card that `read_board` reads. -/
structure Card where
  result : Option String
  blockKind : Option String
  deriving DecidableEq

/-- What one reading of the board finds of a card. The rows come in the order of their identifiers,
which are positive integers of 64 bits. -/
structure Reading where
  card : Option Card
  events : List EventRow
  comments : List CommentRow
  events_ordered : events.Pairwise fun a b => a.id < b.id
  comments_ordered : comments.Pairwise fun a b => a.id < b.id
  events_bounded : ∀ row ∈ events, row.id < 2 ^ 63
  comments_bounded : ∀ row ∈ comments, row.id < 2 ^ 63

section Reports

-- What the text of a payload parses to.
variable (parse : String → Option Value)

/-- A text in the payload of an event, without surrounding white space. -/
def payloadText (payload : Option String) (name : String) : Option String :=
  (((payload.bind parse).bind fun value => value.get name).bind Value.asStr).map Text.trim
    |>.filter fun text => text ≠ ""

/-- The texts among the artifacts in the payload of an event. -/
def payloadArtifacts (payload : Option String) : List String :=
  match (payload.bind parse).bind fun value => value.get "artifacts" with
  | some (.array items) => items.filterMap Value.asStr
  | _ => []

/-- `report_for_event`: what an event says the outcome is, or else what the card says. -/
def summary (card : Card) (payload : Option String) : Option String :=
  (payloadText parse payload "summary").or card.result

/-- `report_for_event`: the report an event becomes, if any. -/
def reportForEvent (card : Card) (row : EventRow) : Option AgentReport :=
  match row.kind with
  | "heartbeat" => some (.activity ((payloadText parse row.payload "note").getD "still working"))
  | "blocked" =>
    some (.blocked
      ((payloadText parse row.payload "reason").getD "The agent stopped without saying why.")
      (card.blockKind.getD "needs_input"))
  | "review" =>
    (summary parse card row.payload).map fun text =>
      .resultReady text (payloadArtifacts parse row.payload)
  | "completed" | "done" =>
    (summary parse card row.payload).map fun text =>
      .completionRequested text (payloadArtifacts parse row.payload)
  | _ => none

/-- The report a comment becomes, if any. -/
def reportForComment (row : CommentRow) : Option AgentReport :=
  if Text.trim row.body = "" then none else some (.note row.body)

/-- `BoardPass`: what one pass over the rows of a card found, with the cursors to store. -/
structure BoardPass where
  reports : List (ReportStream × ℕ × AgentReport)
  eventCursor : ℕ
  commentCursor : ℕ
  deriving DecidableEq

def Reading.newEvents (reading : Reading) (after : ℕ) : List EventRow :=
  reading.events.filter fun row => after < row.id

def Reading.newComments (reading : Reading) (after : ℕ) : List CommentRow :=
  reading.comments.filter fun row => after < row.id

def eventEntry (card : Card) (row : EventRow) : Option (ReportStream × ℕ × AgentReport) :=
  (reportForEvent parse card row).map fun report => (.event, row.id, report)

def commentEntry (row : CommentRow) : Option (ReportStream × ℕ × AgentReport) :=
  (reportForComment row).map fun report => (.comment, row.id, report)

/-- `read_board`: read everything new on one card. -/
def readBoard (reading : Reading) (afterEvent afterComment : ℕ) : BoardPass :=
  match reading.card with
  | none => ⟨[], afterEvent, afterComment⟩
  | some card =>
    let events := reading.newEvents afterEvent
    let comments := reading.newComments afterComment
    ⟨events.filterMap (eventEntry parse card) ++ comments.filterMap commentEntry,
      events.foldl (fun cursor row => max cursor row.id) afterEvent,
      comments.foldl (fun cursor row => max cursor row.id) afterComment⟩

end Reports

end Asterism.Board

/-! ## Stamped reports at the Control Plane -/

namespace Asterism

namespace ControlPlane

/-- There is no space in the text. -/
def Js.NoSpace (text : String) : Prop := ∀ c ∈ text.toList, Js.isSpace c = false

instance (text : String) : Decidable (Js.NoSpace text) :=
  decidable_of_iff (text.toList.all fun c => !Js.isSpace c) (by
    simp only [List.all_eq_true, Bool.not_eq_true']
    rfl)

theorem Js.NoSpace.append {first second : String} (h : Js.NoSpace first)
    (h' : Js.NoSpace second) : Js.NoSpace (first ++ second) := by
  intro c hc
  rw [String.toList_append] at hc
  exact (List.mem_append.mp hc).elim (h c) (h' c)

theorem Js.NoSpace.trim_eq {text : String} (h : Js.NoSpace text) : Js.trim text = text := by
  have hstart : text.toList.dropWhile Js.isSpace = text.toList := by
    refine List.dropWhile_eq_self_iff.mpr fun hlength => ?_
    rw [h _ (List.getElem_mem hlength)]
    exact Bool.false_ne_true
  have hend : text.toList.rdropWhile Js.isSpace = text.toList := by
    refine List.rdropWhile_eq_self_iff.mpr fun hne => ?_
    rw [h _ (List.getLast_mem hne)]
    exact Bool.false_ne_true
  rw [Js.trim, hstart, hend, String.ofList_toList]

namespace Schema

/-- A text that a trimming schema accepts. -/
def Fits (most : ℕ) (text : String) : Prop :=
  1 ≤ units (Js.trim text) ∧ units (Js.trim text) ≤ most

instance (most : ℕ) (text : String) : Decidable (Fits most text) :=
  inferInstanceAs (Decidable (_ ∧ _))

theorem trimmed_string (most : ℕ) (text : String) :
    trimmed 1 most (.string text) = if Fits most text then some (Js.trim text) else none := rfl

theorem trimmed_isSome_iff {most : ℕ} {text : String} :
    (trimmed 1 most (.string text)).isSome = true ↔ Fits most text := by
  rw [trimmed_string]
  split
  next h => exact iff_of_true rfl h
  next h => exact iff_of_false Bool.false_ne_true h

theorem trimmed_of_noSpace {most : ℕ} {text : String} (h : Js.NoSpace text)
    (hlength : 0 < Text.len text ∧ Text.len text ≤ most) :
    trimmed 1 most (.string text) = some text := by
  have hne : text ≠ "" := by
    rintro rfl
    exact absurd hlength.1 (by decide)
  have hfits : Fits most text := by
    unfold Fits
    rw [h.trim_eq]
    exact ⟨units_pos hne, (units_le_len text).trans hlength.2⟩
  rw [trimmed_string, if_pos hfits, h.trim_eq]

theorem array_isSome_iff {most length : ℕ} {items : List String} :
    (array (trimmed 1 most) length (Board.texts items)).isSome = true ↔
      items.length ≤ length ∧ ∀ item ∈ items, Fits most item := by
  have hitems : ((items.map Value.string).mapM (trimmed 1 most)).isSome = true ↔
      ∀ item ∈ items, Fits most item := by
    induction items with
    | nil => exact iff_of_true rfl fun item hitem => by cases hitem
    | cons item items ih =>
      rw [List.forall_mem_cons, ← ih, ← trimmed_isSome_iff, List.map_cons, List.mapM_cons]
      cases trimmed 1 most (.string item) with
      | none => exact iff_of_false Bool.false_ne_true fun h => Bool.false_ne_true h.1
      | some text =>
        cases (items.map Value.string).mapM (trimmed 1 most) with
        | none => exact iff_of_false Bool.false_ne_true fun h => Bool.false_ne_true h.2
        | some texts => exact iff_of_true rfl ⟨rfl, rfl⟩
  rw [← hitems, Board.texts, array, List.length_map]
  split
  next h => exact ⟨fun hsome => ⟨h, hsome⟩, fun hboth => hboth.2⟩
  next h => exact iff_of_false Bool.false_ne_true fun hboth => h hboth.1

end Schema

end ControlPlane

namespace Workdesk

open ControlPlane ControlPlane.Schema Board

/-- The kinds of block the Control Plane knows. -/
def blockKinds : List String := ["needs_input", "capability", "transient", "dependency"]

/-- What the agent reported is within the bounds of the schema. -/
def ReportFits : AgentReport → Prop
  | .activity text => Fits 2000 text
  | .note body => Fits 20000 body
  | .blocked reason kind => Fits 4000 reason ∧ kind ∈ blockKinds
  | .resultReady summary artifacts | .completionRequested summary artifacts =>
    Fits 20000 summary ∧ artifacts.length ≤ 64 ∧ ∀ artifact ∈ artifacts, Fits 1000 artifact
  | .plan steps => steps.length ≤ 64 ∧ ∀ step ∈ steps, Fits 500 step

theorem kind_isSome_iff {kind : String} :
    (InputKind.schema (.string kind)).isSome = true ↔ kind ∈ blockKinds := by
  unfold InputKind.schema
  split
  all_goals simp_all [blockKinds]

theorem isSome_one {α β : Type} (x : Option α) (f : α → β) :
    (x.bind fun a => some (f a)).isSome = true ↔ x.isSome = true := by
  cases x with
  | none => exact Iff.rfl
  | some a => exact Iff.rfl

theorem isSome_two {α β γ : Type} (x : Option α) (y : Option β) (f : α → β → γ) :
    (x.bind fun a => y.bind fun b => some (f a b)).isSome = true ↔
      x.isSome = true ∧ y.isSome = true := by
  cases x with
  | none => exact iff_of_false Bool.false_ne_true fun h => Bool.false_ne_true h.1
  | some a =>
    rw [Option.bind_some, isSome_one]
    exact (and_iff_right rfl).symm

/-- What the schema makes of a report, part by part. -/
def readReport : AgentReport → Option ReportBody
  | .activity text => (trimmed 1 2000 (.string text)).bind fun note => some (.activity note)
  | .note body => (trimmed 1 20000 (.string body)).bind fun text => some (.note text)
  | .blocked reason kind => (trimmed 1 4000 (.string reason)).bind fun text =>
      (InputKind.schema (.string kind)).bind fun found => some (.blocked text found)
  | .resultReady summary artifacts => (trimmed 1 20000 (.string summary)).bind fun text =>
      (artifactsSchema (texts artifacts)).bind fun found => some (.resultReady text found)
  | .completionRequested summary artifacts => (trimmed 1 20000 (.string summary)).bind fun text =>
      (artifactsSchema (texts artifacts)).bind fun found => some (.completionRequested text found)
  | .plan steps => (array (trimmed 1 500) 64 (texts steps)).bind fun found => some (.plan found)

theorem schema_toValue (report : AgentReport) :
    ReportBody.schema report.toValue = readReport report := by
  cases report with
  | activity | note | blocked | resultReady | completionRequested | plan =>
    simp [ReportBody.schema, AgentReport.toValue, textField, Schema.field, Value.get_obj,
      Value.asStr, readReport]

theorem body_isSome_iff (report : AgentReport) :
    (ReportBody.schema report.toValue).isSome = true ↔ ReportFits report := by
  rw [schema_toValue]
  cases report with
  | activity text => rw [readReport, isSome_one, trimmed_isSome_iff, ReportFits]
  | note body => rw [readReport, isSome_one, trimmed_isSome_iff, ReportFits]
  | blocked reason kind =>
    rw [readReport, isSome_two, trimmed_isSome_iff, kind_isSome_iff, ReportFits]
  | resultReady summary artifacts =>
    rw [readReport, isSome_two, trimmed_isSome_iff, artifactsSchema, array_isSome_iff, ReportFits]
  | completionRequested summary artifacts =>
    rw [readReport, isSome_two, trimmed_isSome_iff, artifactsSchema, array_isSome_iff, ReportFits]
  | plan steps => rw [readReport, isSome_one, array_isSome_iff, ReportFits]

/-- A binding as the Node records it: identifiers it drew, a task it was told, and a
generation that is not negative. -/
structure Minted (binding : CardBinding) : Prop where
  card : ∃ drawn, binding.cardId = newCardId drawn
  run : ∃ drawn, binding.runId = newRunId drawn
  generation : 0 ≤ binding.generation

theorem minted_bound {payload : Value} {binding : TaskBinding}
    (h : TaskAttachment.fromPayload payload = .present binding) (projectId : String)
    (card run : ℕ) : Minted (binding.bound projectId card run) := by
  refine ⟨⟨card, rfl⟩, ⟨run, rfl⟩, ?_⟩
  unfold TaskAttachment.fromPayload at h
  split at h
  · cases h
  · cases h
  · dsimp only at h
    split at h
    · cases h
    split at h
    · cases h
    split at h
    · cases h
    split at h
    · cases h
    next hgeneration =>
      cases h
      exact Int.not_lt.mp hgeneration
  · cases h

theorem noSpace_decimal (n : ℕ) : Js.NoSpace (Text.decimal n) := by
  intro c hc
  rw [Text.decimal, String.toList_ofList] at hc
  have hdigit := Nat.isDigit_of_mem_toDigits (by decide) (by decide) hc
  simp only [Char.isDigit, Bool.and_eq_true, decide_eq_true_eq] at hdigit
  have hleast : 48 ≤ c.toNat := UInt32.le_iff_toNat_le.mp hdigit.1
  have hmost : c.toNat ≤ 57 := UInt32.le_iff_toNat_le.mp hdigit.2
  simp only [Js.isSpace, Bool.or_eq_false_iff, Bool.and_eq_false_iff, decide_eq_false_iff_not,
    beq_eq_false_iff_ne]
  omega

theorem noSpace_hex (width drawn : ℕ) : Js.NoSpace (String.ofList (Text.hex width drawn)) := by
  intro c hc
  rw [String.toList_ofList] at hc
  obtain ⟨k, hk, rfl⟩ := Text.mem_hex hc
  have hall : ∀ k : Fin 16, Js.isSpace (Text.hexDigit k) = false := by decide
  exact hall ⟨k, hk⟩

theorem len_hex (width drawn : ℕ) : Text.len (String.ofList (Text.hex width drawn)) = width := by
  have hsingle : ∀ c ∈ Text.hex width drawn, c.utf8Size = 1 := by
    intro c hc
    obtain ⟨k, hk, rfl⟩ := Text.mem_hex hc
    have hall : ∀ k : Fin 16, (Text.hexDigit k).utf8Size = 1 := by decide
    exact hall ⟨k, hk⟩
  rw [Text.len, String.toList_ofList, Text.byteCount_of_single hsingle, Text.length_hex]

theorem len_append (first second : String) :
    Text.len (first ++ second) = Text.len first + Text.len second := by
  rw [Text.len, String.toList_append, Text.byteCount_append]
  rfl

/-- The Control Plane reads the identifier of a run as the Node assigned it. -/
theorem trimmed_newRunId (drawn : ℕ) :
    trimmed 1 200 (.string (newRunId drawn)) = some (newRunId drawn) := by
  refine trimmed_of_noSpace (Js.NoSpace.append (by decide) (noSpace_hex 24 drawn)) ?_
  have hlength : Text.len (newRunId drawn) = 29 := by
    rw [newRunId, len_append, len_hex]
    rfl
  omega

/-- The Control Plane reads the identifier of a report as the Node stamped it. -/
theorem trimmed_reportId {binding : CardBinding}
    (hcard : ∃ drawn, binding.cardId = newCardId drawn) (stream : ReportStream) {seq : ℕ}
    (hseq : seq < 2 ^ 63) (report : AgentReport) :
    trimmed 1 300 (.string (stamp binding stream seq report).reportId) =
      some (stamp binding stream seq report).reportId := by
  obtain ⟨drawn, hcard⟩ := hcard
  have hcardId : Js.NoSpace binding.cardId := by
    rw [hcard]
    exact Js.NoSpace.append (by decide) (noSpace_hex 32 drawn)
  have htag : Js.NoSpace stream.tag ∧ Text.len stream.tag ≤ 7 := by
    cases stream <;> exact ⟨by decide, by decide⟩
  refine trimmed_of_noSpace ?_ ?_
  · have hcolon : Js.NoSpace ":" := by decide
    exact (((hcardId.append hcolon).append htag.1).append hcolon).append (noSpace_decimal seq)
  · have hcardLength : Text.len binding.cardId = 36 := by
      rw [hcard, newCardId, len_append, len_hex]
      rfl
    have hcolon : Text.len ":" = 1 := rfl
    have hdigits := Value.len_decimal_le (n := seq) (by omega)
    simp only [stamp, len_append, hcardLength, hcolon]
    omega

/-- The answer of `handleTaskReport` to a report that can be read. -/
def acknowledgement (payload : Value) : Option String :=
  (TaskReport.schema payload).map fun report => report.reportId

theorem schema_stamped (stamped : StampedReport) :
    TaskReport.schema stamped.toValue =
      (trimmed 1 300 (.string stamped.reportId)).bind fun reportId =>
        (trimmed 1 200 (.string stamped.taskId)).bind fun taskId =>
          (trimmed 1 200 (.string stamped.runId)).bind fun runId =>
            (natural (.number (.int stamped.generation))).bind fun generation =>
              (natural (.number (.int stamped.sourceSeq))).bind fun sourceSeq =>
                (ReportBody.schema stamped.report.toValue).bind fun body =>
                  some ⟨reportId, taskId, runId, generation, sourceSeq, body⟩ := by
  simp [TaskReport.schema, StampedReport.toValue, Schema.field, Value.get_obj]

/-- What the Control Plane reads of a report stamped from a minted card: the identifiers as
the Node assigned them, the rest if it is within bounds. -/
theorem schema_stamp {binding : CardBinding} (hminted : Minted binding) (stream : ReportStream)
    {seq : ℕ} (hseq : seq < 2 ^ 63) (report : AgentReport) :
    TaskReport.schema (stamp binding stream seq report).toValue =
      (trimmed 1 200 (.string binding.taskId)).bind fun taskId =>
        (ReportBody.schema report.toValue).bind fun body =>
          some ⟨(stamp binding stream seq report).reportId, taskId, binding.runId,
            binding.generation.toNat, seq, body⟩ := by
  obtain ⟨drawn, hrun⟩ := hminted.run
  have hnatural {n : ℤ} (hn : 0 ≤ n) : natural (.number (.int n)) = some n.toNat := by
    simp only [natural, nonnegative, int, Option.filter_some, hn, decide_true, if_true,
      Option.map_some]
  have hid : trimmed 1 200 (.string (stamp binding stream seq report).runId) =
      some binding.runId := by
    have hsame : (stamp binding stream seq report).runId = newRunId drawn := hrun
    rw [hsame, hrun]
    exact trimmed_newRunId drawn
  rw [schema_stamped, trimmed_reportId hminted.card stream hseq report, Option.bind_some, hid,
    hnatural (n := (stamp binding stream seq report).generation) hminted.generation,
    hnatural (n := ((stamp binding stream seq report).sourceSeq : ℤ)) (Int.natCast_nonneg _)]
  rfl

/-- A report is acknowledged under its own identifier exactly if the task's identifier and
what the agent wrote are within the bounds of the schema. -/
theorem acknowledgement_stamp_iff {binding : CardBinding} (hminted : Minted binding)
    (stream : ReportStream) {seq : ℕ} (hseq : seq < 2 ^ 63) (report : AgentReport) :
    acknowledgement (stamp binding stream seq report).toValue =
        some (stamp binding stream seq report).reportId ↔
      Fits 200 binding.taskId ∧ ReportFits report := by
  rw [acknowledgement, schema_stamp hminted stream hseq, ← body_isSome_iff,
    ← trimmed_isSome_iff]
  cases trimmed 1 200 (.string binding.taskId) with
  | none => exact iff_of_false (fun h => by cases h) fun h => Bool.false_ne_true h.1
  | some taskId =>
    cases ReportBody.schema report.toValue with
    | none => exact iff_of_false (fun h => by cases h) fun h => Bool.false_ne_true h.2
    | some body => exact iff_of_true rfl ⟨rfl, rfl⟩

section Bounds

variable (parse : String → Option Value)

/-- What an event row says is within the bounds of the schema. -/
def EventFits (card : Card) (row : Board.EventRow) : Prop :=
  match row.kind with
  | "heartbeat" => ∀ text ∈ payloadText parse row.payload "note", Fits 2000 text
  | "blocked" =>
    (∀ text ∈ payloadText parse row.payload "reason", Fits 4000 text) ∧
      ∀ kind ∈ card.blockKind, kind ∈ blockKinds
  | "review" | "completed" | "done" =>
    ∀ text ∈ Board.summary parse card row.payload, Fits 20000 text ∧
      (payloadArtifacts parse row.payload).length ≤ 64 ∧
      ∀ artifact ∈ payloadArtifacts parse row.payload, Fits 1000 artifact
  | _ => True

theorem forall_mem_some_iff {α : Type} {P : α → Prop} {a : α} : (∀ b ∈ some a, P b) ↔ P a :=
  ⟨fun h => h a rfl, fun h _ hb => Option.some.inj hb ▸ h⟩

theorem getD_iff {α : Type} {P : α → Prop} {default : α} (hdefault : P default)
    (found : Option α) : P (found.getD default) ↔ ∀ a ∈ found, P a := by
  cases found with
  | none => exact iff_of_true hdefault fun a ha => by cases ha
  | some a => exact forall_mem_some_iff.symm

theorem forall_mem_map_iff {α β : Type} {P : β → Prop} {f : α → β} (found : Option α) :
    (∀ b ∈ found.map f, P b) ↔ ∀ a ∈ found, P (f a) := by
  cases found with
  | none => exact iff_of_true (fun b hb => by cases hb) fun a ha => by cases ha
  | some a => exact forall_mem_some_iff.trans (forall_mem_some_iff (P := fun a => P (f a))).symm

/-- The report of an event row is within the bounds exactly if what the row says is. -/
theorem eventFits_iff (card : Card) (row : Board.EventRow) :
    (∀ report ∈ reportForEvent parse card row, ReportFits report) ↔ EventFits parse card row := by
  obtain ⟨id, kind, payload⟩ := row
  dsimp only [reportForEvent, EventFits]
  split
  · have hdefault : Fits 2000 "still working" := by decide
    exact forall_mem_some_iff.trans (getD_iff hdefault _)
  · have hreason : Fits 4000 "The agent stopped without saying why." := by decide
    have hkind : "needs_input" ∈ blockKinds := by decide
    exact forall_mem_some_iff.trans (and_congr (getD_iff hreason _) (getD_iff hkind _))
  · exact forall_mem_map_iff _
  · exact forall_mem_map_iff _
  · exact forall_mem_map_iff _
  · exact iff_of_true (fun report hreport => by cases hreport) trivial

theorem forall_mem_filterMap_iff {α β : Type} {P : β → Prop} {f : α → Option β} {rows : List α} :
    (∀ b ∈ rows.filterMap f, P b) ↔ ∀ row ∈ rows, ∀ b ∈ f row, P b := by
  constructor
  · exact fun h row hrow b hb => h b (List.mem_filterMap.mpr ⟨row, hrow, hb⟩)
  · intro h b hb
    obtain ⟨row, hrow, hb⟩ := List.mem_filterMap.mp hb
    exact h row hrow b hb

/-- Every report the Node queues from a reading of the board is acknowledged exactly if the
rows that are forwarded, and the identifier of the task they are for, are within the bounds
of the schema. -/
theorem queued_reports_acknowledged_iff (reading : Reading) {binding : CardBinding}
    (hminted : Minted binding) (afterEvent afterComment : ℕ) :
    (∀ entry ∈ (readBoard parse reading afterEvent afterComment).reports,
        acknowledgement (stamp binding entry.1 entry.2.1 entry.2.2).toValue =
          some (stamp binding entry.1 entry.2.1 entry.2.2).reportId) ↔
      ∀ card ∈ reading.card,
        (∀ row ∈ reading.newEvents afterEvent, (reportForEvent parse card row).isSome = true →
          Fits 200 binding.taskId ∧ EventFits parse card row) ∧
        ∀ row ∈ reading.newComments afterComment, Text.trim row.body ≠ "" →
          Fits 200 binding.taskId ∧ Fits 20000 row.body := by
  unfold readBoard
  cases hcard : reading.card with
  | none => exact iff_of_true (fun entry hentry => by cases hentry) fun card h => by cases h
  | some card =>
    rw [forall_mem_some_iff]
    simp only [List.forall_mem_append, forall_mem_filterMap_iff]
    refine and_congr (forall_congr' fun row => forall_congr' fun hrow => ?_)
      (forall_congr' fun row => forall_congr' fun hrow => ?_)
    · have hbound := reading.events_bounded row (List.mem_of_mem_filter hrow)
      rw [eventEntry, forall_mem_map_iff, ← eventFits_iff]
      simp only [acknowledgement_stamp_iff hminted _ hbound]
      cases reportForEvent parse card row with
      | none =>
        exact iff_of_true (fun report hreport => by cases hreport) fun h => absurd h (by decide)
      | some report =>
        simp only [forall_mem_some_iff, Option.isSome_some, forall_const]
    · have hbound := reading.comments_bounded row (List.mem_of_mem_filter hrow)
      rw [commentEntry, forall_mem_map_iff]
      simp only [acknowledgement_stamp_iff hminted _ hbound, reportForComment]
      split
      next hblank =>
        exact iff_of_true (fun report hreport => by cases hreport) fun h => absurd hblank h
      next hbody =>
        rw [forall_mem_some_iff]
        exact ⟨fun h _ => h, fun h => h hbody⟩

end Bounds

def commented (body : String) : Reading where
  card := some ⟨none, none⟩
  events := []
  comments := [⟨1, body⟩]
  events_ordered := List.Pairwise.nil
  comments_ordered := List.pairwise_singleton _ _
  events_bounded := fun row hrow => by cases hrow
  comments_bounded := fun row hrow => by
    rw [List.mem_singleton.mp hrow]
    exact (by decide : (1 : ℕ) < 2 ^ 63)

def firstBinding : CardBinding := TaskBinding.bound ⟨"t1", 1⟩ "p1" 0 0

theorem minted_firstBinding : Minted firstBinding := ⟨⟨0, rfl⟩, ⟨0, rfl⟩, by decide⟩

/-- A short comment is acknowledged. -/
theorem commented_acknowledged :
    Minted firstBinding ∧
      ∀ entry ∈ (readBoard (fun _ => none) (commented "Done.") 0 0).reports,
        acknowledgement (stamp firstBinding entry.1 entry.2.1 entry.2.2).toValue =
          some (stamp firstBinding entry.1 entry.2.1 entry.2.2).reportId := by
  refine ⟨minted_firstBinding, ?_⟩
  refine (queued_reports_acknowledged_iff _ (commented "Done.") minted_firstBinding 0 0).mpr ?_
  intro card _
  refine ⟨fun row hrow => (by cases hrow), fun row hrow _ => ?_⟩
  rw [List.mem_singleton.mp hrow]
  decide

/-- A comment of one character that is white space for JavaScript only, the byte order mark,
is queued by the Node and never acknowledged by the Control Plane. -/
theorem markedComment_unacknowledged :
    (readBoard (fun _ => none) (commented "\ufeff") 0 0).reports =
        [(.comment, 1, .note "\ufeff")] ∧
      acknowledgement (stamp firstBinding .comment 1 (.note "\ufeff")).toValue = none := by
  refine ⟨by decide, ?_⟩
  rw [acknowledgement, schema_stamp minted_firstBinding .comment (by decide)]
  decide

/-- `randomUuid`: the identifier the Control Plane draws for a run: thirty-two digits in five
groups. -/
def randomUUID (drawn : ℕ) : String :=
  let digits := Text.hex 32 drawn
  String.ofList (digits.take 8 ++ '-' :: (digits.drop 8).take 4 ++ '-' :: (digits.drop 12).take 4 ++
    '-' :: (digits.drop 16).take 4 ++ '-' :: digits.drop 20)

/-- An identifier the Control Plane draws has hexadecimal digits and dashes only. -/
theorem mem_randomUUID {c : Char} {drawn : ℕ} (h : c ∈ (randomUUID drawn).toList) :
    c = '-' ∨ c ∈ Text.hex 32 drawn := by
  rw [randomUUID, String.toList_ofList] at h
  simp only [List.mem_append, List.mem_cons] at h
  rcases h with (((h | rfl | h) | rfl | h) | rfl | h) | rfl | h
  · exact .inr (List.mem_of_mem_take h)
  · exact .inl rfl
  · exact .inr (List.mem_of_mem_drop (List.mem_of_mem_take h))
  · exact .inl rfl
  · exact .inr (List.mem_of_mem_drop (List.mem_of_mem_take h))
  · exact .inl rfl
  · exact .inr (List.mem_of_mem_drop (List.mem_of_mem_take h))
  · exact .inl rfl
  · exact .inr (List.mem_of_mem_drop h)

/-- No identifier of a run that the Node draws is one that the Control Plane draws. -/
theorem newRunId_ne_randomUUID (node plane : ℕ) : newRunId node ≠ randomUUID plane := by
  intro hsame
  have hletter : 'r' ∈ (randomUUID plane).toList := by
    rw [← hsame, newRunId, String.toList_append]
    exact List.mem_append_left _ (by decide)
  rcases mem_randomUUID hletter with hdash | hdigit
  · exact absurd hdash (by decide)
  · obtain ⟨k, hk, hdigit⟩ := Text.mem_hex hdigit
    have hall : ∀ k : Fin 16, 'r' ≠ Text.hexDigit k := by decide
    exact hall ⟨k, hk⟩ hdigit

/-- Whatever a Node stamps for a run that it created with a task attached, the Control Plane
reads a report about a run that does not belong to the task: it looks for the Node's
identifier among its own. -/
theorem stamped_reports_refused {t : Tables} (ht : t.Valid)
    (hdrawn : ∀ run ∈ t.database.runs, ∃ drawn, run.runId = randomUUID drawn)
    {payload : Value} {binding : TaskBinding}
    (hattached : TaskAttachment.fromPayload payload = .present binding) (projectId : String)
    (card run : ℕ) (stream : ReportStream) {seq : ℕ} (hseq : seq < 2 ^ 63) (report : AgentReport)
    {read : TaskReport}
    (hread : TaskReport.schema
      (stamp (binding.bound projectId card run) stream seq report).toValue = some read)
    (task : TaskRecord) :
    t.refusal read task = some "That report names a run that does not belong to this task." := by
  have hrun : read.runId = newRunId run := by
    rw [schema_stamp (minted_bound hattached projectId card run) stream hseq] at hread
    obtain ⟨taskId, _, hread⟩ := Option.bind_eq_some_iff.mp hread
    obtain ⟨body, _, hread⟩ := Option.bind_eq_some_iff.mp hread
    rw [← Option.some.inj hread]
    rfl
  have hforeign : t.isAttached read.taskId read.runId = false := by
    rw [← Bool.not_eq_true]
    intro hbelongs
    obtain ⟨row, hrow, hid⟩ := List.mem_map.mp (ht.mem_runs_of_isAttached hbelongs)
    obtain ⟨drawn, hdraw⟩ := hdrawn row hrow
    exact newRunId_ne_randomUUID run drawn (hrun.symm.trans (hid.symm.trans hdraw))
  unfold Tables.refusal
  rw [hforeign, Bool.not_false, if_pos rfl]

def firstPayload : Value :=
  Value.obj [("input", .string "Write"),
    ("task", Value.obj [("task_id", .string "t1"), ("generation", .number (.int 1))])]

def firstTask : TaskRecord :=
  { TaskRecord.create "t1" "o1" "p1" "Write" "" with
    status := .running, version := 2, generation := 1, currentRunId := some (randomUUID 1) }

/-- The first attempt at a task, on a run that its Node has started. -/
def soleAttempt : Tables where
  database :=
    { commands := [newCommand "c1" "n1" "runs.create" firstPayload]
      runs := [(newRun (randomUUID 1) "n1" "p1" "c1").attach (newRunId 0) 1]
      events := [] }
  projects := [⟨"p1", "o1", "n1", false, false⟩]
  tasks := [firstTask]
  taskRuns := [⟨"t1", randomUUID 1⟩]
  requests := []
  inputRequests := []
  events := []
  reports := []
  planSteps := []

def firstReport : StampedReport := stamp firstBinding .event 1 (.completionRequested "Done" [])

def firstRead : TaskReport :=
  ⟨firstReport.reportId, "t1", newRunId 0, 1, 1, .completionRequested "Done" []⟩

theorem schema_firstReport : TaskReport.schema firstReport.toValue = some firstRead := by
  rw [firstReport, schema_stamp minted_firstBinding .event (by decide), schema_toValue]
  decide +kernel

/-- The run is attached to its task, is its current run and carries its generation, and the
report of the agent that executes it is refused. -/
theorem soleAttempt_report_refused :
    TaskAttachment.fromPayload firstPayload = .present ⟨"t1", 1⟩ ∧
      soleAttempt.isAttached "t1" (randomUUID 1) = true ∧
      firstTask.currentRunId = some (randomUUID 1) ∧ firstTask.generation = 1 ∧
      TaskReport.schema firstReport.toValue = some firstRead ∧
      soleAttempt.refusal firstRead firstTask =
        some "That report names a run that does not belong to this task." := by
  exact ⟨by decide +kernel, by decide +kernel, rfl, rfl, schema_firstReport, by decide +kernel⟩

/-- What the Control Plane says about that report follows from the identifiers alone. -/
theorem soleAttempt_refused_by_identifiers :
    soleAttempt.Valid ∧
      (∀ run ∈ soleAttempt.database.runs, ∃ drawn, run.runId = randomUUID drawn) ∧
      soleAttempt.refusal firstRead firstTask =
        some "That report names a run that does not belong to this task." := by
  have hvalid : soleAttempt.Valid := by decide +kernel
  have hdrawn : ∀ run ∈ soleAttempt.database.runs, ∃ drawn, run.runId = randomUUID drawn := by
    intro run hrun
    rw [List.mem_singleton.mp hrun]
    exact ⟨1, rfl⟩
  have hattached : TaskAttachment.fromPayload firstPayload = .present ⟨"t1", 1⟩ := by
    decide +kernel
  exact ⟨hvalid, hdrawn, stamped_reports_refused hvalid hdrawn hattached "p1" 0 0 .event
    (by decide) _ schema_firstReport firstTask⟩

end Workdesk

end Asterism
