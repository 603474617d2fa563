import Asterism.ControlPlane.Delivery
import Asterism.ControlPlane.Isolation
import Asterism.Node.Families

/-!
# The answers to commands

What came of a command is stored in its row and answered through the outbox, redacted and
bounded. A later delivery is answered from the row. This file determines which answers the Control
Plane can read, and what it makes of the answer to a command that the Node did not finish.
-/

namespace Asterism

namespace ControlChannel

open ControlPlane Redact

/-- How `handle_command` stores what came of a command. -/
def storeOutcome (commandId : String) : Except ProtocolError Value →
    RegistryCall RemoteCommandRecord
  | .ok value => .completeRemoteCommand commandId .completed (some value) none none
  | .error error =>
    .completeRemoteCommand commandId .failed none (some error.code.asStr) (some error.message)

/-- The state that `handle_command` gives to a command that came to this. -/
def outcomeState : Except ProtocolError Value → CommandState
  | .ok _ => .completed
  | .error _ => .failed

/-- How `handle_command` stores the answer to a command. -/
def storeAnswer (record : RemoteCommandRecord) (deduplicated : Bool) : RegistryCall ℕ :=
  .enqueueOutbox outboxCommandResult (some record.commandId) (outcomeValue record deduplicated)

def storedOption (text : Option String) : Value := .ofOption (text.map storedText)

/-- The result of a command after it was redacted inside the answer. -/
def storedResult (record : RemoteCommandRecord) : Value :=
  (walk 1 (record.responsePayload.getD .null)).value

def deduplicatedField (deduplicated : Bool) : List (String × Value) :=
  if deduplicated then [("deduplicated", .bool true)] else []

theorem walk_ofOption (text : Option String) :
    (walk 1 (.ofOption text)).value = storedOption text := by
  cases text with
  | none => rfl
  | some text => exact walk_string 1 (by decide) text

theorem storedText_state (state : CommandState) : storedText state.asStr = state.asStr := by
  cases state <;> decide

theorem outcomeValue_eq (record : RemoteCommandRecord) (deduplicated : Bool) :
    outcomeValue record deduplicated = .object
      ([("command_id", .string record.commandId)] ++ deduplicatedField deduplicated ++
        [("error_code", .ofOption record.errorCode),
          ("error_message", .ofOption record.errorMessage),
          ("result", record.responsePayload.getD .null),
          ("state", .string record.state.asStr)]) := by
  cases deduplicated <;>
    simp only [outcomeValue, Value.obj, Value.insertField, deduplicatedField, List.foldl_cons,
      List.foldl_nil, List.append_nil, List.cons_append, List.nil_append, String.reduceLT,
      String.reduceEq, ↓reduceIte, Bool.false_eq_true]

theorem redact_outcomeValue (record : RemoteCommandRecord) (deduplicated : Bool) :
    (redact (outcomeValue record deduplicated)).value = .object
      ([("command_id", .string (storedText record.commandId))] ++ deduplicatedField deduplicated ++
        [("error_code", storedOption record.errorCode),
          ("error_message", storedOption record.errorMessage), ("result", storedResult record),
          ("state", .string record.state.asStr)]) := by
  have hcommand : OrdinaryKey "command_id" := by decide
  have hdeduplicated : OrdinaryKey "deduplicated" := by decide
  have hcode : OrdinaryKey "error_code" := by decide
  have hmessage : OrdinaryKey "error_message" := by decide
  have hresult : OrdinaryKey "result" := by decide
  have hstate : OrdinaryKey "state" := by decide
  have hdepth : ¬maxDepth ≤ 1 := by decide
  have htop : ¬maxDepth ≤ 0 := by decide
  rw [outcomeValue_eq, redact, walk, if_neg htop]
  cases deduplicated <;>
    simp only [deduplicatedField, Bool.false_eq_true, if_false, if_true, List.append_nil,
      List.cons_append, List.nil_append, walkFields_cons hcommand, walkFields_cons hdeduplicated,
      walkFields_cons hcode, walkFields_cons hmessage, walkFields_cons hresult,
      walkFields_cons hstate, walkFields_nil, Nat.zero_add, walk_string 1 hdepth, walk_ofOption,
      storedText_state, storedResult, walk.eq_def 1 (.bool true), if_neg hdepth]

/-- The bytes of an answer: the text around its fields, and the fields. -/
def answerBytes (record : RemoteCommandRecord) (deduplicated : Bool) : ℕ :=
  65 + (if deduplicated then 20 else 0) + (Value.string (storedText record.commandId)).bytes +
    (storedOption record.errorCode).bytes + (storedOption record.errorMessage).bytes +
    (storedResult record).bytes + (Value.string record.state.asStr).bytes

theorem len_outcomeValue (record : RemoteCommandRecord) (deduplicated : Bool) :
    Text.len (redact (outcomeValue record deduplicated)).value.encode =
      answerBytes record deduplicated := by
  have hcommand : Text.byteCount (Value.encodeText "command_id") = 12 := by decide
  have hdeduplicated : Value.fieldBytes ("deduplicated", .bool true) = 20 := by decide
  have hcode : Text.byteCount (Value.encodeText "error_code") = 12 := by decide
  have hmessage : Text.byteCount (Value.encodeText "error_message") = 15 := by decide
  have hresult : Text.byteCount (Value.encodeText "result") = 8 := by decide
  have hstate : Text.byteCount (Value.encodeText "state") = 7 := by decide
  rw [redact_outcomeValue, Value.len_encode, answerBytes, List.cons_append, List.cons_append,
    Value.bytes_object]
  cases deduplicated <;>
    simp only [deduplicatedField, Bool.false_eq_true, if_false, if_true, List.nil_append,
      List.cons_append, List.map_cons, List.map_nil, List.sum_cons, List.sum_nil, hdeduplicated]
  · simp only [Value.fieldBytes, hcommand, hcode, hmessage, hresult, hstate]
    omega
  · simp only [Value.fieldBytes, hcommand, hcode, hmessage, hresult, hstate]
    omega

/-- The Control Plane reads this command and this state from a payload. -/
def Reads (payload : Value) (commandId state : String) : Prop :=
  ∃ result, CommandResult.schema payload = some result ∧ result.commandId = commandId ∧
    result.state = state

/-- The Control Plane can read the answer that is made of a row. -/
structure Reportable (record : RemoteCommandRecord) (deduplicated : Bool) : Prop where
  /-- The identifier does not look like a credential. -/
  identifier : looksLikeSecret record.commandId = false
  /-- The answer as a whole is short enough. -/
  size : answerBytes record deduplicated ≤ maxStoredPayloadBytes
  /-- What is left of an error message is short enough. -/
  message : ∀ message ∈ record.errorMessage, Schema.units (storedText message) ≤ 4096

theorem schema_redact (record : RemoteCommandRecord) (deduplicated : Bool) :
    CommandResult.schema (redact (outcomeValue record deduplicated)).value =
      if (1 ≤ Schema.units (storedText record.commandId) ∧
            Schema.units (storedText record.commandId) ≤ 128) ∧
          (1 ≤ Schema.units record.state.asStr ∧ Schema.units record.state.asStr ≤ 32) ∧
          (∀ code ∈ record.errorCode.map storedText, Schema.units code ≤ 64) ∧
          ∀ message ∈ record.errorMessage.map storedText, Schema.units message ≤ 4096 then
        some ⟨storedText record.commandId, record.state.asStr, storedResult record,
          record.errorCode.map storedText, record.errorMessage.map storedText⟩
      else none := by
  rw [redact_outcomeValue]
  cases deduplicated with
  | false => exact CommandResult.schema_eq rfl rfl rfl rfl rfl
  | true => exact CommandResult.schema_eq rfl rfl rfl rfl rfl

theorem units_state (state : CommandState) :
    1 ≤ Schema.units state.asStr ∧ Schema.units state.asStr ≤ 32 := by
  cases state <;> decide

theorem reads_redact_iff {record : RemoteCommandRecord} (deduplicated : Bool)
    (hcode : ∀ code ∈ record.errorCode, Schema.units (storedText code) ≤ 64)
    (hid : record.commandId ≠ "" ∧ Text.len record.commandId ≤ 128) :
    Reads (redact (outcomeValue record deduplicated)).value record.commandId record.state.asStr ↔
      looksLikeSecret record.commandId = false ∧
        ∀ message ∈ record.errorMessage, Schema.units (storedText message) ≤ 4096 := by
  have hunits : 1 ≤ Schema.units record.commandId ∧ Schema.units record.commandId ≤ 128 :=
    ⟨Schema.units_pos hid.1, (Schema.units_le_len _).trans hid.2⟩
  have hkept : storedText record.commandId = record.commandId ↔
      looksLikeSecret record.commandId = false := by
    rw [storedText_eq_iff, KeptVerbatim]
    refine and_iff_left (Or.inl (hid.2.trans (by decide)))
  rw [← hkept]
  constructor
  · rintro ⟨result, hresult, hcommand, -⟩
    rw [schema_redact, Option.ite_none_right_eq_some] at hresult
    obtain ⟨⟨-, -, -, hmessage⟩, hresult⟩ := hresult
    rw [← Option.some.inj hresult] at hcommand
    dsimp only at hcommand
    refine ⟨hcommand, fun message hmem => hmessage _ ?_⟩
    exact Option.mem_map_of_mem storedText hmem
  · rintro ⟨hcommand, hmessage⟩
    have hcodes : ∀ code ∈ record.errorCode.map storedText, Schema.units code ≤ 64 := by
      intro code hmem
      obtain ⟨found, hfound, rfl⟩ := Option.mem_map.mp hmem
      exact hcode found hfound
    have hmessages : ∀ message ∈ record.errorMessage.map storedText,
        Schema.units message ≤ 4096 := by
      intro message hmem
      obtain ⟨found, hfound, rfl⟩ := Option.mem_map.mp hmem
      exact hmessage found hfound
    rw [Reads, schema_redact, hcommand, if_pos ⟨hunits, units_state _, hcodes, hmessages⟩]
    exact ⟨_, rfl, rfl, rfl⟩

theorem not_reads_truncated (n : ℤ) (commandId state : String) :
    ¬Reads (Value.obj [("truncated", .bool true), ("bytes", .number (.int n))])
      commandId state := by
  rintro ⟨result, hresult, -⟩
  have hnone : (Value.obj [("truncated", .bool true), ("bytes", .number (.int n))]).get
      "command_id" = none := by rw [Value.get_obj]; rfl
  rw [CommandResult.schema, Schema.field, hnone] at hresult
  cases hresult

theorem reads_boundedPayload_iff {record : RemoteCommandRecord} (deduplicated : Bool)
    (hcode : ∀ code ∈ record.errorCode, Schema.units (storedText code) ≤ 64)
    (hid : record.commandId ≠ "" ∧ Text.len record.commandId ≤ 128) :
    Reads (boundedPayload (outcomeValue record deduplicated)) record.commandId
        record.state.asStr ↔ Reportable record deduplicated := by
  have hsplit : Reportable record deduplicated ↔
      answerBytes record deduplicated ≤ maxStoredPayloadBytes ∧
        looksLikeSecret record.commandId = false ∧
          ∀ message ∈ record.errorMessage, Schema.units (storedText message) ≤ 4096 :=
    ⟨fun h => ⟨h.size, h.identifier, h.message⟩, fun h => ⟨h.2.1, h.1, h.2.2⟩⟩
  rw [hsplit, boundedPayload, len_outcomeValue]
  split
  · rename_i hlarge
    exact iff_of_false (not_reads_truncated _ _ _) fun h => absurd h.1 (Nat.not_le.mpr hlarge)
  · rename_i hfits
    rw [reads_redact_iff deduplicated hcode hid, and_iff_right (Nat.not_lt.mp hfits)]

theorem units_errorCode (code : ErrorCode) : Schema.units (storedText code.asStr) ≤ 64 := by
  cases code <;> decide +kernel

theorem commandId_of_validate {command : RemoteCommand} (h : command.validate = .ok ()) :
    command.commandId ≠ "" ∧ Text.len command.commandId ≤ 128 := by
  unfold RemoteCommand.validate at h
  split at h
  · cases h
  · rename_i hid
    exact ⟨fun hempty => hid (Or.inl hempty), Nat.not_lt.mp fun hlong => hid (Or.inr hlong)⟩

theorem storeOutcome_record {commandId : String} {outcome : Except ProtocolError Value}
    {input : RegistryInput} {record : RemoteCommandRecord} {r r' : Registry}
    (h : (storeOutcome commandId outcome).exec input r = (.ok record, r')) :
    r'.contents.findCommand commandId = some record ∧ record.commandId = commandId ∧
      record.state = outcomeState outcome ∧
      ∀ code ∈ record.errorCode, Schema.units (storedText code) ≤ 64 := by
  cases outcome with
  | ok value =>
    obtain ⟨hfound, row, hrow, rfl⟩ := completeRemoteCommand_record (RegistryCall.exec_ok h)
    exact ⟨hfound, by simpa using List.find?_some hrow, rfl, nofun⟩
  | error error =>
    obtain ⟨hfound, row, hrow, rfl⟩ := completeRemoteCommand_record (RegistryCall.exec_ok h)
    refine ⟨hfound, by simpa using List.find?_some hrow, rfl, ?_⟩
    rintro code ⟨⟩
    exact units_errorCode error.code

/-- The Control Plane reads the command and its state from the answer stored for it exactly
if the row of the command is reportable. -/
theorem stored_answer_iff {command : RemoteCommand} (hvalid : command.validate = .ok ())
    {outcome : Except ProtocolError Value} {record : RemoteCommandRecord} {deduplicated : Bool}
    {input input' : RegistryInput} {r r' s s' : Registry} {id : ℕ}
    (hstored : (storeOutcome command.commandId outcome).exec input r = (.ok record, r'))
    (hanswered : (storeAnswer record deduplicated).exec input' s = (.ok id, s')) :
    ∃ entry, s'.contents.outbox = s.contents.outbox ++ [entry] ∧
      entry.correlationId = some command.commandId ∧
      (Reads entry.payload command.commandId (outcomeState outcome).asStr ↔
        Reportable record deduplicated) := by
  obtain ⟨-, hid, hstate, hcode⟩ := storeOutcome_record hstored
  obtain ⟨-, -, hcontents⟩ := enqueueOutbox_ok (RegistryCall.exec_ok hanswered)
  have hshort := commandId_of_validate hvalid
  rw [← hid] at hshort ⊢
  rw [← hstate, hcontents]
  refine ⟨_, rfl, rfl, ?_⟩
  dsimp only
  exact reads_boundedPayload_iff deduplicated hcode hshort

def executingRow : RemoteCommandRecord :=
  { commandId := "c1", command := "runs.list", projectId := some "p1", receivedAt := 0
    payloadDigest := "", state := .executing, startedAt := some 0, completedAt := none
    responsePayload := none, errorCode := none, errorMessage := none }

def executingRegistry : Registry :=
  ⟨{ Tables.empty with remoteCommands := [executingRow] },
    (by decide : Tables.Valid { Tables.empty with remoteCommands := [executingRow] })⟩

def completedRow (value : Value) : RemoteCommandRecord :=
  { executingRow with
    state := .completed, completedAt := some 0, responsePayload := some (boundedPayload value) }

theorem executingRegistry_exec (value : Value) :
    let input : RegistryInput := ⟨fun _ => 0, "", true⟩
    ∃ r s, (storeOutcome "c1" (.ok value)).exec input executingRegistry =
        (.ok (completedRow value), r) ∧
      (storeAnswer (completedRow value) false).exec input r = (.ok 1, s) ∧
      s.contents.outbox = [⟨1, outboxCommandResult, some "c1",
        boundedPayload (outcomeValue (completedRow value) false), 0, none⟩] := by
  exact ⟨_, _, rfl, rfl, rfl⟩

theorem answerBytes_completedRow (value : Value) :
    answerBytes (completedRow value) false =
      88 + (walk 1 (boundedPayload value)).value.bytes := by
  have hid : (Value.string (storedText "c1")).bytes = 4 := by decide
  have hnull : (storedOption none).bytes = 4 := by decide
  have hstate : (Value.string "completed").bytes = 11 := by decide
  change 65 + 0 + (Value.string (storedText "c1")).bytes + (storedOption none).bytes +
    (storedOption none).bytes + (walk 1 (boundedPayload value)).value.bytes +
    (Value.string "completed").bytes = _
  omega

theorem boundedPayload_zeros {n : ℕ} (hfits : (Value.zeros n).bytes ≤ maxStoredPayloadBytes)
    (hlarge : maxStoredPayloadBytes < 88 + (Value.zeros n).bytes) :
    boundedPayload (Value.zeros n) = Value.zeros n ∧
      boundedPayload (outcomeValue (completedRow (Value.zeros n)) false) =
        Value.obj [("truncated", .bool true),
          ("bytes", .number (.int ((88 + (Value.zeros n).bytes) % 2 ^ 64 : ℕ)))] := by
  have hsame : (redact (Value.zeros n)).value = Value.zeros n := Value.walk_zeros (by decide) n
  have hvalue : boundedPayload (Value.zeros n) = Value.zeros n := by
    rw [boundedPayload, hsame, Value.len_encode]
    exact if_neg (Nat.not_lt.mpr hfits)
  refine ⟨hvalue, ?_⟩
  have hbytes : answerBytes (completedRow (Value.zeros n)) false = 88 + (Value.zeros n).bytes := by
    rw [answerBytes_completedRow, hvalue, Value.walk_zeros (by decide)]
  rw [boundedPayload, len_outcomeValue, hbytes]
  exact if_pos hlarge

/-- A result just below the limit is stored in the row, but the answer around it is larger
than the limit. The Control Plane can read neither the command nor its state. -/
theorem largeResult_unreadable :
    let input : RegistryInput := ⟨fun _ => 0, "", true⟩
    let value := Value.zeros 32767
    boundedPayload value = value ∧
      ∃ record r s, (storeOutcome "c1" (.ok value)).exec input executingRegistry =
          (.ok record, r) ∧ (storeAnswer record false).exec input r = (.ok 1, s) ∧
        s.contents.outbox.map (fun entry => entry.payload) =
          [Value.obj [("truncated", .bool true), ("bytes", .number (.int 65623))]] ∧
        ∀ entry ∈ s.contents.outbox, CommandResult.schema entry.payload = none := by
  have hbytes : (Value.zeros 32767).bytes = 65535 := Value.bytes_zeros 32766
  intro input value
  obtain ⟨hvalue, hanswer⟩ := boundedPayload_zeros (n := 32767)
    (by rw [hbytes]; decide) (by rw [hbytes]; decide)
  rw [hbytes] at hanswer
  obtain ⟨r, s, hstored, hanswered, houtbox⟩ := executingRegistry_exec value
  refine ⟨hvalue, completedRow value, r, s, hstored, hanswered, ?_, ?_⟩
  · rw [houtbox, List.map_singleton, hanswer]
    rfl
  · intro entry hentry
    rw [houtbox, List.mem_singleton] at hentry
    rw [hentry, hanswer]
    rfl

instance (record : RemoteCommandRecord) (deduplicated : Bool) :
    Decidable (Reportable record deduplicated) :=
  decidable_of_iff
    (looksLikeSecret record.commandId = false ∧
      answerBytes record deduplicated ≤ maxStoredPayloadBytes ∧
      ∀ message ∈ record.errorMessage, Schema.units (storedText message) ≤ 4096)
    ⟨fun h => ⟨h.1, h.2.1, h.2.2⟩, fun h => ⟨h.identifier, h.size, h.message⟩⟩

/-- The answer with a short result is read. -/
theorem shortResult_readable :
    let input : RegistryInput := ⟨fun _ => 0, "", true⟩
    ∃ record r s, (storeOutcome "c1" (.ok (.string "done"))).exec input executingRegistry =
        (.ok record, r) ∧ (storeAnswer record false).exec input r = (.ok 1, s) ∧
      ∃ entry ∈ s.contents.outbox, Reads entry.payload "c1" "completed" := by
  obtain ⟨r, s, hstored, hanswered, houtbox⟩ := executingRegistry_exec (.string "done")
  have hvalid : RemoteCommand.validate ⟨"c1", "runs.list", some "p1", .null⟩ = .ok () := by
    decide
  have hreportable : Reportable (completedRow (.string "done")) false := by decide +kernel
  obtain ⟨entry, hentry, -, hreads⟩ := stored_answer_iff hvalid hstored hanswered
  refine ⟨_, r, s, hstored, hanswered, entry, ?_, hreads.mpr hreportable⟩
  rw [hentry]
  exact List.mem_append_right _ (List.mem_singleton.mpr rfl)

end ControlChannel

end Asterism

/-! # A command that is delivered again -/

namespace Asterism

open Process ControlChannel Redact

/-- The message that carries an outbox entry. -/
def ControlChannel.entryEnvelope (entry : OutboxRow) : Envelope :=
  ⟨if entry.kind = outboxTaskReport then "client.task.report" else "client.command.result",
    entry.correlationId, entry.payload⟩

/-- The command was recorded, and no outcome of it was stored. -/
structure RemoteCommandRecord.Unfinished (record : RemoteCommandRecord) : Prop where
  state : record.state = .received ∨ record.state = .executing
  response : record.responsePayload = none
  code : record.errorCode = none
  message : record.errorMessage = none

instance (record : RemoteCommandRecord) : Decidable record.Unfinished :=
  decidable_of_iff
    ((record.state = .received ∨ record.state = .executing) ∧ record.responsePayload = none ∧
      record.errorCode = none ∧ record.errorMessage = none)
    ⟨fun ⟨h1, h2, h3, h4⟩ => ⟨h1, h2, h3, h4⟩, fun ⟨h1, h2, h3, h4⟩ => ⟨h1, h2, h3, h4⟩⟩

namespace ControlPlane

/-- The actions under which the audit log has the failure of a project command. -/
def failureActions : List String :=
  ["project.provisioning_failed", "project.credential_assignment_failed",
    "project.model_selection_failed"]

/-- The failures of project commands in the audit log. -/
def Ledger.failures (ledger : Ledger) : List AuditRow :=
  ledger.audit.filter fun row => row.action ∈ failureActions

/-- A failure is recorded: a command that had not failed has, the record of a run changes and says
that the run has failed, or the audit log has another failure of a project command. -/
def RecordsFailure (db db' : Database) : Prop :=
  (∃ before ∈ db.commands, ∃ after ∈ db'.commands, after.commandId = before.commandId ∧
      before.state ≠ .failed ∧ after.state = .failed) ∨
    (∃ before ∈ db.runs, ∃ after ∈ db'.runs, after.runId = before.runId ∧
      after ≠ before ∧ after.status = "failed") ∨
    db.ledger.failures.length < db'.ledger.failures.length

instance (db db' : Database) : Decidable (RecordsFailure db db') :=
  inferInstanceAs (Decidable (_ ∨ _))

/-- An answer that is not an outcome has nothing left to turn into a failure: the command is closed,
the run that it creates was refused in this way before, and no project waits for the answer. -/
structure Spent (db : Database) (row : CommandRecord) (result : CommandResult) : Prop where
  command : row.state.isOpen = false
  run : startsRun row.commandType = true →
    ∀ run ∈ db.byCreateCommand row.commandId, run.IsRejected result
  project : ∀ verdict ∈ projectVerdict row.commandType row.requestPayload result,
    db.ledger.awaits row.nodeId verdict = false

/-- The result that the Control Plane reads from the answer to an unfinished command. -/
def unfinishedResult (record : RemoteCommandRecord) : CommandResult :=
  ⟨storedText record.commandId, record.state.asStr, .null, none, none⟩

theorem storedText_short {text : String} (h : text ≠ "" ∧ Text.len text ≤ 128) :
    storedText text ≠ "" ∧ Text.len (storedText text) ≤ 128 := by
  cases hsecret : looksLikeSecret text with
  | true =>
    rw [storedText, hsecret, if_pos rfl]
    decide
  | false =>
    have hkept : storedText text = text :=
      (storedText_eq_iff text).mpr ⟨hsecret, Or.inl (h.2.trans (by decide))⟩
    rw [hkept]
    exact h

theorem answerBytes_unfinished {record : RemoteCommandRecord} (h : record.Unfinished)
    (hid : record.commandId ≠ "" ∧ Text.len record.commandId ≤ 128) :
    answerBytes record true ≤ maxStoredPayloadBytes := by
  have hcommand := Value.bytes_string_le (storedText record.commandId)
  have hshort := (storedText_short hid).2
  have hnull : (storedOption none).bytes = 4 := by decide
  have hresult : (storedResult record).bytes = 4 := by
    rw [storedResult, h.response]
    decide
  have hstate : (Value.string record.state.asStr).bytes ≤ 11 := by
    rcases h.state with hstate | hstate <;> rw [hstate] <;> decide
  have hlimit : maxStoredPayloadBytes = 65536 := by decide
  rw [answerBytes, h.code, h.message, hnull, hresult, hlimit, if_pos rfl]
  omega

/-- What the Control Plane reads from the answer to an unfinished command, which has no numbers. -/
theorem schema_unfinished {record : RemoteCommandRecord} (h : record.Unfinished)
    (hid : record.commandId ≠ "" ∧ Text.len record.commandId ≤ 128) (floats : String → Number) :
    CommandResult.schema (Js.parse floats (boundedPayload (outcomeValue record true))) =
      some (unfinishedResult record) := by
  have hunits : 1 ≤ Schema.units (storedText record.commandId) ∧
      Schema.units (storedText record.commandId) ≤ 128 :=
    ⟨Schema.units_pos (storedText_short hid).1,
      (Schema.units_le_len _).trans (storedText_short hid).2⟩
  have hfits : ¬maxStoredPayloadBytes < answerBytes record true :=
    Nat.not_lt.mpr (answerBytes_unfinished h hid)
  have hresult : storedResult record = .null := by
    rw [storedResult, h.response]
    decide
  have hparse : Js.parse floats (redact (outcomeValue record true)).value =
      (redact (outcomeValue record true)).value := by
    rw [redact_outcomeValue, h.code, h.message, hresult]
    rfl
  rw [boundedPayload, len_outcomeValue, if_neg hfits, hparse, schema_redact, h.code, h.message,
    hresult]
  refine if_pos ⟨hunits, units_state _, ?_, ?_⟩ <;>
    exact fun text htext => by cases htext

theorem state_unfinished {record : RemoteCommandRecord} (h : record.Unfinished) :
    record.state.asStr ≠ "completed" := by
  rcases h.state with hstate | hstate <;> rw [hstate] <;> decide

section

variable {db : Database} {row : CommandRecord} {result : CommandResult} {input : SqlInput}

theorem not_recordsFailure_self (hvalid : db.Valid) : ¬RecordsFailure db db := by
  rintro (⟨before, hbefore, after, hafter, hid, hnot, hfailed⟩ |
    ⟨before, hbefore, after, hafter, hid, hne, -⟩ | hless)
  · have hsame := hvalid.commandById_eq_some hafter
    rw [hid, hvalid.commandById_eq_some hbefore] at hsame
    exact hnot (Option.some.inj hsame ▸ hfailed)
  · exact hne (hvalid.run_eq hafter hbefore hid)
  · exact Nat.lt_irrefl _ hless

/-- An answer that is not an outcome finds nothing to change exactly if it is spent. -/
theorem spent_iff (hstate : result.state ≠ "completed") :
    Spent db row result ↔ row.state.isOpen = false ∧ OutcomeIdle db row result input := by
  have hnext : followUpRecord row.nodeId row.commandType result.state input = none := by
    simp only [followUpRecord, hstate]
    simp
  have hupdate : startedUpdate row result = none := if_neg fun h => hstate h.2
  constructor
  · rintro ⟨hclosed, hrun, hproject⟩
    refine ⟨hclosed, ⟨fun hstarts run hfound => ?_, fun _ h => absurd h hstate⟩, hnext, hproject,
      by rw [hupdate]; exact Table.forall_mem_none⟩
    rw [if_neg hstate]
    exact hrun hstarts run hfound
  · rintro ⟨hclosed, hidle⟩
    refine ⟨hclosed, fun hstarts run hfound => ?_, hidle.project⟩
    have hrun := hidle.run hstarts run hfound
    rwa [if_neg hstate] at hrun

/-- What an answer that is not an outcome tells about a project is a failure. -/
theorem failure_of_projectVerdict (hstate : result.state ≠ "completed") {verdict : Verdict}
    (h : projectVerdict row.commandType row.requestPayload result = some verdict) :
    verdict.action ∈ failureActions := by
  have hnot : tookEffect result = false := by
    simp [tookEffect, hstate]
  unfold projectVerdict at h
  split_ifs at h <;> obtain ⟨_, -, hrest⟩ := Option.bind_eq_some_iff.mp h <;>
    obtain ⟨_, -, hlast⟩ := Option.bind_eq_some_iff.mp hrest
  · rw [if_neg fun hdone => hstate hdone.1] at hlast
    obtain rfl := Option.some.inj hlast
    exact (by decide : "project.provisioning_failed" ∈ failureActions)
  · obtain rfl := Option.some.inj hlast
    rw [hnot]
    exact (by decide : "project.credential_assignment_failed" ∈ failureActions)
  · obtain rfl := Option.some.inj hlast
    rw [hnot]
    exact (by decide : "project.model_selection_failed" ∈ failureActions)

theorem recordsFailure_of_open (hstate : result.state ≠ "completed")
    (hrow : db.commandById result.commandId = some row) (hopen : row.state.isOpen = true) :
    RecordsFailure db ((db.complete result.commandId result.outcome input.now).applied row result
      input) := by
  have hmem := Database.commandById_mem hrow
  have hid := Database.commandById_commandId hrow
  refine .inl ⟨row, hmem, row.complete result.outcome input.now, ?_, rfl, ?_, if_neg hstate⟩
  · refine List.mem_append_left _ (Table.mem_updateWhere.mpr ⟨row, hmem, ?_⟩)
    rw [if_pos (by simp [hid, hopen])]
  · intro hfailed
    rw [hfailed] at hopen
    cases hopen

theorem recordsFailure_of_run (hstate : result.state ≠ "completed")
    (hstarts : startsRun row.commandType = true) {run : RunRecord}
    (hrun : db.byCreateCommand row.commandId = some run) (hnot : ¬run.IsRejected result) :
    RecordsFailure db ((db.complete result.commandId result.outcome input.now).applied row result
      input) := by
  have hmem := (Database.byCreateCommand_spec hrun).1
  refine .inr (.inl ⟨run, hmem, run.withStatus "failed" result.rejection input.now, ?_, rfl,
    fun hsame => hnot ((run.rejected_eq_self_iff result input.now).mp hsame), rfl⟩)
  have hchange : runChange (db.complete result.commandId result.outcome input.now) row result
      input.now = some (run, fun r => r.withStatus "failed" result.rejection input.now) := by
    rw [runChange, if_pos hstarts, if_pos hstate]
    exact congrArg (Option.map _) hrun
  simp only [Database.applied, Database.outcome, changedRuns, hchange]
  exact Table.mem_updateWhere.mpr ⟨run, hmem, (if_pos (decide_eq_true rfl)).symm⟩

theorem recordsFailure_of_project (hstate : result.state ≠ "completed") {verdict : Verdict}
    (hverdict : projectVerdict row.commandType row.requestPayload result = some verdict)
    (hawaits : db.ledger.awaits row.nodeId verdict = true) :
    RecordsFailure db ((db.complete result.commandId result.outcome input.now).applied row result
      input) := by
  have hupdate : startedUpdate row result = none := if_neg fun h => hstate h.2
  have hledger : (db.ledger.applied row result).audit =
      db.ledger.audit ++ [⟨verdict.action, row.nodeId, verdict.projectId, row.commandId⟩] := by
    simp only [Ledger.applied, hupdate, Ledger.answered, hverdict, Option.map_some,
      Option.getD_some, Ledger.settle, hawaits, if_true]
  have hfailure := failure_of_projectVerdict hstate hverdict
  refine .inr (.inr ?_)
  change db.ledger.failures.length < (db.ledger.applied row result).failures.length
  simp [Ledger.failures, hledger, hfailure]

/-- An answer that is not an outcome records a failure exactly if it finds something to change. -/
theorem recordsFailure_result_iff (hvalid : db.Valid) (hstate : result.state ≠ "completed")
    (input : SqlInput) :
    RecordsFailure db (((evalSql input (handleCommandResult result) db).map Prod.snd).getD db) ↔
      ∃ row ∈ db.commandById result.commandId, ¬Spent db row result := by
  rw [eval_handleCommandResult hvalid]
  cases hrow : db.commandById result.commandId with
  | none => exact iff_of_false (not_recordsFailure_self hvalid) (by simp)
  | some row =>
    have hnext : followUpRecord row.nodeId row.commandType result.state input = none := by
      simp only [followUpRecord, hstate]
      simp
    have hfree : ¬Refused db row result input := not_refused hnext fun _ => hstate
    simp only [if_neg hfree, Option.map_some, Option.getD_some, Option.mem_some_iff,
      exists_eq_left']
    constructor
    · intro hrecords hspent
      rw [(settled_eq_self_iff hvalid hrow).mpr ((spent_iff hstate).mp hspent)] at hrecords
      exact not_recordsFailure_self hvalid hrecords
    · intro hnot
      by_contra hrecords
      refine hnot ⟨Bool.eq_false_iff.mpr fun hopen => hrecords (recordsFailure_of_open hstate hrow
        hopen), fun hstarts run hrun => ?_, fun verdict hverdict => ?_⟩
      · exact not_not.mp fun h => hrecords (recordsFailure_of_run hstate hstarts hrun h)
      · exact Bool.eq_false_iff.mpr fun h =>
          hrecords (recordsFailure_of_project hstate hverdict h)

end

/-- An entry of the outbox that answers a command is handled as the result of a command. -/
theorem handleFrame_entry (settings : ChannelConfig) (nodeId : String)
    (floats : String → Number) {entry : OutboxRow}
    (hkind : entry.kind = outboxCommandResult) :
    handleFrame settings nodeId ((entryEnvelope entry).received floats) =
      match CommandResult.schema (Js.parse floats entry.payload) with
      | some result => handleCommandResult result
      | none => pure () := by
  have hreport : ¬outboxCommandResult = outboxTaskReport := by decide
  have haccepted : ¬"client.command.result" = "client.command.accepted" := by decide
  have htype : ((entryEnvelope entry).received floats).messageType = "client.command.result" := by
    simp only [Envelope.received, entryEnvelope, hkind, if_neg hreport]
  rw [handleFrame, htype, if_neg haccepted, if_pos rfl]
  rfl

/-- The answer to an unfinished command records a failure exactly if it is not spent. -/
theorem unfinished_recordsFailure_iff {record : RemoteCommandRecord} (h : record.Unfinished)
    (hid : record.commandId ≠ "" ∧ Text.len record.commandId ≤ 128) (entry : OutboxRow)
    (hkind : entry.kind = outboxCommandResult)
    (hpayload : entry.payload = boundedPayload (outcomeValue record true))
    (floats : String → Number) (settings : ChannelConfig) (c : Channel) (nodeId : String)
    (sql : SqlInput) :
    RecordsFailure c.store.contents
        (c.act settings
          ⟨.frame nodeId ((entryEnvelope entry).received floats), sql, true⟩).store.contents ↔
      ∃ row ∈ c.store.contents.commandById (storedText record.commandId),
        ¬Spent c.store.contents row (unfinishedResult record) := by
  have hname : storedText record.commandId = (unfinishedResult record).commandId := by
    rw [unfinishedResult]
  rw [Channel.act_contents, if_pos rfl, Channel.transaction, handleFrame_entry _ _ _ hkind,
    hpayload, schema_unfinished h hid, hname]
  exact recordsFailure_result_iff c.store.valid (state_unfinished h) sql

/-- A command that the Node recorded and did not finish is delivered again. The answer makes
the Control Plane record a failure exactly if the command is open there, the run that it creates was
not refused before, or a project waits for the answer. -/
theorem redelivery_recordsFailure_iff (config : NodeConfig) {command : RemoteCommand}
    (hvalid : command.validate = .ok ()) {record : RemoteCommandRecord}
    (hunfinished : record.Unfinished) {input input' : RegistryInput} {r s s' : Registry} {id : ℕ}
    (hadmitted : (RegistryCall.admitRemoteCommand command.commandId command.command
      command.projectId (command.fingerprint config.sha256)).exec input r =
        (.ok (.duplicate record), r))
    (hanswered : (storeAnswer record true).exec input' s = (.ok id, s')) :
    ∃ entry, s'.contents.outbox = s.contents.outbox ++ [entry] ∧
      entry.correlationId = some command.commandId ∧
      ∀ (floats : String → Number) (settings : ChannelConfig) (c : Channel) (nodeId : String)
          (sql : SqlInput),
        RecordsFailure c.store.contents
            (c.act settings
              ⟨.frame nodeId ((entryEnvelope entry).received floats), sql, true⟩).store.contents ↔
          ∃ row ∈ c.store.contents.commandById (storedText command.commandId),
            ¬Spent c.store.contents row (unfinishedResult record) := by
  have hid : record.commandId = command.commandId := by
    rcases admitRemoteCommand_ok (RegistryCall.exec_ok hadmitted) with
      ⟨stored, hfound, -, ⟨-, hadmission⟩ | ⟨-, hadmission⟩⟩ | ⟨_, -, hadmission, -⟩
    · cases hadmission
    · cases hadmission
      simpa using List.find?_some hfound
    · cases hadmission
  obtain ⟨-, -, hcontents⟩ := enqueueOutbox_ok (RegistryCall.exec_ok hanswered)
  have hshort := commandId_of_validate hvalid
  rw [← hid] at hshort ⊢
  have hrecords := unfinished_recordsFailure_iff hunfinished hshort ⟨id, outboxCommandResult,
    some record.commandId, boundedPayload (outcomeValue record true), input'.clock 0, none⟩
    (by dsimp only) (by dsimp only)
  rw [hcontents]
  exact ⟨_, rfl, rfl, hrecords⟩

/-- The Control Plane waits for a list of runs. -/
def listingChannel : Channel where
  store := ⟨⟨[{ sentCommand with commandType := "runs.list" }], [], [], {}⟩,
    (by decide : Database.Valid
      ⟨[{ sentCommand with commandType := "runs.list" }], [], [], {}⟩)⟩
  stale := []

/-- No failure is recorded if the command was given up on before and creates no run. -/
theorem redelivery_after_timeout :
    let input : RegistryInput := ⟨fun _ => 0, "", true⟩
    let c := listingChannel.play ⟨50, fun _ => ""⟩ timesOut
    ∃ s entry, (storeAnswer executingRow true).exec input executingRegistry = (.ok 1, s) ∧
      s.contents.outbox = [entry] ∧
      ¬RecordsFailure c.store.contents
        (c.act ⟨50, fun _ => ""⟩ ⟨.frame "n1" ((entryEnvelope entry).received Number.float),
          ⟨200, none⟩, true⟩).store.contents := by
  intro input c
  have hvalid : RemoteCommand.validate ⟨"c1", "runs.list", some "p1", .null⟩ = .ok () := by
    decide
  have hadmitted : (RegistryCall.admitRemoteCommand "c1" "runs.list" (some "p1") "").exec input
      executingRegistry = (.ok (.duplicate executingRow), executingRegistry) := rfl
  obtain ⟨s, hanswered⟩ : ∃ s, (storeAnswer executingRow true).exec input executingRegistry =
      (.ok 1, s) := ⟨_, rfl⟩
  obtain ⟨entry, hentry, -, hrecords⟩ := redelivery_recordsFailure_iff
    ⟨⟨0, 0⟩, 0, fun _ => ""⟩ hvalid (by decide) hadmitted hanswered
  refine ⟨s, entry, hanswered, hentry, ?_⟩
  rw [hrecords]
  rintro ⟨row, hrow, hnot⟩
  obtain ⟨hclosed, htype⟩ : row.state.isOpen = false ∧ row.commandType = "runs.list" := by
    have hfound : (c.store.contents.commandById (storedText "c1")).map
        (fun row => (row.state.isOpen, row.commandType)) = some (false, "runs.list") := by
      decide +kernel
    rw [Option.mem_def.mp hrow] at hfound
    simpa using hfound
  refine hnot ⟨hclosed, fun hstarts => ?_, ?_⟩
  · rw [htype] at hstarts
    exact absurd hstarts (by decide)
  · simp [projectVerdict, htype]

/-- The Node dies while it executes a command, which is then delivered again. -/
def deliveredAgain : List (Action NodeInput NodeTask) :=
  let delivery : NodeTask := .command ⟨"m", .ok ⟨"c1", "runs.create", some "p1", .null⟩⟩
  .arrive delivery :: List.replicate 4 (.step 0 {}) ++
    [.crash, .arrive .startProcess, .step 1 {}, .arrive delivery] ++
    List.replicate 5 (.step 2 {})

/-- The Node answers that the command is being executed, and the Control Plane records that
the command and its run have failed. -/
theorem deliveredAgain_failed :
    let node := (idleNode .initial).play (node ⟨⟨0, 0⟩, 0, id⟩) deliveredAgain
    node.state.registry.contents.remoteCommands.map (fun row => row.state) = [.executing] ∧
      ∃ entry ∈ node.state.registry.contents.outbox,
        let c := waitingChannel.act ⟨50, fun _ => ""⟩
          ⟨.frame "n1" ((entryEnvelope entry).received Number.float), ⟨10, none⟩, true⟩
        RecordsFailure waitingChannel.store.contents c.store.contents ∧
          c.store.contents.status "r1" = some "failed" := by
  decide +kernel

end ControlPlane

end Asterism
