import Asterism.Process.Attempt

/-!
# The same submission again

A submission that has passed the checks of the request stores its images, derives the payload from
the URLs that these get, looks for a command of the Node under its idempotency key, and creates a
command and a run if there is none. Each query is one step. Stored images have new URLs in every
submission, so a repetition with images has another digest. Two submissions may both find the key
unused; then the unique index refuses the second one. And keys belong to a Node, while a digest
contains the project, so two projects of a Node cannot use one key.
-/

namespace Asterism.Resubmission

open Process

structure Attachment where
  url : String
  alt : Option String
  deriving DecidableEq

/-- The body of `POST /api/v1/projects/:projectId/runs` with an idempotency key, for a project of
the Node. -/
structure Submission where
  projectId : String
  input : String
  sessionId : Option String
  instructions : Option String
  idempotencyKey : String
  approvalPolicy : Option String
  userId : String
  attachments : List Attachment
  /-- The labels of the uploaded images. -/
  files : List (Option String)
  deriving DecidableEq

structure Payload where
  input : String
  sessionId : Option String
  instructions : Option String
  idempotencyKey : String
  attachments : List Attachment
  approvalPolicy : Option (String × String)

/-- A row of `commands`. -/
structure Command where
  commandId : ℕ
  payloadDigest : String
  deriving DecidableEq

/-- A row of `runs`. -/
structure Run where
  runId : ℕ
  createCommandId : ℕ
  deriving DecidableEq

/-- The stored images, the commands of the Node under the idempotency key (of whatever project),
and their runs. -/
structure State where
  attachments : List ℕ
  /-- How many attachment ids were drawn. -/
  drawn : ℕ
  commands : List Command
  runs : List Run

/-- What a submission is answered with. -/
inductive Answer
  | created (run : Run) (commandId : ℕ)
  | replayed (run : Option Run) (commandId : ℕ)
  /-- The payload is too large, with status 422. -/
  | invalidCommand
  | idempotencyConflict
  /-- The transaction has failed, with status 500. -/
  | failed

def Answer.run : Answer → Option Run
  | created run _ => some run
  | replayed run _ => run
  | invalidCommand | idempotencyConflict | failed => none

/-- The queries of the route, and sending the answer. -/
inductive Call : Type → Type 1
  | createAttachment : Call ℕ
  | removeAttachments (ids : List ℕ) : Call Unit
  | byIdempotencyKey : Call (Option Command)
  | runByCommand (commandId : ℕ) : Call (Option Run)
  /-- The transaction that creates the command and the run. -/
  | create (digest : String) : Call (Option (Command × Run))
  | reply (answer : Answer) : Call Unit

/-- What a query answers and does. The unique index admits one command under the key. -/
def Call.exec {β : Type} (call : Call β) (s : State) : β × State :=
  match call with
  | createAttachment =>
    (s.drawn, { s with attachments := s.attachments ++ [s.drawn], drawn := s.drawn + 1 })
  | removeAttachments ids =>
    ((), { s with attachments := s.attachments.filter fun id => id ∉ ids })
  | byIdempotencyKey => (s.commands.head?, s)
  | runByCommand commandId => (s.runs.find? fun run => run.createCommandId = commandId, s)
  | create digest =>
    match s.commands with
    | [] =>
      let command := ⟨0, digest⟩
      let run := ⟨s.runs.length, command.commandId⟩
      (some (command, run), { s with commands := [command], runs := s.runs ++ [run] })
    | _ :: _ => (none, s)
  | reply _ => ((), s)

def Call.sends {β : Type} : Call β → Option Answer
  | reply answer => some answer
  | _ => none

/-- Look for the command under the key (`byIdempotencyKey`), and create the run if there is none. -/
def createRun (digest : String) (uploads : List ℕ) : Program Call Unit := do
  match ← .perform .byIdempotencyKey with
  | some existing =>
    let _ ← .perform (.removeAttachments uploads)
    if existing.payloadDigest = digest then
      let run ← .perform (.runByCommand existing.commandId)
      .perform (.reply (.replayed run existing.commandId))
    else .perform (.reply .idempotencyConflict)
  | none =>
    match ← .perform (.create digest) with
    | some (command, run) => .perform (.reply (.created run command.commandId))
    | none =>
      let _ ← .perform (.removeAttachments uploads)
      .perform (.reply .failed)

/-- `persistUploadedImages`: each image is stored and gets a new attachment id. -/
def persistUploadedImages : List (Option String) → Program Call (List (ℕ × Option String))
  | [] => return []
  | alt :: files => do
    let id ← .perform .createAttachment
    let stored ← persistUploadedImages files
    return (id, alt) :: stored

section System

/-- `MAX_COMMAND_PAYLOAD_BYTES`. -/
def maxCommandPayloadBytes : ℕ := 128 * 1024

/-- What the Control Plane computes of a payload and of an attachment: `commandFingerprint` for a
project, the length of the payload's JSON text in bytes, and `attachmentCapabilityUrl`. -/
structure Encoders where
  commandFingerprint : String → Payload → String
  byteLength : Payload → ℕ
  attachmentCapabilityUrl : ℕ → String

variable (encoders : Encoders) (submission : Submission)

/-- The payload of `runs.create`, with the attachments as the Node receives them. -/
def Submission.payload (uploads : List (ℕ × Option String)) : Payload where
  input := submission.input
  sessionId := submission.sessionId
  instructions := submission.instructions
  idempotencyKey := submission.idempotencyKey
  attachments := submission.attachments ++
    uploads.map fun upload => ⟨encoders.attachmentCapabilityUrl upload.1, upload.2⟩
  approvalPolicy := submission.approvalPolicy.map fun policy => (policy, submission.userId)

def Submission.digest (uploads : List (ℕ × Option String)) : String :=
  encoders.commandFingerprint submission.projectId (submission.payload encoders uploads)

/-- `assertDispatchable`: the payload is small enough for a command. -/
def Submission.Dispatchable (uploads : List (ℕ × Option String)) : Prop :=
  encoders.byteLength (submission.payload encoders uploads) ≤ maxCommandPayloadBytes

instance (uploads : List (ℕ × Option String)) :
    Decidable (submission.Dispatchable encoders uploads) :=
  inferInstanceAs (Decidable (_ ≤ _))

/-- `POST /api/v1/projects/:projectId/runs`, from the uploads on. A submission whose payload is too
large leaves the images that it has stored. -/
def submit : Program Call Unit := do
  let uploads ← persistUploadedImages submission.files
  if submission.Dispatchable encoders uploads then
    createRun (submission.digest encoders uploads) (uploads.map Prod.fst)
  else .perform (.reply .invalidCommand)

/-- The Control Plane, which receives submissions for the Node under the key. -/
def system : System Call Unit Submission State :=
  ⟨⟨fun call _ s => call.exec s⟩, submit encoders⟩

end System

/-- The key was never used on the Node. -/
def idle : Pool Call Submission State := ⟨⟨[], 0, [], []⟩, []⟩

/-- There is at most one run, and every answer is that run. -/
def Once (c : Pool Call Submission State) : Prop :=
  c.state.runs.length ≤ 1 ∧ ∀ t ∈ c.threads, ∀ answer ∈ t.sent Call.sends,
    ∃ run, c.state.runs = [run] ∧ answer.run = some run

/-- What a submission has found out and relies on. -/
inductive Grip
  /-- There is no command under the key. -/
  | unused
  | found (command : Command)
  | answer (run : Run)
  | never
  deriving DecidableEq

def Grip.Fits (s : State) : Grip → Prop
  | unused => s.commands = []
  | found command => s.commands = [command]
  | answer run => s.runs = [run]
  | never => False

def Call.learns {β : Type} (digest : String) (held : Option Grip) : Call β → β → Option Grip
  | byIdempotencyKey, none => some .unused
  | byIdempotencyKey, some command =>
    some (if command.payloadDigest = digest then .found command else .never)
  | runByCommand _, run => some (run.elim .never .answer)
  | create _, created => some (created.elim .never fun created => .answer created.2)
  | reply _, _ => none
  | createAttachment, _ | removeAttachments _, _ => held

def Call.Relies {β : Type} (digest : String) (held : Option Grip) : Call β → Prop
  | create digest' => held = some .unused ∧ digest' = digest
  | runByCommand commandId => ∃ command, held = some (.found command) ∧
      command.commandId = commandId
  | reply answer => held = some (answer.run.elim .never .answer)
  | _ => True

/-- Runs are created under an unused key, and answers carry the run. -/
def knowledge (digest : String) : Custody Call Grip where
  after held event := event.request.learns digest held event.answer
  needs request held := request.Relies digest held

/-- The call creates a run. -/
def Call.creates {β : Type} : Call β → Bool
  | create _ => true
  | _ => false

/-- There is nothing yet, or one command with the digest and its run. -/
def Sound (digest : String) (s : State) : Prop :=
  s.commands = [] ∧ s.runs = [] ∨ ∃ command run, s.commands = [command] ∧ s.runs = [run] ∧
    command.payloadDigest = digest ∧ run.createCommandId = command.commandId

theorem createRun_knowledge (digest : String) (uploads : List ℕ) :
    (Family.emptyHanded (knowledge digest)).Holds (createRun digest uploads) := by
  refine ⟨trivial, fun existing => ?_⟩
  cases existing with
  | some existing =>
    refine ⟨trivial, fun _ => ?_⟩
    change Program.Warranted _ (if existing.payloadDigest = digest then _ else _) _
      (some (if existing.payloadDigest = digest then Grip.found existing else Grip.never))
    split
    · refine ⟨⟨existing, rfl, rfl⟩, fun run => ⟨?_, fun _ => rfl⟩⟩
      cases run <;> rfl
    · exact ⟨rfl, fun _ => rfl⟩
  | none =>
    refine ⟨⟨rfl, rfl⟩, fun created => ?_⟩
    cases created with
    | some created => exact ⟨rfl, fun _ => rfl⟩
    | none => exact ⟨trivial, fun _ => ⟨rfl, fun _ => rfl⟩⟩

theorem createRun_sends (digest : String) (uploads : List ℕ) :
    (createRun digest uploads).Sends Call.sends 4 := by
  refine ⟨by decide, .inr fun existing => ?_⟩
  cases existing with
  | some existing =>
    refine ⟨by decide, .inr fun _ => ?_⟩
    change Program.Sends _ (if existing.payloadDigest = digest then _ else _) _
    split
    · exact ⟨by decide, .inr fun run => ⟨by decide, .inl rfl⟩⟩
    · exact ⟨by decide, .inl rfl⟩
  | none =>
    refine ⟨by decide, .inr fun created => ?_⟩
    cases created with
    | some created => exact ⟨by decide, .inl rfl⟩
    | none => exact ⟨by decide, .inr fun _ => ⟨by decide, .inl rfl⟩⟩

section Steps

variable {digest : String} {s : State} {β : Type}

theorem Call.exec_create_first (hcommands : s.commands = []) (digest : String) :
    (Call.create digest).exec s = (some (⟨0, digest⟩, ⟨s.runs.length, 0⟩),
      { s with commands := [⟨0, digest⟩], runs := s.runs ++ [⟨s.runs.length, 0⟩] }) := by
  simp only [Call.exec, hcommands]

theorem Call.exec_create_again {command : Command} (hcommands : s.commands = [command])
    (digest : String) : (Call.create digest).exec s = (none, s) := by
  simp only [Call.exec, hcommands]

/-- What a submission knows stays true, except that the key does not stay unused. -/
theorem Grip.Fits.exec {grip : Grip} (h : grip.Fits s) (hs : Sound digest s) (call : Call β)
    (hspares : call.creates = true → grip ≠ .unused) : grip.Fits (call.exec s).2 := by
  cases call with
  | create digest' =>
    rcases hs with ⟨hcommands, hruns⟩ | ⟨command, run, hcommands, -⟩
    · cases grip with
      | unused => exact absurd rfl (hspares rfl)
      | found command =>
        have hfound : s.commands = [command] := h
        cases hcommands.symm.trans hfound
      | answer run =>
        have hrun : s.runs = [run] := h
        cases hruns.symm.trans hrun
      | never => exact h
    · rw [Call.exec_create_again hcommands]
      exact h
  | _ => cases grip <;> exact h

/-- A call of a submission that knows what it relies on keeps the rows as they should be. -/
theorem Sound.exec (hs : Sound digest s) (call : Call β) {held : Option Grip}
    (hrelies : call.Relies digest held) : Sound digest (call.exec s).2 := by
  cases call with
  | create digest' =>
    rcases hs with ⟨hcommands, hruns⟩ | ⟨command, run, hcommands, hrest⟩
    · rw [Call.exec_create_first hcommands, hruns]
      exact .inr ⟨⟨0, digest'⟩, ⟨0, 0⟩, rfl, rfl, hrelies.2, rfl⟩
    · rw [Call.exec_create_again hcommands]
      exact .inr ⟨command, run, hcommands, hrest⟩
  | _ => exact hs

theorem Call.learns_fits (hs : Sound digest s) (call : Call β) {held : Option Grip}
    (hfits : ∀ grip ∈ held, grip.Fits s) (hrelies : call.Relies digest held) {grip : Grip}
    (h : grip ∈ call.learns digest held (call.exec s).1) : grip.Fits (call.exec s).2 := by
  cases call with
  | createAttachment | removeAttachments =>
    have hgrip := hfits grip h
    cases grip <;> exact hgrip
  | reply answer => cases h
  | byIdempotencyKey =>
    rcases hs with ⟨hcommands, -⟩ | ⟨command, run, hcommands, -, hdigest, -⟩
    · simp only [Call.exec, hcommands] at h
      obtain rfl := Option.some.inj h
      exact hcommands
    · simp only [Call.exec, hcommands, List.head?_cons, Call.learns, if_pos hdigest] at h
      obtain rfl := Option.some.inj h
      exact hcommands
  | runByCommand commandId =>
    obtain ⟨found, rfl, rfl⟩ := hrelies
    have hfound : s.commands = [found] := hfits _ rfl
    rcases hs with ⟨hcommands, -⟩ | ⟨command, run, hcommands, hruns, -, hcreated⟩
    · cases hcommands.symm.trans hfound
    · obtain rfl := List.singleton_inj.mp (hcommands.symm.trans hfound)
      simp only [Call.exec, hruns, List.find?_cons, hcreated, decide_true] at h
      obtain rfl := Option.some.inj h
      exact hruns
  | create digest' =>
    have hcommands : s.commands = [] := hfits _ hrelies.1
    rcases hs with ⟨-, hruns⟩ | ⟨command, run, hsome, -⟩
    · rw [Call.exec_create_first hcommands, hruns] at h ⊢
      obtain rfl := Option.some.inj h
      exact rfl
    · cases hcommands.symm.trans hsome

end Steps

section Runs

variable (encoders : Encoders) {submission : Submission}

/-- No other submission arrives under the key, and no run is created while one that is in progress
has found the key unused. -/
def kept (submission : Submission) :
    Pool.Keeping (system encoders) (knowledge (submission.digest encoders [])) where
  fits grip s := grip.Fits s
  shared _ := True
  invariant := Sound (submission.digest encoders [])
  admits _ _ _ := True
  spares request _ _ grip := request.creates = true → grip ≠ .unused
  arrives other := other = submission

instance {β : Type} (request : Call β) (input : Unit) (s : State) :
    Decidable ((kept encoders submission).admits request input s) := .isTrue trivial

instance {β : Type} (request : Call β) (input : Unit) (s : State) (grip : Grip) :
    Decidable ((kept encoders submission).spares request input s grip) :=
  inferInstanceAs (Decidable (request.creates = true → grip ≠ .unused))

instance : DecidablePred (kept encoders submission).arrives :=
  fun other => inferInstanceAs (Decidable (other = submission))

abbrev Undisturbed (submission : Submission) :
    Pool Call Submission State → Process.Action Unit Submission → Prop :=
  Pool.Orderly (kept encoders submission)

theorem submit_eq (hfiles : submission.files = []) (hsize : submission.Dispatchable encoders []) :
    submit encoders submission = createRun (submission.digest encoders []) [] := by
  rw [submit, hfiles]
  exact if_pos hsize

theorem kept_upholds (hfiles : submission.files = [])
    (hsize : submission.Dispatchable encoders []) :
    Pool.Upholds (kept encoders submission) where
  start other hother := by
    change (Family.emptyHanded _).Holds (submit encoders other)
    rw [show other = submission from hother, submit_eq encoders hfiles hsize]
    exact createRun_knowledge _ []
  invariant := fun {_ request _ _ _} hdue => Sound.exec hdue.invariant request hdue.needs
  holds := fun {_ request _ _ _} hdue _ hk =>
    ⟨request.learns_fits hdue.invariant hdue.fits hdue.needs hk, .inr (.inl trivial)⟩
  spares := fun {_ request _ _ _} hdue _ hfits _ hspares =>
    hfits.exec hdue.invariant request hspares

end Runs

def message (projectId : String) (files : List (Option String)) : Submission :=
  ⟨projectId, "hello", none, none, "key-1", none, "u1", [], files⟩

def plainEncoders : Encoders where
  commandFingerprint projectId payload :=
    payload.attachments.foldl (fun text attachment => text ++ attachment.url)
      (projectId ++ payload.input)
  byteLength payload := payload.input.utf8ByteSize
  attachmentCapabilityUrl id := String.ofList (List.replicate id 'i')

end Asterism.Resubmission
