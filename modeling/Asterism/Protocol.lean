import Asterism.Redact
import Mathlib.Data.Nat.Digits.Defs

/-!
# Messages between the Node and the Control Plane

The part of the protocol that commands travel in: the command itself, with the checks
made before anything is stored, the digest that identifies it, and the error codes.
-/

namespace Asterism

/-- `ErrorCode`: the protocol's error codes. -/
inductive ErrorCode
  | malformedFrame
  | frameTooLarge
  | unsupportedVersion
  | unknownMessageType
  | payloadTooLarge
  | unknownCommand
  | forbiddenCommand
  | projectNotRegistered
  | duplicatePayloadMismatch
  | commandFailed
  | internal
  deriving DecidableEq

/-- `as_str`: the code on the wire. -/
def ErrorCode.asStr : ErrorCode → String
  | malformedFrame => "malformed_frame"
  | frameTooLarge => "frame_too_large"
  | unsupportedVersion => "unsupported_version"
  | unknownMessageType => "unknown_message_type"
  | payloadTooLarge => "payload_too_large"
  | unknownCommand => "unknown_command"
  | forbiddenCommand => "forbidden_command"
  | projectNotRegistered => "project_not_registered"
  | duplicatePayloadMismatch => "duplicate_payload_mismatch"
  | commandFailed => "command_failed"
  | internal => "internal"

/-- `ProtocolError`: a refusal the Control Plane can act on. -/
structure ProtocolError where
  code : ErrorCode
  message : String
  deriving DecidableEq

/-- `Envelope`: one message, without its identifier, version and time. -/
structure Envelope where
  messageType : String
  correlationId : Option String
  payload : Value
  deriving DecidableEq

/-- `into_envelope`: the message that carries a refusal. -/
def ProtocolError.envelope (error : ProtocolError) (correlationId : Option String) : Envelope :=
  ⟨"error", correlationId,
    Value.obj [("code", .string error.code.asStr), ("message", .string error.message)]⟩

/-- `RemoteCommand`: a command of the Control Plane. -/
structure RemoteCommand where
  /-- Assigned by the Control Plane, and the key of deduplication. -/
  commandId : String
  command : String
  projectId : Option String
  payload : Value
  deriving DecidableEq

namespace RemoteCommand

/-- `MAX_COMMAND_PAYLOAD_BYTES`. -/
def maxPayloadBytes : ℕ := 128 * 1024

/-- `is_allowed_command`: the commands the Node executes. -/
def allowedCommands : List String :=
  ["capabilities.get", "projects.list", "runs.create", "runs.list", "runs.get", "runs.cancel",
    "runs.retry", "runs.approval_policy", "project.provision", "project.resume",
    "project.suspend", "project.credential.assign", "project.model.select", "approvals.resolve",
    "events.subscribe", "events.unsubscribe", "node.drain", "node.update", "provider.status",
    "credentials.list", "credentials.authorize", "credentials.cancel", "credentials.rename",
    "credentials.reauthorize", "credentials.revoke", "provider.authorize", "provider.cancel"]

/-- `validate`: the checks made before a command is recorded. -/
def validate (command : RemoteCommand) : Except ProtocolError Unit :=
  if command.commandId = "" ∨ 128 < Text.len command.commandId then
    .error ⟨.malformedFrame, "command_id must be 1..=128 characters"⟩
  else if command.command ∉ allowedCommands then
    .error ⟨.forbiddenCommand,
      "command " ++ String.ofList (Value.encodeText command.command) ++ " is not permitted"⟩
  else if maxPayloadBytes < Text.len command.payload.encode then
    -- The length is a machine word.
    .error ⟨.payloadTooLarge, "payload of " ++
      Text.decimal (Text.len command.payload.encode % 2 ^ 64) ++
      " bytes exceeds " ++ Text.decimal maxPayloadBytes⟩
  else .ok ()

/-- `fingerprint`: the digest of the parts that make it the same command. -/
def fingerprint (sha256 : String → String) (command : RemoteCommand) : String :=
  sha256 (Value.obj [("command", .string command.command),
    ("project_id", .ofOption command.projectId), ("payload", command.payload)]).encode

end RemoteCommand

end Asterism

/-! # Frames and their lengths -/

namespace Asterism.Value

/-- The number of bytes that encode a value. -/
def bytes (value : Value) : ℕ := Text.byteCount value.encodeChars

theorem len_encode (value : Value) : Text.len value.encode = value.bytes := by
  rw [encode, Text.len, String.toList_ofList, bytes]

/-- The bytes of a field, with its colon and one separator. -/
def fieldBytes (field : String × Value) : ℕ :=
  Text.byteCount (encodeText field.1) + field.2.bytes + 2

theorem byteCount_encodeFields (field : String × Value) (fields : List (String × Value)) :
    Text.byteCount (encodeFields (field :: fields)) + 1 =
      ((field :: fields).map fieldBytes).sum := by
  have hcolon : Text.byteCount [':'] = 1 := by decide
  have hcomma : Text.byteCount [','] = 1 := by decide
  induction fields generalizing field with
  | nil =>
    simp only [encodeFields, Text.byteCount_append, hcolon, List.map_cons, List.map_nil,
      List.sum_cons, List.sum_nil, fieldBytes, bytes]
    omega
  | cons next fields ih =>
    have hrest := ih next
    rw [List.map_cons, List.sum_cons, ← hrest]
    simp only [encodeFields, Text.byteCount_append, hcolon, hcomma, fieldBytes, bytes]
    omega

theorem bytes_object (field : String × Value) (fields : List (String × Value)) :
    (object (field :: fields)).bytes = 1 + ((field :: fields).map fieldBytes).sum := by
  have hopen : Text.byteCount ['\x7b'] = 1 := by decide
  have hclose : Text.byteCount ['\x7d'] = 1 := by decide
  rw [← byteCount_encodeFields, bytes, encodeChars, Text.byteCount_append, Text.byteCount_append,
    hopen, hclose]
  omega

theorem byteCount_encodeItems (item : Value) (items : List Value) :
    Text.byteCount (encodeItems (item :: items)) + 1 =
      ((item :: items).map fun item => item.bytes + 1).sum := by
  have hcomma : Text.byteCount [','] = 1 := by decide
  induction items generalizing item with
  | nil => rfl
  | cons next items ih =>
    have hrest := ih next
    rw [List.map_cons, List.sum_cons, ← hrest]
    simp only [encodeItems, Text.byteCount_append, hcomma, bytes]
    omega

theorem bytes_array (item : Value) (items : List Value) :
    (array (item :: items)).bytes = 1 + ((item :: items).map fun item => item.bytes + 1).sum := by
  have hopen : Text.byteCount ['['] = 1 := by decide
  have hclose : Text.byteCount [']'] = 1 := by decide
  rw [← byteCount_encodeItems, bytes, encodeChars, Text.byteCount_append, Text.byteCount_append,
    hopen, hclose]
  omega

/-- The escape of a character takes at most six bytes for each of its own. -/
theorem byteCount_encodeChar_le (c : Char) : Text.byteCount (encodeChar c) ≤ 6 * c.utf8Size := by
  have hpos := c.utf8Size_pos
  have hshort (second : Char) (hsecond : second.utf8Size = 1) :
      Text.byteCount ['\\', second] ≤ 6 * c.utf8Size := by
    have hbackslash : '\\'.utf8Size = 1 := by decide
    rw [Text.byteCount_cons, Text.byteCount_cons, Text.byteCount_nil, hsecond, hbackslash]
    omega
  unfold encodeChar
  split
  · exact hshort _ (by decide)
  · exact hshort _ (by decide)
  · exact hshort _ (by decide)
  · exact hshort _ (by decide)
  · exact hshort _ (by decide)
  · exact hshort _ (by decide)
  · exact hshort _ (by decide)
  · split
    · rename_i hcontrol
      have hall : ∀ code : Fin 0x20, Text.byteCount (['\\', 'u'] ++ Text.hex 4 code) = 6 := by
        decide
      have hsix := hall ⟨c.toNat, hcontrol⟩
      dsimp only at hsix
      rw [hsix]
      omega
    · rw [Text.byteCount_cons, Text.byteCount_nil]
      omega

theorem bytes_string_le (text : String) : (string text).bytes ≤ 6 * Text.len text + 2 := by
  have hquote : Text.byteCount ['"'] = 1 := by decide
  have hchars (chars : List Char) :
      Text.byteCount (chars.flatMap encodeChar) ≤ 6 * Text.byteCount chars := by
    induction chars with
    | nil => exact Nat.le_refl 0
    | cons c chars ih =>
      have hc := byteCount_encodeChar_le c
      rw [List.flatMap_cons, Text.byteCount_append, Text.byteCount_cons]
      omega
  have htext := hchars text.toList
  rw [bytes, encodeChars, encodeText, Text.byteCount_append, Text.byteCount_append, hquote,
    Text.len]
  omega

theorem len_decimal_le {n : ℕ} (h : n < 2 ^ 64) : Text.len (Text.decimal n) ≤ 20 := by
  have hlength : (Nat.toDigits 10 n).length ≤ 20 :=
    Nat.toDigits_length 10 n 20 (by decide) (by omega)
  have hdigit (c : Char) (hc : c ∈ Nat.toDigits 10 n) : c.utf8Size = 1 := by
    have hvalue := Nat.isDigit_of_mem_toDigits (by decide) (by decide) hc
    simp only [Char.isDigit, Bool.and_eq_true, decide_eq_true_eq] at hvalue
    exact Char.utf8Size_eq_one_iff.mpr (UInt32.le_trans hvalue.2 (by decide))
  rw [Text.decimal, Text.len, String.toList_ofList, Text.byteCount, List.map_congr_left hdigit,
    List.map_const', List.sum_replicate_nat, Nat.mul_one]
  exact hlength

def zeros (n : ℕ) : Value := .array (List.replicate n (.number (.int 0)))

theorem bytes_zeros (n : ℕ) : (zeros (n + 1)).bytes = 2 * n + 3 := by
  have hzero : (number (.int 0)).bytes + 1 = 2 := by decide
  rw [zeros, List.replicate_succ, bytes_array, ← List.replicate_succ, List.map_replicate,
    List.sum_replicate_nat, hzero]
  omega

theorem walk_zeros {depth : ℕ} (hdepth : depth + 1 < Redact.maxDepth) (n : ℕ) :
    (Redact.walk depth (zeros n)).value = zeros n := by
  have hhere : ¬Redact.maxDepth ≤ depth := by omega
  have hinside : ¬Redact.maxDepth ≤ depth + 1 := by omega
  have hitems : (Redact.walkItems depth (List.replicate n (.number (.int 0)))).1 =
      List.replicate n (.number (.int 0)) := by
    induction n with
    | zero => rw [List.replicate_zero, Redact.walkItems]
    | succ n ih =>
      rw [List.replicate_succ, Redact.walkItems]
      simp only [ih, Redact.walk, if_neg hinside]
  rw [zeros, Redact.walk, if_neg hhere]
  dsimp only
  rw [hitems]

end Asterism.Value

/-! ## Frames -/

namespace Asterism

/-- `MAX_FRAME_BYTES`: the largest frame, in bytes. -/
def maxFrameBytes : ℕ := 1024 * 1024

/-- `PROTOCOL_VERSION`: the version of the protocol that is spoken. -/
def protocolVersion : UInt16 := 1

/-- An `Envelope` as it is written. -/
structure Frame extends Envelope where
  protocolVersion : UInt16
  messageId : String
  timestamp : ℤ
  deriving DecidableEq

/-- What a sender adds to a message: `new_message_id` and the time. -/
structure Stamp where
  messageId : String
  timestamp : Int64
  /-- The identifier has the characters of a UUID. -/
  uuid : messageId.toList.length = 36 ∧ ∀ c ∈ messageId.toList, c.isAlphanum = true ∨ c = '-'

namespace Frame

/-- The fields of a frame in the order in which they are written. -/
def fields (frame : Frame) : List (String × Value) :=
  [("protocol_version", .number (.int frame.protocolVersion.toNat)),
    ("message_id", .string frame.messageId), ("type", .string frame.messageType),
    ("timestamp", .number (.int frame.timestamp))] ++
    (match frame.correlationId with
      | some id => [("correlation_id", .string id)]
      | none => []) ++
    [("payload", frame.payload)]

def text (frame : Frame) : String := (Value.object frame.fields).encode

/-- `encode`: the text of a frame, if it is not too long. -/
def encode (frame : Frame) : Except String String :=
  if maxFrameBytes < Text.len frame.text then
    .error ("outgoing frame of " ++ Text.decimal (Text.len frame.text) ++
      " bytes exceeds the limit")
  else .ok frame.text

end Frame

namespace Envelope

/-- `new`: the frame that carries a message. -/
def stamped (envelope : Envelope) (stamp : Stamp) : Frame :=
  { envelope with
    protocolVersion := Asterism.protocolVersion
    messageId := stamp.messageId
    timestamp := stamp.timestamp.toInt }

/-- The frame that carries a message is not too long. -/
def Fits (envelope : Envelope) (stamp : Stamp) : Prop :=
  Text.len (envelope.stamped stamp).text ≤ maxFrameBytes

theorem encode_isOk_iff (envelope : Envelope) (stamp : Stamp) :
    (∃ text, (envelope.stamped stamp).encode = .ok text) ↔ envelope.Fits stamp := by
  unfold Frame.encode Fits
  split
  · rename_i hlong
    exact iff_of_false (fun ⟨_, h⟩ => nomatch h) (Nat.not_le.mpr hlong)
  · rename_i hshort
    exact iff_of_true ⟨_, rfl⟩ (Nat.not_lt.mp hshort)

end Envelope

theorem byteCount_encodeChar_uuid {c : Char} (h : c.isAlphanum = true ∨ c = '-') :
    Text.byteCount (Value.encodeChar c) = 1 := by
  have hall : ∀ i : Fin 128, (Char.ofNat i).isAlphanum = true ∨ Char.ofNat i = '-' →
      Text.byteCount (Value.encodeChar (Char.ofNat i)) = 1 := by decide
  have hsmall : c.toNat < 128 := by
    rcases h with h | rfl
    · delta Char.isAlphanum Char.isAlpha Char.isUpper Char.isLower Char.isDigit at h
      simp only [Bool.or_eq_true, Bool.and_eq_true, decide_eq_true_eq, UInt32.le_iff_toNat_le,
        ge_iff_le] at h
      have hupper : 'Z'.val.toNat = 90 := rfl
      have hlower : 'z'.val.toNat = 122 := rfl
      have hdigit : '9'.val.toNat = 57 := rfl
      change c.val.toNat < 128
      omega
    · decide
  have hchar := hall ⟨c.toNat, hsmall⟩
  rw [Char.ofNat_toNat] at hchar
  exact hchar h

theorem Stamp.bytes_messageId (stamp : Stamp) : (Value.string stamp.messageId).bytes = 38 := by
  have hchars (chars : List Char) (h : ∀ c ∈ chars, c.isAlphanum = true ∨ c = '-') :
      Text.byteCount (chars.flatMap Value.encodeChar) = chars.length := by
    induction chars with
    | nil => rfl
    | cons c chars ih =>
      obtain ⟨hc, hrest⟩ := List.forall_mem_cons.mp h
      rw [List.flatMap_cons, Text.byteCount_append, byteCount_encodeChar_uuid hc, ih hrest,
        List.length_cons, Nat.add_comm]
  have hquote : Text.byteCount ['"'] = 1 := by decide
  rw [Value.bytes, Value.encodeChars, Value.encodeText, Text.byteCount_append,
    Text.byteCount_append, hchars _ stamp.uuid.2, stamp.uuid.1, hquote]

namespace Envelope

/-- The bytes of an identifier that a message answers. -/
def correlationBytes : Option String → ℕ
  | some id => 18 + (Value.string id).bytes
  | none => 0

theorem len_stamped (envelope : Envelope) (stamp : Stamp) :
    Text.len (envelope.stamped stamp).text =
      106 + (Value.string envelope.messageType).bytes +
        (Value.number (.int stamp.timestamp.toInt)).bytes +
        correlationBytes envelope.correlationId + envelope.payload.bytes := by
  have hversion :
      Value.fieldBytes ("protocol_version", .number (.int protocolVersion.toNat)) = 21 := by
    decide
  have hid : Text.byteCount (Value.encodeText "message_id") = 12 := by decide
  have htype : Text.byteCount (Value.encodeText "type") = 6 := by decide
  have htime : Text.byteCount (Value.encodeText "timestamp") = 11 := by decide
  have hcorrelation : Text.byteCount (Value.encodeText "correlation_id") = 16 := by decide
  have hpayload : Text.byteCount (Value.encodeText "payload") = 9 := by decide
  have huuid := stamp.bytes_messageId
  obtain ⟨messageType, correlationId, payload⟩ := envelope
  rw [Frame.text, Value.len_encode, Frame.fields]
  cases correlationId with
  | none =>
    simp only [stamped, List.append_nil, List.cons_append, List.nil_append, Value.bytes_object,
      List.map_cons, List.map_nil, List.sum_cons, List.sum_nil, hversion, correlationBytes]
    simp only [Value.fieldBytes, hid, htype, htime, hpayload, huuid]
    omega
  | some id =>
    simp only [stamped, List.cons_append, List.nil_append, Value.bytes_object,
      List.map_cons, List.map_nil, List.sum_cons, List.sum_nil, hversion, correlationBytes]
    simp only [Value.fieldBytes, hid, htype, htime, hcorrelation, hpayload, huuid]
    omega

end Envelope

end Asterism
