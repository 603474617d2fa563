import Asterism.Json

/-!
# The Node's identity on disk

The Node keeps its private key and the metadata about it in two files. Creating the identity,
recording an enrollment and committing a rotation rewrite them in place: the file is truncated
when it is opened and its content is written afterwards. This module follows the files through
a crash between any two of these operations and asks what the next start makes of them.
-/

namespace Asterism.Identity

/-- `SECRET_KEY_LENGTH`. -/
def secretKeyLength : ℕ := 32

/-- `IdentityMetadata`: public metadata, kept next to the key. -/
structure IdentityMetadata where
  publicKey : String := ""
  fingerprint : String := ""
  nodeId : Option String := none
  controlPlaneUrl : Option String := none
  enrolledAt : Option ℤ := none
  createdAt : ℤ := 0
  deriving DecidableEq, Repr

/-- Base64, the signatures, SHA-256 and JSON, from the libraries. -/
structure Formats where
  /-- `encode_base64`. -/
  encodeBase64 : List UInt8 → String
  /-- `decode_base64`. -/
  decodeBase64 : String → Option (List UInt8)
  /-- The public key of a private one. -/
  verifyingKey : List UInt8 → List UInt8
  /-- SHA-256. -/
  digest : List UInt8 → List UInt8
  /-- `serde_json::to_string_pretty`. -/
  writeJson : IdentityMetadata → String
  /-- `serde_json::from_str`. -/
  readJson : String → Option IdentityMetadata

/-- `fingerprint_of` the public key of a private one. -/
def Formats.fingerprintOf (F : Formats) (secret : List UInt8) : String :=
  String.ofList ((F.digest (F.verifyingKey secret)).flatMap fun byte => Text.hex 2 byte.toNat)

/-- `public_key_base64`. -/
def Formats.publicKeyOf (F : Formats) (secret : List UInt8) : String :=
  F.encodeBase64 (F.verifyingKey secret)

inductive Path
  | key
  | metadata
  deriving DecidableEq, Repr

/-- A file: what it says and who may read it. -/
structure File where
  content : List Char
  mode : ℕ
  deriving DecidableEq, Repr

/-- The files of a Node home that hold its identity. -/
structure Disk where
  nodeHome : String
  key : Option File
  metadata : Option File
  deriving DecidableEq, Repr

/-- `key_path`. -/
def Disk.keyPath (d : Disk) : String := d.nodeHome ++ "/node/identity.key"

/-- `meta_path`. -/
def Disk.metaPath (d : Disk) : String := d.nodeHome ++ "/node/identity.json"

def Disk.file (d : Disk) : Path → Option File
  | .key => d.key
  | .metadata => d.metadata

def Disk.set (d : Disk) (path : Path) (file : Option File) : Disk :=
  match path with
  | .key => { d with key := file }
  | .metadata => { d with metadata := file }

/-- `NodeIdentity`: a loaded identity. -/
structure NodeIdentity where
  secret : List UInt8
  metadata : IdentityMetadata
  deriving DecidableEq, Repr

/-- Why `NodeIdentity::load` fails. -/
inductive LoadError
  | missing
  | refused (message : String)
  deriving DecidableEq, Repr

/-- `read_metadata`: a file that is absent is empty, one that cannot be parsed is an error. -/
def readMetadata (F : Formats) (d : Disk) : Except LoadError IdentityMetadata :=
  match d.metadata with
  | none => .ok {}
  | some file =>
    match F.readJson (String.ofList file.content) with
    | some metadata => .ok metadata
    | none => .error (.refused ("failed to parse " ++ d.metaPath))

/-- `load`: the key, if nobody else can read it and the metadata agree with it. -/
def load (F : Formats) (d : Disk) : Except LoadError NodeIdentity :=
  match d.key with
  | none => .error .missing
  | some file =>
    if file.mode % 0o100 ≠ 0 then
      .error (.refused ("identity key " ++ d.keyPath ++ " has permissions " ++
        String.ofList (Nat.toDigits 8 (file.mode % 0o1000)) ++
        "; it must be 0600. Refusing to use a key other users can read."))
    else
      match F.decodeBase64 (Text.trim (String.ofList file.content)) with
      | none =>
        .error (.refused ("identity key " ++ d.keyPath ++
          " is malformed; refusing to generate a replacement"))
      | some secret =>
        if secret.length ≠ secretKeyLength then
          .error (.refused ("identity key " ++ d.keyPath ++ " is " ++
            Text.decimal secret.length ++ " bytes, expected " ++ Text.decimal secretKeyLength ++
            "; refusing to generate a replacement"))
        else do
          let metadata ← readMetadata F d
          if metadata.fingerprint ≠ "" ∧ metadata.fingerprint ≠ F.fingerprintOf secret then
            .error (.refused ("identity metadata fingerprint does not match the private key; " ++
              "refusing to continue with an inconsistent identity"))
          else
            .ok ⟨secret, { metadata with
              publicKey := F.publicKeyOf secret
              fingerprint := F.fingerprintOf secret }⟩

/-! ## The procedures -/

/-- An operation on a file. -/
inductive FileOp
  /-- Open for writing, create with mode `0600`, and truncate. -/
  | openTruncated (path : Path)
  /-- Write at the end of what is there. -/
  | write (path : Path) (part : List Char)
  /-- Change the permissions. -/
  | setPermissions (path : Path) (mode : ℕ)
  deriving DecidableEq, Repr

def FileOp.apply (d : Disk) : FileOp → Disk
  | .openTruncated path => d.set path (some ⟨[], ((d.file path).map File.mode).getD 0o600⟩)
  | .write path part =>
    d.set path ((d.file path).map fun file => { file with content := file.content ++ part })
  | .setPermissions path mode =>
    d.set path ((d.file path).map fun file => { file with mode := mode })

def Disk.after (d : Disk) (ops : List FileOp) : Disk := ops.foldl FileOp.apply d

/-- `write_owner_only`, with the parts in which `write_all` gets its text written. -/
def writeOwnerOnly (path : Path) (parts : List (List Char)) : List FileOp :=
  .openTruncated path :: (parts.map (FileOp.write path) ++ [.setPermissions path 0o600])

/-- The identity that `create` makes. -/
def createdIdentity (F : Formats) (secret : List UInt8) (now : ℤ) : NodeIdentity :=
  ⟨secret, { publicKey := F.publicKeyOf secret, fingerprint := F.fingerprintOf secret,
             createdAt := now }⟩

/-- `propose_rotation`: the identity with a new key, before anything is written. -/
def NodeIdentity.proposeRotation (F : Formats) (identity : NodeIdentity) (secret : List UInt8)
    (now : ℤ) : NodeIdentity :=
  ⟨secret, { identity.metadata with
    publicKey := F.publicKeyOf secret
    fingerprint := F.fingerprintOf secret
    createdAt := now }⟩

/-- The identity in memory after `record_enrollment`. -/
def NodeIdentity.enrolled (identity : NodeIdentity) (nodeId controlPlaneUrl : String) (now : ℤ) :
    NodeIdentity :=
  { identity with metadata := { identity.metadata with
    nodeId := some nodeId
    controlPlaneUrl := some controlPlaneUrl
    enrolledAt := some now } }

/-- `NodeIdentity::create`, `record_enrollment` and `commit_rotation`. -/
inductive Procedure
  | create (secret : List UInt8) (now : ℤ)
  | recordEnrollment (identity : NodeIdentity) (nodeId controlPlaneUrl : String) (now : ℤ)
  | commitRotation (proposed : NodeIdentity)

namespace Procedure

/-- The identity that the files stand for afterwards. -/
def outcome (F : Formats) : Procedure → NodeIdentity
  | .create secret now => createdIdentity F secret now
  | .recordEnrollment identity nodeId url now => identity.enrolled nodeId url now
  | .commitRotation proposed => proposed

/-- The operations on the files, in order: `commit_rotation` and `save_metadata`. -/
def ops (keyParts metaParts : List (List Char)) : Procedure → List FileOp
  | .create _ _ => writeOwnerOnly .key keyParts ++ writeOwnerOnly .metadata metaParts
  | .recordEnrollment _ _ _ _ => writeOwnerOnly .metadata metaParts
  | .commitRotation _ => writeOwnerOnly .key keyParts ++ writeOwnerOnly .metadata metaParts

/-- When a procedure is begun: an identity is created where there is no key, an enrollment is
recorded for the identity that was loaded, and what is committed was proposed for it. -/
def Begun (F : Formats) (d : Disk) : Procedure → Prop
  | .create _ _ => d.key = none
  | .recordEnrollment identity _ _ _ => load F d = .ok identity
  | .commitRotation proposed =>
    ∃ current secret now, load F d = .ok current ∧ proposed = current.proposeRotation F secret now

end Procedure

/-- `load_or_create`, with the randomness for a new key. -/
def loadOrCreate (F : Formats) (d : Disk) (fresh : List UInt8) (now : ℤ) :
    Except LoadError NodeIdentity :=
  match load F d with
  | .error .missing => .ok (createdIdentity F fresh now)
  | answer => answer

/-! ## Where a crash does harm -/

/-- The file has been opened for rewriting and not all of its text is written. -/
def Torn (path : Path) (done pending : List FileOp) : Prop :=
  .openTruncated path ∈ done ∧ ∃ part, .write path part ∈ pending ∧ part ≠ []

/-- The metadata on disk does not contradict a key. -/
def Disk.Agrees (F : Formats) (d : Disk) (secret : List UInt8) : Prop :=
  ∀ file ∈ d.metadata, ∃ metadata, F.readJson (String.ofList file.content) = some metadata ∧
    (metadata.fingerprint = "" ∨ metadata.fingerprint = F.fingerprintOf secret)

/-- A crash does no harm: neither file is left half written, and if only the key has been
replaced, then the metadata that is still there does not contradict it. -/
def Harmless (F : Formats) (d : Disk) (secret : List UInt8) (done pending : List FileOp) : Prop :=
  ¬Torn .key done pending ∧ ¬Torn .metadata done pending ∧
    (.openTruncated .key ∈ done → .openTruncated .metadata ∉ done → d.Agrees F secret)

/-- The formats read back what they wrote of an identity, and refuse the beginning of it. -/
structure Formats.Faithful (F : Formats) (identity : NodeIdentity) : Prop where
  key : F.decodeBase64 (Text.trim (F.encodeBase64 identity.secret)) = some identity.secret
  length : identity.secret.length = secretKeyLength
  tornKey : ∀ part, part <+: (F.encodeBase64 identity.secret).toList →
    part ≠ (F.encodeBase64 identity.secret).toList →
    ∀ secret ∈ F.decodeBase64 (Text.trim (String.ofList part)), secret.length ≠ secretKeyLength
  metadata : F.readJson (F.writeJson identity.metadata) = some identity.metadata
  tornMetadata : ∀ part, part <+: (F.writeJson identity.metadata).toList →
    part ≠ (F.writeJson identity.metadata).toList → F.readJson (String.ofList part) = none

/-- A usable identity: its public data belong to its key. -/
def NodeIdentity.Complete (F : Formats) (identity : NodeIdentity) : Prop :=
  identity.metadata.publicKey = F.publicKeyOf identity.secret ∧
    identity.metadata.fingerprint = F.fingerprintOf identity.secret

/-- The next start finds a usable identity with the key of before or the new one. Where there was
no key and none has been written, it makes one. -/
def Recovers (F : Formats) (before after : Disk) (new fresh : List UInt8) (now : ℤ) : Prop :=
  ∃ identity, loadOrCreate F after fresh now = .ok identity ∧ identity.Complete F ∧
    ((∃ previous, load F before = .ok previous ∧ identity.secret = previous.secret) ∨
      identity.secret = new ∨ after.key = none ∧ identity.secret = fresh)

/-! ## What loading needs -/

variable {F : Formats} {d : Disk}

/-- The key file holds a key. -/
def Disk.Holds (F : Formats) (d : Disk) (secret : List UInt8) : Prop :=
  ∃ file, d.key = some file ∧ file.mode % 0o100 = 0 ∧
    F.decodeBase64 (Text.trim (String.ofList file.content)) = some secret ∧
    secret.length = secretKeyLength

theorem agrees_iff {secret : List UInt8} :
    d.Agrees F secret ↔ ∃ metadata, readMetadata F d = .ok metadata ∧
      (metadata.fingerprint = "" ∨ metadata.fingerprint = F.fingerprintOf secret) := by
  unfold Disk.Agrees readMetadata
  cases d.metadata with
  | none => simp
  | some file =>
    dsimp only
    cases hread : F.readJson (String.ofList file.content) <;> simp [hread]

/-- The identity that a key and metadata make. -/
def identityOf (F : Formats) (secret : List UInt8) (metadata : IdentityMetadata) : NodeIdentity :=
  ⟨secret, { metadata with
    publicKey := F.publicKeyOf secret
    fingerprint := F.fingerprintOf secret }⟩

theorem Disk.Holds.load_eq {secret : List UInt8} (h : d.Holds F secret) :
    load F d = (readMetadata F d).bind fun metadata =>
      if metadata.fingerprint ≠ "" ∧ metadata.fingerprint ≠ F.fingerprintOf secret then
        .error (.refused ("identity metadata fingerprint does not match the private key; " ++
          "refusing to continue with an inconsistent identity"))
      else .ok (identityOf F secret metadata) := by
  obtain ⟨file, hkey, hmode, hdecode, hlength⟩ := h
  rw [load, hkey]
  dsimp only
  rw [if_neg (not_not.mpr hmode), hdecode]
  dsimp only
  rw [if_neg (not_not.mpr hlength)]
  rfl

theorem Disk.Holds.exists_load {secret : List UInt8} (h : d.Holds F secret)
    (hagrees : d.Agrees F secret) :
    ∃ metadata, load F d = .ok (identityOf F secret metadata) := by
  obtain ⟨metadata, hread, hprint⟩ := agrees_iff.mp hagrees
  refine ⟨metadata, ?_⟩
  rw [h.load_eq, hread]
  refine if_neg fun hne => ?_
  rcases hprint with hempty | hsame
  · exact hne.1 hempty
  · exact hne.2 hsame

/-- What is loaded is a key that is there with metadata that agree with it. -/
theorem of_load_eq_ok {identity : NodeIdentity} (h : load F d = .ok identity) :
    d.Holds F identity.secret ∧ d.Agrees F identity.secret ∧ identity.Complete F := by
  have hholds : ∃ secret, d.Holds F secret := by
    unfold load at h
    split at h
    · cases h
    next file hkey =>
      split at h
      · cases h
      next hmode =>
        split at h
        · cases h
        next secret hdecode =>
          split at h
          · cases h
          next hlength =>
            exact ⟨secret, file, hkey, not_not.mp hmode, hdecode, not_not.mp hlength⟩
  obtain ⟨secret, hsecret⟩ := hholds
  rw [hsecret.load_eq] at h
  cases hread : readMetadata F d with
  | error e =>
    rw [hread] at h
    cases h
  | ok metadata =>
    rw [hread] at h
    change (if _ then _ else _) = _ at h
    split at h
    · cases h
    next hprint =>
      obtain rfl := Except.ok.inj h
      rw [not_and_or, not_not, not_not] at hprint
      exact ⟨hsecret, agrees_iff.mpr ⟨metadata, hread, hprint⟩, rfl, rfl⟩

theorem Disk.Holds.eq {secret secret' : List UInt8} (h : d.Holds F secret)
    (h' : d.Holds F secret') : secret = secret' := by
  obtain ⟨file, hkey, -, hdecode, -⟩ := h
  obtain ⟨file', hkey', -, hdecode', -⟩ := h'
  obtain rfl := Option.some.inj (hkey.symm.trans hkey')
  exact Option.some.inj (hdecode.symm.trans hdecode')

theorem readMetadata_ne_missing : readMetadata F d ≠ .error .missing := by
  unfold readMetadata
  split
  · exact fun h => by cases h
  · split <;> exact fun h => by cases h

theorem load_ne_missing {file : File} (h : d.key = some file) : load F d ≠ .error .missing := by
  intro hload
  unfold load at hload
  rw [h] at hload
  dsimp only at hload
  split at hload
  · cases hload
  · split at hload
    · cases hload
    · split at hload
      · cases hload
      · cases hread : readMetadata F d with
        | error e =>
          rw [hread] at hload
          obtain rfl := Except.error.inj hload
          exact readMetadata_ne_missing hread
        | ok metadata =>
          rw [hread] at hload
          change (if _ then _ else _) = _ at hload
          split at hload <;> cases hload

theorem loadOrCreate_of_key {file : File} (h : d.key = some file) (fresh : List UInt8) (now : ℤ) :
    loadOrCreate F d fresh now = load F d := by
  unfold loadOrCreate
  split
  next hload => exact absurd hload (load_ne_missing h)
  next => rfl

/-- With a key file in place, the next start recovers if and only if the file holds the key of
before or the new one and the metadata agree with it. -/
theorem recovers_iff_of_key {before : Disk} {file : File} (h : d.key = some file)
    {new fresh : List UInt8} {now : ℤ} :
    Recovers F before d new fresh now ↔ ∃ secret, d.Holds F secret ∧ d.Agrees F secret ∧
      ((∃ previous, load F before = .ok previous ∧ secret = previous.secret) ∨ secret = new) := by
  unfold Recovers
  rw [loadOrCreate_of_key h]
  constructor
  · rintro ⟨identity, hload, -, hold | hnew | ⟨hnone, -⟩⟩
    · obtain ⟨hholds, hagrees, -⟩ := of_load_eq_ok hload
      exact ⟨identity.secret, hholds, hagrees, .inl hold⟩
    · obtain ⟨hholds, hagrees, -⟩ := of_load_eq_ok hload
      exact ⟨identity.secret, hholds, hagrees, .inr hnew⟩
    · rw [h] at hnone
      cases hnone
  · rintro ⟨secret, hholds, hagrees, hwhich⟩
    obtain ⟨metadata, hload⟩ := hholds.exists_load hagrees
    exact ⟨_, hload, ⟨rfl, rfl⟩, hwhich.imp id .inl⟩

/-! ## What a rewrite leaves -/

theorem after_append (d : Disk) (first second : List FileOp) :
    d.after (first ++ second) = (d.after first).after second :=
  List.foldl_append

theorem after_writes (path : Path) (parts : List (List Char)) (content : List Char) (mode : ℕ)
    (d : Disk) :
    (d.set path (some ⟨content, mode⟩)).after (parts.map (FileOp.write path)) =
      d.set path (some ⟨content ++ parts.flatten, mode⟩) := by
  induction parts generalizing content with
  | nil => rw [List.flatten_nil, List.append_nil]; rfl
  | cons part parts ih =>
    rw [List.map_cons, List.flatten_cons, ← List.append_assoc, ← ih]
    cases path <;> rfl

/-- Where a rewrite is after its first operation: the parts written so far, and a mode that it
had or that it was given. -/
theorem after_take_writeOwnerOnly (path : Path) (parts : List (List Char)) (m : ℕ) (d : Disk) :
    ∃ mode, (mode = 0o600 ∨ ∃ file ∈ d.file path, mode = file.mode) ∧
      d.after ((writeOwnerOnly path parts).take (m + 1)) =
        d.set path (some ⟨(parts.take m).flatten, mode⟩) := by
  have hopened : FileOp.apply d (.openTruncated path) =
      d.set path (some ⟨[], ((d.file path).map File.mode).getD 0o600⟩) := rfl
  have hmode : ((d.file path).map File.mode).getD 0o600 = 0o600 ∨
      ∃ file ∈ d.file path, ((d.file path).map File.mode).getD 0o600 = file.mode := by
    cases hfile : d.file path with
    | none => exact .inl rfl
    | some file => exact .inr ⟨file, rfl, rfl⟩
  generalize ((d.file path).map File.mode).getD 0o600 = mode at hopened hmode
  have hwritten : d.after (.openTruncated path :: (parts.take m).map (FileOp.write path)) =
      d.set path (some ⟨(parts.take m).flatten, mode⟩) := by
    rw [Disk.after, List.foldl_cons, hopened]
    exact after_writes path (parts.take m) [] mode d
  rw [writeOwnerOnly, List.take_succ_cons, List.take_append, ← List.map_take]
  cases m - (parts.map (FileOp.write path)).length with
  | zero =>
    rw [List.take_zero, List.append_nil]
    exact ⟨mode, hmode, hwritten⟩
  | succ k =>
    refine ⟨0o600, .inl rfl, ?_⟩
    rw [List.take_succ_cons, List.take_nil, ← List.cons_append, after_append, hwritten]
    cases path <;> rfl

variable {path path' : Path}

theorem open_mem_take {parts : List (List Char)} {m : ℕ} :
    .openTruncated path' ∈ (writeOwnerOnly path parts).take m ↔ path' = path ∧ m ≠ 0 := by
  cases m with
  | zero => simp
  | succ m =>
    rw [writeOwnerOnly, List.take_succ_cons]
    refine ⟨fun h => ⟨?_, Nat.succ_ne_zero m⟩, fun h => ?_⟩
    · rcases List.mem_cons.mp h with heq | hmem
      · exact FileOp.openTruncated.inj heq
      · have hrest := List.mem_of_mem_take hmem
        simp at hrest
    · rw [h.1]
      exact List.mem_cons_self

/-- What is still to be written after the first operation are the parts that are left. -/
theorem write_mem_drop {parts : List (List Char)} {m : ℕ} {part : List Char} :
    .write path' part ∈ (writeOwnerOnly path parts).drop (m + 1) ↔
      path' = path ∧ part ∈ parts.drop m := by
  rw [writeOwnerOnly, List.drop_succ_cons, List.drop_append, ← List.map_drop, List.mem_append,
    List.mem_map]
  constructor
  · rintro (⟨part', hmem, heq⟩ | hmem)
    · obtain ⟨rfl, rfl⟩ := FileOp.write.inj heq
      exact ⟨rfl, hmem⟩
    · have hrest := List.mem_of_mem_drop hmem
      simp at hrest
  · rintro ⟨rfl, hmem⟩
    exact .inl ⟨part, hmem, rfl⟩

/-- Something is left to be written if and only if what is written is not all. -/
theorem exists_part_iff {parts : List (List Char)} {m : ℕ} :
    (∃ part ∈ parts.drop m, part ≠ []) ↔ (parts.take m).flatten ≠ parts.flatten := by
  have hsplit : parts.flatten = (parts.take m).flatten ++ (parts.drop m).flatten := by
    rw [← List.flatten_append, List.take_append_drop]
  rw [hsplit, ne_eq, List.self_eq_append_right, List.flatten_eq_nil_iff]
  push Not
  rfl

theorem flatten_take_prefix (parts : List (List Char)) (m : ℕ) :
    (parts.take m).flatten <+: parts.flatten :=
  ⟨(parts.drop m).flatten, by rw [← List.flatten_append, List.take_append_drop]⟩

/-- A rewrite in progress tears its file exactly if not all of the text is written. -/
theorem torn_take_iff (path : Path) (parts : List (List Char)) (m : ℕ) (earlier : List FileOp)
    {later : List FileOp} (hlater : ∀ part, .write path part ∉ later) :
    Torn path (earlier ++ (writeOwnerOnly path parts).take (m + 1))
        ((writeOwnerOnly path parts).drop (m + 1) ++ later) ↔
      (parts.take m).flatten ≠ parts.flatten := by
  rw [← exists_part_iff]
  unfold Torn
  simp only [List.mem_append, open_mem_take, write_mem_drop]
  constructor
  · rintro ⟨-, part, hmem | hmem, hne⟩
    · exact ⟨part, hmem.2, hne⟩
    · exact absurd hmem (hlater part)
  · rintro ⟨part, hmem, hne⟩
    exact ⟨.inr ⟨trivial, Nat.succ_ne_zero m⟩, part, .inl ⟨trivial, hmem⟩, hne⟩

/-! ## A crash at any point -/

section Crash

variable {new : NodeIdentity} {keyParts metaParts : List (List Char)}

theorem holds_of_written (hF : F.Faithful new) {mode : ℕ} (hmode : mode % 0o100 = 0)
    (hparts : keyParts.flatten = (F.encodeBase64 new.secret).toList) (d : Disk) :
    (d.set .key (some ⟨keyParts.flatten, mode⟩)).Holds F new.secret := by
  refine ⟨_, rfl, hmode, ?_, hF.length⟩
  rw [hparts, String.ofList_toList]
  exact hF.key

theorem not_holds_of_torn (hF : F.Faithful new)
    (hparts : keyParts.flatten = (F.encodeBase64 new.secret).toList) {m : ℕ}
    (htorn : (keyParts.take m).flatten ≠ keyParts.flatten) (mode : ℕ) (d : Disk)
    (secret : List UInt8) :
    ¬(d.set .key (some ⟨(keyParts.take m).flatten, mode⟩)).Holds F secret := by
  rintro ⟨file, hfile, -, hdecode, hlength⟩
  obtain rfl := Option.some.inj hfile
  have hstart : (keyParts.take m).flatten <+: (F.encodeBase64 new.secret).toList := by
    rw [← hparts]
    exact flatten_take_prefix keyParts m
  rw [hparts] at htorn
  exact hF.tornKey _ hstart htorn secret hdecode hlength

variable {fresh : List UInt8}

/-- While the metadata are rewritten, the new key is in place and the next start recovers exactly
if they are written completely. -/
theorem recovers_metadata_iff (hF : F.Faithful new) (hcomplete : new.Complete F) {before : Disk}
    (hholds : d.Holds F new.secret) (hparts : metaParts.flatten = (F.writeJson new.metadata).toList)
    (m : ℕ) {now : ℤ} :
    Recovers F before (d.after ((writeOwnerOnly .metadata metaParts).take (m + 1))) new.secret
        fresh now ↔
      ¬(metaParts.take m).flatten ≠ metaParts.flatten := by
  obtain ⟨mode, -, hafter⟩ := after_take_writeOwnerOnly .metadata metaParts m d
  rw [hafter]
  have hkept : (d.set .metadata (some ⟨(metaParts.take m).flatten, mode⟩)).Holds F new.secret :=
    hholds
  obtain ⟨file, hfile, -⟩ := hkept
  rw [recovers_iff_of_key hfile, not_not]
  constructor
  · rintro ⟨secret, hsecret, hagrees, -⟩
    obtain ⟨metadata, hread, -⟩ := hagrees _ rfl
    by_contra htorn
    have hstart : (metaParts.take m).flatten <+: (F.writeJson new.metadata).toList := by
      rw [← hparts]
      exact flatten_take_prefix metaParts m
    rw [hparts] at htorn
    rw [hF.tornMetadata _ hstart htorn] at hread
    cases hread
  · intro hwritten
    refine ⟨new.secret, hholds, fun file hfile => ?_, .inr rfl⟩
    obtain rfl := Option.some.inj hfile
    refine ⟨new.metadata, ?_, .inr hcomplete.2⟩
    rw [hwritten, hparts, String.ofList_toList]
    exact hF.metadata

theorem write_notMem (hne : path' ≠ path) (parts : List (List Char)) (m : ℕ)
    (part : List Char) : .write path' part ∉ (writeOwnerOnly path parts).drop m := by
  intro hmem
  have hall := List.mem_of_mem_drop hmem
  have hdrop : FileOp.write path' part ∈ (writeOwnerOnly path parts).drop (0 + 1) := by
    rcases List.mem_cons.mp hall with heq | hrest
    · cases heq
    · exact hrest
  exact hne (write_mem_drop.mp hdrop).1

theorem open_notMem (hne : path' ≠ path) (parts : List (List Char)) (m : ℕ) :
    .openTruncated path' ∉ (writeOwnerOnly path parts).take m :=
  fun hmem => hne (open_mem_take.mp hmem).1

theorem mode_mod_of_after {mode : ℕ} (hbefore : ∀ file ∈ d.key, file.mode % 0o100 = 0)
    (hmode : mode = 0o600 ∨ ∃ file ∈ d.file .key, mode = file.mode) : mode % 0o100 = 0 := by
  rcases hmode with rfl | ⟨file, hfile, rfl⟩
  · rfl
  · exact hbefore file hfile

/-- While the key is rewritten, the next start recovers exactly if it is written completely and
the old metadata do not contradict it. -/
theorem recovers_key_iff (hF : F.Faithful new) {before : Disk}
    (hbefore : ∀ file ∈ d.key, file.mode % 0o100 = 0)
    (hparts : keyParts.flatten = (F.encodeBase64 new.secret).toList) (m : ℕ) {now : ℤ} :
    Recovers F before (d.after ((writeOwnerOnly .key keyParts).take (m + 1))) new.secret fresh
        now ↔
      ¬(keyParts.take m).flatten ≠ keyParts.flatten ∧ d.Agrees F new.secret := by
  obtain ⟨mode, hmode, hafter⟩ := after_take_writeOwnerOnly .key keyParts m d
  have hmode := mode_mod_of_after hbefore hmode
  rw [hafter, recovers_iff_of_key rfl]
  by_cases htorn : (keyParts.take m).flatten ≠ keyParts.flatten
  · refine iff_of_false ?_ fun h => h.1 htorn
    rintro ⟨secret, hholds, -⟩
    exact not_holds_of_torn hF hparts htorn mode d secret hholds
  · rw [not_not.mp htorn, and_iff_right (not_not.mpr rfl)]
    have hholds := holds_of_written hF hmode hparts d
    constructor
    · rintro ⟨secret, hsecret, hagrees, -⟩
      rw [hholds.eq hsecret]
      exact hagrees
    · exact fun hagrees => ⟨new.secret, hholds, hagrees, .inr rfl⟩

theorem recovers_both_iff (hF : F.Faithful new) (hcomplete : new.Complete F)
    (hbefore : ∀ file ∈ d.key, file.mode % 0o100 = 0) {now : ℤ}
    (hstart : Recovers F d d new.secret fresh now)
    (hkey : keyParts.flatten = (F.encodeBase64 new.secret).toList)
    (hmeta : metaParts.flatten = (F.writeJson new.metadata).toList) (n : ℕ) :
    let ops := writeOwnerOnly .key keyParts ++ writeOwnerOnly .metadata metaParts
    Recovers F d (d.after (ops.take n)) new.secret fresh now ↔
      Harmless F d new.secret (ops.take n) (ops.drop n) := by
  dsimp only
  rcases Nat.lt_or_ge (writeOwnerOnly .key keyParts).length n with hmetadata | hkeys
  · -- the key is written, and the metadata are being written
    obtain ⟨m, rfl⟩ := Nat.exists_eq_add_of_lt hmetadata
    rw [Nat.add_assoc, List.take_length_add_append, List.drop_length_add_append, after_append]
    have hholds : (d.after (writeOwnerOnly .key keyParts)).Holds F new.secret := by
      obtain ⟨mode, hmode, hafter⟩ :=
        after_take_writeOwnerOnly .key keyParts (keyParts.length + 1) d
      have hlength : (writeOwnerOnly .key keyParts).length = keyParts.length + 1 + 1 := by
        simp [writeOwnerOnly]
      rw [← hlength, List.take_length, List.take_of_length_le (Nat.le_succ _)] at hafter
      rw [hafter]
      exact holds_of_written hF (mode_mod_of_after hbefore hmode) hkey d
    rw [recovers_metadata_iff hF hcomplete hholds hmeta]
    have htorn := torn_take_iff .metadata metaParts m (writeOwnerOnly .key keyParts)
      fun part => List.not_mem_nil
    rw [List.append_nil] at htorn
    rw [← htorn]
    refine ⟨fun h => ⟨?_, h, fun _ hnot => absurd ?_ hnot⟩, fun h => h.2.1⟩
    · rintro ⟨-, part, hmem, -⟩
      exact write_notMem (by decide) _ _ part hmem
    · exact List.mem_append_right _ (open_mem_take.mpr ⟨rfl, Nat.succ_ne_zero m⟩)
  · rw [List.take_append_of_le_length hkeys, List.drop_append_of_le_length hkeys]
    cases n with
    | zero =>
      refine iff_of_true hstart ⟨?_, ?_, fun hmem => absurd hmem List.not_mem_nil⟩
      · exact fun htorn => absurd htorn.1 List.not_mem_nil
      · exact fun htorn => absurd htorn.1 List.not_mem_nil
    | succ m =>
      -- the key is being written, and the metadata are those of before
      rw [recovers_key_iff hF hbefore hkey]
      have hlater (part : List Char) :
          .write .key part ∉ (writeOwnerOnly .metadata metaParts).drop 0 :=
        write_notMem (by decide) metaParts 0 part
      have htorn := torn_take_iff .key keyParts m [] hlater
      rw [List.nil_append, List.drop_zero] at htorn
      rw [← htorn]
      have hmetadata : .openTruncated .metadata ∉ (writeOwnerOnly .key keyParts).take (m + 1) :=
        open_notMem (by decide) keyParts (m + 1)
      refine ⟨fun h => ⟨h.1, fun htorn => hmetadata htorn.1, fun _ _ => h.2⟩, fun h => ⟨h.1, ?_⟩⟩
      exact h.2.2 (open_mem_take.mpr ⟨rfl, Nat.succ_ne_zero m⟩) hmetadata

theorem recovers_metadata_only_iff (hF : F.Faithful new) (hcomplete : new.Complete F)
    (hholds : d.Holds F new.secret) {now : ℤ} (hstart : Recovers F d d new.secret fresh now)
    (hmeta : metaParts.flatten = (F.writeJson new.metadata).toList) (n : ℕ) :
    let ops := writeOwnerOnly .metadata metaParts
    Recovers F d (d.after (ops.take n)) new.secret fresh now ↔
      Harmless F d new.secret (ops.take n) (ops.drop n) := by
  dsimp only
  have hkey (m : ℕ) : .openTruncated .key ∉ (writeOwnerOnly .metadata metaParts).take m :=
    open_notMem (by decide) metaParts m
  cases n with
  | zero =>
    refine iff_of_true hstart ⟨?_, ?_, fun hmem => absurd hmem List.not_mem_nil⟩
    · exact fun htorn => absurd htorn.1 List.not_mem_nil
    · exact fun htorn => absurd htorn.1 List.not_mem_nil
  | succ m =>
    rw [recovers_metadata_iff hF hcomplete hholds hmeta]
    have htorn := torn_take_iff .metadata metaParts m [] fun part => List.not_mem_nil
    rw [List.nil_append, List.append_nil] at htorn
    rw [← htorn]
    exact ⟨fun h => ⟨fun hopen => hkey _ hopen.1, h, fun hopen => absurd hopen (hkey _)⟩,
      fun h => h.2.1⟩

end Crash

theorem Procedure.Begun.complete {procedure : Procedure} (h : procedure.Begun F d) :
    (procedure.outcome F).Complete F := by
  cases procedure with
  | create secret now => exact ⟨rfl, rfl⟩
  | recordEnrollment identity nodeId url now => exact (of_load_eq_ok h).2.2
  | commitRotation proposed =>
    obtain ⟨current, secret, now, -, rfl⟩ := h
    exact ⟨rfl, rfl⟩

/-- After a crash between any two file operations of creating an identity, recording an
enrollment or committing a rotation, the next start returns a usable identity with the key of
before or the new one if and only if the crash is harmless. -/
theorem recovers_iff_harmless {procedure : Procedure} (hbegun : procedure.Begun F d)
    (hF : F.Faithful (procedure.outcome F)) {keyParts metaParts : List (List Char)}
    (hkey : keyParts.flatten = (F.encodeBase64 (procedure.outcome F).secret).toList)
    (hmeta : metaParts.flatten = (F.writeJson (procedure.outcome F).metadata).toList) (n : ℕ)
    (fresh : List UInt8) (now : ℤ) :
    Recovers F d (d.after ((procedure.ops keyParts metaParts).take n))
        (procedure.outcome F).secret fresh now ↔
      Harmless F d (procedure.outcome F).secret ((procedure.ops keyParts metaParts).take n)
        ((procedure.ops keyParts metaParts).drop n) := by
  have hcomplete := hbegun.complete
  have hloaded {current : NodeIdentity} (hload : load F d = .ok current) (new : List UInt8) :
      Recovers F d d new fresh now := by
    obtain ⟨⟨file, hfile, -⟩, -, hcurrent⟩ := of_load_eq_ok hload
    exact ⟨current, (loadOrCreate_of_key hfile fresh now).trans hload, hcurrent,
      .inl ⟨current, hload, rfl⟩⟩
  cases procedure with
  | create secret created =>
    have hnone : d.key = none := hbegun
    have hmissing : loadOrCreate F d fresh now = .ok (createdIdentity F fresh now) := by
      rw [loadOrCreate, load, hnone]
    refine recovers_both_iff hF hcomplete (fun file hfile => ?_)
      ⟨_, hmissing, ⟨rfl, rfl⟩, .inr (.inr ⟨hnone, rfl⟩)⟩ hkey hmeta n
    rw [hnone] at hfile
    cases hfile
  | recordEnrollment identity nodeId url enrolled =>
    exact recovers_metadata_only_iff hF hcomplete (of_load_eq_ok hbegun).1 (hloaded hbegun _)
      hmeta n
  | commitRotation proposed =>
    obtain ⟨current, secret, rotated, hload, -⟩ := hbegun
    obtain ⟨⟨file, hfile, hmode, -⟩, -⟩ := of_load_eq_ok hload
    refine recovers_both_iff hF hcomplete (fun file' hfile' => ?_) (hloaded hload _) hkey hmeta n
    obtain rfl := Option.some.inj (hfile.symm.trans hfile')
    exact hmode

/-- Formats with one character a byte. -/
def plainFormats : Formats where
  encodeBase64 bytes := String.ofList (bytes.map fun b => Char.ofNat (0x100 + b.toNat))
  decodeBase64 text := some (text.toList.map fun c => UInt8.ofNat (c.toNat - 0x100))
  verifyingKey secret := secret
  digest bytes := bytes.take 4
  writeJson _ := "m"
  readJson text := if text = "m" then some {} else none

def someSecret : List UInt8 := List.replicate 32 7

def namingFormats : Formats :=
  { plainFormats with
    readJson := fun text =>
      if text = "m" then some (createdIdentity plainFormats someSecret 0).metadata else none }

def emptyHome : Disk := ⟨"/home", none, none⟩

theorem length_trim_le (text : List Char) :
    (Text.trim (String.ofList text)).toList.length ≤ text.length := by
  rw [Text.trim, String.toList_ofList, String.toList_ofList, Text.trimChars, Text.trimMatches]
  exact (List.rdropWhile_prefix _ _).length_le.trans (List.dropWhile_sublist _).length_le

theorem namingFormats_faithful :
    namingFormats.Faithful ((Procedure.create someSecret 0).outcome namingFormats) where
  key := by decide +kernel
  length := by decide
  tornKey part hpart hne secret hsecret := by
    obtain rfl := Option.some.inj hsecret
    have hlt : part.length < 32 := by
      have hlength : (namingFormats.encodeBase64 someSecret).toList.length = 32 := by
        decide +kernel
      rw [← hlength]
      exact lt_of_le_of_ne hpart.length_le fun heq => hne (hpart.eq_of_length heq)
    have hle := length_trim_le part
    rw [List.length_map, secretKeyLength]
    omega
  metadata := by decide +kernel
  tornMetadata part hpart hne := by
    have hlt : part.length < 1 :=
      lt_of_le_of_ne hpart.length_le fun heq => hne (hpart.eq_of_length heq)
    have hnil : part = [] := List.eq_nil_of_length_eq_zero (by omega)
    rw [hnil]
    decide +kernel

/-- A crash between the key and the metadata of a first identity is recovered from. -/
theorem created_key_recovers :
    Recovers namingFormats emptyHome
      (emptyHome.after (((Procedure.create someSecret 0).ops
        [(namingFormats.encodeBase64 someSecret).toList] ["m".toList]).take 3))
      someSecret (List.replicate 32 9) 1 := by
  have hbegun : (Procedure.create someSecret 0).Begun namingFormats emptyHome := rfl
  refine (recovers_iff_harmless hbegun namingFormats_faithful (List.append_nil _)
    (List.append_nil _) 3 _ 1).mpr ⟨?_, ?_, fun _ _ file hfile => by cases hfile⟩
  · rintro ⟨-, part, hmem, -⟩
    simp [Procedure.ops, writeOwnerOnly] at hmem
  · rintro ⟨hmem, -⟩
    simp [Procedure.ops, writeOwnerOnly] at hmem

def someHome : Disk := ⟨"/home", some ⟨(plainFormats.encodeBase64 someSecret).toList, 0o600⟩, none⟩

/-- A rotation that is interrupted right after the key file was opened leaves no key: neither the
one of before nor the new one. -/
theorem interrupted_rotation_loses_key :
    load plainFormats someHome = .ok (identityOf plainFormats someSecret {}) ∧
      loadOrCreate plainFormats
        (someHome.after (((Procedure.commitRotation
          ((identityOf plainFormats someSecret {}).proposeRotation plainFormats
            (List.replicate 32 8) 1)).ops
          [(plainFormats.encodeBase64 (List.replicate 32 8)).toList] ["m".toList]).take 1))
        (List.replicate 32 9) 2 =
      .error (.refused ("identity key /home/node/identity.key is 0 bytes, expected 32; " ++
        "refusing to generate a replacement")) := by
  decide +kernel

end Asterism.Identity
