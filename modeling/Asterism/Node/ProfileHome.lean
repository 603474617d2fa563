import Asterism.Json

/-!
# The credential of a profile home

A worker reads its credential through a link in its profile home, and the Node brings the link up
to the assignment of the project before every start. A link of a running worker is only read. The
Codex CLI has a home of its own inside the profile home, with a link that is always repaired; where
this inner home is a link back to the profile home, the two links are one.
-/

namespace Asterism.ProfileHome

/-! ## Paths -/

/-- A `Path` of the system: any bytes. -/
abbrev Path := List UInt8

def separator : UInt8 := '/'.toUInt8

/-- The byte of a dot, which is a segment of its own or begins the one of a parent directory. -/
def dot : UInt8 := '.'.toUInt8

/-- `std::path::Component`, without the drives of other systems. -/
inductive Component
  | rootDir | curDir | parentDir
  | normal (name : Path)
  deriving DecidableEq

/-- The component that a segment of a path is, if it is not left out. -/
def component? (segment : Path) : Option Component :=
  if segment = [] ∨ segment = [dot] then none
  else if segment = [dot, dot] then some .parentDir
  else some (.normal segment)

/-- The segments of a path, between its separators. -/
def segments (path : Path) : List Path := path.splitOnP (· = separator)

/-- `Path::is_absolute`: the path begins at the root. -/
def isAbsolute (path : Path) : Bool := path.head? = some separator

/-- The component that a path begins with: the root, or a dot that is written out. -/
def opening (path : Path) : List Component :=
  if isAbsolute path then [.rootDir]
  else if (segments path).head? = some [dot] then [.curDir]
  else []

/-- `Path::components`: repeated separators are left out, and dots but for one at the beginning. -/
def components (path : Path) : List Component :=
  opening path ++ (segments path).filterMap component?

/-- Two paths are compared by their components. -/
def samePath (first second : Path) : Bool := components first = components second

/-- `Path::join`, for a second part that is not absolute. -/
def join (base name : Path) : Path :=
  if base = [] ∨ base.getLast? = some separator then base ++ name else base ++ separator :: name

/-- The bytes of a text, which a `&str` is as a path. -/
def encode (text : List Char) : Path := text.flatMap String.utf8EncodeChar

/-- `OsStr::to_str`. -/
def toStr (bytes : Path) : Option String := String.fromUTF8? bytes.toByteArray

/-- `is_plain_absolute`, which reads the path as a text. -/
def isPlainAbsolute (path : Path) : Bool :=
  match (toStr path).map String.toList with
  | some ('/' :: rest) =>
    rest ≠ [] && (rest.splitOn '/').all fun segment =>
      segment ≠ [] && segment ≠ ['.'] && segment ≠ ['.', '.']
  | _ => false

/-! ## A profile home -/

/-- What `symlink_metadata` finds under a name. -/
inductive Entry
  | absent
  | file (contents : List UInt8)
  | link (target : Path)
  /-- A directory, or something else that is no file and no link. -/
  | other
  deriving DecidableEq

/-- `codex_home`: the home of the Codex CLI. -/
inductive CodexHome
  | absent
  /-- Something that is not a directory, and does not lead to one. -/
  | obstructed
  /-- A directory, or a link to one outside of the profile home. -/
  | directory (mode : ℕ) (auth : Entry)
  /-- A link to the profile home itself. -/
  | home
  deriving DecidableEq

/-- A profile home: the entries `auth.json`, `auth.lock` and `.codex`. -/
structure Home where
  mode : ℕ
  auth : Entry
  lock : Entry
  codex : CodexHome
  deriving DecidableEq

/-- `CredentialLink`: what happened to one reference. -/
inductive CredentialLink
  | created | alreadyCorrect | repaired | keptExistingFile | mismatched
  deriving DecidableEq

inductive Reference
  | hermes | lock | codex
  deriving DecidableEq

/-- Why `reconcile_credentials` fails. -/
inductive Failure
  | profileLength | profileCharacters | profileDashes
  | credentialLength | credentialCharacters
  | notAbsolute | climbs | notPlain | notALink | codexHome
  deriving DecidableEq

/-- `CredentialPaths`: the paths that are needed. -/
structure CredentialPaths where
  sharedAuth : Path
  codexAuth : Path
  credentialRoot : Path

/-- The characters of an id: a lower-case letter, a digit or a dash. -/
def isIdChar (c : Char) : Bool :=
  ('a' ≤ c && c ≤ 'z') || ('0' ≤ c && c ≤ '9') || c = '-'

/-- `validate_id`: 1 to 64 characters that an id may have. -/
def validateId (id : List Char) : Except Failure Unit :=
  if id = [] ∨ 64 < Text.byteCount id then .error .credentialLength
  else if !id.all isIdChar then .error .credentialCharacters
  else .ok ()

/-- `validate_profile_name`. -/
def validateProfileName (profile : List Char) : Except Failure Unit :=
  if profile = [] ∨ 72 < Text.byteCount profile then .error .profileLength
  else if !profile.all isIdChar then .error .profileCharacters
  else if profile.head? = some '-' ∨ profile.getLast? = some '-' then .error .profileDashes
  else .ok ()

/-- `CREDENTIAL_FILE`. -/
def credentialFileName : Path := encode "auth.json".toList

/-- `credential_homes::home`: derived from a validated id only. -/
def credentialHome (root : Path) (id : List Char) : Except Failure Path := do
  validateId id
  return join root (encode id)

/-- `credential_file`. -/
def credentialFile (root : Path) (id : List Char) : Except Failure Path := do
  return join (← credentialHome root id) credentialFileName

/-- `lock_file`. -/
def lockFile (root : Path) (id : List Char) : Except Failure Path := do
  return join (← credentialHome root id) (encode "auth.lock".toList)

/-- `store_for`: the file of the assigned credential, or the shared store. -/
def CredentialPaths.storeFor (paths : CredentialPaths) : Option (List Char) → Except Failure Path
  | some id => credentialFile paths.credentialRoot id
  | none => .ok paths.sharedAuth

/-- `swap_link`: replace a link, or a file where that is allowed. -/
def swapLink (target : Path) (entry : Entry) (replaceFile : Bool) : Except Failure Entry :=
  if !isPlainAbsolute target then .error .notPlain
  else
    match entry with
    | .link _ | .absent => .ok (.link target)
    | .file _ => if replaceFile then .ok (.link target) else .error .notALink
    | .other => .error .notALink

/-- `link_to_host_credential`. -/
def linkToHostCredential (target : Path) (entry : Entry) :
    Except Failure (Entry × CredentialLink) :=
  if !isAbsolute target then .error .notAbsolute
  else if .parentDir ∈ components target then .error .climbs
  else
    match entry with
    | .link current =>
      if samePath current target then .ok (entry, .alreadyCorrect)
      else (swapLink target entry false).map (·, .repaired)
    | .absent => .ok (.link target, .created)
    | .file _ | .other => .ok (entry, .keptExistingFile)

/-- `point_link`: a link that a running worker uses is not moved. -/
def pointLink (target : Path) (entry : Entry) (live : Bool) :
    Except Failure (Entry × CredentialLink) :=
  match entry with
  | .link current =>
    if live && !samePath current target then .ok (entry, .mismatched)
    else linkToHostCredential target entry
  | _ => linkToHostCredential target entry

/-- `point_lock`: like `point_link`, but a file in the way is replaced. -/
def pointLock (target : Path) (entry : Entry) (live : Bool) :
    Except Failure (Entry × CredentialLink) :=
  match entry with
  | .link current =>
    if samePath current target then .ok (entry, .alreadyCorrect)
    else if live then .ok (entry, .mismatched)
    else (swapLink target entry true).map (·, .repaired)
  | .absent => (swapLink target entry true).map (·, .created)
  | .file _ | .other =>
    if live then .ok (entry, .mismatched) else (swapLink target entry true).map (·, .repaired)

/-- The lock in `reconcile_credentials`: it follows the store of an isolated credential, and a link
that an earlier assignment left is removed. -/
def settleLock (paths : CredentialPaths) (assignment : Option (List Char)) (live : Bool)
    (entry : Entry) : Except Failure (Entry × List (Reference × CredentialLink)) :=
  match assignment with
  | some id => do
    let (entry, outcome) ← pointLock (← lockFile paths.credentialRoot id) entry live
    return (entry, [(.lock, outcome)])
  | none =>
    match live, entry with
    | false, .link _ => .ok (.absent, [(.lock, .repaired)])
    | _, _ => .ok (entry, [])

/-- `reconcile_credentials`, for the home of the Codex CLI and the link in it. -/
def settleCodex (target : Path) (home : Home) : Except Failure (Home × CredentialLink) :=
  match home.codex with
  | .obstructed => .error .codexHome
  | .absent =>
    (linkToHostCredential target .absent).map fun (auth, outcome) =>
      ({ home with codex := .directory 0o700 auth }, outcome)
  | .directory _ auth =>
    (linkToHostCredential target auth).map fun (auth, outcome) =>
      ({ home with codex := .directory 0o700 auth }, outcome)
  | .home =>
    (linkToHostCredential target home.auth).map fun (auth, outcome) =>
      ({ home with mode := 0o700, auth := auth }, outcome)

/-- `reconcile_credentials`. -/
def reconcileCredentials (paths : CredentialPaths) (profile : List Char)
    (assignment : Option (List Char)) (live : Bool) :
    Option Home → Except Failure (Option Home × List (Reference × CredentialLink))
  | none => do
    validateProfileName profile
    return (none, [])
  | some home => do
    validateProfileName profile
    let store ← paths.storeFor assignment
    let (auth, hermes) ← pointLink store home.auth live
    let (lock, locked) ← settleLock paths assignment live home.lock
    let (home, codex) ← settleCodex paths.codexAuth { home with auth := auth, lock := lock }
    return (some home, (.hermes, hermes) :: locked ++ [(.codex, codex)])

/-! ## One link -/

section Links

variable {target : Path} {entry entry' : Entry} {live : Bool} {outcome : CredentialLink}

/-- A target that a link may be given. -/
def Admissible (target : Path) : Prop :=
  isAbsolute target = true ∧ .parentDir ∉ components target

/-- What `link_to_host_credential` leaves. -/
def linked (target : Path) : Entry → Entry
  | .absent => .link target
  | .link current => if samePath current target then .link current else .link target
  | .file contents => .file contents
  | .other => .other

/-- What `point_link` leaves. -/
def pointed (target : Path) (live : Bool) : Entry → Entry
  | .link current => if live then .link current else linked target (.link current)
  | entry => linked target entry

theorem swapLink_ok {replaceFile : Bool} (h : swapLink target entry replaceFile = .ok entry') :
    entry' = .link target := by
  unfold swapLink at h
  split at h
  · cases h
  · split at h
    · cases h; rfl
    · cases h; rfl
    · split at h
      · cases h; rfl
      · cases h
    · cases h

theorem linked_same {current : Path} (h : samePath current target = true) :
    linked target (.link current) = .link current := if_pos h

theorem linked_other {current : Path} (h : ¬ samePath current target = true) :
    linked target (.link current) = .link target := if_neg h

theorem map_ok {α β : Type} {f : α → β} {result : Except Failure α} {b : β}
    (h : result.map f = .ok b) : ∃ a, result = .ok a ∧ f a = b := by
  cases result with
  | error e => cases h
  | ok a => exact ⟨a, rfl, Except.ok.inj h⟩

theorem bind_ok_iff {α β : Type} {f : α → Except Failure β} {result : Except Failure α} {b : β} :
    result >>= f = .ok b ↔ ∃ a, result = .ok a ∧ f a = .ok b := by
  cases result with
  | error e => exact iff_of_false (fun h => by cases h) fun ⟨_, h, _⟩ => by cases h
  | ok a => exact ⟨fun h => ⟨a, rfl, h⟩, fun ⟨_, ha, h⟩ => Except.ok.inj ha ▸ h⟩

theorem linkToHostCredential_ok (h : linkToHostCredential target entry = .ok (entry', outcome)) :
    Admissible target ∧ entry' = linked target entry := by
  unfold linkToHostCredential at h
  split at h
  · cases h
  case isFalse habsolute =>
    split at h
    · cases h
    case isFalse hclimbs =>
      refine ⟨⟨by simpa using habsolute, hclimbs⟩, ?_⟩
      cases entry with
      | absent => cases h; rfl
      | file contents => cases h; rfl
      | other => cases h; rfl
      | link current =>
        dsimp only at h
        split at h
        case isTrue hsame =>
          cases h
          exact (linked_same hsame).symm
        case isFalse hsame =>
          obtain ⟨swapped, hswap, heq⟩ := map_ok h
          cases heq
          rw [swapLink_ok hswap, linked_other hsame]

theorem linkToHostCredential_linked (htarget : Admissible target) (entry : Entry) :
    ∃ outcome, linkToHostCredential target (linked target entry) =
      .ok (linked target entry, outcome) := by
  unfold linkToHostCredential
  rw [htarget.1, if_neg (by decide), if_neg htarget.2]
  cases entry with
  | absent => exact ⟨.alreadyCorrect, if_pos (decide_eq_true rfl)⟩
  | file contents => exact ⟨_, rfl⟩
  | other => exact ⟨_, rfl⟩
  | link current =>
    by_cases hsame : samePath current target = true
    · rw [linked_same hsame]
      exact ⟨.alreadyCorrect, if_pos hsame⟩
    · rw [linked_other hsame]
      exact ⟨.alreadyCorrect, if_pos (decide_eq_true rfl)⟩

theorem exists_linked (target : Path) (h : entry = .absent ∨ ∃ current, entry = .link current) :
    ∃ current, linked target entry = .link current ∧ samePath current target = true := by
  rcases h with rfl | ⟨current, rfl⟩
  · exact ⟨target, rfl, decide_eq_true rfl⟩
  · by_cases hsame : samePath current target = true
    · exact ⟨current, linked_same hsame, hsame⟩
    · exact ⟨target, linked_other hsame, decide_eq_true rfl⟩

theorem pointLink_ok (h : pointLink target entry live = .ok (entry', outcome)) :
    entry' = pointed target live entry ∧
      (Admissible target ∨ live = true ∧ ∃ current, entry = .link current ∧
        samePath current target = false) := by
  have hlinked (h : linkToHostCredential target entry = .ok (entry', outcome))
      (heq : pointed target live entry = linked target entry) :
      entry' = pointed target live entry ∧ (Admissible target ∨ live = true ∧
        ∃ current, entry = .link current ∧ samePath current target = false) := by
    obtain ⟨htarget, hentry⟩ := linkToHostCredential_ok h
    exact ⟨hentry.trans heq.symm, .inl htarget⟩
  unfold pointLink at h
  cases entry with
  | absent => exact hlinked h rfl
  | file contents => exact hlinked h rfl
  | other => exact hlinked h rfl
  | link current =>
    dsimp only at h
    split at h
    case isTrue hdiffers =>
      rw [Bool.and_eq_true, Bool.not_eq_true'] at hdiffers
      cases h
      exact ⟨by rw [pointed, if_pos hdiffers.1], .inr ⟨hdiffers.1, current, rfl, hdiffers.2⟩⟩
    case isFalse hdiffers =>
      refine hlinked h ?_
      rw [pointed]
      split
      case isTrue hlive => exact (linked_same (by simpa [hlive] using hdiffers)).symm
      · rfl

theorem pointLink_live (htarget : Admissible target) (current : Path) :
    ∃ outcome, pointLink target (.link current) true = .ok (.link current, outcome) := by
  unfold pointLink
  dsimp only
  by_cases hsame : samePath current target = true
  · rw [hsame, if_neg (by decide), ← linked_same hsame]
    exact linkToHostCredential_linked htarget _
  · rw [Bool.eq_false_iff.mpr hsame]
    exact ⟨_, rfl⟩

theorem pointLink_stopped (target : Path) (entry : Entry) :
    pointLink target entry false = linkToHostCredential target entry := by
  cases entry <;> rfl

/-- A second pass finds the link as the first one left it. -/
theorem pointLink_again (h : pointLink target entry live = .ok (entry', outcome)) :
    ∃ outcome, pointLink target entry' live = .ok (entry', outcome) := by
  obtain ⟨rfl, htarget⟩ := pointLink_ok h
  cases live with
  | false =>
    obtain htarget | ⟨hlive, -⟩ := htarget
    · have heq : pointed target false entry = linked target entry := by cases entry <;> rfl
      rw [heq, pointLink_stopped]
      exact linkToHostCredential_linked htarget entry
    · cases hlive
  | true =>
    cases entry with
    | absent =>
      obtain htarget | ⟨-, current, hentry, -⟩ := htarget
      · exact pointLink_live htarget target
      · cases hentry
    | file | other | link => exact ⟨outcome, h⟩

theorem pointLock_ok (h : pointLock target entry live = .ok (entry', outcome)) :
    (live = true → ∀ current, entry = .link current → entry' = .link current) ∧
      ∃ outcome, pointLock target entry' live = .ok (entry', outcome) := by
  have hkept (heq : entry' = entry) :
      (live = true → ∀ current, entry = .link current → entry' = .link current) ∧
        ∃ outcome, pointLock target entry' live = .ok (entry', outcome) := by
    subst heq
    exact ⟨fun _ _ hlink => hlink, outcome, h⟩
  have hswapped {result : CredentialLink}
      (hlive : ¬ (live = true ∧ ∃ current, entry = .link current))
      (h : (swapLink target entry true).map (·, result) = .ok (entry', outcome)) :
      (live = true → ∀ current, entry = .link current → entry' = .link current) ∧
        ∃ outcome, pointLock target entry' live = .ok (entry', outcome) := by
    refine ⟨fun h current hlink => absurd ⟨h, current, hlink⟩ hlive, ?_⟩
    obtain ⟨swapped, hswap, heq⟩ := map_ok h
    cases heq
    rw [swapLink_ok hswap]
    exact ⟨.alreadyCorrect, if_pos (decide_eq_true rfl)⟩
  have hcases := h
  unfold pointLock at hcases
  cases entry with
  | absent => exact hswapped (fun h => by obtain ⟨_, _, h⟩ := h; cases h) hcases
  | link current =>
    dsimp only at hcases
    split at hcases
    · exact hkept (congrArg Prod.fst (Except.ok.inj hcases)).symm
    · split at hcases
      · exact hkept (congrArg Prod.fst (Except.ok.inj hcases)).symm
      case isFalse hlive => exact hswapped (fun h => hlive h.1) hcases
  | file | other =>
    dsimp only at hcases
    split at hcases
    · exact hkept (congrArg Prod.fst (Except.ok.inj hcases)).symm
    case isFalse hlive => exact hswapped (fun h => hlive h.1) hcases

end Links

/-! ## The whole home -/

section Homes

variable {paths : CredentialPaths} {profile : List Char} {assignment : Option (List Char)}
  {live : Bool} {home home' : Home} {outcomes : List (Reference × CredentialLink)} {store : Path}

/-- The lock of a running worker is not changed, and a second pass finds it as it was left. -/
theorem settleLock_ok {entry entry' : Entry}
    (h : settleLock paths assignment live entry = .ok (entry', outcomes)) :
    (live = true → ∀ current, entry = .link current → entry' = .link current) ∧
      ∃ outcomes, settleLock paths assignment live entry' = .ok (entry', outcomes) := by
  cases assignment with
  | some id =>
    obtain ⟨target, hfile, h⟩ := bind_ok_iff.mp h
    obtain ⟨⟨entry', outcome⟩, hlock, h⟩ := bind_ok_iff.mp h
    cases h
    obtain ⟨hkept, outcome, hagain⟩ := pointLock_ok hlock
    exact ⟨hkept, [(.lock, outcome)],
      bind_ok_iff.mpr ⟨target, hfile, bind_ok_iff.mpr ⟨_, hagain, rfl⟩⟩⟩
  | none =>
    cases live with
    | true =>
      cases h
      exact ⟨fun _ _ hlink => hlink, _, rfl⟩
    | false =>
      refine ⟨(fun hlive => by cases hlive), ?_⟩
      cases entry <;> cases h <;> exact ⟨_, rfl⟩

theorem reconcileCredentials_ok_iff :
    reconcileCredentials paths profile assignment live (some home) = .ok (some home', outcomes) ↔
      validateProfileName profile = .ok () ∧ ∃ store, paths.storeFor assignment = .ok store ∧
        ∃ auth hermes, pointLink store home.auth live = .ok (auth, hermes) ∧
        ∃ lock locked, settleLock paths assignment live home.lock = .ok (lock, locked) ∧
        ∃ codex, settleCodex paths.codexAuth { home with auth := auth, lock := lock } =
          .ok (home', codex) ∧
          (.hermes, hermes) :: locked ++ [(.codex, codex)] = outcomes := by
  constructor
  · intro h
    obtain ⟨_, hprofile, h⟩ := bind_ok_iff.mp h
    obtain ⟨store, hstore, h⟩ := bind_ok_iff.mp h
    obtain ⟨⟨auth, hermes⟩, hauth, h⟩ := bind_ok_iff.mp h
    obtain ⟨⟨lock, locked⟩, hlock, h⟩ := bind_ok_iff.mp h
    obtain ⟨⟨final, codex⟩, hcodex, h⟩ := bind_ok_iff.mp h
    cases h
    exact ⟨hprofile, store, hstore, auth, hermes, hauth, lock, locked, hlock, codex, hcodex, rfl⟩
  · rintro ⟨hprofile, store, hstore, auth, hermes, hauth, lock, locked, hlock, codex, hcodex, rfl⟩
    refine bind_ok_iff.mpr ⟨(), hprofile, bind_ok_iff.mpr ⟨store, hstore, ?_⟩⟩
    refine bind_ok_iff.mpr ⟨(auth, hermes), hauth, bind_ok_iff.mpr ⟨(lock, locked), hlock, ?_⟩⟩
    exact bind_ok_iff.mpr ⟨(home', codex), hcodex, rfl⟩

/-- What the Codex CLI's home leaves of the two other entries, and that a second pass finds it as it
was left. -/
theorem settleCodex_ok {target : Path} {codex : CredentialLink}
    (h : settleCodex target home = .ok (home', codex)) :
    Admissible target ∧ home'.lock = home.lock ∧
      home'.auth = (if home.codex = .home then linked target home.auth else home.auth) ∧
      (home'.codex = .home ↔ home.codex = .home) ∧
      ∃ codex, settleCodex target home' = .ok (home', codex) := by
  -- A directory, new or not, and what is in it now.
  have hdirectory {auth : Entry} (hne : home.codex ≠ .home)
      (h : ((linkToHostCredential target auth).map fun (auth, outcome) =>
        ({ home with codex := .directory 0o700 auth }, outcome)) = .ok (home', codex)) :
      Admissible target ∧ home'.lock = home.lock ∧
        home'.auth = (if home.codex = .home then linked target home.auth else home.auth) ∧
        (home'.codex = .home ↔ home.codex = .home) ∧
        ∃ codex, settleCodex target home' = .ok (home', codex) := by
    obtain ⟨⟨auth', outcome⟩, hlink, heq⟩ := map_ok h
    cases heq
    obtain ⟨htarget, rfl⟩ := linkToHostCredential_ok hlink
    obtain ⟨outcome', hagain⟩ := linkToHostCredential_linked htarget auth
    refine ⟨htarget, rfl, (if_neg hne).symm, iff_of_false (fun h => by cases h) hne, outcome', ?_⟩
    simp only [settleCodex, hagain]
    rfl
  unfold settleCodex at h
  cases hcodex : home.codex with
  | obstructed =>
    rw [hcodex] at h
    cases h
  | absent =>
    rw [hcodex] at h
    exact hcodex ▸ hdirectory (by rw [hcodex]; exact CodexHome.noConfusion) h
  | directory mode auth =>
    rw [hcodex] at h
    exact hcodex ▸ hdirectory (by rw [hcodex]; exact CodexHome.noConfusion) h
  | home =>
    rw [hcodex] at h
    obtain ⟨⟨auth', outcome⟩, hlink, heq⟩ := map_ok h
    cases heq
    obtain ⟨htarget, rfl⟩ := linkToHostCredential_ok hlink
    obtain ⟨outcome', hagain⟩ := linkToHostCredential_linked htarget home.auth
    refine ⟨htarget, rfl, (if_pos rfl).symm, iff_of_true rfl rfl, outcome', ?_⟩
    simp only [settleCodex, hagain]
    rfl

end Homes

/-! ## What a pass promises -/

/-- What a pass promises about the entry `auth.json`: a file is kept, the link of a running worker
is kept, and a stopped one has a link to the store, unless it has a file. -/
structure AuthPromised (live : Bool) (store : Path) (auth auth' : Entry) : Prop where
  file_kept : ∀ contents, auth = .file contents → auth' = .file contents
  live_kept : live = true → ∀ current, auth = .link current → auth' = .link current
  stopped_linked : live = false → (∀ contents, auth ≠ .file contents) →
    ∃ current, auth' = .link current ∧ samePath current store = true

/-- The Codex CLI's link is made to be another one than the link of a running worker, or than the
link a stopped worker should have. -/
def Redirected (codexAuth : Path) (live : Bool) (store : Path) (auth : Entry) : Prop :=
  (live = true ∧ ∃ current, auth = .link current ∧ samePath current codexAuth = false) ∨
    live = false ∧ (auth = .absent ∨ ∃ current, auth = .link current) ∧
      samePath store codexAuth = false

section Promises

variable {live : Bool} {store codexAuth : Path} {auth : Entry}

theorem samePath_congr {first second : Path} (h : samePath first second = true) (third : Path) :
    samePath first third = samePath second third := by
  unfold samePath at h ⊢
  rw [of_decide_eq_true h]

theorem exists_pointed (store : Path) (hauth : auth = .absent ∨ ∃ current, auth = .link current) :
    ∃ current, pointed store false auth = .link current ∧ samePath current store = true := by
  have heq : pointed store false auth = linked store auth := by cases auth <;> rfl
  rw [heq]
  exact exists_linked store hauth

/-- The first step keeps the promise, but for a directory in the place of a link. -/
theorem authPromised_pointed_iff :
    AuthPromised live store auth (pointed store live auth) ↔ ¬ (live = false ∧ auth = .other) := by
  constructor
  · rintro h ⟨rfl, rfl⟩
    obtain ⟨current, hlink, -⟩ := h.stopped_linked rfl fun _ => Entry.noConfusion
    cases hlink
  · intro hother
    refine ⟨?_, ?_, ?_⟩
    · rintro contents rfl
      rfl
    · rintro rfl current rfl
      rfl
    · rintro rfl hfile
      refine exists_pointed store ?_
      cases auth with
      | absent => exact .inl rfl
      | link current => exact .inr ⟨current, rfl⟩
      | file contents => exact absurd rfl (hfile contents)
      | other => exact absurd ⟨rfl, rfl⟩ hother

/-- Where nothing is redirected, the Codex CLI's link was no other, or there was none before. -/
theorem linked_pointed (h : ¬ Redirected codexAuth live store auth) :
    linked codexAuth (pointed store live auth) = pointed store live auth ∨
      live = true ∧ auth = .absent ∧
        ∃ current, linked codexAuth (pointed store live auth) = .link current := by
  have hstopped (hlive : live = false) (hauth : auth = .absent ∨ ∃ current, auth = .link current) :
      linked codexAuth (pointed store live auth) = pointed store live auth := by
    subst hlive
    obtain ⟨current, hlink, hsame⟩ := exists_pointed store hauth
    rw [hlink]
    refine linked_same ?_
    rw [samePath_congr hsame, ← Bool.not_eq_false]
    exact fun hdiffers => h (.inr ⟨rfl, hauth, hdiffers⟩)
  cases auth with
  | file contents => exact .inl rfl
  | other => exact .inl rfl
  | absent =>
    cases live with
    | false => exact .inl (hstopped rfl (.inl rfl))
    | true =>
      obtain ⟨current, hlink, -⟩ := exists_linked codexAuth (.inr ⟨store, rfl⟩)
      exact .inr ⟨rfl, rfl, current, hlink⟩
  | link current =>
    cases live with
    | false => exact .inl (hstopped rfl (.inr ⟨current, rfl⟩))
    | true =>
      refine .inl (linked_same ?_)
      rw [← Bool.not_eq_false]
      exact fun hdiffers => h (.inl ⟨rfl, current, rfl, hdiffers⟩)

/-- Where the Codex CLI's link is the same entry, what it should be must be the same too. -/
theorem authPromised_linked_iff :
    AuthPromised live store auth (linked codexAuth (pointed store live auth)) ↔
      ¬ (live = false ∧ auth = .other) ∧ ¬ Redirected codexAuth live store auth := by
  constructor
  · intro h
    constructor
    · rintro ⟨rfl, rfl⟩
      obtain ⟨current, hlink, -⟩ := h.stopped_linked rfl fun _ => Entry.noConfusion
      cases hlink
    · rintro (⟨rfl, current, rfl, hdiffers⟩ | ⟨rfl, hauth, hdiffers⟩)
      · have hkept := h.live_kept rfl current rfl
        rw [pointed, if_pos rfl, linked_other (Bool.eq_false_iff.mp hdiffers)] at hkept
        cases hkept
        exact absurd hdiffers (by simp [samePath])
      · obtain ⟨current, hlink, hsame⟩ := exists_pointed store hauth
        have hfile : ∀ contents, auth ≠ .file contents := by
          rintro contents rfl
          rcases hauth with hauth | ⟨_, hauth⟩ <;> cases hauth
        obtain ⟨final, hfinal, hstore⟩ := h.stopped_linked rfl hfile
        rw [hlink, linked_other (by rw [samePath_congr hsame, hdiffers]; decide)] at hfinal
        cases hfinal
        rw [← samePath_congr hstore] at hdiffers
        exact absurd hdiffers (by simp [samePath])
  · rintro ⟨hother, hredirected⟩
    rcases linked_pointed hredirected with hsame | ⟨rfl, rfl, -⟩
    · rw [hsame]
      exact authPromised_pointed_iff.mpr hother
    · exact ⟨(fun _ h => by cases h), (fun _ _ h => by cases h), (fun h => by cases h)⟩

end Promises

/-- What a successful pass promises about a home. -/
structure Promised (paths : CredentialPaths) (profile : List Char)
    (assignment : Option (List Char)) (live : Bool) (store : Path) (home home' : Home) : Prop where
  auth : AuthPromised live store home.auth home'.auth
  lock : live = true → ∀ current, home.lock = .link current → home'.lock = .link current
  settled : ∃ outcomes,
    reconcileCredentials paths profile assignment live (some home') = .ok (some home', outcomes)

/-- The promises are kept exactly if a stopped worker has no directory in the place of its link, and
no home of the Codex CLI leads back to the profile home of a worker with another link. -/
theorem promised_iff {paths : CredentialPaths} {profile : List Char}
    {assignment : Option (List Char)} {live : Bool} {store : Path} {home home' : Home}
    {outcomes : List (Reference × CredentialLink)}
    (hstore : paths.storeFor assignment = .ok store)
    (h : reconcileCredentials paths profile assignment live (some home) =
      .ok (some home', outcomes)) :
    Promised paths profile assignment live store home home' ↔
      ¬ (live = false ∧ home.auth = .other) ∧
        ¬ (home.codex = .home ∧ Redirected paths.codexAuth live store home.auth) := by
  obtain ⟨hprofile, store', hstore', auth, hermes, hauth, lock, locked, hlock, codex, hcodex, -⟩ :=
    reconcileCredentials_ok_iff.mp h
  obtain rfl : store = store' := Except.ok.inj (hstore.symm.trans hstore')
  obtain ⟨rfl, htarget⟩ := pointLink_ok hauth
  obtain ⟨hlocked, _, hlockAgain⟩ := settleLock_ok hlock
  obtain ⟨-, rfl, hauthEq, -, _, hcodexAgain⟩ := settleCodex_ok hcodex
  -- A second pass succeeds if its first step does.
  have hsettled (hagain : ∃ hermes, pointLink store home'.auth live = .ok (home'.auth, hermes)) :
      ∃ outcomes, reconcileCredentials paths profile assignment live (some home') =
        .ok (some home', outcomes) := by
    obtain ⟨hermes, hagain⟩ := hagain
    exact ⟨_, reconcileCredentials_ok_iff.mpr ⟨hprofile, store, hstore, _, hermes, hagain, _, _,
      hlockAgain, _, hcodexAgain, rfl⟩⟩
  have hlocks : live = true → ∀ current, home.lock = .link current → home'.lock = .link current :=
    hlocked
  by_cases halias : home.codex = .home
  · have hauth' : home'.auth = linked paths.codexAuth (pointed store live home.auth) :=
      hauthEq.trans (if_pos halias)
    refine ⟨fun hpromised => ?_, fun hcondition => ?_⟩
    · obtain ⟨hother, hredirected⟩ := authPromised_linked_iff.mp (hauth' ▸ hpromised.auth)
      exact ⟨hother, fun hboth => hredirected hboth.2⟩
    · have hredirected : ¬ Redirected paths.codexAuth live store home.auth :=
        fun hredirected => hcondition.2 ⟨halias, hredirected⟩
      refine ⟨hauth' ▸ authPromised_linked_iff.mpr ⟨hcondition.1, hredirected⟩, hlocks,
        hsettled ?_⟩
      rw [hauth']
      rcases linked_pointed hredirected with hsame | ⟨rfl, habsent, current, hlink⟩
      · rw [hsame]
        exact pointLink_again hauth
      · rw [hlink]
        obtain htarget | ⟨-, _, hlinked, -⟩ := htarget
        · exact pointLink_live htarget current
        · rw [habsent] at hlinked
          cases hlinked
  · have hauth' : home'.auth = pointed store live home.auth := hauthEq.trans (if_neg halias)
    refine ⟨fun hpromised => ?_, fun hcondition => ?_⟩
    · exact ⟨authPromised_pointed_iff.mp (hauth' ▸ hpromised.auth), fun hboth => halias hboth.1⟩
    · refine ⟨hauth' ▸ authPromised_pointed_iff.mpr hcondition.1, hlocks, hsettled ?_⟩
      rw [hauth']
      exact pointLink_again hauth

def hostPaths : CredentialPaths where
  sharedAuth := encode "/srv/auth.json".toList
  codexAuth := encode "/srv/codex/auth.json".toList
  credentialRoot := encode "/srv/credentials".toList

def workerHome (codex : CodexHome) : Home :=
  ⟨0o700, .link (encode "/srv/old.json".toList), .absent, codex⟩

/-- The Codex CLI's home leads back to the home of a running worker, whose link is replaced. -/
theorem aliased_not_promised : ¬ ∀ home' outcomes,
    reconcileCredentials hostPaths ['p'] none true (some (workerHome .home)) =
      .ok (some home', outcomes) →
    Promised hostPaths ['p'] none true hostPaths.sharedAuth (workerHome .home) home' := by
  intro h
  have hrun : reconcileCredentials hostPaths ['p'] none true (some (workerHome .home)) =
      .ok (some ⟨0o700, .link hostPaths.codexAuth, .absent, .home⟩,
        [(.hermes, .mismatched), (.codex, .repaired)]) := by
    decide
  have hkept := (h _ _ hrun).auth.live_kept rfl _ rfl
  exact absurd hkept (by decide)

/-- With a home of its own for the Codex CLI, the link is left alone. -/
theorem mismatched_promised :
    Promised hostPaths ['p'] none true hostPaths.sharedAuth (workerHome .absent)
      (workerHome (.directory 0o700 (.link hostPaths.codexAuth))) := by
  have hrun : reconcileCredentials hostPaths ['p'] none true (some (workerHome .absent)) =
      .ok (some (workerHome (.directory 0o700 (.link hostPaths.codexAuth))),
        [(.hermes, .mismatched), (.codex, .created)]) := by
    decide
  exact (promised_iff rfl hrun).mpr ⟨(fun h => by cases h.1), (fun h => by cases h.1)⟩

end Asterism.ProfileHome
