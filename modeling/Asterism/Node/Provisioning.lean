import Asterism.Node.Endpoints
import Asterism.Node.ProfileHome

/-!
# Provisioning a profile home

A project is given an endpoint in the registry and a home with two files that carry its port. The
home is built beside its place and renamed into it, and a home that is complete is reused with the
files it has. Attempts follow each other; each of their operations may fail, and each of them may be
stopped between any two operations. Files and registry agree as long as no complete home is taken
for an incomplete one: a failed check of a file is the answer that there is none, and what follows
gives the endpoint up.
-/

namespace Asterism.Provisioning

open Process
open Endpoints (endpointAt endpointPort fallible)

/-! ## The registry and the homes -/

/-- `ProfileState`: the states of a profile. -/
inductive ProfileState
  | pending | provisioning | ready | failed | disabled
  deriving DecidableEq

/-- The files that `complete` looks for. -/
inductive HomeFile
  | config | runtimeEnv
  deriving DecidableEq

/-- The home of a `ProfileLayout`, or one that is being built. A file that is there carries a port,
or was cut short. -/
structure Home where
  config : Option (Option ℕ) := none
  runtimeEnv : Option (Option ℕ) := none
  /-- There is something else in it. -/
  others : Bool := false
  deriving DecidableEq

namespace Home

def get (home : Home) : HomeFile → Option (Option ℕ)
  | .config => home.config
  | .runtimeEnv => home.runtimeEnv

def set (home : Home) (file : HomeFile) (contents : Option ℕ) : Home :=
  match file with
  | .config => { home with config := some contents }
  | .runtimeEnv => { home with runtimeEnv := some contents }

/-- `complete`: both files are there. -/
def complete (home : Home) : Bool := home.config.isSome && home.runtimeEnv.isSome

/-- What a removal that failed has left. -/
def keep (home : Home) (spared : HomeFile → Bool) : Home where
  config := if spared .config then home.config else none
  runtimeEnv := if spared .runtimeEnv then home.runtimeEnv else none
  others := home.others

/-- There is nothing in it. -/
def isEmpty (home : Home) : Bool :=
  home.config.isNone && home.runtimeEnv.isNone && !home.others

/-- Both files carry this port. -/
def Carries (home : Home) (port : ℕ) : Prop :=
  home.config = some (some port) ∧ home.runtimeEnv = some (some port)

end Home

/-- A profile and the process that builds its home. -/
abbrev Staging := List Char × ℕ

/-- The projects of the inventory with their endpoints, the other columns of a project, and the
files. -/
structure State extends Endpoints.State where
  profileState : String → ProfileState
  /-- The profile runtime of the project is recorded. -/
  recorded : String → Bool
  home : List Char → Option Home
  staging : Staging → Option Home

/-- What the host decides about an operation. -/
structure Input where
  error : Option String := none
  /-- Something listens on a port, or a write that failed has cut the file short. -/
  flag : Bool := false
  /-- The files that a removal that failed has left. -/
  spared : HomeFile → Bool := fun _ => true

/-- The directories, permissions and links of a home that is being built. -/
inductive Preparation
  | directory | permissions | sessions | memories | logs | configPermissions | auth | codexHome
  | codexPermissions | codexAuth | runtimeEnvPermissions
  deriving DecidableEq

/-- The operations of `provision_project_profile` on the registry and on files. -/
inductive Call : Type → Type 1
  /-- A query or a probe of `reserve_endpoint`. -/
  | reservation {β : Type} (call : Endpoints.Call β) : Call β
  | project (projectId : String) : Call (Except String Unit)
  | validateHome (profile : List Char) : Call (Except String Unit)
  | setProfileState (projectId : String) (state : ProfileState) : Call (Except String Unit)
  | releaseEndpoint (projectId : String) : Call (Except String Unit)
  | setProfileRuntime (projectId endpoint : String) : Call (Except String Unit)
  | isFile (profile : List Char) (file : HomeFile) : Call Bool
  | createHomeRoot : Call (Except String Unit)
  | removeStaging (staging : Staging) : Call Unit
  | prepare (staging : Staging) (step : Preparation) : Call (Except String Unit)
  | write (staging : Staging) (file : HomeFile) (port : ℕ) : Call (Except String Unit)
  | rename (staging : Staging) : Call (Except String Unit)

/-- The error about a project that is not there. -/
def notRegistered (projectId : String) : String := "project " ++ projectId ++ " is not registered"

namespace State

def setEndpoint (s : State) (projectId : String) (endpoint : Option String) : State :=
  { s with endpoint := Function.update s.endpoint projectId endpoint }

def stage (s : State) (staging : Staging) (home : Option Home) : State :=
  { s with staging := Function.update s.staging staging home }

def place (s : State) (staging : Staging) (home : Home) : State :=
  { s.stage staging none with home := Function.update s.home staging.1 (some home) }

/-- `std::fs::rename` of the directory of a home that was built. Only an empty directory is
replaced. -/
def rename (s : State) (staging : Staging) : Except String Unit × State :=
  match s.staging staging with
  | none => (.error "No such file or directory (os error 2)", s)
  | some home =>
    if (s.home staging.1).all Home.isEmpty then (.ok (), s.place staging home)
    else (.error "Directory not empty (os error 39)", s)

def record (s : State) (projectId endpoint : String) : State :=
  { s.setEndpoint projectId (some endpoint) with
    recorded := Function.update s.recorded projectId true
    profileState := Function.update s.profileState projectId .provisioning }

end State

/-- What an operation answers and does. A file that cannot be looked at counts as one that is not
there. -/
def Call.exec {β : Type} : Call β → Input → State → β × State
  | .reservation call, input, s =>
    let result := call.exec ⟨input.error, input.flag⟩ s.toState
    (result.1, { s with toState := result.2 })
  | .project projectId, input, s =>
    fallible input.error s
      (if projectId ∈ s.projects then .ok () else .error (notRegistered projectId), s)
  | .validateHome _, input, s => fallible input.error s (.ok (), s)
  | .setProfileState projectId state, input, s =>
    fallible input.error s
      (if projectId ∈ s.projects then
        (.ok (), { s with profileState := Function.update s.profileState projectId state })
      else (.error (notRegistered projectId), s))
  | .releaseEndpoint projectId, input, s =>
    fallible input.error s
      (.ok (), if s.profileState projectId ≠ .ready then s.setEndpoint projectId none else s)
  | .setProfileRuntime projectId endpoint, input, s =>
    fallible input.error s
      (if projectId ∈ s.projects then (.ok (), s.record projectId endpoint)
      else (.error (notRegistered projectId), s))
  | .isFile profile file, input, s =>
    (input.error.isNone && (s.home profile).any fun home => (home.get file).isSome, s)
  | .createHomeRoot, input, s => fallible input.error s (.ok (), s)
  | .removeStaging staging, input, s =>
    ((), s.stage staging
      (if input.error.isSome then (s.staging staging).map (·.keep input.spared) else none))
  | .prepare staging step, input, s =>
    fallible input.error s
      (.ok (), s.stage staging (some { (s.staging staging).getD {} with
        others := ((s.staging staging).getD {}).others || step ≠ .directory }))
  | .write staging file port, input, s =>
    match s.staging staging, input.error with
    | none, _ => (.error "No such file or directory (os error 2)", s)
    | some home, some error =>
      (.error error, if input.flag then s.stage staging (some (home.set file none)) else s)
    | some home, none => (.ok (), s.stage staging (some (home.set file (some port))))
  | .rename staging, input, s =>
    fallible input.error s (s.rename staging)

def machine : Machine Call Input State := ⟨Call.exec⟩

/-! ## An attempt -/

/-- `default_profile_name`. -/
def defaultProfileName (projectId : String) : List Char :=
  "asterism-project-".toList ++
    (projectId.toList.map fun c =>
      if Text.isAsciiAlphanumeric c then c.toLower else '-').take 48

/-- `ProvisionSettings`: what is configured. Ports are 16 bits wide. -/
structure Settings where
  first : ℕ
  last : ℕ
  reserved : List ℕ
  hlast : last < 2 ^ 16

/-- The arguments with which a project's endpoint is reserved. -/
def Settings.request (settings : Settings) (projectId : String) : Endpoints.Request :=
  ⟨projectId, settings.first, settings.last, settings.reserved⟩

section Procedures

open Attempt

/-- A procedure that may fail. -/
abbrev Procedure := Attempt Call String

/-- `reserve_endpoint`, as a part of an attempt. -/
def reserveEndpoint (settings : Settings) (projectId : String) : Procedure String :=
  (Endpoints.reserveEndpoint (settings.request projectId)).embed Call.reservation

/-- `complete`. -/
def isComplete (profile : List Char) : Procedure Bool := do
  if ← ask (.isFile profile .config) then ask (.isFile profile .runtimeEnv) else return false

/-- One preparation after the other. -/
def prepareAll (staging : Staging) : List Preparation → Procedure Unit
  | [] => return ()
  | step :: steps => do
    attempt (.prepare staging step)
    prepareAll staging steps

/-- `provision_project_profile` builds a home beside its place. -/
def build (staging : Staging) (port : ℕ) : Procedure Unit := do
  prepareAll staging [.directory, .permissions, .sessions, .memories, .logs]
  attempt (.write staging .config port)
  prepareAll staging [.configPermissions, .auth, .codexHome, .codexPermissions, .codexAuth]
  attempt (.write staging .runtimeEnv port)
  prepareAll staging [.runtimeEnvPermissions]

/-- `provision_project_profile` gives up, after a home could not be built or moved. -/
def giveUp (projectId : String) (staging : Staging) (error : String) : Procedure Bool := do
  ask (.removeStaging staging)
  attempt (.releaseEndpoint projectId)
  attempt (.setProfileState projectId .failed)
  throw error

/-- `provision_project_profile` builds a home and moves it to its place. -/
def createHome (projectId : String) (staging : Staging) (port : ℕ) (endpoint : String) :
    Procedure Bool := do
  attempt .createHomeRoot
  ask (.removeStaging staging)
  match ← observe (build staging port) with
  | .error error => giveUp projectId staging error
  | .ok () =>
    match ← ask (.rename staging) with
    | .error error => giveUp projectId staging error
    | .ok () =>
      attempt (.setProfileRuntime projectId endpoint)
      return true

def profileError (profile : List Char) : ProfileHome.Failure → String
  | .profileCharacters =>
    "profile name \"" ++ String.ofList profile ++ "\" must be lowercase alphanumeric or dashes"
  | .profileDashes =>
    "profile name \"" ++ String.ofList profile ++ "\" must not start or end with a dash"
  | _ => "profile name must be between 1 and 72 characters"

/-- `HOST_PROFILE`. -/
def hostProfile : List Char := "asterism-host".toList

/-- The checks of `provision_project_profile` before anything is written. -/
def checkProject (projectId : String) (profile : List Char) : Procedure Unit := do
  attempt (.project projectId)
  mapError (profileError profile) (Attempt.ofExcept (ProfileHome.validateProfileName profile))
  if profile = hostProfile then
    throw ("project " ++ projectId ++ " resolves to the reserved host profile name")
  attempt (.validateHome profile)

/-- `provision_project_profile`, and whether a home was created. -/
def provision (settings : Settings) (projectId : String) (pid : ℕ) : Procedure Bool := do
  checkProject projectId (defaultProfileName projectId)
  attempt (.setProfileState projectId .provisioning)
  let endpoint ← reserveEndpoint settings projectId
  match endpointPort endpoint with
  | none => throw ("reserved endpoint " ++ endpoint ++ " names no port")
  | some port =>
    if ← isComplete (defaultProfileName projectId) then
      attempt (.setProfileRuntime projectId endpoint)
      return false
    else createHome projectId (defaultProfileName projectId, pid) port endpoint

end Procedures

/-- One attempt to provision: it is stopped after so many operations. -/
structure Try where
  projectId : String
  pid : ℕ
  operations : ℕ
  inputs : ℕ → Input

def conduct (settings : Settings) (s : State) (turn : Try) : State :=
  ((provision settings turn.projectId turn.pid).run.runFor machine turn.operations turn.inputs s).2

def conductAll (settings : Settings) (s : State) (turns : List Try) : State :=
  turns.foldl (conduct settings) s

/-! ## What the files and the registry agree on -/

/-- The home of a project is complete. -/
def State.Furnished (s : State) (projectId : String) : Prop :=
  (s.home (defaultProfileName projectId)).any Home.complete = true

/-- What is kept of the projects that are provisioned. -/
structure Sound (provisioned : List String) (s : State) : Prop where
  registered : ∀ projectId ∈ provisioned, projectId ∈ s.projects
  /-- Their endpoints were reserved. -/
  reserved : ∀ projectId ∈ provisioned, ∀ text, s.endpoint projectId = some text →
    ∃ port, port < 2 ^ 16 ∧ text = endpointAt port
  exclusive : ∀ projectId ∈ provisioned, ∀ other ∈ provisioned, projectId ≠ other → ∀ text,
    s.endpoint projectId = some text → s.endpoint other ≠ some text
  /-- The files of a complete home carry the port of the endpoint. -/
  homes : ∀ projectId ∈ provisioned, s.Furnished projectId →
    ∃ text port home, s.endpoint projectId = some text ∧ endpointPort text = some port ∧
      s.home (defaultProfileName projectId) = some home ∧ home.Carries port
  recorded : ∀ projectId ∈ provisioned, s.recorded projectId = true → s.Furnished projectId

/-- Nothing has changed but states of profiles and homes that are being built. -/
structure Frame (s t : State) : Prop where
  projects : t.projects = s.projects
  endpoint : t.endpoint = s.endpoint
  recorded : t.recorded = s.recorded
  home : t.home = s.home

/-- A check of a file does not miss it. -/
def Sees {β : Type} : Call β → Input → State → Prop
  | .isFile profile file, input, s =>
    ((s.home profile).any fun home => (home.get file).isSome) = true → input.error = none
  | _, _, _ => True

/-- The contract of an attempt. -/
def kept (provisioned : List String) : Contract Call Input State :=
  .stepwise Sees fun s t => Sound provisioned s → Sound provisioned t

/-- The procedure keeps the contract and ends like this. -/
abbrev Keeps (provisioned : List String) {α : Type} (procedure : Procedure α)
    (post : Except String α → State → Prop) (s : State) : Prop :=
  procedure.run.Meets (kept provisioned) machine post s

section Endpoints

theorem foldl_toDigits (digits : List Char) (hdigits : ∀ c ∈ digits, c.isDigit = true)
    (value : ℕ) :
    (digits.foldl (fun value c => value.bind fun n =>
      if c.isDigit then some (10 * n + (c.toNat - '0'.toNat)) else none) (some value)) =
      some (Nat.ofDigitChars 10 digits value) := by
  induction digits generalizing value with
  | nil => rfl
  | cons c digits ih =>
    obtain ⟨hc, hrest⟩ := List.forall_mem_cons.mp hdigits
    rw [List.foldl_cons, Option.bind_some, if_pos hc, ih hrest, Nat.ofDigitChars_cons]

theorem endpointPort_endpointAt {port : ℕ} (h : port < 2 ^ 16) :
    endpointPort (endpointAt port) = some port := by
  have hdigits (c : Char) (hc : c ∈ Nat.toDigits 10 port) : c.isDigit = true :=
    Nat.isDigit_of_mem_toDigits (by decide) (by decide) hc
  have hplain {d : Char} (hd : d.isDigit = false) : ∀ c ∈ Nat.toDigits 10 port, c ≠ d := by
    rintro c hc rfl
    rw [hdigits c hc] at hd
    cases hd
  have htail : ((endpointAt port).toList.reverse.takeWhile fun c => c ≠ ':').reverse =
      Nat.toDigits 10 port := by
    have hhost : ("http://127.0.0.1:".toList.reverse.takeWhile fun c => c ≠ ':') = [] := by
      decide +kernel
    have hnumber : (Text.decimal port).toList = Nat.toDigits 10 port := String.toList_ofList
    delta endpointAt
    rw [String.toList_append, hnumber, List.reverse_append,
      List.takeWhile_append_of_pos fun c hc =>
        decide_eq_true (hplain (by decide) c (List.mem_reverse.mp hc)),
      hhost, List.append_nil, List.reverse_reverse]
  have hslash : (Nat.toDigits 10 port).rdropWhile (fun c => c = '/') = Nat.toDigits 10 port :=
    List.rdropWhile_eq_self_iff.mpr fun hne hlast =>
      hplain (by decide) _ (List.getLast_mem hne) (of_decide_eq_true hlast)
  have hsign : (Nat.toDigits 10 port).head? ≠ some '+' := fun hhead =>
    hplain (by decide) '+' (List.mem_of_mem_head? hhead) rfl
  unfold endpointPort Endpoints.parseU16
  dsimp only
  rw [htail, hslash, if_neg hsign, if_neg Nat.toDigits_ne_nil, foldl_toDigits _ hdigits,
    Nat.ofDigitChars_ten_toDigits, Option.filter_some, if_pos (decide_eq_true h)]

end Endpoints

section Keeping

variable {provisioned : List String} {s t : State} {projectId : String}

theorem State.endpoint_setEndpoint (s : State) (projectId : String) (endpoint : Option String)
    (other : String) : (s.setEndpoint projectId endpoint).endpoint other =
      if other = projectId then endpoint else s.endpoint other :=
  Function.update_apply _ _ _ _

theorem Frame.refl (s : State) : Frame s s := ⟨rfl, rfl, rfl, rfl⟩

theorem Frame.furnished (h : Frame s t) : t.Furnished projectId ↔ s.Furnished projectId := by
  rw [State.Furnished, State.Furnished, h.home]

theorem State.furnished_iff (s : State) : s.Furnished projectId ↔
    ((s.home (defaultProfileName projectId)).any fun home => (home.get .config).isSome) = true ∧
    ((s.home (defaultProfileName projectId)).any fun home => (home.get .runtimeEnv).isSome) =
      true := by
  unfold State.Furnished
  cases s.home (defaultProfileName projectId) with
  | none => simp
  | some home => exact Bool.and_eq_true_iff

theorem Sound.frame (h : Sound provisioned s) (hframe : Frame s t) : Sound provisioned t where
  registered := hframe.projects ▸ h.registered
  reserved := hframe.endpoint ▸ h.reserved
  exclusive := hframe.endpoint ▸ h.exclusive
  homes projectId hmem hhome := by
    rw [hframe.endpoint, hframe.home]
    exact h.homes projectId hmem (hframe.furnished.mp hhome)
  recorded projectId hmem hrecorded :=
    hframe.furnished.mpr (h.recorded projectId hmem (hframe.recorded ▸ hrecorded))

theorem Sound.claim (h : Sound provisioned s) {request : Endpoints.Request} {port : ℕ}
    (hport : port < 2 ^ 16) (hclaim : s.Claimable request port) :
    Sound provisioned { s with toState := s.assign request port } := by
  obtain ⟨-, hnone, hothers⟩ := hclaim
  have hcases (other text : String)
      (htext : (s.assign request port).endpoint other = some text) :
      other = request.projectId ∧ text = endpointAt port ∨
        other ≠ request.projectId ∧ s.endpoint other = some text := by
    change Function.update s.endpoint _ _ other = some text at htext
    rw [Function.update_apply] at htext
    split at htext
    case isTrue hsame => exact .inl ⟨hsame, (Option.some.inj htext).symm⟩
    case isFalse hne => exact .inr ⟨hne, htext⟩
  refine ⟨h.registered, fun other hother text htext => ?_,
    fun first hfirst second hsecond hne text htext htext' => ?_, fun other hother hhome => ?_,
    h.recorded⟩
  · rcases hcases other text htext with ⟨-, rfl⟩ | ⟨-, hold⟩
    · exact ⟨port, hport, rfl⟩
    · exact h.reserved other hother text hold
  · rcases hcases first text htext with ⟨rfl, rfl⟩ | ⟨-, hold⟩
    · rcases hcases second _ htext' with ⟨rfl, -⟩ | ⟨-, hold'⟩
      · exact hne rfl
      · exact hothers second (h.registered second hsecond) hold'
    · rcases hcases second text htext' with ⟨-, rfl⟩ | ⟨-, hold'⟩
      · exact hothers first (h.registered first hfirst) hold
      · exact h.exclusive first hfirst second hsecond hne text hold hold'
  · obtain ⟨text, port', home, hendpoint, hrest⟩ := h.homes other hother hhome
    have hne : other ≠ request.projectId := by
      rintro rfl
      rw [hnone] at hendpoint
      cases hendpoint
    exact ⟨text, port', home, (Function.update_of_ne hne _ _).trans hendpoint, hrest⟩

theorem Sound.release (h : Sound provisioned s) (hvacant : ¬ s.Furnished projectId) :
    Sound provisioned (s.setEndpoint projectId none) := by
  have hkept (other text : String)
      (htext : (s.setEndpoint projectId none).endpoint other = some text) :
      s.endpoint other = some text := by
    rw [State.endpoint_setEndpoint] at htext
    split at htext
    · cases htext
    · exact htext
  refine ⟨h.registered, fun other hother text htext => h.reserved other hother text
    (hkept other text htext), fun first hfirst second hsecond hne text htext htext' =>
      h.exclusive first hfirst second hsecond hne text (hkept first text htext)
        (hkept second text htext'), fun other hother hhome => ?_, h.recorded⟩
  obtain ⟨text, port, home, hendpoint, hrest⟩ := h.homes other hother hhome
  have hne : other ≠ projectId := by
    rintro rfl
    exact hvacant hhome
  exact ⟨text, port, home, (Function.update_of_ne hne _ _).trans hendpoint, hrest⟩

theorem Home.Carries.complete {home : Home} {port : ℕ} (h : home.Carries port) :
    home.complete = true := by
  rw [Home.complete, h.1, h.2]
  rfl

/-- A home whose files carry the port of the endpoint may be moved to its place. -/
theorem Sound.place (h : Sound provisioned s)
    (hprofiles : ∀ other ∈ provisioned,
      defaultProfileName other = defaultProfileName projectId → other = projectId)
    {text : String} {port : ℕ} {home : Home} (hendpoint : s.endpoint projectId = some text)
    (hport : endpointPort text = some port) (hcarries : home.Carries port) (pid : ℕ) :
    Sound provisioned (s.place (defaultProfileName projectId, pid) home) := by
  have hplaced : (s.place (defaultProfileName projectId, pid) home).home
      (defaultProfileName projectId) = some home := Function.update_self _ _ _
  have hkept {other : String} (hother : other ∈ provisioned) (hne : other ≠ projectId) :
      (s.place (defaultProfileName projectId, pid) home).home (defaultProfileName other) =
        s.home (defaultProfileName other) :=
    Function.update_of_ne (fun hsame => hne (hprofiles other hother hsame)) _ _
  refine ⟨h.registered, h.reserved, h.exclusive, fun other hother hhome => ?_,
    fun other hother hrecorded => ?_⟩
  · by_cases hsame : other = projectId
    · subst hsame
      exact ⟨text, port, home, hendpoint, hport, hplaced, hcarries⟩
    · rw [State.Furnished, hkept hother hsame] at hhome
      rw [hkept hother hsame]
      exact h.homes other hother hhome
  · by_cases hsame : other = projectId
    · rw [State.Furnished, hsame, hplaced]
      exact hcarries.complete
    · rw [State.Furnished, hkept hother hsame]
      exact h.recorded other hother hrecorded

theorem Sound.record (h : Sound provisioned s) (hhome : s.Furnished projectId) {text : String}
    (hendpoint : s.endpoint projectId = some text) :
    Sound provisioned (s.record projectId text) := by
  have hsame : (s.record projectId text).endpoint = s.endpoint :=
    Function.update_eq_self_iff.mpr hendpoint.symm
  refine ⟨h.registered, hsame ▸ h.reserved, hsame ▸ h.exclusive, hsame ▸ h.homes,
    fun other hother hrecorded => ?_⟩
  by_cases hproject : other = projectId
  · exact hproject ▸ hhome
  · exact h.recorded other hother ((Function.update_of_ne hproject _ _).symm.trans hrecorded)

end Keeping

/-! ## An attempt keeps it -/

section Attempts

open Attempt

variable {provisioned : List String} {s : State} {projectId : String} {staging : Staging}
  {A : State → Prop}

theorem attempt_meets {α : Type} {call : Call (Except String α)}
    {post : Except String α → State → Prop}
    (h : ∀ input, Sees call input s →
      (Sound provisioned s → Sound provisioned (call.exec input s).2) ∧
        post (call.exec input s).1 (call.exec input s).2) :
    Keeps provisioned (attempt call) post s := by
  rintro _ rfl input hsees
  exact h input hsees

/-- The operation changes nothing that counts. -/
def Quiet {β : Type} (call : Call β) : Prop := ∀ input s, Frame s (call.exec input s).2

/-- The assertion is about what counts only. -/
def Stable (A : State → Prop) : Prop := ∀ ⦃s t⦄, Frame s t → A s → A t

theorem fallible_spec {α : Type} {P : Except String α × State → Prop} {input : Input}
    {result : Except String α × State} (herror : ∀ error, P (.error error, s))
    (hresult : P result) : P (fallible input.error s result) := by
  rcases Endpoints.fallible_cases input.error s result with h | ⟨error, h⟩
  · rw [h]
    exact hresult
  · rw [h]
    exact herror error

theorem quiet_attempt {α : Type} {call : Call (Except String α)} (hquiet : Quiet call)
    (hstable : Stable A) (hs : A s) :
    Keeps provisioned (attempt call) (fun _ t => A t) s :=
  attempt_meets fun input _ => ⟨fun h => h.frame (hquiet input s), hstable (hquiet input s) hs⟩

theorem quiet_ask {α : Type} {call : Call α} (hquiet : Quiet call) (hstable : Stable A)
    (hs : A s) :
    Keeps provisioned (ask call) (fun _ t => A t) s := by
  rintro _ rfl input -
  exact ⟨fun h => h.frame (hquiet input s), hstable (hquiet input s) hs⟩

theorem fallible_meets {α : Type} {call : Call (Except String α)}
    {result : Except String α × State} {post : Except String α → State → Prop}
    (h : ∀ input, call.exec input s = fallible input.error s result)
    (herror : ∀ error, post (.error error) s)
    (hresult : (Sound provisioned s → Sound provisioned result.2) ∧ post result.1 result.2) :
    Keeps provisioned (attempt call) post s := by
  refine attempt_meets fun input _ => ?_
  rw [h]
  exact fallible_spec (P := fun r => (Sound provisioned s → Sound provisioned r.2) ∧ post r.1 r.2)
    (fun error => ⟨id, herror error⟩) hresult

theorem quiet_of_fallible {α : Type} {call : Call (Except String α)}
    {result : State → Except String α × State}
    (h : ∀ input s, call.exec input s = fallible input.error s (result s))
    (hframe : ∀ s, Frame s (result s).2) : Quiet call := by
  intro input s
  rw [h]
  exact fallible_spec (P := fun r => Frame s r.2) (fun _ => .refl s) (hframe s)

theorem quiet_of_answer {α : Type} {call : Call (Except String α)}
    {answer : State → Except String α}
    (h : ∀ input s, call.exec input s = fallible input.error s (answer s, s)) : Quiet call :=
  quiet_of_fallible h .refl

theorem quiet_setProfileState (projectId : String) (state : ProfileState) :
    Quiet (.setProfileState projectId state) := by
  refine quiet_of_fallible (fun _ _ => rfl) fun s => ?_
  split
  · exact ⟨rfl, rfl, rfl, rfl⟩
  · exact .refl s

theorem quiet_prepare (staging : Staging) (step : Preparation) : Quiet (.prepare staging step) :=
  quiet_of_fallible (fun _ _ => rfl) fun _ => ⟨rfl, rfl, rfl, rfl⟩

theorem quiet_removeStaging (staging : Staging) : Quiet (.removeStaging staging) :=
  fun _ _ => ⟨rfl, rfl, rfl, rfl⟩

theorem quiet_write (staging : Staging) (file : HomeFile) (port : ℕ) :
    Quiet (.write staging file port) := by
  intro input s
  rw [Call.exec]
  split
  · exact .refl s
  · dsimp only
    split
    · exact ⟨rfl, rfl, rfl, rfl⟩
    · exact .refl s
  · exact ⟨rfl, rfl, rfl, rfl⟩

/-- The project has this endpoint. -/
structure Reserved (provisioned : List String) (projectId text : String) (s : State) : Prop where
  sound : Sound provisioned s
  endpoint : s.endpoint projectId = some text

theorem stable_sound : Stable (Sound provisioned) := fun _ _ hframe h => h.frame hframe

theorem stable_reserved {text : String} : Stable (Reserved provisioned projectId text) :=
  fun _ _ hframe h => ⟨h.sound.frame hframe, hframe.endpoint ▸ h.endpoint⟩

/-- A procedure of the reservation keeps the contract of an attempt. -/
abbrev KeepsReserving (provisioned : List String) {α : Type} (p : Program Endpoints.Call α)
    (post : α → State → Prop) (s : State) : Prop :=
  p.Meets ((kept provisioned).comap Call.reservation) (machine.comap Call.reservation) post s

theorem query_meets {α : Type} {call : Endpoints.Call (Except String α)}
    {post : Except String α → State → Prop} {result : Except String α × Endpoints.State}
    (h : ∀ input, call.exec input s.toState = fallible input.error s.toState result)
    (herror : ∀ error, post (.error error) s)
    (hresult : (Sound provisioned s → Sound provisioned { s with toState := result.2 }) ∧
      post result.1 { s with toState := result.2 }) :
    KeepsReserving provisioned (attempt call).run post s := by
  rintro _ rfl input -
  change (_ → Sound provisioned { s with toState := (call.exec _ s.toState).2 }) ∧
    post (call.exec _ s.toState).1 { s with toState := (call.exec _ s.toState).2 }
  rw [h]
  rcases Endpoints.fallible_cases input.error s.toState result with hdone | ⟨error, hdone⟩
  · rw [hdone]
    exact hresult
  · rw [hdone]
    exact ⟨id, herror error⟩

theorem search_meets (request : Endpoints.Request) (taken : List ℕ) (ports : List ℕ)
    (hs : Sound provisioned s) :
    KeepsReserving provisioned (Endpoints.search request taken ports)
      (fun found t => Sound provisioned t ∧ ∀ port ∈ found, port ∈ ports) s := by
  induction ports generalizing s with
  | nil => exact ⟨hs, nofun⟩
  | cons port ports ih =>
    have hrest {s : State} (hs : Sound provisioned s) :
        KeepsReserving provisioned (Endpoints.search request taken ports)
          (fun found t => Sound provisioned t ∧ ∀ next ∈ found, next ∈ port :: ports) s :=
      (ih hs).mono fun found t hfound =>
        ⟨hfound.1, fun next hnext => List.mem_cons_of_mem _ (hfound.2 next hnext)⟩
    unfold Endpoints.search
    split
    · exact hrest hs
    · rintro _ rfl input -
      have hframe : Frame s ((Call.reservation (.occupied request port)).exec input s).2 := by
        rw [Call.exec, Endpoints.Call.exec]
        dsimp only
        split <;> exact ⟨rfl, rfl, rfl, rfl⟩
      refine ⟨fun h => h.frame hframe, ?_⟩
      change KeepsReserving provisioned (if input.flag then Endpoints.search request taken ports
        else pure (some port)) _ ((Call.reservation (.occupied request port)).exec input s).2
      split
      · exact hrest (hs.frame hframe)
      · exact ⟨hs.frame hframe, fun found hfound => Option.some.inj hfound ▸ List.mem_cons_self⟩

theorem reserveWithin_meets (settings : Settings) (attempts : ℕ) (hs : Sound provisioned s) :
    KeepsReserving provisioned (Endpoints.reserveWithin (settings.request projectId) attempts).run
      (onOk (Reserved provisioned projectId)) s := by
  induction attempts generalizing s with
  | zero => trivial
  | succ attempts ih =>
    have hexisting : KeepsReserving provisioned (attempt (.existing projectId)).run
        (onOk fun found t => Sound provisioned t ∧
          ∀ text, found = some (some text) → t.endpoint projectId = some text) s := by
      refine query_meets (fun _ => rfl) (fun _ => trivial) ⟨id, hs, fun text htext => ?_⟩
      split at htext
      · exact Option.some.inj htext
      · cases htext
    refine meets_bind hexisting fun found t ht => ?_
    obtain ⟨hsound, hfound⟩ := ht
    match found with
    | none => trivial
    | some (some text) => exact ⟨hsound, hfound text rfl⟩
    | some none =>
      have hall : KeepsReserving provisioned (attempt .endpoints).run
          (onOk fun _ => Sound provisioned) t :=
        query_meets (fun _ => rfl) (fun _ => trivial) ⟨id, hsound⟩
      refine meets_bind hall fun endpoints t ht => ?_
      refine meets_bind (meets_lift (search_meets _ _ _ ht)) fun found t ht => ?_
      obtain ⟨hsound, hrange⟩ := ht
      match found with
      | none => trivial
      | some port =>
        have hport : port < 2 ^ 16 := by
          have hmem := List.mem_range'_1.mp (hrange port rfl)
          have hlast := settings.hlast
          change settings.first ≤ port ∧ port < settings.first +
            (settings.last + 1 - settings.first) at hmem
          omega
        have hclaim : KeepsReserving provisioned
            (attempt (.claim (settings.request projectId) port)).run
            (onOk fun claimed t => Sound provisioned t ∧
              (claimed = true → t.endpoint projectId = some (endpointAt port))) t := by
          refine query_meets (fun _ => rfl) (fun _ => trivial) ?_
          split
          case isTrue hclaimable =>
            refine ⟨fun h => h.claim hport hclaimable, hsound.claim hport hclaimable, fun _ => ?_⟩
            exact Function.update_self _ _ _
          · exact ⟨id, hsound, nofun⟩
        refine meets_bind hclaim fun claimed t ht => ?_
        cases claimed with
        | true => exact ⟨ht.1, ht.2 rfl⟩
        | false => exact ih ht.1

/-- An attempt that has reserved an endpoint finds it in the registry. -/
theorem reserveEndpoint_meets (settings : Settings) (hs : Sound provisioned s) :
    Keeps provisioned (reserveEndpoint settings projectId)
      (onOk (Reserved provisioned projectId)) s :=
  (reserveWithin_meets settings _ hs).embed

theorem isComplete_meets (hs : A s) :
    Keeps provisioned (isComplete (defaultProfileName projectId))
      (onOk fun found t => A t ∧ (found = true ↔ t.Furnished projectId)) s := by
  have hfile (file : HomeFile) :
      Keeps provisioned (ask (.isFile (defaultProfileName projectId) file)) (onOk fun found t =>
        t = s ∧ found = (s.home (defaultProfileName projectId)).any fun home =>
          (home.get file).isSome) s := by
    refine meets_ask ?_
    rintro _ rfl input hsees
    refine ⟨id, rfl, ?_⟩
    change (input.error.isNone && _) = _
    cases hany : (s.home (defaultProfileName projectId)).any fun home => (home.get file).isSome with
    | false => rw [Bool.and_false]
    | true =>
      rw [show input.error = none from hsees hany]
      rfl
  refine meets_bind (hfile .config) fun found t ht => ?_
  obtain ⟨rfl, hconfig⟩ := ht
  cases found with
  | false =>
    refine ⟨hs, iff_of_false Bool.false_ne_true fun hfurnished => ?_⟩
    rw [(t.furnished_iff.mp hfurnished).1] at hconfig
    cases hconfig
  | true =>
    refine (hfile .runtimeEnv).mono fun result u hresult => ?_
    cases result with
    | error error => trivial
    | ok found =>
      obtain ⟨rfl, rfl⟩ := hresult
      exact ⟨hs, by rw [State.furnished_iff, and_iff_right hconfig.symm]⟩

theorem prepareAll_meets (hA : ∀ step input s, A s → A ((Call.prepare staging step).exec input s).2)
    (steps : List Preparation) (hs : A s) :
    Keeps provisioned (prepareAll staging steps) (fun _ t => A t) s := by
  induction steps generalizing s with
  | nil => exact hs
  | cons step steps ih =>
    have hstep : Keeps provisioned (attempt (.prepare staging step)) (fun _ t => A t) s :=
      attempt_meets fun input _ => ⟨fun h =>
        h.frame (quiet_prepare staging step input s), hA step input s hs⟩
    exact meets_bind_of hstep (fun _ t ht => ih ht) fun _ _ ht => ht

/-- A home that is being built has a file that carries the port. -/
def Written (staging : Staging) (files : List HomeFile) (port : ℕ) (s : State) : Prop :=
  ∃ home, s.staging staging = some home ∧ ∀ file ∈ files, home.get file = some (some port)

theorem Written.prepare {files : List HomeFile} {port : ℕ} (h : Written staging files port s)
    (step : Preparation) (input : Input) :
    Written staging files port ((Call.prepare staging step).exec input s).2 := by
  rw [Call.exec]
  refine fallible_spec (P := fun r => Written staging files port r.2) (fun _ => h) ?_
  obtain ⟨home, hstaged, hfiles⟩ := h
  rw [hstaged]
  refine ⟨_, Function.update_self _ _ _, fun file hfile => ?_⟩
  rw [← hfiles file hfile]
  cases file <;> rfl

/-- A file that was written carries the port, and the others what they carried. -/
theorem write_meets (hstable : Stable A) {files : List HomeFile} (file : HomeFile) {port : ℕ}
    (hs : A s) (hwritten : files = [] ∨ Written staging files port s) :
    Keeps provisioned (attempt (.write staging file port))
      (fun result t => A t ∧ (result = .ok () → Written staging (file :: files) port t)) s := by
  refine attempt_meets fun input _ => ⟨fun h => h.frame (quiet_write staging file port input s),
    hstable (quiet_write staging file port input s) hs, fun hok => ?_⟩
  rw [Call.exec] at hok ⊢
  split at hok
  · cases hok
  · cases hok
  case h_3 home hstaged hnone =>
    refine ⟨_, Function.update_self _ _ _, List.forall_mem_cons.mpr ⟨?_, fun other hother => ?_⟩⟩
    · cases file <;> rfl
    · rcases hwritten with rfl | ⟨home', hstaged', hfiles⟩
      · cases hother
      · rw [hstaged] at hstaged'
        obtain rfl := Option.some.inj hstaged'
        have hcarried := hfiles other hother
        cases file <;> cases other <;> first | rfl | exact hcarried

theorem build_meets (hstable : Stable A) (port : ℕ) (hs : A s) :
    Keeps provisioned (build staging port)
      (fun result t => A t ∧ (result = .ok () →
        Written staging [.runtimeEnv, .config] port t)) s := by
  have hquiet (step : Preparation) (input : Input) (s : State) (h : A s) :
      A ((Call.prepare staging step).exec input s).2 :=
    hstable (quiet_prepare staging step input s) h
  have hfiles {files : List HomeFile} (steps : List Preparation) {s : State}
      (h : A s ∧ Written staging files port s) :
      Keeps provisioned (prepareAll staging steps)
        (fun _ t => A t ∧ Written staging files port t) s :=
    prepareAll_meets (fun step input s h =>
      ⟨hquiet step input s h.1, h.2.prepare step input⟩) steps h
  refine meets_bind_of (prepareAll_meets hquiet _ hs) (fun _ t ht => ?_) fun _ _ ht => ⟨ht, nofun⟩
  refine meets_bind_of (write_meets hstable .config ht (.inl rfl)) (fun _ t ht => ?_)
    fun _ _ ht => ⟨ht.1, nofun⟩
  refine meets_bind_of (hfiles _ ⟨ht.1, ht.2 rfl⟩) (fun _ t ht => ?_) fun _ _ ht => ⟨ht.1, nofun⟩
  refine meets_bind_of (write_meets hstable .runtimeEnv ht.1 (.inr ht.2)) (fun _ t ht => ?_)
    fun _ _ ht => ⟨ht.1, nofun⟩
  exact (hfiles _ ⟨ht.1, ht.2 rfl⟩).mono fun _ _ h => ⟨h.1, fun _ => h.2⟩

/-- The home of the project is not complete. -/
def Vacant (provisioned : List String) (projectId text : String) (s : State) : Prop :=
  Reserved provisioned projectId text s ∧ ¬ s.Furnished projectId

theorem stable_vacant {text : String} : Stable (Vacant provisioned projectId text) :=
  fun _ _ hframe h => ⟨stable_reserved hframe h.1, fun hhome => h.2 (hframe.furnished.mp hhome)⟩

/-- The endpoint of a project without a complete home is given up. -/
theorem giveUp_meets {text : String} (error : String) (hs : Vacant provisioned projectId text s) :
    Keeps provisioned (giveUp projectId staging error) (onOk fun _ _ => True) s := by
  refine meets_bind (meets_onOk (quiet_ask (quiet_removeStaging staging) stable_vacant hs))
    fun _ t ht => ?_
  have hrelease : Keeps provisioned (attempt (.releaseEndpoint projectId))
      (onOk fun _ u => Sound provisioned u) t := by
    refine fallible_meets (fun _ => rfl) (fun _ => trivial) ?_
    split
    · exact ⟨fun h => h.release ht.2, ht.1.sound.release ht.2⟩
    · exact ⟨id, ht.1.sound⟩
  refine meets_bind hrelease fun _ u hu => ?_
  exact meets_bind (meets_onOk (quiet_attempt (quiet_setProfileState projectId .failed)
    stable_sound hu)) fun _ _ _ => trivial

theorem setProfileRuntime_meets {text : String} (hs : Reserved provisioned projectId text s)
    (hhome : s.Furnished projectId) (created : Bool) :
    Keeps provisioned (do attempt (.setProfileRuntime projectId text); return created)
      (onOk fun _ _ => True) s := by
  have hrecord : Keeps provisioned (attempt (.setProfileRuntime projectId text))
      (onOk fun _ _ => True) s := by
    refine fallible_meets (fun _ => rfl) (fun _ => trivial) ?_
    split
    · exact ⟨fun h => h.record hhome hs.endpoint, trivial⟩
    · exact ⟨id, trivial⟩
  exact meets_bind hrecord fun _ _ _ => trivial

theorem checkProject_meets (profile : List Char) (hs : Sound provisioned s) :
    Keeps provisioned (checkProject projectId profile) (onOk fun _ t => Sound provisioned t) s := by
  refine meets_bind (meets_onOk (quiet_attempt (quiet_of_answer fun _ _ => rfl) stable_sound hs))
    fun _ t ht => ?_
  have hname (result : Except ProfileHome.Failure Unit) :
      Keeps provisioned (mapError (profileError profile) (Attempt.ofExcept result))
        (onOk fun _ u => Sound provisioned u) t := by
    cases result with
    | ok => exact ht
    | error error => trivial
  refine meets_bind (hname _) fun _ u hu => ?_
  split
  · trivial
  · exact meets_onOk (quiet_attempt (quiet_of_answer fun _ _ => rfl) stable_sound hu)

variable (hprofiles : ∀ other ∈ provisioned,
  defaultProfileName other = defaultProfileName projectId → other = projectId)
include hprofiles

/-- A home that carries the port of the endpoint is moved to its place, or nothing happens. -/
theorem rename_meets {text : String} {port : ℕ} (hport : endpointPort text = some port) (pid : ℕ)
    (hs : Reserved provisioned projectId text s)
    (hwritten : Written (defaultProfileName projectId, pid) [.runtimeEnv, .config] port s) :
    Keeps provisioned (ask (.rename (defaultProfileName projectId, pid)))
      (onOk fun result t => (result = .ok () → Reserved provisioned projectId text t ∧
        t.Furnished projectId) ∧ ((∃ error, result = .error error) → t = s)) s := by
  obtain ⟨home, hstaged, hfiles⟩ := hwritten
  have hcarries : home.Carries port :=
    ⟨hfiles .config (by decide), hfiles .runtimeEnv (by decide)⟩
  have hplaced : Sound provisioned (s.place (defaultProfileName projectId, pid) home) :=
    hs.sound.place hprofiles hs.endpoint hport hcarries pid
  have hhome : (s.place (defaultProfileName projectId, pid) home).home
      (defaultProfileName projectId) = some home := Function.update_self _ _ _
  have hfurnished : (s.place (defaultProfileName projectId, pid) home).Furnished projectId := by
    rw [State.Furnished, hhome]
    exact hcarries.complete
  refine meets_ask ?_
  rintro _ rfl input -
  refine fallible_spec (P := fun r => (Sound provisioned s → Sound provisioned r.2) ∧
    (r.1 = .ok () → Reserved provisioned projectId text r.2 ∧ r.2.Furnished projectId) ∧
      ((∃ error, r.1 = .error error) → r.2 = s)) (fun _ => ⟨id, nofun, fun _ => rfl⟩) ?_
  rw [State.rename, hstaged]
  dsimp only
  split
  · exact ⟨fun _ => hplaced, fun _ => ⟨⟨hplaced, hs.endpoint⟩, hfurnished⟩, nofun⟩
  · exact ⟨id, nofun, fun _ => rfl⟩

/-- A home is built and moved to its place, or the endpoint is given up. -/
theorem createHome_meets {text : String} {port : ℕ} (hport : endpointPort text = some port)
    (pid : ℕ) (hs : Vacant provisioned projectId text s) :
    Keeps provisioned (createHome projectId (defaultProfileName projectId, pid) port text)
      (onOk fun _ _ => True) s := by
  refine meets_bind (meets_onOk (quiet_attempt (quiet_of_answer fun _ _ => rfl) stable_vacant hs))
    fun _ t ht => ?_
  refine meets_bind (meets_onOk (quiet_ask (quiet_removeStaging _) stable_vacant ht))
    fun _ t ht => ?_
  have hbuild : Keeps provisioned (observe (build (defaultProfileName projectId, pid) port))
      (onOk fun result t => Vacant provisioned projectId text t ∧ (result = .ok () →
        Written (defaultProfileName projectId, pid) [.runtimeEnv, .config] port t)) t := by
    rw [Keeps, run_observe, Program.meets_bind]
    exact build_meets stable_vacant port ht
  refine meets_bind hbuild fun result t ht => ?_
  cases result with
  | error error => exact giveUp_meets error ht.1
  | ok =>
    refine meets_bind (rename_meets hprofiles hport pid ht.1.1 (ht.2 rfl)) fun result u hu => ?_
    cases result with
    | error error =>
      rw [hu.2 ⟨error, rfl⟩]
      exact giveUp_meets error ht.1
    | ok =>
      obtain ⟨hreserved, hfurnished⟩ := hu.1 rfl
      exact setProfileRuntime_meets hreserved hfurnished true

/-- An attempt keeps what the files and the registry agree on, wherever it is stopped. -/
theorem provision_meets (settings : Settings) (pid : ℕ) (hs : Sound provisioned s) :
    Keeps provisioned (provision settings projectId pid) (onOk fun _ _ => True) s := by
  refine meets_bind (checkProject_meets _ hs) fun _ t ht => ?_
  refine meets_bind (meets_onOk (quiet_attempt
    (quiet_setProfileState projectId .provisioning) stable_sound ht)) fun _ t ht => ?_
  refine meets_bind (reserveEndpoint_meets settings ht) fun text t ht => ?_
  split
  · trivial
  case h_2 port hport =>
    refine meets_bind (isComplete_meets ht) fun found t ht => ?_
    obtain ⟨hreserved, hfound⟩ := ht
    cases found with
    | true => exact setProfileRuntime_meets hreserved (hfound.mp rfl) false
    | false =>
      refine createHome_meets hprofiles hport pid ⟨hreserved, fun hhome => ?_⟩
      exact Bool.false_ne_true (hfound.mpr hhome)

end Attempts

/-! ## One attempt after the other -/

/-- No check of the attempt misses a file. -/
def Try.Sees (settings : Settings) (s : State) (turn : Try) : Prop :=
  (provision settings turn.projectId turn.pid).run.AdmitsFor machine Provisioning.Sees
    turn.operations turn.inputs s

/-- No check of any attempt misses a file. -/
def SeesAlong (settings : Settings) : State → List Try → Prop
  | _, [] => True
  | s, turn :: turns => turn.Sees settings s ∧ SeesAlong settings (conduct settings s turn) turns

/-- The files of every recorded home carry the port of the endpoint, and no two of these homes
carry one port. -/
structure Agrees (provisioned : List String) (s : State) : Prop where
  ports : ∀ projectId ∈ provisioned, s.recorded projectId = true →
    ∃ text port home, s.endpoint projectId = some text ∧ endpointPort text = some port ∧
      s.home (defaultProfileName projectId) = some home ∧ home.Carries port
  distinct : ∀ projectId ∈ provisioned, ∀ other ∈ provisioned, projectId ≠ other →
    s.recorded projectId = true → s.recorded other = true → ∀ home home' port,
      s.home (defaultProfileName projectId) = some home →
      s.home (defaultProfileName other) = some home' → home.Carries port → ¬ home'.Carries port

theorem Sound.agrees {provisioned : List String} {s : State} (h : Sound provisioned s) :
    Agrees provisioned s := by
  have hports (projectId : String) (hmem : projectId ∈ provisioned)
      (hrecorded : s.recorded projectId = true) :=
    h.homes projectId hmem (h.recorded projectId hmem hrecorded)
  refine ⟨hports, fun projectId hmem other hother hne hrecorded hrecorded' home home' port hhome
    hhome' hcarries hcarries' => ?_⟩
  obtain ⟨text, number, found, hendpoint, hnumber, hfound, hports₁⟩ :=
    hports projectId hmem hrecorded
  obtain ⟨text', number', found', hendpoint', hnumber', hfound', hports₂⟩ :=
    hports other hother hrecorded'
  obtain rfl := Option.some.inj (hhome.symm.trans hfound)
  obtain rfl := Option.some.inj (hhome'.symm.trans hfound')
  obtain rfl : port = number :=
    Option.some.inj (Option.some.inj (hcarries.1.symm.trans hports₁.1))
  obtain rfl : port = number' :=
    Option.some.inj (Option.some.inj (hcarries'.1.symm.trans hports₂.1))
  obtain ⟨reserved, hreserved, rfl⟩ := h.reserved projectId hmem text hendpoint
  obtain ⟨reserved', hreserved', rfl⟩ := h.reserved other hother text' hendpoint'
  rw [endpointPort_endpointAt hreserved] at hnumber
  rw [endpointPort_endpointAt hreserved'] at hnumber'
  obtain rfl := Option.some.inj (hnumber.trans hnumber'.symm)
  exact h.exclusive projectId hmem other hother hne _ hendpoint hendpoint'

/-- Every sequence of attempts keeps it. -/
theorem Sound.conductAll {provisioned : List String} {s : State} (h : Sound provisioned s)
    (hprofiles : ∀ projectId ∈ provisioned, ∀ other ∈ provisioned,
      defaultProfileName other = defaultProfileName projectId → other = projectId)
    {settings : Settings} {turns : List Try}
    (hturns : ∀ turn ∈ turns, turn.projectId ∈ provisioned) (hsees : SeesAlong settings s turns) :
    Sound provisioned (conductAll settings s turns) := by
  induction turns generalizing s with
  | nil => exact h
  | cons turn turns ih =>
    obtain ⟨hturn, hrest⟩ := List.forall_mem_cons.mp hturns
    have hstep := ((provision_meets (hprofiles turn.projectId hturn) settings turn.pid h).runFor
      (fun _ => id) (fun hst htu hs => htu (hst hs)) hsees.1).1
    exact ih (hstep h) hrest hsees.2

/-- From projects without an endpoint and without a complete home on, files and registry agree in
every state that is reached by attempts, each of which may be stopped anywhere, if no check misses
a file. -/
theorem conductAll_agrees (settings : Settings) (provisioned : List String)
    (hprofiles : ∀ projectId ∈ provisioned, ∀ other ∈ provisioned,
      defaultProfileName other = defaultProfileName projectId → other = projectId)
    (s : State)
    (hfresh : ∀ projectId ∈ provisioned, projectId ∈ s.projects ∧ s.endpoint projectId = none ∧
      s.recorded projectId = false)
    (hhomes : ∀ projectId ∈ provisioned, ¬ s.Furnished projectId) (turns : List Try)
    (hturns : ∀ turn ∈ turns, turn.projectId ∈ provisioned) (hsees : SeesAlong settings s turns) :
    Agrees provisioned (conductAll settings s turns) := by
  have hstart : Sound provisioned s := by
    refine ⟨fun p hp => (hfresh p hp).1, fun p hp text h => ?_, fun p hp _ _ _ text h => ?_,
      fun p hp h => absurd h (hhomes p hp), fun p hp h => ?_⟩
    · rw [(hfresh p hp).2.1] at h
      cases h
    · rw [(hfresh p hp).2.1] at h
      cases h
    · rw [(hfresh p hp).2.2] at h
      cases h
  exact (hstart.conductAll hprofiles hturns hsees).agrees

def sampleSettings : Settings := ⟨18700, 18702, [], by decide⟩

def registered (projects : List String) : State where
  projects := projects
  endpoint _ := none
  profileState _ := .pending
  recorded _ := false
  home _ := none
  staging _ := none

def smooth (projectId : String) : Try := ⟨projectId, 1, 100, fun _ => {}⟩

/-- An attempt in which the first check of a file fails. -/
def blind (projectId : String) : Try :=
  ⟨projectId, 1, 100, fun n => if n = 4 then { error := some "Input/output error" } else {}⟩

theorem seesAlong_smooth (settings : Settings) (s : State) (projects : List String) :
    SeesAlong settings s (projects.map smooth) := by
  induction projects generalizing s with
  | nil => trivial
  | cons projectId projects ih =>
    refine ⟨Program.admitsFor_of_forall (fun request _ _ => ?_) _ _ _, ih _⟩
    cases request <;> first | trivial | exact fun _ => rfl

/-- Two projects are provisioned one after the other, and the registry agrees with the disk. -/
theorem conductAll_two :
    let s := conductAll sampleSettings (registered ["a", "b"]) (["a", "b"].map smooth)
    s.recorded "a" = true ∧ s.recorded "b" = true ∧ Agrees ["a", "b"] s :=
  ⟨by decide, by decide, conductAll_agrees sampleSettings ["a", "b"] (by decide)
    (registered ["a", "b"]) (by decide) (fun _ _ => Bool.noConfusion) _ (by decide)
    (seesAlong_smooth _ _ _)⟩

/-- A complete home is taken for an incomplete one, the endpoint is given up and goes to another
project, and the home is recorded with a new endpoint. The same happens to a home that an earlier
registration has left. -/
theorem conductAll_disagrees :
    ¬ Agrees ["a", "b"] (conductAll sampleSettings (registered ["a", "b"])
        [smooth "a", blind "a", smooth "b", smooth "a"]) ∧
    ¬ Agrees ["a"] (conductAll sampleSettings
        { registered ["a"] with home := fun _ => some ⟨some (some 18702), some (some 18702), true⟩ }
        [smooth "a"]) := by
  constructor
  · intro h
    refine h.distinct "a" (by decide) "b" (by decide) (by decide) (by decide) (by decide)
      ⟨some (some 18700), some (some 18700), true⟩ ⟨some (some 18700), some (some 18700), true⟩
      18700 (by decide) (by decide) ⟨rfl, rfl⟩ ⟨rfl, rfl⟩
  · intro h
    obtain ⟨text, port, home, hendpoint, hport, hhome, hcarries⟩ :=
      h.ports "a" (by decide) (by decide)
    obtain rfl : endpointAt 18700 = text := Option.some.inj (by rw [← hendpoint]; decide)
    obtain rfl : 18700 = port := Option.some.inj (by rw [← hport]; decide)
    obtain rfl : ⟨some (some 18702), some (some 18702), true⟩ = home :=
      Option.some.inj (by rw [← hhome]; decide)
    exact absurd hcarries.1 (by decide)

end Asterism.Provisioning
