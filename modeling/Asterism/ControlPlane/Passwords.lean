import Asterism.Process.Attempt

/-!
# Logins while a password changes

A login reads the row of the user, checks the password against the hash it finds there, and
creates the session some queries later. A change of the password revokes the sessions it finds in
the statement before its commit, and the new hash is visible from the commit on. A session
outlives the change if its login straddles the commit, or if it is created between the two
statements.
-/

namespace Asterism.Passwords

open Process

/-- A row of `users`. -/
structure User where
  userId : String
  passwordHash : String
  enabled : Bool
  /-- How often the password was changed. -/
  version : ℕ
  deriving DecidableEq

/-- A row of `browser_sessions`. -/
structure Session where
  userId : String
  /-- The version of the password that was checked for this session. -/
  version : ℕ
  usable : Bool
  deriving DecidableEq

/-- The users and their sessions. A session is known by its place. -/
structure State where
  /-- The user who has a normalized address. -/
  owner : String → Option String
  users : String → Option User
  sessions : List Session
  /-- A completed change that keeps no session has superseded all versions of the password of the
  user below this one. -/
  superseded : String → ℕ

/-- `hashPassword`: the hashes of passwords, from the platform. -/
abbrev Hashing := String → String → Bool

/-- What a login presents. -/
structure Login where
  email : String
  password : String

/-- `passwordMatches`: the row admits the login. -/
def User.admits (passwordMatches : Hashing) (login : Login) (user : User) : Bool :=
  user.enabled && passwordMatches user.passwordHash login.password

/-- The queries of logins and of password changes. -/
inductive Call : Type → Type 1
  | blocked : Call Bool
  | userByEmail (login : Login) : Call (Option User)
  | recordAttempt (succeeded : Bool) : Call Unit
  | recordLogin (userId : String) : Call Unit
  | memberships (userId : String) : Call Unit
  | insertSession (userId : String) (version : ℕ) : Call Unit
  | userById (userId : String) : Call (Option User)
  | operatorByEmail (email : String) : Call (Option User)
  /-- `UPDATE browser_sessions SET revoked_at = …`, and the sessions that it finds. -/
  | revokeSessions (userId : String) : Call (List ℕ)
  /-- The transaction commits: the hash is replaced and the sessions are revoked. Nothing is said
  about the sessions if they are kept. -/
  | commit (userId passwordHash : String) (revoked : Option (List ℕ)) : Call Unit
  | close (session : ℕ) : Call Unit

namespace State

def usable (s : State) (userId : String) : List ℕ :=
  (List.range s.sessions.length).filter fun i =>
    (s.sessions[i]?).any fun session => session.usable && session.userId = userId

def endSessions (s : State) (ended : List ℕ) : State :=
  { s with sessions := s.sessions.mapIdx fun i session =>
      if i ∈ ended then { session with usable := false } else session }

def setPassword (s : State) (user : User) (passwordHash : String) : State :=
  { s with
    users := Function.update s.users user.userId
      (some { user with passwordHash := passwordHash, version := user.version + 1 }) }

/-- All versions of the password of a user below this one are superseded. -/
def supersede (s : State) (userId : String) (version : ℕ) : State :=
  { s with superseded := Function.update s.superseded userId version }

end State

/-- What a query answers and does. The input says whether too many logins have failed. -/
def Call.exec {β : Type} (call : Call β) (refuses : Bool) (s : State) : β × State :=
  match call with
  | blocked => (refuses, s)
  | userByEmail login => ((s.owner login.email).bind s.users, s)
  | recordAttempt _ | recordLogin _ | memberships _ => ((), s)
  | insertSession userId version =>
    ((), { s with sessions := s.sessions ++ [⟨userId, version, true⟩] })
  | userById userId => (s.users userId, s)
  | operatorByEmail email => ((s.owner email).bind s.users, s)
  | revokeSessions userId => (s.usable userId, s)
  | commit userId passwordHash revoked =>
    match s.users userId, revoked with
    | none, _ => ((), s)
    | some user, none => ((), s.setPassword user passwordHash)
    | some user, some ended =>
      ((), ((s.setPassword user passwordHash).endSessions ended).supersede userId
        (user.version + 1))
  | close session => ((), s.endSessions [session])

variable (passwordMatches : Hashing)

/-- `createSession`: the rest of a login whose password is right. -/
def createSession (user : User) : Program Call Unit := do
  let _ ← .perform (.recordAttempt true)
  let _ ← .perform (.recordLogin user.userId)
  let _ ← .perform (.memberships user.userId)
  .perform (.insertSession user.userId user.version)

/-- `authenticatePassword`: check a password, and create a session. -/
def login (request : Login) : Program Call Unit := do
  if ← .perform .blocked then .perform (.recordAttempt false)
  else
    match (← .perform (.userByEmail request)).filter (User.admits passwordMatches request) with
    | none => .perform (.recordAttempt false)
    | some user => createSession user

/-- `changePassword`: a user changes their password. -/
def changePassword (userId currentPassword passwordHash : String) : Program Call Unit := do
  match (← .perform (.userById userId)).filter fun user =>
      passwordMatches user.passwordHash currentPassword with
  | none => return
  | some _ =>
    let revoked ← .perform (.revokeSessions userId)
    .perform (.commit userId passwordHash (some revoked))

/-- `setOperatorPassword`: an operator sets a password. -/
def setOperatorPassword (email passwordHash : String) (keepSessions : Bool) :
    Program Call Unit := do
  match ← .perform (.operatorByEmail email) with
  | none => return
  | some user =>
    if keepSessions then .perform (.commit user.userId passwordHash none)
    else
      let revoked ← .perform (.revokeSessions user.userId)
      .perform (.commit user.userId passwordHash (some revoked))

/-- A request of a browser or an operator, and the end of a session. -/
inductive Task
  | login (request : Login)
  | changePassword (userId currentPassword passwordHash : String)
  | setOperatorPassword (email passwordHash : String) (keepSessions : Bool)
  | close (session : ℕ)

def Task.program : Task → Program Call Unit
  | login request => Passwords.login passwordMatches request
  | changePassword userId currentPassword passwordHash =>
    Passwords.changePassword passwordMatches userId currentPassword passwordHash
  | setOperatorPassword email passwordHash keepSessions =>
    Passwords.setOperatorPassword email passwordHash keepSessions
  | close session => .perform (.close session)

def system : System Call Bool Task State := ⟨⟨Call.exec⟩, Task.program passwordMatches⟩

/-- The users before anybody has logged in. Every row is under the id of its user. -/
structure Roster where
  owner : String → Option String
  users : String → Option User
  userId : ∀ id, ∀ user ∈ users id, user.userId = id

def Roster.idle (roster : Roster) : Pool Call Task State :=
  ⟨⟨roster.owner, roster.users, [], fun _ => 0⟩, []⟩

/-- No session can be used that was authorised by a password which a completed change has
superseded. -/
def Current (s : State) : Prop :=
  ∀ session ∈ s.sessions, session.usable = true → s.superseded session.userId ≤ session.version

/-- What a request has found out and relies on. -/
inductive Grip
  /-- The password of the user has this version. -/
  | checked (userId : String) (version : ℕ)
  /-- These are the sessions of the user that can be used. -/
  | listed (userId : String) (sessions : List ℕ)

def Call.learns {β : Type} (held : Option Grip) : Call β → β → Option Grip
  | userByEmail login, user =>
    (user.filter (User.admits passwordMatches login)).map fun user =>
      .checked user.userId user.version
  | revokeSessions userId, sessions => some (.listed userId sessions)
  | insertSession _ _, _ | commit _ _ _, _ => none
  | _, _ => held

def Call.relies {β : Type} : Call β → Option Grip
  | insertSession userId version => some (.checked userId version)
  | commit userId _ revoked => revoked.map (.listed userId)
  | _ => none

/-- Sessions are created after a check, and revoked as they were found. -/
def knowledge : Custody Call Grip where
  after held event := event.request.learns passwordMatches held event.answer
  needs request held := ∀ grip ∈ request.relies, held = some grip

def Grip.Fits (s : State) : Grip → Prop
  | checked userId version => ∃ user, s.users userId = some user ∧ user.version = version
  | listed userId sessions => ∀ i ∈ s.usable userId, i ∈ sessions

/-- The call spares what another request knows. -/
def Call.Spares {β : Type} : Call β → Grip → Prop
  | commit userId _ _, .checked other _ => userId ≠ other
  | insertSession userId _, .listed other _ => userId ≠ other
  | _, _ => True

/-- The sessions are current, and so are the rows. -/
structure Sound (s : State) : Prop where
  sessions : Current s
  users : ∀ userId, ∀ user ∈ s.users userId,
    user.userId = userId ∧ s.superseded userId ≤ user.version

/-- No change commits while a login of the user has checked the password and has not created its
session, and no session of the user is created between the two statements of a change. -/
def kept : Pool.Keeping (system passwordMatches) (knowledge passwordMatches) where
  fits grip s := grip.Fits s
  shared _ := True
  invariant := Sound
  admits _ _ _ := True
  spares request _ _ grip := request.Spares grip

instance {β : Type} (request : Call β) (grip : Grip) : Decidable (request.Spares grip) := by
  unfold Call.Spares
  split <;> infer_instance

instance {β : Type} (request : Call β) (refuses : Bool) (s : State) :
    Decidable ((kept passwordMatches).admits request refuses s) := .isTrue trivial

instance : DecidablePred (kept passwordMatches).arrives := fun _ => .isTrue trivial

instance {β : Type} (request : Call β) (refuses : Bool) (s : State) (grip : Grip) :
    Decidable ((kept passwordMatches).spares request refuses s grip) :=
  inferInstanceAs (Decidable (request.Spares grip))

abbrev Undisturbed : Pool Call Task State → Action Bool Task → Prop :=
  Pool.Orderly (kept passwordMatches)

theorem warranted_change (userId passwordHash : String) :
    (Program.perform (Call.revokeSessions userId) >>= fun revoked =>
      Program.perform (.commit userId passwordHash (some revoked))).Warranted
      (knowledge passwordMatches) (fun _ held => held = none) none :=
  ⟨needs_nothing, fun _ => ⟨fun _ hgrip => hgrip, fun _ => rfl⟩⟩

theorem program_knowledge (task : Task) :
    (Family.emptyHanded (knowledge passwordMatches)).Holds (task.program passwordMatches) := by
  cases task with
  | login request =>
    refine ⟨needs_nothing, fun blocked => ?_⟩
    cases blocked with
    | true => exact ⟨needs_nothing, fun _ => rfl⟩
    | false =>
      refine ⟨needs_nothing, fun found => ?_⟩
      change Program.Warranted _ (match found.filter (User.admits passwordMatches request) with
        | none => Program.perform (Call.recordAttempt false)
        | some user => createSession user) _
        ((found.filter (User.admits passwordMatches request)).map fun user =>
          Grip.checked user.userId user.version)
      cases found.filter (User.admits passwordMatches request) with
      | none => exact ⟨needs_nothing, fun _ => rfl⟩
      | some user =>
        refine ⟨needs_nothing, fun _ => ⟨needs_nothing, fun _ => ⟨needs_nothing, fun _ => ?_⟩⟩⟩
        exact ⟨fun _ hgrip => hgrip, fun _ => rfl⟩
  | changePassword userId currentPassword passwordHash =>
    refine ⟨needs_nothing, fun found => ?_⟩
    change Program.Warranted _
      (match found.filter fun user => passwordMatches user.passwordHash currentPassword with
        | none => pure ()
        | some _ => Program.perform (Call.revokeSessions userId) >>= fun revoked =>
          Program.perform (.commit userId passwordHash (some revoked))) _ _
    cases found.filter fun user => passwordMatches user.passwordHash currentPassword with
    | none => exact rfl
    | some user => exact warranted_change passwordMatches userId passwordHash
  | setOperatorPassword email passwordHash keepSessions =>
    refine ⟨needs_nothing, fun found => ?_⟩
    cases found with
    | none => exact rfl
    | some user =>
      cases keepSessions with
      | true => exact ⟨needs_nothing, fun _ => rfl⟩
      | false => exact warranted_change passwordMatches user.userId passwordHash
  | close session => exact ⟨needs_nothing, fun _ => rfl⟩

section Steps

variable {s : State} {userId : String} {i : ℕ}

theorem State.mem_usable : i ∈ s.usable userId ↔
    ∃ session, s.sessions[i]? = some session ∧ session.usable = true ∧
      session.userId = userId := by
  simp only [State.usable, List.mem_filter, List.mem_range, Option.any_eq_true_iff_get,
    Bool.and_eq_true, decide_eq_true_eq]
  constructor
  · rintro ⟨hi, hsome, husable, howner⟩
    exact ⟨_, Option.eq_some_of_isSome hsome, husable, howner⟩
  · rintro ⟨session, hget, husable, howner⟩
    have hi := (List.getElem?_eq_some_iff.mp hget).1
    refine ⟨hi, Option.isSome_of_eq_some hget, ?_⟩
    simp only [hget, Option.get_some]
    exact ⟨husable, howner⟩

theorem State.of_endSessions {ended : List ℕ} {session : Session}
    (hget : (s.endSessions ended).sessions[i]? = some session) (husable : session.usable = true) :
    s.sessions[i]? = some session ∧ i ∉ ended := by
  rw [State.endSessions, List.getElem?_mapIdx] at hget
  obtain ⟨old, hold, hsession⟩ := Option.map_eq_some_iff.mp hget
  split at hsession
  · rw [← hsession] at husable
    cases husable
  · rename_i hkept
    exact ⟨hsession ▸ hold, hkept⟩

theorem State.usable_endSessions {ended : List ℕ} (h : i ∈ (s.endSessions ended).usable userId) :
    i ∈ s.usable userId := by
  obtain ⟨session, hget, husable, howner⟩ := State.mem_usable.mp h
  exact State.mem_usable.mpr ⟨session, (State.of_endSessions hget husable).1, husable, howner⟩

theorem Sound.endSessions (h : Sound s) (ended : List ℕ) : Sound (s.endSessions ended) := by
  refine ⟨fun session hsession husable => ?_, h.users⟩
  obtain ⟨i, hget⟩ := List.mem_iff_getElem?.mp hsession
  have hold := (State.of_endSessions hget husable).1
  exact h.sessions session (List.mem_of_getElem? hold) husable

theorem Sound.setPassword (h : Sound s) {user : User} (huser : s.users userId = some user)
    (passwordHash : String) : Sound (s.setPassword user passwordHash) := by
  have hid := (h.users userId user huser).1
  refine ⟨h.sessions, fun other found hfound => ?_⟩
  change Function.update s.users user.userId _ other = some found at hfound
  by_cases hother : other = user.userId
  · rw [hother, Function.update_self] at hfound
    obtain rfl := Option.some.inj hfound
    have hle := (h.users userId user huser).2
    refine ⟨hother.symm, ?_⟩
    rw [hother, hid]
    exact hle.trans (Nat.le_succ _)
  · rw [Function.update_of_ne hother] at hfound
    exact h.users other found hfound

/-- A change that revokes every session of the user supersedes the old password. -/
theorem Sound.change (h : Sound s) {user : User} (huser : s.users userId = some user)
    (passwordHash : String) {ended : List ℕ} (hlisted : (Grip.listed userId ended).Fits s) :
    Sound (((s.setPassword user passwordHash).endSessions ended).supersede userId
      (user.version + 1)) := by
  have hid := (h.users userId user huser).1
  have hset := h.setPassword huser passwordHash
  have hended := hset.endSessions ended
  refine ⟨fun session hsession husable => ?_, fun other found hfound => ?_⟩
  · change Function.update s.superseded userId _ session.userId ≤ session.version
    obtain ⟨i, hget⟩ := List.mem_iff_getElem?.mp hsession
    obtain ⟨hold, hkept⟩ := State.of_endSessions hget husable
    have hother : session.userId ≠ userId := fun howner =>
      hkept (hlisted i (State.mem_usable.mpr ⟨session, hold, husable, howner⟩))
    rw [Function.update_of_ne hother]
    exact hended.sessions session hsession husable
  · change _ ∧ Function.update s.superseded userId _ other ≤ found.version
    refine ⟨(hended.users other found hfound).1, ?_⟩
    by_cases hother : other = userId
    · change Function.update s.users user.userId _ other = some found at hfound
      rw [hid, hother, Function.update_self] at hfound
      obtain rfl := Option.some.inj hfound
      rw [hother, Function.update_self]
    · rw [Function.update_of_ne hother]
      exact (hended.users other found hfound).2

end Steps

theorem Sound.exec {β : Type} {s : State} (h : Sound s) (call : Call β) (refuses : Bool)
    (hrelies : ∀ grip ∈ call.relies, grip.Fits s) : Sound (call.exec refuses s).2 := by
  cases call with
  | insertSession userId version =>
    obtain ⟨user, huser, hversion⟩ : (Grip.checked userId version).Fits s := hrelies _ rfl
    refine ⟨fun session hsession husable => ?_, h.users⟩
    rcases List.mem_append.mp hsession with hold | hnew
    · exact h.sessions session hold husable
    · rw [List.mem_singleton.mp hnew]
      exact hversion ▸ (h.users userId user huser).2
  | commit userId passwordHash revoked =>
    simp only [Call.exec]
    cases huser : s.users userId with
    | none => exact h
    | some user =>
      cases revoked with
      | none => exact h.setPassword huser passwordHash
      | some ended => exact h.change huser passwordHash (hrelies _ rfl)
  | close session => exact h.endSessions [session]
  | _ => exact h

theorem Grip.Fits.exec {β : Type} {grip : Grip} {s : State} (h : grip.Fits s) (hs : Sound s)
    (call : Call β) (refuses : Bool) (hspares : call.Spares grip) :
    grip.Fits (call.exec refuses s).2 := by
  cases grip with
  | checked userId version =>
    cases call with
    | commit other passwordHash revoked =>
      have hne : userId ≠ other := fun heq => hspares heq.symm
      obtain ⟨user, huser, hversion⟩ := h
      refine ⟨user, ?_, hversion⟩
      simp only [Call.exec]
      cases hother : s.users other with
      | none => exact huser
      | some found =>
        have hid := (hs.users other found hother).1
        have hkept (row : Option User) :
            Function.update s.users found.userId row userId = some user :=
          (Function.update_of_ne (hid ▸ hne) row s.users).trans huser
        cases revoked with
        | none => exact hkept _
        | some ended => exact hkept _
    | _ => exact h
  | listed userId sessions =>
    intro i hi
    cases call with
    | insertSession other version =>
      obtain ⟨session, hget, husable, howner⟩ := State.mem_usable.mp hi
      refine h i (State.mem_usable.mpr ⟨session, ?_, husable, howner⟩)
      simp only [Call.exec, List.getElem?_append] at hget
      split at hget
      · exact hget
      · have hnew := List.mem_singleton.mp (List.mem_of_getElem? hget)
        rw [hnew] at howner
        exact absurd howner hspares
    | commit other passwordHash revoked =>
      simp only [Call.exec] at hi
      cases hother : s.users other with
      | none =>
        rw [hother] at hi
        exact h i hi
      | some found =>
        rw [hother] at hi
        cases revoked with
        | none => exact h i hi
        | some ended => exact h i (State.usable_endSessions (s := s.setPassword found _) hi)
    | close session => exact h i (State.usable_endSessions hi)
    | _ => exact h i hi

theorem Call.learns_fits {β : Type} (call : Call β) (refuses : Bool) {s : State} (hs : Sound s)
    {held : Option Grip} (hfits : ∀ grip ∈ held, grip.Fits s) {grip : Grip}
    (h : grip ∈ call.learns passwordMatches held (call.exec refuses s).1) :
    grip.Fits (call.exec refuses s).2 := by
  cases call with
  | userByEmail login =>
    obtain ⟨user, huser, rfl⟩ := Option.map_eq_some_iff.mp h
    have hfound := (Option.filter_eq_some_iff.mp huser).1
    obtain ⟨id, -, hid⟩ := Option.bind_eq_some_iff.mp hfound
    exact ⟨user, (hs.users id user hid).1 ▸ hid, rfl⟩
  | revokeSessions userId =>
    obtain rfl := Option.some.inj h
    exact fun i hi => hi
  | insertSession | commit => cases h
  | close session =>
    refine (hfits grip h).exec hs _ refuses ?_
    cases grip <;> trivial
  | _ => exact hfits grip h

theorem kept_upholds : Pool.Upholds (kept passwordMatches) where
  start p _ := program_knowledge passwordMatches p
  invariant := fun {_ request input _ _} hdue =>
    Sound.exec hdue.invariant request input fun grip hgrip =>
      hdue.fits grip (hdue.needs grip hgrip)
  holds := fun {_ request input _ _} hdue _ hk =>
    ⟨request.learns_fits passwordMatches input hdue.invariant hdue.fits hk, .inr (.inl trivial)⟩
  spares := fun {_ request input _ _} hdue _ hfits _ hspares =>
    hfits.exec hdue.invariant request input hspares

/-- In every run in which changes and logins of a user do not straddle each other, no session can
be used that was authorised by a password which a completed change has superseded. -/
theorem superseded_not_usable (roster : Roster) (script : List (Action Bool Task))
    (hscript : roster.idle.Along (system passwordMatches) (Undisturbed passwordMatches) script) :
    Current (roster.idle.play (system passwordMatches) script).state := by
  have hstart : roster.idle.Kept (kept passwordMatches) := by
    refine Pool.kept_nil ⟨fun session hsession => ?_, fun userId user huser => ?_⟩
    · cases hsession
    · exact ⟨roster.userId userId user huser, Nat.zero_le _⟩
  exact (hstart.play (kept_upholds passwordMatches) hscript).invariant.sessions

def oneUser : Roster where
  owner := fun email => if email = "ada@example" then some "u1" else none
  users := fun id => if id = "u1" then some ⟨"u1", "old", true, 0⟩ else none
  userId := by
    intro id user huser
    by_cases hid : id = "u1"
    · rw [if_pos hid] at huser
      obtain rfl := Option.some.inj huser
      exact hid.symm
    · rw [if_neg hid] at huser
      cases huser

def plain : Hashing := fun passwordHash password => passwordHash = password

/-- A user logs in, changes their password and logs in again. -/
theorem superseded_not_usable_in_turn :
    Current (oneUser.idle.play (system plain)
      ([.arrive (.login ⟨"ada@example", "old"⟩)] ++ List.replicate 6 (.step 0 false) ++
        [.arrive (.changePassword "u1" "old" "new")] ++ List.replicate 3 (.step 1 false) ++
        [.arrive (.login ⟨"ada@example", "new"⟩)] ++ List.replicate 6 (.step 2 false))).state :=
  superseded_not_usable plain oneUser _ (by decide +kernel)

/-- A login has checked the old password, the password is replaced and every session is revoked,
and then the login creates its session. -/
theorem superseded_usable :
    let c := oneUser.idle.play (system plain)
      ([.arrive (.login ⟨"ada@example", "old"⟩), .step 0 false, .step 0 false,
          .arrive (.setOperatorPassword "ada@example" "new" false)] ++
        List.replicate 3 (.step 1 false) ++ List.replicate 4 (.step 0 false))
    (c.nextCall 1).isNone = true ∧ c.state.sessions = [⟨"u1", 0, true⟩] ∧
      c.state.superseded "u1" = 1 ∧ ¬Current c.state := by
  refine ⟨by decide +kernel, by decide +kernel, by decide +kernel, fun hcurrent => ?_⟩
  have hle := hcurrent ⟨"u1", 0, true⟩ (by decide +kernel) rfl
  exact absurd hle (by decide +kernel)

end Asterism.Passwords
