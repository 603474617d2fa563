import Asterism.Process.Attempt

/-!
# The sessions of the Node channel

A socket authenticates as a Node and is registered as the session of that Node, in place of
the session that was registered before. Handlers run until they wait for the database, and
other handlers run meanwhile: what happens between two waits is one atomic call. This file
determines how far the registered session is the only authenticated one.
-/

namespace Asterism.ControlPlane

open Process

/-- The sockets, and the `LiveSession` that is registered for each Node. A session is known by the
number of its socket. -/
structure Sessions where
  /-- How many sockets were accepted. -/
  accepted : ℕ
  /-- One side has closed the socket. -/
  isClosed : ℕ → Bool
  /-- The Node whose frames a socket serves, once its handler knows. -/
  authenticated : ℕ → Option String
  registered : String → Option ℕ

namespace Sessions

def initial : Sessions := ⟨0, fun _ => false, fun _ => none, fun _ => none⟩

def close (w : Sessions) (socket : ℕ) : Sessions :=
  { w with isClosed := Function.update w.isClosed socket true }

def setRegistered (w : Sessions) (nodeId : String) (session : Option ℕ) : Sessions :=
  { w with registered := Function.update w.registered nodeId session }

/-- `closeSession`: close the session of a Node and remove the registration of that Node. -/
def closeSession (w : Sessions) (nodeId : String) (session : ℕ) : Sessions :=
  (w.close session).setRegistered nodeId none

/-- The socket is open and serves frames of the Node. -/
def Serves (w : Sessions) (socket : ℕ) (nodeId : String) : Prop :=
  w.isClosed socket = false ∧ w.authenticated socket = some nodeId

instance (w : Sessions) (socket : ℕ) (nodeId : String) : Decidable (w.Serves socket nodeId) :=
  inferInstanceAs (Decidable (_ ∧ _))

end Sessions

/-- What the outside contributes to one call. -/
structure SessionInput where
  /-- The challenge is valid, the Node is enrolled and the signature is right. -/
  verified : Bool := true
  /-- What was asked of the database succeeded. -/
  stored : Bool := true

/-- What a handler of `NodeChannel` does between two waits. -/
inductive SessionCall : Type → Type 1
  | accept : SessionCall ℕ
  /-- Verify who the socket belongs to, and look up the session registered for that Node. If
  there is none, the socket is registered at once. -/
  | verify (socket : ℕ) (nodeId : String) : SessionCall (Option (Option ℕ))
  /-- The replacement was written to the audit log: close the session that was registered. -/
  | replace (socket : ℕ) (nodeId : String) (existing : ℕ) : SessionCall Bool
  /-- The disconnection was recorded: register the socket. -/
  | register (socket : ℕ) (nodeId : String) : SessionCall Unit
  /-- The transaction that records the session is over. -/
  | record (socket : ℕ) (nodeId : String) : SessionCall Bool
  /-- The handler learns that its socket is authenticated. -/
  | authenticated (socket : ℕ) (nodeId : String) : SessionCall Unit
  | refuse (socket : ℕ) : SessionCall Unit
  | closed (socket : ℕ) : SessionCall Unit
  | handshakeTimeout (socket : ℕ) : SessionCall Unit
  /-- Close the session of a Node that was revoked or is silent. -/
  | disconnect (nodeId : String) : SessionCall Unit

def SessionCall.exec {α : Type} (call : SessionCall α) (input : SessionInput) (w : Sessions) :
    α × Sessions :=
  match call with
  | accept => (w.accepted, { w with accepted := w.accepted + 1 })
  | verify socket nodeId =>
    if input.verified then
      match w.registered nodeId with
      | some existing => (some (some existing), w)
      | none => (some none, w.setRegistered nodeId (some socket))
    else (none, w)
  | replace _ nodeId existing =>
    if input.stored then (true, w.closeSession nodeId existing) else (false, w)
  | register socket nodeId => ((), w.setRegistered nodeId (some socket))
  | record _ _ => (input.stored, w)
  | authenticated socket nodeId =>
    ((), { w with authenticated := Function.update w.authenticated socket (some nodeId) })
  | refuse socket => ((), w.close socket)
  | closed socket =>
    ((), match w.authenticated socket with
      | some nodeId =>
        if w.registered nodeId = some socket then w.closeSession nodeId socket
        else w.close socket
      | none => w.close socket)
  | handshakeTimeout socket =>
    ((), match w.authenticated socket with
      | some _ => w
      | none => w.close socket)
  | disconnect nodeId =>
    ((), match w.registered nodeId with
      | some session => w.closeSession nodeId session
      | none => w)

/-- `completeAuthentication`: verify the signature and activate the session. -/
def completeAuthentication (socket : ℕ) (nodeId : String) : Program SessionCall Bool := do
  match ← Program.perform (.verify socket nodeId) with
  | none => return false
  | some none => Program.perform (.record socket nodeId)
  | some (some existing) =>
    if ← Program.perform (.replace socket nodeId existing) then do
      Program.perform (.register socket nodeId)
      Program.perform (.record socket nodeId)
    else return false

/-- `handleConnection`: handle the authentications that a socket attempts, one after the other,
until one succeeds. -/
def serveSocket (socket : ℕ) : List String → Program SessionCall Unit
  | [] => return ()
  | nodeId :: later => do
    if ← completeAuthentication socket nodeId then
      Program.perform (.authenticated socket nodeId)
    else do
      Program.perform (.refuse socket)
      serveSocket socket later

/-- A connection, and whatever closes sockets. -/
inductive SessionTask
  /-- A socket is accepted, and attempts to authenticate as these Nodes. -/
  | connection (attempts : List String)
  | closed (socket : ℕ)
  | handshakeTimeout (socket : ℕ)
  | disconnect (nodeId : String)

def SessionTask.program : SessionTask → Program SessionCall Unit
  | connection attempts => do
    let socket ← Program.perform .accept
    serveSocket socket attempts
  | closed socket => Program.perform (.closed socket)
  | handshakeTimeout socket => Program.perform (.handshakeTimeout socket)
  | disconnect nodeId => Program.perform (.disconnect nodeId)

def sessionSystem : System SessionCall SessionInput SessionTask Sessions :=
  ⟨⟨SessionCall.exec⟩, SessionTask.program⟩

def idleChannel : Pool SessionCall SessionTask Sessions := ⟨.initial, []⟩

/-- Where an authentication stands. -/
inductive Stage
  /-- The session that was registered is about to be closed. -/
  | replacing (socket : ℕ) (nodeId : String) (existing : ℕ)
  /-- That session was closed, and the socket is about to be registered. -/
  | registering (socket : ℕ) (nodeId : String)
  /-- The socket was registered, and the session is being recorded. -/
  | recording (socket : ℕ) (nodeId : String)
  | recorded (socket : ℕ) (nodeId : String)
  deriving DecidableEq

def SessionCall.stage {β : Type} : SessionCall β → Option Stage
  | replace socket nodeId existing => some (.replacing socket nodeId existing)
  | register socket nodeId => some (.registering socket nodeId)
  | record socket nodeId => some (.recording socket nodeId)
  | authenticated socket nodeId => some (.recorded socket nodeId)
  | _ => none

def SessionCall.leadsTo {β : Type} : SessionCall β → β → Option Stage
  | verify socket nodeId, some (some existing) => some (.replacing socket nodeId existing)
  | verify socket nodeId, some none => some (.recording socket nodeId)
  | replace socket nodeId _, true => some (.registering socket nodeId)
  | register socket nodeId, _ => some (.recording socket nodeId)
  | record socket nodeId, true => some (.recorded socket nodeId)
  | _, _ => none

def stageOf {α : Type} : Program SessionCall α → Option Stage
  | .call request _ => request.stage
  | _ => none

/-- The Node whose session is being replaced. -/
def Stage.replacedNode : Stage → Option String
  | replacing _ nodeId _ | registering _ nodeId => some nodeId
  | recording _ _ | recorded _ _ => none

/-- The Node whose session a procedure is replacing. -/
def replacing (t : Thread SessionCall SessionTask) : Option String :=
  (stageOf t.code).bind Stage.replacedNode

/-- The Node that a procedure is about to look up the session of. -/
def lookingUp (t : Thread SessionCall SessionTask) : Option String :=
  match t.code with
  | .call (.verify _ nodeId) _ => some nodeId
  | _ => none

/-- No authentication as a Node looks up the registered session while another one replaces
it. -/
def Undisturbed (c : Pool SessionCall SessionTask Sessions) :
    Action SessionInput SessionTask → Prop
  | .step i input => ∀ t ∈ c.threads[i]?, ∀ nodeId ∈ lookingUp t, input.verified = true →
      ∀ u ∈ c.threads, replacing u ≠ some nodeId
  | _ => True

instance (c : Pool SessionCall SessionTask Sessions) : (a : Action SessionInput SessionTask) →
    Decidable (Undisturbed c a)
  | .step i input => inferInstanceAs (Decidable (∀ t ∈ c.threads[i]?, ∀ nodeId ∈ lookingUp t,
      input.verified = true → ∀ u ∈ c.threads, replacing u ≠ some nodeId))
  | .arrive _ | .kill _ | .crash => .isTrue trivial

/-- What holds of the sessions while an authentication is at a stage. -/
def Stage.Fits (w : Sessions) : Stage → Prop
  | replacing _ nodeId existing =>
    w.registered nodeId = none ∨ w.registered nodeId = some existing
  | registering _ nodeId => w.registered nodeId = none
  | recording socket nodeId | recorded socket nodeId =>
    w.isClosed socket = false → w.registered nodeId = some socket

/-- How the registered sessions may change in one call. -/
inductive RegistryChange (w w' : Sessions) : Prop
  | kept (h : w'.registered = w.registered)
  /-- A Node that had no session gets one. -/
  | added (nodeId : String) (socket : ℕ) (hnone : w.registered nodeId = none)
      (h : w'.registered = Function.update w.registered nodeId (some socket))
  /-- The session of a Node, if it has one, was closed, and it has none any more. -/
  | removed (nodeId : String) (session : ℕ)
      (hsession : w.registered nodeId = none ∨ w.registered nodeId = some session)
      (hclosed : w'.isClosed session = true)
      (h : w'.registered = Function.update w.registered nodeId none)

/-- An orderly step: no socket is reopened, and a registration is only added for a Node
without one and only removed together with its socket. -/
structure OrderlyStep (w w' : Sessions) : Prop where
  opens : ∀ socket, w'.isClosed socket = false → w.isClosed socket = false
  change : RegistryChange w w'

namespace OrderlyStep

variable {w w' : Sessions}

/-- A registered session stays registered, or its socket is closed and its Node has none. -/
theorem registered_some (h : OrderlyStep w w') {socket : ℕ} {nodeId : String}
    (hregistered : w.registered nodeId = some socket) :
    w'.registered nodeId = some socket ∨
      w'.registered nodeId = none ∧ w'.isClosed socket = true := by
  rcases h.change with hkept | ⟨other, added, hnone, hset⟩ |
    ⟨other, session, hsession, hclosed, hset⟩
  · exact .inl (hkept ▸ hregistered)
  · refine .inl ?_
    rw [hset, Function.update_of_ne]
    · exact hregistered
    · rintro rfl
      rw [hnone] at hregistered
      cases hregistered
  · by_cases hsame : nodeId = other
    · subst hsame
      rw [hregistered] at hsession
      rcases hsession with hsession | hsession
      · cases hsession
      · cases hsession
        refine .inr ⟨?_, hclosed⟩
        rw [hset, Function.update_self]
    · refine .inl ?_
      rw [hset, Function.update_of_ne hsame]
      exact hregistered

theorem registered_open (h : OrderlyStep w w') {socket : ℕ} {nodeId : String}
    (hregistered : w.registered nodeId = some socket) (hopen : w'.isClosed socket = false) :
    w'.registered nodeId = some socket := by
  rcases h.registered_some hregistered with hkept | ⟨-, hclosed⟩
  · exact hkept
  · rw [hclosed] at hopen
    cases hopen

/-- What holds at a stage still holds after an orderly step, unless a session is added for the
Node whose session is being replaced. -/
theorem fits (h : OrderlyStep w w') {stage : Stage} (hfits : stage.Fits w)
    (hadded : ∀ nodeId ∈ stage.replacedNode, w.registered nodeId = none →
      w'.registered nodeId = none) : stage.Fits w' := by
  cases stage with
  | replacing socket nodeId existing =>
    rcases hfits with hnone | hsome
    · exact .inl (hadded nodeId rfl hnone)
    · rcases h.registered_some hsome with hkept | ⟨hremoved, -⟩
      · exact .inr hkept
      · exact .inl hremoved
  | registering socket nodeId => exact hadded nodeId rfl hfits
  | recording socket nodeId | recorded socket nodeId =>
    exact fun hopen => h.registered_open (hfits (h.opens socket hopen)) hopen

/-- A step that changes no registration and closes at most some sockets is orderly. -/
theorem of_kept (hopens : ∀ socket, w'.isClosed socket = false → w.isClosed socket = false)
    (h : w'.registered = w.registered) : OrderlyStep w w' := ⟨hopens, .kept h⟩

theorem close_opens (w : Sessions) (closed : ℕ) (socket : ℕ)
    (h : (w.close closed).isClosed socket = false) : w.isClosed socket = false := by
  change Function.update w.isClosed closed true socket = false at h
  by_cases hsame : socket = closed
  · rw [hsame, Function.update_self] at h
    cases h
  · rwa [Function.update_of_ne hsame] at h

theorem close (w : Sessions) (socket : ℕ) : OrderlyStep w (w.close socket) :=
  of_kept (close_opens w socket) rfl

theorem closeSession {nodeId : String} {session : ℕ}
    (h : w.registered nodeId = none ∨ w.registered nodeId = some session) :
    OrderlyStep w (w.closeSession nodeId session) :=
  ⟨close_opens w session, .removed nodeId session h (Function.update_self _ _ _) rfl⟩

theorem setRegistered {nodeId : String} (h : w.registered nodeId = none) (socket : ℕ) :
    OrderlyStep w (w.setRegistered nodeId (some socket)) :=
  ⟨fun _ hopen => hopen, .added nodeId socket h rfl⟩

end OrderlyStep

namespace SessionCall

variable {β : Type}

def replaces (call : SessionCall β) (input : SessionInput) : Option String :=
  match call with
  | verify _ nodeId => if input.verified then some nodeId else none
  | replace _ nodeId _ | register _ nodeId => some nodeId
  | _ => none

def closes (call : SessionCall β) (input : SessionInput) (w : Sessions) : Option ℕ :=
  match call with
  | replace _ _ existing => if input.stored then some existing else none
  | refuse socket | closed socket => some socket
  | handshakeTimeout socket => if w.authenticated socket = none then some socket else none
  | disconnect nodeId => w.registered nodeId
  | _ => none

variable (call : SessionCall β) (input : SessionInput) {w : Sessions}

theorem exec_orderly (hfits : ∀ stage ∈ call.stage, stage.Fits w) :
    OrderlyStep w (call.exec input w).2 := by
  cases call with
  | accept | record | authenticated => exact .of_kept (fun _ hopen => hopen) rfl
  | verify socket nodeId =>
    simp only [exec]
    split
    · cases hregistered : w.registered nodeId with
      | none => exact .setRegistered hregistered socket
      | some existing => exact .of_kept (fun _ hopen => hopen) rfl
    · exact .of_kept (fun _ hopen => hopen) rfl
  | replace socket nodeId existing =>
    simp only [exec]
    split
    · exact .closeSession (hfits _ rfl)
    · exact .of_kept (fun _ hopen => hopen) rfl
  | register socket nodeId => exact .setRegistered (hfits _ rfl) socket
  | refuse socket => exact .close w socket
  | closed socket =>
    simp only [exec]
    split
    · split
      · exact .closeSession (.inr ‹_›)
      · exact .close w socket
    · exact .close w socket
  | handshakeTimeout socket =>
    simp only [exec]
    split
    · exact .of_kept (fun _ hopen => hopen) rfl
    · exact .close w socket
  | disconnect nodeId =>
    simp only [exec]
    split
    · exact .closeSession (.inr ‹_›)
    · exact .of_kept (fun _ hopen => hopen) rfl

/-- A Node without a session gets one only from a call that replaces its session. -/
theorem exec_registered_none {nodeId : String} (hnone : w.registered nodeId = none)
    (hother : call.replaces input ≠ some nodeId) :
    (call.exec input w).2.registered nodeId = none := by
  -- Removing a registration adds none.
  have hremoved (other : String) (session : ℕ) :
      (w.closeSession other session).registered nodeId = none := by
    by_cases hsame : nodeId = other
    · rw [hsame]
      exact Function.update_self _ _ _
    · exact (Function.update_of_ne hsame _ _).trans hnone
  have hset (other : String) (socket : ℕ) (hne : some other ≠ some nodeId) :
      (w.setRegistered other (some socket)).registered nodeId = none :=
    (Function.update_of_ne (fun hsame => hne (congrArg some hsame.symm)) _ _).trans hnone
  cases call with
  | accept | record | authenticated | refuse => exact hnone
  | verify socket other =>
    simp only [exec]
    split
    · rename_i hverified
      rw [replaces, if_pos hverified] at hother
      split
      · exact hnone
      · exact hset other socket hother
    · exact hnone
  | replace socket other existing =>
    simp only [exec]
    split
    · exact hremoved other existing
    · exact hnone
  | register socket other => exact hset other socket hother
  | closed socket =>
    simp only [exec]
    split
    · split
      · exact hremoved _ socket
      · exact hnone
    · exact hnone
  | handshakeTimeout socket =>
    simp only [exec]
    split
    · exact hnone
    · exact hnone
  | disconnect other =>
    simp only [exec]
    split
    · exact hremoved other _
    · exact hnone

/-- A registration is only removed by a call that closes the registered session. -/
theorem exec_removes (hfits : ∀ stage ∈ call.stage, stage.Fits w) {nodeId : String} {session : ℕ}
    (hregistered : w.registered nodeId = some session)
    (hremoved : (call.exec input w).2.registered nodeId ≠ some session) :
    call.closes input w = some session := by
  -- Only the registration of the Node whose session is closed changes.
  have hclosed {other : String} {closed : ℕ}
      (hother : w.registered other = none ∨ w.registered other = some closed)
      (hne : (w.closeSession other closed).registered nodeId ≠ some session) :
      closed = session := by
    by_cases hsame : nodeId = other
    · rw [← hsame, hregistered] at hother
      rcases hother with hother | hother
      · cases hother
      · exact (Option.some.inj hother).symm
    · exact absurd ((Function.update_of_ne hsame _ _).trans hregistered) hne
  have hset {other : String} {socket : ℕ} (hnone : w.registered other = none)
      (hne : (w.setRegistered other (some socket)).registered nodeId ≠ some session) : False := by
    refine hne ((Function.update_of_ne ?_ _ _).trans hregistered)
    rintro rfl
    rw [hnone] at hregistered
    cases hregistered
  cases call with
  | accept | record | authenticated | refuse => exact absurd hregistered hremoved
  | verify socket other =>
    simp only [exec] at hremoved
    split at hremoved
    · split at hremoved
      · exact absurd hregistered hremoved
      · exact (hset ‹_› hremoved).elim
    · exact absurd hregistered hremoved
  | replace socket other existing =>
    simp only [exec] at hremoved
    split at hremoved
    · rename_i hstored
      rw [closes, if_pos hstored, hclosed (hfits _ rfl) hremoved]
    · exact absurd hregistered hremoved
  | register socket other => exact (hset (hfits _ rfl) hremoved).elim
  | closed socket =>
    simp only [exec] at hremoved
    split at hremoved
    · split at hremoved
      · exact congrArg some (hclosed (.inr ‹_›) hremoved)
      · exact absurd hregistered hremoved
    · exact absurd hregistered hremoved
  | handshakeTimeout socket =>
    simp only [exec] at hremoved
    split at hremoved
    · exact absurd hregistered hremoved
    · exact absurd hregistered hremoved
  | disconnect other =>
    simp only [exec] at hremoved
    split at hremoved
    · rename_i found hfound
      rw [closes, hfound, hclosed (.inr hfound) hremoved]
    · exact absurd hregistered hremoved

theorem exec_serves (hfits : ∀ stage ∈ call.stage, stage.Fits w) {socket : ℕ} {nodeId : String}
    (h : (call.exec input w).2.Serves socket nodeId) :
    w.Serves socket nodeId ∨ w.registered nodeId = some socket := by
  have hopen := (call.exec_orderly input hfits).opens socket h.1
  have hsame (hkept : (call.exec input w).2.authenticated = w.authenticated) :
      w.Serves socket nodeId ∨ w.registered nodeId = some socket :=
    .inl ⟨hopen, hkept ▸ h.2⟩
  cases call with
  | authenticated other otherNode =>
    have hnode : Function.update w.authenticated other (some otherNode) socket = some nodeId := h.2
    by_cases hsocket : socket = other
    · subst hsocket
      rw [Function.update_self] at hnode
      cases hnode
      exact .inr (hfits (.recorded socket nodeId) rfl hopen)
    · rw [Function.update_of_ne hsocket] at hnode
      exact .inl ⟨hopen, hnode⟩
  | accept | register | record | refuse => exact hsame rfl
  | verify | replace | closed | handshakeTimeout | disconnect =>
    refine hsame ?_
    simp only [exec]
    (repeat' split) <;> rfl

theorem exec_stage (hfits : ∀ stage ∈ call.stage, stage.Fits w) {stage : Stage}
    (h : stage ∈ call.leadsTo (call.exec input w).1) : stage.Fits (call.exec input w).2 := by
  cases call with
  | verify socket nodeId =>
    simp only [exec] at h ⊢
    split at h
    · rename_i hverified
      rw [if_pos hverified]
      split at h
      · cases h
        exact .inr ‹_›
      · cases h
        exact fun _ => Function.update_self _ _ _
    · cases h
  | replace socket nodeId existing =>
    simp only [exec] at h ⊢
    split at h
    · rename_i hstored
      cases h
      rw [if_pos hstored]
      exact Function.update_self _ _ _
    · cases h
  | register socket nodeId =>
    cases h
    exact fun _ => Function.update_self _ _ _
  | record socket nodeId =>
    cases hstored : input.stored with
    | false =>
      simp only [exec, hstored, leadsTo] at h
      cases h
    | true =>
      simp only [exec, hstored, leadsTo] at h
      cases h
      exact hfits (.recording socket nodeId) rfl
  | accept | authenticated | refuse | closed | handshakeTimeout | disconnect => cases h

/-- A procedure is replacing a session after a call only if the call did so. -/
theorem replaces_of_leadsTo {nodeId : String}
    (h : (call.leadsTo (call.exec input w).1).bind Stage.replacedNode = some nodeId) :
    call.replaces input = some nodeId := by
  cases call with
  | verify socket other =>
    simp only [exec] at h
    split at h
    · rename_i hverified
      rw [replaces, if_pos hverified]
      split at h
      · exact h
      · cases h
    · cases h
  | replace socket other existing =>
    simp only [exec] at h
    split at h
    · exact h
    · cases h
  | record socket other =>
    cases hstored : input.stored with
    | false | true =>
      simp only [exec, hstored, leadsTo] at h
      cases h
  | accept | register | authenticated | refuse | closed | handshakeTimeout
  | disconnect => cases h

end SessionCall

/-- Each call of a procedure leads to the stage that comes next, and no task is started. -/
def Staged {α : Type} : Program SessionCall α → Prop
  | .pure _ => True
  | .call request next => ∀ answer,
      stageOf (next answer) = request.leadsTo answer ∧ Staged (next answer)
  | .fork _ _ => False

/-- The handler of a socket goes through the stages. -/
theorem serveSocket_staged (socket : ℕ) (attempts : List String) :
    stageOf (serveSocket socket attempts) = none ∧ Staged (serveSocket socket attempts) := by
  induction attempts with
  | nil => exact ⟨rfl, trivial⟩
  | cons nodeId later ih =>
    -- What follows once the session was recorded, and once the authentication failed.
    have hrefuse : Staged (Program.call (.refuse socket) fun _ => serveSocket socket later) :=
      fun _ => ih
    have hrecord : Staged (Program.call (.record socket nodeId) fun stored =>
        if stored = true then Program.perform (.authenticated socket nodeId)
        else Program.call (.refuse socket) fun _ => serveSocket socket later) := by
      intro stored
      cases stored with
      | false => exact ⟨rfl, hrefuse⟩
      | true => exact ⟨rfl, fun _ => ⟨rfl, trivial⟩⟩
    refine ⟨rfl, fun answer => ?_⟩
    match answer with
    | none => exact ⟨rfl, hrefuse⟩
    | some none => exact ⟨rfl, hrecord⟩
    | some (some existing) =>
      refine ⟨rfl, fun stored => ?_⟩
      cases stored with
      | false => exact ⟨rfl, hrefuse⟩
      | true => exact ⟨rfl, fun _ => ⟨rfl, hrecord⟩⟩

theorem SessionTask.program_staged (task : SessionTask) :
    stageOf task.program = none ∧ Staged task.program := by
  cases task with
  | connection attempts => exact ⟨rfl, fun socket => serveSocket_staged socket attempts⟩
  | closed | handshakeTimeout | disconnect => exact ⟨rfl, fun _ => ⟨rfl, trivial⟩⟩

/-- What holds of the channel while no replacement is disturbed. -/
structure Orderly (c : Pool SessionCall SessionTask Sessions) : Prop where
  code : ∀ t ∈ c.threads, Staged t.code
  /-- An open socket that serves frames of a Node is its registered session. -/
  serves : ∀ socket nodeId, c.state.Serves socket nodeId → c.state.registered nodeId = some socket
  fits : ∀ t ∈ c.threads, ∀ stage ∈ stageOf t.code, stage.Fits c.state
  /-- The session of a Node is replaced by one procedure at a time. -/
  once : ∀ (i j : ℕ) (t u : Thread SessionCall SessionTask), c.threads[i]? = some t →
    c.threads[j]? = some u → ∀ nodeId, replacing t = some nodeId → replacing u = some nodeId → i = j

namespace Orderly

variable {c d : Pool SessionCall SessionTask Sessions}

theorem of_still (h : Orderly c) (hstate : d.state = c.state)
    (hthreads : ∀ (j : ℕ) (t : Thread SessionCall SessionTask), d.threads[j]? = some t →
      c.threads[j]? = some t ∨ stageOf t.code = none ∧ Staged t.code) : Orderly d where
  code t ht := by
    obtain ⟨j, hj⟩ := List.mem_iff_getElem?.mp ht
    rcases hthreads j t hj with hold | ⟨-, hstaged⟩
    · exact h.code t (List.mem_of_getElem? hold)
    · exact hstaged
  serves := by
    rw [hstate]
    exact h.serves
  fits t ht stage hstage := by
    obtain ⟨j, hj⟩ := List.mem_iff_getElem?.mp ht
    rw [hstate]
    rcases hthreads j t hj with hold | ⟨hnone, -⟩
    · exact h.fits t (List.mem_of_getElem? hold) stage hstage
    · rw [hnone] at hstage
      cases hstage
  once i j t u hi hj nodeId ht hu := by
    -- A procedure without a stage replaces nothing.
    have hold {k : ℕ} {v : Thread SessionCall SessionTask} (hk : d.threads[k]? = some v)
        (hv : replacing v = some nodeId) : c.threads[k]? = some v := by
      rcases hthreads k v hk with hold | ⟨hnone, -⟩
      · exact hold
      · rw [replacing, hnone] at hv
        cases hv
    exact h.once i j t u (hold hi ht) (hold hj hu) nodeId ht hu

/-- While a call replaces the session of a Node, no other procedure does. -/
theorem alone (h : Orderly c) {i j : ℕ} {t u : Thread SessionCall SessionTask}
    (hi : c.threads[i]? = some t) (hj : c.threads[j]? = some u) (hne : i ≠ j) {β : Type}
    {call : SessionCall β} {next : β → Program SessionCall Unit} (hcode : t.code = .call call next)
    {input : SessionInput} (hundisturbed : Undisturbed c (.step i input)) {nodeId : String}
    (hu : replacing u = some nodeId) : call.replaces input ≠ some nodeId := by
  intro hreplaces
  -- The procedure of the call was replacing the session already, or looks it up.
  have hold (ht : replacing t = some nodeId) : False := hne (h.once i j t u hi hj nodeId ht hu)
  cases call with
  | verify socket other =>
    rw [SessionCall.replaces] at hreplaces
    split at hreplaces
    · rename_i hverified
      cases hreplaces
      have hlook : lookingUp t = some nodeId := by rw [lookingUp, hcode]
      exact hundisturbed t hi nodeId hlook hverified u (List.mem_of_getElem? hj) hu
    · cases hreplaces
  | replace | register =>
    refine hold ?_
    rw [replacing, hcode]
    exact hreplaces
  | accept | record | authenticated | refuse | closed | handshakeTimeout
  | disconnect => cases hreplaces

theorem call (h : Orderly c) {i : ℕ} {t : Thread SessionCall SessionTask}
    (hi : c.threads[i]? = some t) {β : Type} {call : SessionCall β}
    {next : β → Program SessionCall Unit} (hcode : t.code = .call call next) {input : SessionInput}
    (hundisturbed : Undisturbed c (.step i input)) :
    Orderly (c.act sessionSystem (.step i input)) := by
  have ht : t ∈ c.threads := List.mem_of_getElem? hi
  have hfits : ∀ stage ∈ call.stage, stage.Fits c.state := by
    intro stage hstage
    refine h.fits t ht stage ?_
    rw [hcode]
    exact hstage
  have hstaged := h.code t ht
  rw [hcode] at hstaged
  obtain ⟨hnext, hrest⟩ := hstaged (call.exec input c.state).1
  have horderly := call.exec_orderly input hfits
  obtain ⟨new, hnew, hact⟩ : ∃ new : Thread SessionCall SessionTask,
      new.code = next (call.exec input c.state).1 ∧
        c.act sessionSystem (.step i input) =
          ⟨(call.exec input c.state).2, c.threads.set i new⟩ :=
    ⟨_, rfl, Pool.act_step_call sessionSystem hi hcode input⟩
  rw [hact]
  have hreplacing {nodeId : String} (hstage : replacing new = some nodeId) :
      call.replaces input = some nodeId := by
    rw [replacing, hnew, hnext] at hstage
    exact call.replaces_of_leadsTo input hstage
  refine ⟨fun u hu => ?_, fun socket nodeId hserves => ?_, fun u hu stage hstage => ?_,
    fun j k u v hj hk nodeId hu hv => ?_⟩
  · obtain ⟨j, hj⟩ := List.mem_iff_getElem?.mp hu
    rcases Pool.getElem?_set_cases hi hj with ⟨-, rfl⟩ | ⟨-, hold⟩
    · rw [hnew]
      exact hrest
    · exact h.code u (List.mem_of_getElem? hold)
  · rcases call.exec_serves input hfits hserves with hold | hregistered
    · exact horderly.registered_open (h.serves socket nodeId hold) hserves.1
    · exact horderly.registered_open hregistered hserves.1
  · obtain ⟨j, hj⟩ := List.mem_iff_getElem?.mp hu
    rcases Pool.getElem?_set_cases hi hj with ⟨-, rfl⟩ | ⟨hne, hold⟩
    · rw [hnew, hnext] at hstage
      exact call.exec_stage input hfits hstage
    · refine horderly.fits (h.fits u (List.mem_of_getElem? hold) stage hstage)
        fun nodeId hnode hnone => ?_
      have hu : replacing u = some nodeId := by
        rw [replacing, hstage]
        exact hnode
      exact call.exec_registered_none input hnone (h.alone hi hold hne hcode hundisturbed hu)
  · rcases Pool.getElem?_set_cases hi hj with ⟨hij, hunew⟩ | ⟨hij, hjold⟩
    · rcases Pool.getElem?_set_cases hi hk with ⟨hik, -⟩ | ⟨hik, hkold⟩
      · exact hij.symm.trans hik
      · rw [hunew] at hu
        exact absurd (hreplacing hu) (h.alone hi hkold hik hcode hundisturbed hv)
    · rcases Pool.getElem?_set_cases hi hk with ⟨-, hvnew⟩ | ⟨-, hkold⟩
      · rw [hvnew] at hv
        exact absurd (hreplacing hv) (h.alone hi hjold hij hcode hundisturbed hu)
      · exact h.once j k u v hjold hkold nodeId hu hv

theorem act (h : Orderly c) {a : Action SessionInput SessionTask} (ha : Undisturbed c a) :
    Orderly (c.act sessionSystem a) := by
  cases a with
  | step i input =>
    rcases Pool.step_cases sessionSystem c i input with hsame | ⟨t, β, call, next, hi, hcode, -⟩ |
      ⟨t, child, next, hi, hcode, -⟩
    · have hact : c.act sessionSystem (.step i input) = c := hsame
      rw [hact]
      exact h
    · exact h.call hi hcode ha
    · have hstaged := h.code t (List.mem_of_getElem? hi)
      rw [hcode] at hstaged
      exact hstaged.elim
  | arrive | kill | crash =>
    refine h.of_still rfl fun j t hj => ?_
    rcases Pool.act_getElem? sessionSystem (fun _ _ h => by cases h) hj with
      hold | ⟨task, rfl⟩ | ⟨old, -, rfl⟩
    · exact .inl hold
    · exact .inr task.program_staged
    · exact .inr ⟨rfl, trivial⟩

end Orderly

/-- The only open sockets that serve frames of a Node are its registered session. -/
def Exclusive (w : Sessions) : Prop :=
  ∀ socket nodeId, w.Serves socket nodeId → w.registered nodeId = some socket ∧
    ∀ other, w.Serves other nodeId → other = socket

/-- When an action closes a session, every other registered session stays registered. -/
def KeepsOthers (c : Pool SessionCall SessionTask Sessions) (i : ℕ) (input : SessionInput) : Prop :=
  ∀ (t : Thread SessionCall SessionTask) (β : Type) (call : SessionCall β)
    (next : β → Program SessionCall Unit), c.threads[i]? = some t → t.code = .call call next →
    ∀ session ∈ call.closes input c.state, ∀ nodeId other,
      c.state.registered nodeId = some other → other ≠ session →
        (c.act sessionSystem (.step i input)).state.registered nodeId = some other

/-- While no authentication looks up the registered session of a Node that another one is
replacing, at most one open socket is authenticated as a Node, it is the registered one, and
closing a session removes no other registration. -/
theorem sessions_exclusive (script : List (Action SessionInput SessionTask))
    (hscript : idleChannel.Along sessionSystem Undisturbed script) :
    Exclusive (idleChannel.play sessionSystem script).state ∧
      ∀ i input, KeepsOthers (idleChannel.play sessionSystem script) i input := by
  have hstart : Orderly idleChannel :=
    { code := fun _ ht => absurd ht List.not_mem_nil
      serves := fun _ _ hserves => by cases hserves.2
      fits := fun _ ht => absurd ht List.not_mem_nil
      once := fun _ _ _ _ hi => by cases hi }
  have horderly : Orderly (idleChannel.play sessionSystem script) :=
    Pool.Along.induction sessionSystem Orderly hstart (fun _ _ h => h.act) hscript
  generalize idleChannel.play sessionSystem script = c at horderly ⊢
  refine ⟨fun socket nodeId hserves => ?_, fun i input t β call next hi hcode session hcloses
    nodeId other hother hne => ?_⟩
  · have hregistered := horderly.serves socket nodeId hserves
    refine ⟨hregistered, fun other hother => ?_⟩
    exact Option.some.inj ((horderly.serves other nodeId hother).symm.trans hregistered)
  · have hfits : ∀ stage ∈ call.stage, stage.Fits c.state := by
      intro stage hstage
      refine horderly.fits t (List.mem_of_getElem? hi) stage ?_
      rw [hcode]
      exact hstage
    rw [Pool.act_step_call sessionSystem hi hcode]
    by_contra hremoved
    have hcloses' := call.exec_removes input hfits hother hremoved
    exact hne (Option.some.inj (hcloses'.symm.trans hcloses))

/-- Two sockets authenticate while a third one is the registered session, and both have looked
it up before either has replaced it. -/
def bothReplace : List (Action SessionInput SessionTask) :=
  [.arrive (.connection ["n1"]), .step 0 {}, .step 0 {}, .step 0 {}, .step 0 {},
    .arrive (.connection ["n1"]), .arrive (.connection ["n1"]), .step 1 {}, .step 2 {},
    .step 1 {}, .step 2 {}, .step 1 {}, .step 1 {}, .step 1 {}, .step 1 {}]

/-- The second socket is registered and serves frames, until the third one closes the first
socket once more. This removes the registration of the second, which is not closed. -/
theorem bothReplace_removes_newer :
    let before := (idleChannel.play sessionSystem bothReplace).state
    let after := (idleChannel.play sessionSystem (bothReplace ++ [.step 2 {}])).state
    let later := (idleChannel.play sessionSystem
      (bothReplace ++ [.step 2 {}, .step 2 {}, .step 2 {}, .step 2 {}])).state
    before.registered "n1" = some 1 ∧ after.registered "n1" = none ∧
      after.Serves 1 "n1" ∧ later.Serves 1 "n1" ∧ later.Serves 2 "n1" := by
  decide +kernel

/-- One socket replaces another. -/
def oneReplaces : List (Action SessionInput SessionTask) :=
  [.arrive (.connection ["n1"]), .step 0 {}, .step 0 {}, .step 0 {}, .step 0 {},
    .arrive (.connection ["n1"])] ++ List.replicate 6 (.step 1 {})

/-- Then the second one is registered and the first one is closed. -/
theorem oneReplaces_exclusive :
    idleChannel.Along sessionSystem Undisturbed oneReplaces ∧
      Exclusive (idleChannel.play sessionSystem oneReplaces).state ∧
      (idleChannel.play sessionSystem oneReplaces).state.Serves 1 "n1" ∧
      ¬(idleChannel.play sessionSystem oneReplaces).state.Serves 0 "n1" := by
  have hscript : idleChannel.Along sessionSystem Undisturbed oneReplaces := by decide +kernel
  refine ⟨hscript, (sessions_exclusive oneReplaces hscript).1, ?_, ?_⟩ <;> decide +kernel

end Asterism.ControlPlane
