import Asterism.Process.Attempt

/-!
# Handshakes while the key of a Node changes

A handshake reads the row of the Node, verifies the signature under the key it finds there, and
registers the session some awaits later. A rotation or a revocation changes the row and then
closes the session that is registered. Each query and each stretch of code between two awaits is
one step. A handshake that has read the row and registers after the change has been answered
brings the superseded key back.
-/

namespace Asterism.Rekeying

open Process

/-- The identity in a row of `nodes`. -/
structure Identity where
  fingerprint : String
  generation : ℕ
  revoked : Bool
  deriving DecidableEq

/-- The rows of the Nodes and the sessions of the channel. A session is known by the generation
of the key under which its signature was verified. -/
structure State where
  nodes : String → Option Identity
  sessions : String → Option ℕ
  /-- A change of the key that has closed the session of the Node has superseded all generations
  below this one. -/
  retired : String → ℕ

/-- The hello of a socket, and the key that made the signature. -/
structure Hello where
  nodeId : String
  fingerprint : String
  signer : String

/-- The row admits the hello: the Node is not revoked, the fingerprint is the enrolled one and
the signature is right. -/
def Identity.admits (hello : Hello) (row : Identity) : Bool :=
  !row.revoked && row.fingerprint = hello.fingerprint && row.fingerprint = hello.signer

/-- What the Control Plane does between two waits of a handshake, a rotation or a revocation. -/
inductive Call : Type → Type 1
  | nodeById (hello : Hello) : Call (Option Identity)
  /-- Look for a registered session, and register this one if there is none. -/
  | existing (nodeId : String) (generation : ℕ) : Call Bool
  | closeSession (nodeId : String) : Call Unit
  | register (nodeId : String) (generation : ℕ) : Call Unit
  /-- A write to the audit log, or the transaction that records a session. -/
  | record : Call Bool
  | recordDisconnect : Call Unit
  | nodeExists (nodeId : String) : Call Bool
  /-- The transaction that replaces the key has committed, and the new generation. -/
  | rotateIdentity (nodeId fingerprint : String) : Call (Option ℕ)
  /-- The Node is revoked, and its key is superseded by the generation after it. -/
  | revoke (nodeId : String) : Call ℕ
  /-- Close the session of a Node whose key is superseded by this generation. -/
  | disconnect (nodeId : String) (generation : ℕ) : Call Unit

namespace State

def setSession (s : State) (nodeId : String) (session : Option ℕ) : State :=
  { s with sessions := Function.update s.sessions nodeId session }

def setNode (s : State) (nodeId : String) (row : Identity) : State :=
  { s with nodes := Function.update s.nodes nodeId (some row) }

theorem sessions_setSession (s : State) (nodeId : String) (session : Option ℕ) (other : String) :
    (s.setSession nodeId session).sessions other =
      if other = nodeId then session else s.sessions other := Function.update_apply _ _ _ _

theorem nodes_setNode (s : State) (nodeId : String) (row : Identity) (other : String) :
    (s.setNode nodeId row).nodes other = if other = nodeId then some row else s.nodes other :=
  Function.update_apply _ _ _ _

end State

/-- What a call answers and does. The input says whether the database complies. -/
def Call.exec {β : Type} (call : Call β) (complies : Bool) (s : State) : β × State :=
  match call with
  | nodeById hello => (s.nodes hello.nodeId, s)
  | existing nodeId generation =>
    match s.sessions nodeId with
    | some _ => (true, s)
    | none => (false, s.setSession nodeId (some generation))
  | closeSession nodeId => ((), s.setSession nodeId none)
  | register nodeId generation => ((), s.setSession nodeId (some generation))
  | record => (complies, s)
  | recordDisconnect => ((), s)
  | nodeExists nodeId => ((s.nodes nodeId).isSome, s)
  | rotateIdentity nodeId fingerprint =>
    match s.nodes nodeId with
    | none => (none, s)
    | some row =>
      if !complies || row.revoked || row.fingerprint = fingerprint then (none, s)
      else (some (row.generation + 1), s.setNode nodeId ⟨fingerprint, row.generation + 1, false⟩)
  | revoke nodeId =>
    match s.nodes nodeId with
    | none => (0, s)
    | some row => (row.generation + 1, s.setNode nodeId { row with revoked := true })
  | disconnect nodeId generation =>
    ((), { s.setSession nodeId none with
      retired := Function.update s.retired nodeId (max (s.retired nodeId) generation) })

/-- The end of `completeAuthentication`: register the session of a Node under the key of a
generation. -/
def activate (nodeId : String) (generation : ℕ) : Program Call Unit := do
  if ← .perform (.existing nodeId generation) then
    if ← .perform .record then
      let _ ← .perform (.closeSession nodeId)
      let _ ← .perform .recordDisconnect
      let _ ← .perform (.register nodeId generation)
      let _ ← .perform .record
    else return
  else
    let _ ← .perform .record

/-- `completeAuthentication`: verify the signature and activate the session. -/
def completeAuthentication (hello : Hello) : Program Call Unit := do
  match (← .perform (.nodeById hello)).filter (Identity.admits hello) with
  | none => return
  | some row => activate hello.nodeId row.generation

/-- `rotateIdentity`: the request that replaces the key of a Node. -/
def rotateNode (nodeId fingerprint : String) : Program Call Unit := do
  match ← .perform (.rotateIdentity nodeId fingerprint) with
  | none => return
  | some generation =>
    let _ ← .perform (.disconnect nodeId generation)
    let _ ← .perform .recordDisconnect

/-- The route `POST /api/v1/nodes/:nodeId/revoke`. -/
def revokeNode (nodeId : String) : Program Call Unit := do
  if ← .perform (.nodeExists nodeId) then
    let generation ← .perform (.revoke nodeId)
    if ← .perform .record then
      let _ ← .perform (.disconnect nodeId generation)
      let _ ← .perform .recordDisconnect
    else return
  else return

/-- A handshake, a rotation or a revocation, and the end of a socket. -/
inductive Task
  | handshake (hello : Hello)
  | rotate (nodeId fingerprint : String)
  | revoke (nodeId : String)
  /-- The socket of a Node is closed, or silent for too long. -/
  | leave (nodeId : String)

def Task.program : Task → Program Call Unit
  | handshake hello => completeAuthentication hello
  | rotate nodeId fingerprint => rotateNode nodeId fingerprint
  | revoke nodeId => revokeNode nodeId
  | leave nodeId => .perform (.closeSession nodeId)

def system : System Call Bool Task State := ⟨⟨Call.exec⟩, Task.program⟩

def idle (nodes : String → Option Identity) : Pool Call Task State :=
  ⟨⟨nodes, fun _ => none, fun _ => 0⟩, []⟩

/-- No session is registered whose key was superseded or revoked by a change that has closed the
session of the Node. -/
def Current (s : State) : Prop :=
  ∀ nodeId, ∀ generation ∈ s.sessions nodeId, s.retired nodeId ≤ generation

/-- What a request has found out and relies on. -/
inductive Grip
  /-- The key of the Node has this generation, and is in force. -/
  | key (nodeId : String) (generation : ℕ)
  /-- All generations of the Node before this one are superseded. -/
  | superseded (nodeId : String) (generation : ℕ)

def Call.learns {β : Type} (held : Option Grip) : Call β → β → Option Grip
  | nodeById hello, row =>
    (row.filter (Identity.admits hello)).map fun row => .key hello.nodeId row.generation
  | existing _ _, registered => if registered then held else none
  | record, stored => if stored then held else none
  | closeSession _, _ | recordDisconnect, _ => held
  | rotateIdentity nodeId _, generation => generation.map (.superseded nodeId)
  | revoke nodeId, generation => some (.superseded nodeId generation)
  | register _ _, _ | nodeExists _, _ | disconnect _ _, _ => none

def Call.relies {β : Type} : Call β → Option Grip
  | existing nodeId generation | register nodeId generation => some (.key nodeId generation)
  | disconnect nodeId generation => some (.superseded nodeId generation)
  | _ => none

/-- Sessions are registered under a key that was read, and closed after a change. -/
def knowledge : Custody Call Grip where
  after held event := event.request.learns held event.answer
  needs request held := ∀ grip ∈ request.relies, held = some grip

def Grip.Fits (s : State) : Grip → Prop
  | key nodeId generation =>
    ∃ row, s.nodes nodeId = some row ∧ row.generation = generation ∧ row.revoked = false
  | superseded nodeId generation =>
    ∀ row ∈ s.nodes nodeId, generation ≤ row.generation ∨ row.revoked = true

/-- The Node whose key a call changes. -/
def Call.changes {β : Type} : Call β → Option String
  | rotateIdentity nodeId _ | revoke nodeId => some nodeId
  | _ => none

/-- The Node whose key a request has read. -/
def Grip.reads : Grip → Option String
  | key nodeId _ => some nodeId
  | superseded _ _ => none

/-- The sessions are current, and so are the rows. -/
structure Sound (s : State) : Prop where
  sessions : Current s
  nodes : ∀ nodeId, ∀ row ∈ s.nodes nodeId,
    s.retired nodeId ≤ row.generation ∨ row.revoked = true

/-- Nobody changes the key of a Node that another request has read. -/
def kept : Pool.Keeping system knowledge where
  fits grip s := grip.Fits s
  shared _ := True
  invariant := Sound
  admits _ _ _ := True
  spares request _ _ grip := ∀ nodeId ∈ request.changes, grip.reads ≠ some nodeId

instance {β : Type} (request : Call β) (complies : Bool) (s : State) :
    Decidable (kept.admits request complies s) := .isTrue trivial

instance : DecidablePred kept.arrives := fun _ => .isTrue trivial

instance {β : Type} (request : Call β) (complies : Bool) (s : State) (grip : Grip) :
    Decidable (kept.spares request complies s grip) :=
  inferInstanceAs (Decidable (∀ nodeId ∈ request.changes, grip.reads ≠ some nodeId))

/-- No rotation or revocation is committed while a handshake has read the row of the Node and has
not registered its session. -/
abbrev Undisturbed : Pool Call Task State → Action Bool Task → Prop := Pool.Orderly kept

theorem warranted_record :
    (Program.perform Call.record >>= fun _ => pure ()).Warranted knowledge
      (fun _ held => held = none) none :=
  ⟨needs_nothing, fun _ => ite_self none⟩

theorem warranted_activate (nodeId : String) (generation : ℕ) :
    (activate nodeId generation).Warranted knowledge (fun _ held => held = none)
      (some (.key nodeId generation)) := by
  have hknown : ∀ grip ∈ some (Grip.key nodeId generation),
      some (Grip.key nodeId generation) = some grip := fun grip hgrip => hgrip
  refine ⟨hknown, fun registered => ?_⟩
  cases registered with
  | false => exact warranted_record
  | true =>
    refine ⟨needs_nothing, fun stored => ?_⟩
    cases stored with
    | false => exact rfl
    | true =>
      refine ⟨needs_nothing, fun _ => ⟨needs_nothing, fun _ => ?_⟩⟩
      exact ⟨hknown, fun _ => warranted_record⟩

theorem warranted_disconnect (nodeId : String) (generation : ℕ) :
    (Program.perform (Call.disconnect nodeId generation) >>= fun _ =>
      Program.perform Call.recordDisconnect >>= fun _ => pure ()).Warranted knowledge
      (fun _ held => held = none) (some (.superseded nodeId generation)) :=
  ⟨fun _ hgrip => hgrip, fun _ => ⟨needs_nothing, fun _ => rfl⟩⟩

theorem program_knowledge (task : Task) : (Family.emptyHanded knowledge).Holds task.program := by
  cases task with
  | handshake hello =>
    refine ⟨needs_nothing, fun row => ?_⟩
    change Program.Warranted knowledge (match row.filter (Identity.admits hello) with
      | none => pure ()
      | some row => activate hello.nodeId row.generation) _
      ((row.filter (Identity.admits hello)).map fun row => Grip.key hello.nodeId row.generation)
    cases row.filter (Identity.admits hello) with
    | none => exact rfl
    | some row => exact warranted_activate hello.nodeId row.generation
  | rotate nodeId fingerprint =>
    refine ⟨needs_nothing, fun generation => ?_⟩
    cases generation with
    | none => exact rfl
    | some generation => exact warranted_disconnect nodeId generation
  | revoke nodeId =>
    refine ⟨needs_nothing, fun found => ?_⟩
    cases found with
    | false => exact rfl
    | true =>
      refine ⟨needs_nothing, fun generation => ⟨needs_nothing, fun stored => ?_⟩⟩
      cases stored with
      | false => exact rfl
      | true => exact warranted_disconnect nodeId generation
  | leave nodeId => exact ⟨needs_nothing, fun _ => rfl⟩

section Steps

variable {s : State} {nodeId : String}

theorem Sound.setSession_none (h : Sound s) (nodeId : String) :
    Sound (s.setSession nodeId none) := by
  refine ⟨fun other generation hsession => ?_, h.nodes⟩
  rw [State.sessions_setSession] at hsession
  split at hsession
  · cases hsession
  · exact h.sessions other generation hsession

theorem Sound.setSession_some (h : Sound s) {generation : ℕ}
    (hkey : (Grip.key nodeId generation).Fits s) :
    Sound (s.setSession nodeId (some generation)) := by
  refine ⟨fun other session hsession => ?_, h.nodes⟩
  rw [State.sessions_setSession] at hsession
  split at hsession
  · rename_i hother
    obtain rfl := Option.some.inj hsession
    obtain ⟨row, hrow, rfl, hactive⟩ := hkey
    have hle := h.nodes nodeId row hrow
    rw [hactive] at hle
    rw [hother]
    exact hle.resolve_right Bool.false_ne_true
  · exact h.sessions other session hsession

/-- A row of a later generation, or a revoked one, supersedes no more than before. -/
theorem Sound.setNode (h : Sound s) {row row' : Identity} (hrow : s.nodes nodeId = some row)
    (hrevoked : row.revoked = true → row'.revoked = true)
    (hlater : row.generation ≤ row'.generation) : Sound (s.setNode nodeId row') := by
  refine ⟨h.sessions, fun other found hfound => ?_⟩
  rw [State.nodes_setNode] at hfound
  split at hfound
  · rename_i hother
    obtain rfl := Option.some.inj hfound
    rw [hother]
    exact (h.nodes nodeId row hrow).imp (fun hle => hle.trans hlater) hrevoked
  · exact h.nodes other found hfound

/-- What is superseded stays superseded, and a key that nobody changes stays in force. -/
theorem Grip.Fits.setNode {grip : Grip} (h : grip.Fits s) {row row' : Identity}
    (hrow : s.nodes nodeId = some row) (hrevoked : row.revoked = true → row'.revoked = true)
    (hlater : row.generation ≤ row'.generation) (hspared : grip.reads ≠ some nodeId) :
    grip.Fits (s.setNode nodeId row') := by
  cases grip with
  | key other generation =>
    have hother : other ≠ nodeId := fun heq => hspared (congrArg some heq)
    obtain ⟨found, hfound, hrest⟩ := h
    refine ⟨found, ?_, hrest⟩
    rw [State.nodes_setNode, if_neg hother, hfound]
  | superseded other generation =>
    intro found hfound
    rw [State.nodes_setNode] at hfound
    split at hfound
    · rename_i hother
      obtain rfl := Option.some.inj hfound
      exact (h row (hother ▸ hrow)).imp (fun hle => hle.trans hlater) hrevoked
    · exact h found hfound

end Steps

theorem Call.exec_cases {β : Type} (call : Call β) (complies : Bool) (s : State) :
    ((call.exec complies s).2.nodes = s.nodes ∧
        (call.changes ≠ none → (call.exec complies s).2 = s)) ∨
      ∃ nodeId row row', call.changes = some nodeId ∧ s.nodes nodeId = some row ∧
        (call.exec complies s).2 = s.setNode nodeId row' ∧
        (row.revoked = true → row'.revoked = true) ∧ row.generation ≤ row'.generation := by
  cases call with
  | existing nodeId generation =>
    simp only [exec]
    split <;> exact .inl ⟨rfl, fun h => absurd rfl h⟩
  | rotateIdentity nodeId fingerprint =>
    simp only [exec]
    split
    · exact .inl ⟨rfl, fun _ => rfl⟩
    · rename_i row hrow
      split
      · exact .inl ⟨rfl, fun _ => rfl⟩
      · rename_i hgoes
        refine .inr ⟨nodeId, row, _, rfl, hrow, rfl, fun hrevoked => ?_, Nat.le_succ _⟩
        exact absurd (by rw [hrevoked, Bool.or_true, Bool.true_or]) hgoes
  | revoke nodeId =>
    simp only [exec]
    split
    · exact .inl ⟨rfl, fun _ => rfl⟩
    · rename_i row hrow
      exact .inr ⟨nodeId, row, _, rfl, hrow, rfl, fun _ => rfl, Nat.le_refl _⟩
  | _ => exact .inl ⟨rfl, fun h => absurd rfl h⟩

/-- What a request knows stays true, unless somebody changes the key that it has read. -/
theorem Grip.Fits.exec {β : Type} {grip : Grip} {s : State} (h : grip.Fits s) (call : Call β)
    (complies : Bool) (hspared : ∀ nodeId ∈ call.changes, grip.reads ≠ some nodeId) :
    grip.Fits (call.exec complies s).2 := by
  rcases call.exec_cases complies s with ⟨hsame, -⟩ |
    ⟨nodeId, row, row', hchanges, hrow, hset, hrest⟩
  · cases grip with
    | key nodeId generation =>
      obtain ⟨row, hrow, hrest⟩ := h
      exact ⟨row, hsame ▸ hrow, hrest⟩
    | superseded nodeId generation => exact fun row hrow => h row (hsame ▸ hrow)
  · rw [hset]
    exact h.setNode hrow hrest.1 hrest.2 (hspared nodeId hchanges)

theorem Call.learns_fits {β : Type} (call : Call β) (complies : Bool) {s : State}
    {held : Option Grip} (hfits : ∀ grip ∈ held, grip.Fits s) {grip : Grip}
    (h : grip ∈ call.learns held (call.exec complies s).1) :
    grip.Fits (call.exec complies s).2 := by
  have hkept (hgrip : grip ∈ held) (hchanges : call.changes = none) :
      grip.Fits (call.exec complies s).2 := by
    refine (hfits grip hgrip).exec call complies fun nodeId hnodeId => ?_
    rw [hchanges] at hnodeId
    cases hnodeId
  cases call with
  | nodeById hello =>
    obtain ⟨row, hrow, rfl⟩ := Option.map_eq_some_iff.mp h
    obtain ⟨hfound, hadmits⟩ := Option.filter_eq_some_iff.mp hrow
    simp only [Identity.admits, Bool.and_eq_true, Bool.not_eq_true'] at hadmits
    exact ⟨row, hfound, rfl, hadmits.1.1⟩
  | existing nodeId generation | record =>
    simp only [learns] at h
    split at h
    · exact hkept h rfl
    · cases h
  | closeSession nodeId | recordDisconnect => exact hkept h rfl
  | rotateIdentity nodeId fingerprint =>
    obtain ⟨generation, hgeneration, rfl⟩ := Option.map_eq_some_iff.mp h
    simp only [exec] at hgeneration ⊢
    split at hgeneration
    · cases hgeneration
    · rename_i row hrow
      split at hgeneration
      · cases hgeneration
      · rename_i hgoes
        obtain rfl := Option.some.inj hgeneration
        intro found hfound
        simp only [hrow, if_neg hgoes, State.nodes_setNode, if_pos] at hfound
        obtain rfl := Option.some.inj hfound
        exact .inl (Nat.le_refl _)
  | revoke nodeId =>
    obtain rfl := Option.some.inj h
    intro found hfound
    simp only [exec] at hfound
    split at hfound
    · rename_i hnone
      rw [hnone] at hfound
      cases hfound
    · rw [State.nodes_setNode, if_pos rfl] at hfound
      obtain rfl := Option.some.inj hfound
      exact .inr rfl
  | register | nodeExists | disconnect => cases h

theorem Sound.exec {β : Type} {s : State} (h : Sound s) (call : Call β) (complies : Bool)
    (hrelies : ∀ grip ∈ call.relies, grip.Fits s) : Sound (call.exec complies s).2 := by
  have hchange (hchanges : call.changes ≠ none) : Sound (call.exec complies s).2 := by
    rcases call.exec_cases complies s with ⟨-, hsame⟩ | ⟨nodeId, row, row', -, hrow, hset, hrest⟩
    · rw [hsame hchanges]
      exact h
    · rw [hset]
      exact h.setNode hrow hrest.1 hrest.2
  cases call with
  | nodeById | record | recordDisconnect | nodeExists => exact h
  | existing nodeId generation =>
    simp only [Call.exec]
    split
    · exact h
    · exact h.setSession_some (hrelies _ rfl)
  | closeSession nodeId => exact h.setSession_none nodeId
  | register nodeId generation => exact h.setSession_some (hrelies _ rfl)
  | rotateIdentity | revoke => exact hchange (Option.some_ne_none _)
  | disconnect nodeId generation =>
    have hclosed := h.setSession_none nodeId
    have hsuperseded : (Grip.superseded nodeId generation).Fits s := hrelies _ rfl
    have hretired (other : String) : ((Call.disconnect nodeId generation).exec complies s).2.retired
        other = if other = nodeId then max (s.retired nodeId) generation else s.retired other :=
      Function.update_apply _ _ _ _
    refine ⟨fun other session hsession => ?_, fun other row hrow => ?_⟩
    · have hother : other ≠ nodeId := by
        rintro rfl
        have hnone := (s.sessions_setSession other none other).symm.trans hsession
        rw [if_pos rfl] at hnone
        cases hnone
      rw [hretired, if_neg hother]
      exact hclosed.sessions other session hsession
    · rw [hretired]
      split
      · rename_i hother
        subst hother
        have hbefore := h.nodes other row hrow
        have hafter := hsuperseded row hrow
        rcases hbefore with hbefore | hrevoked
        · exact hafter.imp (max_le hbefore) id
        · exact .inr hrevoked
      · exact h.nodes other row hrow

theorem kept_upholds : Pool.Upholds kept where
  start p _ := program_knowledge p
  invariant := fun {_ request input _ _} hdue =>
    Sound.exec hdue.invariant request input fun grip hgrip =>
      hdue.fits grip (hdue.needs grip hgrip)
  holds := fun {_ request input _ _} hdue _ hk =>
    ⟨request.learns_fits input hdue.fits hk, .inr (.inl trivial)⟩
  spares := fun {_ request input _ _} _ _ hfits _ hspares => hfits.exec request input hspares

/-- In every run in which no key changes while a handshake of its Node is between its read and
its registration, no session is registered whose key was superseded or revoked by a change that
has closed the session of the Node. -/
theorem superseded_not_registered (nodes : String → Option Identity)
    (script : List (Action Bool Task)) (hscript : (idle nodes).Along system Undisturbed script) :
    Current ((idle nodes).play system script).state := by
  have hstart : (idle nodes).Kept kept := by
    refine Pool.kept_nil ⟨fun nodeId generation hsession => ?_, fun nodeId row _ => ?_⟩
    · cases hsession
    · exact .inl (Nat.zero_le _)
  exact (hstart.play kept_upholds hscript).invariant.sessions

def enrolled : String → Option Identity :=
  Function.update (fun _ => none) "n1" (some ⟨"k1", 1, false⟩)

def firstHello : Hello := ⟨"n1", "k1", "k1"⟩

/-- A Node connects, gets a new key and connects again. -/
theorem superseded_not_registered_in_turn :
    Current ((idle enrolled).play system
      ([.arrive (.handshake firstHello)] ++ List.replicate 3 (.step 0 true) ++
        [.arrive (.rotate "n1" "k2")] ++ List.replicate 3 (.step 1 true) ++
        [.arrive (.handshake ⟨"n1", "k2", "k2"⟩)] ++ List.replicate 3 (.step 2 true))).state :=
  superseded_not_registered enrolled _ (by decide +kernel)

/-- A handshake reads the row, the key is replaced and the request is answered, and then the
handshake registers its session under the old key. -/
theorem superseded_registered :
    let c := (idle enrolled).play system
      ([.arrive (.handshake firstHello), .step 0 true, .arrive (.rotate "n1" "k2")] ++
        List.replicate 3 (.step 1 true) ++ [.step 0 true])
    (c.nextCall 1).isNone = true ∧ c.state.nodes "n1" = some ⟨"k2", 2, false⟩ ∧
      c.state.sessions "n1" = some 1 ∧ ¬Current c.state := by
  refine ⟨by decide +kernel, by decide +kernel, by decide +kernel, fun hcurrent => ?_⟩
  exact absurd (hcurrent "n1" 1 (by decide +kernel)) (by decide +kernel)

end Asterism.Rekeying
