import Asterism.Process.Attempt
import Asterism.Relational.Table

/-!
# Changing and disabling members

The Control Plane lets a member who may manage the others change a role or disable a
membership. Both operations look the target up, count the active owners if the target is one of
them, and update the membership afterwards, each with a statement of its own and without a
transaction around them.
-/

namespace Asterism.Members

open Process

/-- The roles of `tenancy.ts`. -/
inductive Role
  | owner
  | admin
  | developer
  | viewer
  deriving DecidableEq, Repr

/-- `Permission`: the permissions that the membership changes ask for. -/
inductive Permission
  | memberManage
  | memberGrantOwner
  deriving DecidableEq, Repr

/-- The rows of `ROLE_PERMISSIONS` for these permissions. -/
def roleAllows : Role → Permission → Bool
  | .owner, .memberManage => true
  | .owner, .memberGrantOwner => true
  | .admin, .memberManage => true
  | .admin, .memberGrantOwner => false
  | .developer, _ => false
  | .viewer, _ => false

/-- `OrganizationRecord`: the organization of a session. -/
structure Organization where
  organizationId : String
  enabled : Bool
  deriving DecidableEq, Repr

/-- `SessionContext`: who makes a request, as the session says. -/
structure SessionContext where
  userEnabled : Bool
  organization : Option Organization
  membership : Option Role
  deriving DecidableEq, Repr

/-- `authorize`: user and organization are enabled, and the role has the permission. -/
def authorize (context : SessionContext) (permission : Permission) : Bool :=
  match context.organization, context.membership with
  | some organization, some role =>
    context.userEnabled && organization.enabled && roleAllows role permission
  | _, _ => false

/-- A row of `memberships`. -/
structure Membership where
  organizationId : String
  userId : String
  role : Role
  disabledAt : Option ℕ
  deriving DecidableEq, Repr

/-- The rows that `activeOwnerCount` counts. -/
def Membership.isActiveOwner (m : Membership) : Bool := m.role = .owner && m.disabledAt.isNone

/-- A row of `browser_sessions`. -/
structure BrowserSession where
  sessionId : String
  userId : String
  revokedAt : Option ℕ
  revocationReason : Option String
  deriving DecidableEq, Repr

/-- The tables that a membership change touches. -/
structure Directory where
  members : List Membership
  sessions : List BrowserSession
  unique : Table.Unique (fun m : Membership => some (m.organizationId, m.userId)) members

namespace Directory

def of (d : Directory) (organizationId : String) : List Membership :=
  d.members.filter fun m => m.organizationId = organizationId

/-- `activeOwnerCount`: how many active owners an organization has. -/
def activeOwnerCount (d : Directory) (organizationId : String) : ℕ :=
  (d.of organizationId).countP Membership.isActiveOwner

def updateMember (d : Directory) (organizationId userId : String) (f : Membership → Membership)
    (hkeep : ∀ m, (f m).organizationId = m.organizationId ∧ (f m).userId = m.userId) :
    Directory where
  members := Table.updateWhere
    (fun m => m.organizationId = organizationId && m.userId = userId) f d.members
  sessions := d.sessions
  unique := d.unique.of_updateWhere fun m => by rw [(hkeep m).1, (hkeep m).2]

end Directory

/-- The role and the time of disabling that the look at the target returns. -/
structure Standing where
  role : Role
  disabledAt : Option ℕ
  deriving DecidableEq, Repr

/-- The statements of a membership change. -/
inductive MemberCall : Type → Type 1
  | selectTarget (organizationId userId : String) : MemberCall (Option Standing)
  | activeOwnerCount (organizationId : String) : MemberCall ℕ
  | updateRole (organizationId userId : String) (role : Role) : MemberCall Unit
  | updateDisabled (organizationId userId : String) : MemberCall Unit
  | revokeSessions (userId reason : String) : MemberCall Unit

/-- `SET role = $3`. -/
def Membership.withRole (role : Role) (m : Membership) : Membership := { m with role := role }

theorem Membership.withRole_keeps (role : Role) (m : Membership) :
    (m.withRole role).organizationId = m.organizationId ∧ (m.withRole role).userId = m.userId :=
  ⟨rfl, rfl⟩

/-- `SET disabled_at = COALESCE(disabled_at, now())`. -/
def Membership.disable (now : ℕ) (m : Membership) : Membership :=
  { m with disabledAt := m.disabledAt <|> some now }

theorem Membership.disable_keeps (now : ℕ) (m : Membership) :
    (m.disable now).organizationId = m.organizationId ∧ (m.disable now).userId = m.userId :=
  ⟨rfl, rfl⟩

/-- `SET revoked_at = COALESCE(revoked_at, now()), revocation_reason = …`. -/
def BrowserSession.revoke (now : ℕ) (reason : String) (s : BrowserSession) : BrowserSession :=
  { s with revokedAt := s.revokedAt <|> some now, revocationReason := some reason }

/-- One statement, at the time the database reads off its clock. -/
def MemberCall.exec {β : Type} : MemberCall β → ℕ → Directory → β × Directory
  | .selectTarget organizationId userId, _, d =>
    (((d.of organizationId).find? fun m => m.userId = userId).map
      fun m => ⟨m.role, m.disabledAt⟩, d)
  | .activeOwnerCount organizationId, _, d => (d.activeOwnerCount organizationId, d)
  | .updateRole organizationId userId role, _, d =>
    ((), d.updateMember organizationId userId (·.withRole role) (Membership.withRole_keeps role))
  | .updateDisabled organizationId userId, now, d =>
    ((), d.updateMember organizationId userId (·.disable now) (Membership.disable_keeps now))
  | .revokeSessions userId reason, now, d =>
    ((), { d with
      sessions := Table.updateWhere (fun s => s.userId = userId && s.revokedAt.isNone)
        (·.revoke now reason) d.sessions })

def machine : Machine MemberCall ℕ Directory := ⟨MemberCall.exec⟩

/-- `MembershipChangeResult`. -/
inductive MembershipChangeResult
  | ok
  | refused (status : ℕ) (code : String)
  deriving DecidableEq, Repr

/-- `changeMemberRole`, after its checks: the update of the role and the revocation of the sessions
it affects. -/
def applyRole (organizationId targetUserId : String) (role : Role) :
    Program MemberCall MembershipChangeResult := do
  Program.perform (.updateRole organizationId targetUserId role)
  Program.perform (.revokeSessions targetUserId "membership_role_changed")
  return .ok

/-- `changeMemberRole`: count the owners where one is demoted, then write the role. -/
def changeMemberRole (actor : SessionContext) (targetUserId : String) (role : Role) :
    Program MemberCall MembershipChangeResult :=
  match authorize actor .memberManage, actor.organization with
  | true, some organization =>
    if role = .owner && !authorize actor .memberGrantOwner then
      return .refused 403 "owner_grant_forbidden"
    else do
      let target ← Program.perform (.selectTarget organization.organizationId targetUserId)
      match target with
      | none => return .refused 404 "member_not_found"
      | some membership =>
        if membership.role = .owner && role ≠ .owner then do
          let count ← Program.perform (.activeOwnerCount organization.organizationId)
          if count ≤ 1 then return .refused 409 "last_owner"
          else applyRole organization.organizationId targetUserId role
        else applyRole organization.organizationId targetUserId role
  | _, _ => return .refused 403 "forbidden"

/-- `disableMember`, after its checks: the update and the revocation of the sessions it affects. -/
def applyDisabled (organizationId targetUserId : String) :
    Program MemberCall MembershipChangeResult := do
  Program.perform (.updateDisabled organizationId targetUserId)
  Program.perform (.revokeSessions targetUserId "membership_disabled")
  return .ok

/-- `disableMember`: count the owners where one is disabled, then disable the membership. -/
def disableMember (actor : SessionContext) (targetUserId : String) :
    Program MemberCall MembershipChangeResult :=
  match authorize actor .memberManage, actor.organization with
  | true, some organization => do
    let target ← Program.perform (.selectTarget organization.organizationId targetUserId)
    match target with
    | none => return .refused 404 "member_not_found"
    | some membership =>
      if membership.role = .owner && membership.disabledAt.isNone then do
        let count ← Program.perform (.activeOwnerCount organization.organizationId)
        if count ≤ 1 then return .refused 409 "last_owner"
        else applyDisabled organization.organizationId targetUserId
      else applyDisabled organization.organizationId targetUserId
  | _, _ => return .refused 403 "forbidden"

/-- A call of `changeMemberRole` or `disableMember`. -/
inductive MemberRequest
  | changeMemberRole (actor : SessionContext) (targetUserId : String) (role : Role)
  | disableMember (actor : SessionContext) (targetUserId : String)
  deriving DecidableEq, Repr

def MemberRequest.actor : MemberRequest → SessionContext
  | .changeMemberRole actor _ _ => actor
  | .disableMember actor _ => actor

def MemberRequest.serve : MemberRequest → Program MemberCall MembershipChangeResult
  | .changeMemberRole actor targetUserId role => Members.changeMemberRole actor targetUserId role
  | .disableMember actor targetUserId => Members.disableMember actor targetUserId

/-- Any number of calls over one database. -/
def system : System MemberCall ℕ MemberRequest Directory where
  machine := machine
  start request := do
    let _ ← request.serve
    return ()

/-! ## One organization -/

/-- The look at the target, the statements that change the memberships of one organization, and
its owners. -/
def ownersOf (organizationId : String) : Watch MemberCall Directory (List Membership) where
  looks
    | .selectTarget o _ => o = organizationId
    | _ => false
  acts
    | .updateRole o _ _ => o = organizationId
    | .updateDisabled o _ => o = organizationId
    | _ => false
  view d := d.of organizationId
  invariant d := 1 ≤ d.activeOwnerCount organizationId

namespace Directory

variable {d : Directory} {organizationId userId : String} {f : Membership → Membership}
  (hkeep : ∀ m, (f m).organizationId = m.organizationId ∧ (f m).userId = m.userId)

theorem unique_of (d : Directory) (organizationId : String) :
    Table.Unique (fun m : Membership => some m.userId) (d.of organizationId) := by
  rw [Table.unique_iff_pairwise]
  have hpairs := (Table.unique_iff_pairwise.mp d.unique).filter
    fun m => m.organizationId = organizationId
  refine hpairs.imp_of_mem fun {a b} ha hb hab k hka hkb => ?_
  have horg : a.organizationId = b.organizationId :=
    (of_decide_eq_true (List.mem_filter.mp ha).2).trans
      (of_decide_eq_true (List.mem_filter.mp hb).2).symm
  refine hab _ rfl ?_
  rw [horg, Option.some.inj (hka.trans hkb.symm)]

theorem of_updateMember_ne {other : String} (hne : organizationId ≠ other) :
    (d.updateMember organizationId userId f hkeep).of other = d.of other := by
  unfold of updateMember
  rw [Table.filter_updateWhere fun m => by rw [(hkeep m).1]]
  refine Table.updateWhere_eq_self fun m hm hmatch => absurd ?_ hne
  have hmine := of_decide_eq_true (Bool.and_eq_true_iff.mp hmatch).1
  exact hmine.symm.trans (of_decide_eq_true (List.mem_filter.mp hm).2)

theorem mem_of_updateMember {m : Membership} (hm : m ∈ d.of organizationId) :
    (if m.userId = userId then f m else m) ∈
      (d.updateMember organizationId userId f hkeep).of organizationId := by
  obtain ⟨hmem, horg⟩ := List.mem_filter.mp hm
  unfold of updateMember
  rw [Table.filter_updateWhere fun m => by rw [(hkeep m).1]]
  refine Table.mem_updateWhere.mpr ⟨m, hm, ?_⟩
  simp only [horg, Bool.true_and, decide_eq_true_eq]

theorem one_le_activeOwnerCount :
    1 ≤ d.activeOwnerCount organizationId ↔
      ∃ m ∈ d.of organizationId, m.isActiveOwner = true :=
  List.countP_pos_iff

/-- An update keeps an active owner if one of them is not concerned or stays one. -/
theorem one_le_activeOwnerCount_updateMember
    (h : ∃ m ∈ d.of organizationId, m.isActiveOwner = true ∧
      (m.userId ≠ userId ∨ (f m).isActiveOwner = true)) :
    1 ≤ (d.updateMember organizationId userId f hkeep).activeOwnerCount organizationId := by
  obtain ⟨m, hm, hactive, hstays⟩ := h
  refine one_le_activeOwnerCount.mpr ⟨_, mem_of_updateMember hkeep hm, ?_⟩
  split
  next huser => exact hstays.resolve_left fun hne => hne huser
  next => exact hactive

theorem exists_other_of_target {target : Membership}
    (howner : 1 ≤ d.activeOwnerCount organizationId)
    (htarget : (d.of organizationId).find? (fun m => m.userId = userId) = some target)
    (hnot : target.isActiveOwner = false) :
    ∃ m ∈ d.of organizationId, m.isActiveOwner = true ∧ m.userId ≠ userId := by
  obtain ⟨m, hm, hactive⟩ := one_le_activeOwnerCount.mp howner
  refine ⟨m, hm, hactive, fun huser => ?_⟩
  have hfind := (d.unique_of organizationId).find?_eq_some hm (congrArg some huser)
  simp only [Option.some.injEq] at hfind
  rw [htarget, Option.some.injEq] at hfind
  rw [hfind, hactive] at hnot
  cases hnot

theorem exists_other_of_two (htwo : ¬d.activeOwnerCount organizationId ≤ 1) (userId : String) :
    ∃ m ∈ d.of organizationId, m.isActiveOwner = true ∧ m.userId ≠ userId := by
  by_contra hnone
  push Not at hnone
  refine htwo ?_
  unfold activeOwnerCount
  rw [List.countP_eq_length_filter]
  have hpairs := (Table.unique_iff_pairwise.mp (d.unique_of organizationId)).filter
    Membership.isActiveOwner
  have huser : ∀ m ∈ (d.of organizationId).filter Membership.isActiveOwner,
      m.userId = userId := by
    intro m hm
    obtain ⟨hmem, hactive⟩ := List.mem_filter.mp hm
    exact hnone m hmem hactive
  match hrows : (d.of organizationId).filter Membership.isActiveOwner with
  | [] => exact Nat.zero_le 1
  | [_] => exact le_rfl
  | a :: b :: rest =>
    rw [hrows] at hpairs huser
    have hab := (List.pairwise_cons.mp hpairs).1 b List.mem_cons_self
    refine absurd ?_ (hab a.userId rfl)
    rw [huser a List.mem_cons_self, huser b (List.mem_cons_of_mem a List.mem_cons_self)]

end Directory

/-! ## What a call keeps -/

variable {organizationId : String}

/-- A statement that does not change the memberships of the organization keeps its owners. -/
theorem quiet {β : Type} (request : MemberCall β)
    (hquiet : (ownersOf organizationId).acts request = false) (now : ℕ) (d : Directory)
    (howner : (ownersOf organizationId).invariant d) :
    (ownersOf organizationId).invariant (machine.exec request now d).2 ∧
      (ownersOf organizationId).view (machine.exec request now d).2 =
        (ownersOf organizationId).view d := by
  have hsame (h : (machine.exec request now d).2.of organizationId = d.of organizationId) :
      (ownersOf organizationId).invariant (machine.exec request now d).2 ∧
        (ownersOf organizationId).view (machine.exec request now d).2 =
          (ownersOf organizationId).view d := by
    refine ⟨?_, h⟩
    change 1 ≤ ((machine.exec request now d).2.of organizationId).countP _
    rw [h]
    exact howner
  cases request with
  | selectTarget o u => exact hsame rfl
  | activeOwnerCount o => exact hsame rfl
  | updateRole o u role =>
    exact hsame (Directory.of_updateMember_ne (Membership.withRole_keeps role)
      (of_decide_eq_false hquiet))
  | updateDisabled o u =>
    exact hsame (Directory.of_updateMember_ne (Membership.disable_keeps now)
      (of_decide_eq_false hquiet))
  | revokeSessions u reason => exact hsame rfl

theorem revokeSessions_watches (userId reason : String) (known : Option (List Membership)) :
    (Program.perform (.revokeSessions userId reason) >>= fun _ =>
      (pure .ok : Program MemberCall MembershipChangeResult)).Watches
      (ownersOf organizationId) machine known := by
  refine .of_all quiet ?_ known
  exact ⟨rfl, fun _ => trivial⟩

theorem applyRole_watches {userId : String} {role : Role} {rows : List Membership}
    (h : ∃ m ∈ rows, m.isActiveOwner = true ∧ (m.userId ≠ userId ∨ role = .owner)) :
    (applyRole organizationId userId role).Watches (ownersOf organizationId) machine
      (some rows) := by
  intro d _ hknown now
  have hrows : d.of organizationId = rows := hknown rows rfl
  refine ⟨Directory.one_le_activeOwnerCount_updateMember (Membership.withRole_keeps role) ?_,
    fun hacts => ?_, revokeSessions_watches _ _ _⟩
  · obtain ⟨m, hm, hactive, hleft⟩ := h
    rw [hrows]
    refine ⟨m, hm, hactive, hleft.imp id fun hrole => ?_⟩
    obtain ⟨-, hdisabled⟩ := Bool.and_eq_true_iff.mp hactive
    simp only [Membership.isActiveOwner, Membership.withRole, hrole, decide_true, hdisabled,
      Bool.and_self]
  · exact absurd rfl (of_decide_eq_false hacts)

theorem applyDisabled_watches {userId : String} {rows : List Membership}
    (h : ∃ m ∈ rows, m.isActiveOwner = true ∧ m.userId ≠ userId) :
    (applyDisabled organizationId userId).Watches (ownersOf organizationId) machine
      (some rows) := by
  intro d _ hknown now
  have hrows : d.of organizationId = rows := hknown rows rfl
  refine ⟨Directory.one_le_activeOwnerCount_updateMember (Membership.disable_keeps now) ?_,
    fun hacts => ?_, revokeSessions_watches _ _ _⟩
  · obtain ⟨m, hm, hactive, hother⟩ := h
    rw [hrows]
    exact ⟨m, hm, hactive, .inl hother⟩
  · exact absurd rfl (of_decide_eq_false hacts)

theorem selectTarget_watches {userId : String}
    {next : Option Standing → Program MemberCall MembershipChangeResult}
    (h : ∀ d : Directory, 1 ≤ d.activeOwnerCount organizationId →
      (next (((d.of organizationId).find? fun m => m.userId = userId).map
        fun m => ⟨m.role, m.disabledAt⟩)).Watches (ownersOf organizationId) machine
          (some (d.of organizationId))) :
    (Program.perform (.selectTarget organizationId userId) >>= next).Watches
      (ownersOf organizationId) machine none := by
  intro d howner _ now
  refine ⟨howner, fun _ => rfl, ?_⟩
  have hlearned : (ownersOf organizationId).learned (.selectTarget organizationId userId) none d =
      some (d.of organizationId) := if_pos (decide_eq_true rfl)
  change (next _).Watches _ _ ((ownersOf organizationId).learned _ none d)
  rw [hlearned]
  exact h d howner

theorem activeOwnerCount_watches {rows : List Membership}
    {next : ℕ → Program MemberCall MembershipChangeResult}
    (h : (next (rows.countP Membership.isActiveOwner)).Watches (ownersOf organizationId) machine
      (some rows)) :
    (Program.perform (.activeOwnerCount organizationId) >>= next).Watches
      (ownersOf organizationId) machine (some rows) := by
  intro d howner hknown now
  have hrows : d.of organizationId = rows := hknown rows rfl
  refine ⟨howner, fun _ => rfl, ?_⟩
  change (next ((d.of organizationId).countP _)).Watches _ _ (some (d.of organizationId))
  rw [hrows]
  exact h

theorem changeMemberRole_watches {actor : SessionContext} {organization : Organization}
    (horganization : actor.organization = some organization) (targetUserId : String)
    (role : Role) :
    (changeMemberRole actor targetUserId role).Watches (ownersOf organization.organizationId)
      machine none := by
  unfold changeMemberRole
  rw [horganization]
  cases authorize actor .memberManage with
  | false => trivial
  | true =>
    dsimp only
    split
    · trivial
    · refine selectTarget_watches fun d howner => ?_
      cases hfind : (d.of organization.organizationId).find? fun m => m.userId = targetUserId with
      | none => trivial
      | some target =>
        dsimp only [Option.map_some]
        split
        next =>
          refine activeOwnerCount_watches ?_
          split
          · trivial
          next htwo =>
            obtain ⟨m, hm, hactive, hother⟩ := Directory.exists_other_of_two htwo targetUserId
            exact applyRole_watches ⟨m, hm, hactive, .inl hother⟩
        next hcheck =>
          by_cases hrole : role = .owner
          · obtain ⟨m, hm, hactive⟩ := Directory.one_le_activeOwnerCount.mp howner
            exact applyRole_watches ⟨m, hm, hactive, .inr hrole⟩
          · have hnot : target.isActiveOwner = false := by
              have hrole' : target.role ≠ .owner := by simpa [hrole] using hcheck
              simp [Membership.isActiveOwner, hrole']
            obtain ⟨m, hm, hactive, hother⟩ := Directory.exists_other_of_target howner hfind hnot
            exact applyRole_watches ⟨m, hm, hactive, .inl hother⟩

theorem disableMember_watches {actor : SessionContext} {organization : Organization}
    (horganization : actor.organization = some organization) (targetUserId : String) :
    (disableMember actor targetUserId).Watches (ownersOf organization.organizationId)
      machine none := by
  unfold disableMember
  rw [horganization]
  cases authorize actor .memberManage with
  | false => trivial
  | true =>
    refine selectTarget_watches fun d howner => ?_
    cases hfind : (d.of organization.organizationId).find? fun m => m.userId = targetUserId with
    | none => trivial
    | some target =>
      dsimp only [Option.map_some]
      split
      next =>
        refine activeOwnerCount_watches ?_
        split
        · trivial
        next htwo => exact applyDisabled_watches (Directory.exists_other_of_two htwo targetUserId)
      next hcheck =>
        have hnot : target.isActiveOwner = false := by
          simpa only [Membership.isActiveOwner, Bool.not_eq_true] using hcheck
        exact applyDisabled_watches (Directory.exists_other_of_target howner hfind hnot)

/-- A call by a member of no organization, or of another one, does not change this one. -/
theorem serve_all {request : MemberRequest}
    (hother : ∀ organization ∈ request.actor.organization,
      organization.organizationId ≠ organizationId) :
    request.serve.All fun call => (ownersOf organizationId).acts call = false := by
  have hacts {organization : Organization}
      (h : request.actor.organization = some organization) :
      decide (organization.organizationId = organizationId) = false :=
    decide_eq_false (hother organization h)
  cases request with
  | changeMemberRole actor targetUserId role =>
    simp only [MemberRequest.serve, Members.changeMemberRole]
    split
    next organization _ horganization =>
      have hrest : (applyRole organization.organizationId targetUserId role).All
          fun call => (ownersOf organizationId).acts call = false :=
        ⟨hacts horganization, fun _ => ⟨rfl, fun _ => trivial⟩⟩
      split
      · trivial
      · refine ⟨rfl, fun target => ?_⟩
        cases target with
        | none => trivial
        | some membership =>
          dsimp only [Program.bind]
          split
          · refine ⟨rfl, fun count => ?_⟩
            dsimp only [Program.bind]
            split
            · trivial
            · exact hrest
          · exact hrest
    · trivial
  | disableMember actor targetUserId =>
    simp only [MemberRequest.serve, Members.disableMember]
    split
    next organization _ horganization =>
      have hrest : (applyDisabled organization.organizationId targetUserId).All
          fun call => (ownersOf organizationId).acts call = false :=
        ⟨hacts horganization, fun _ => ⟨rfl, fun _ => trivial⟩⟩
      refine ⟨rfl, fun target => ?_⟩
      cases target with
      | none => trivial
      | some membership =>
        dsimp only [Program.bind]
        split
        · refine ⟨rfl, fun count => ?_⟩
          dsimp only [Program.bind]
          split
          · trivial
          · exact hrest
        · exact hrest
    · trivial

theorem serve_watches (request : MemberRequest) :
    request.serve.Watches (ownersOf organizationId) machine none := by
  by_cases hother : ∀ organization ∈ request.actor.organization,
      organization.organizationId ≠ organizationId
  · exact .of_all quiet (serve_all hother) none
  · push Not at hother
    obtain ⟨organization, horganization, rfl⟩ := hother
    cases request with
    | changeMemberRole actor targetUserId role =>
      exact changeMemberRole_watches horganization targetUserId role
    | disableMember actor targetUserId =>
      exact disableMember_watches horganization targetUserId

/-- Along every interleaving in which nobody changes a membership of an organization while
another call has looked its target up and may still change it, the organization keeps an
active owner. -/
theorem undisturbed_keeps_active_owner {d : Directory}
    (howner : 1 ≤ d.activeOwnerCount organizationId) {script : List (Action ℕ MemberRequest)}
    (hscript : Pool.Along system (Pool.Undisturbed (ownersOf organizationId)) ⟨d, []⟩ script) :
    1 ≤ (Pool.play system ⟨d, []⟩ script).state.activeOwnerCount organizationId := by
  have hstart : Pool.Watched system (ownersOf organizationId)
      (⟨d, []⟩ : Pool MemberCall MemberRequest Directory) :=
    ⟨howner, fun t ht => absurd ht List.not_mem_nil⟩
  have hserve (request : MemberRequest) :
      (system.start request).Watches (ownersOf organizationId) system.machine none := by
    refine (serve_watches request).bind fun _ _ => ?_
    trivial
  exact (hstart.play quiet hserve hscript).invariant

def twoOwners : Directory where
  members := [⟨"org", "ada", .owner, none⟩, ⟨"org", "bob", .owner, none⟩]
  sessions := []
  unique := by decide

def signedIn : SessionContext := ⟨true, some ⟨"org", true⟩, some .owner⟩

/-- One owner disables the other one and nobody else calls. -/
theorem lone_disable_keeps_active_owner :
    1 ≤ (Pool.play system ⟨twoOwners, []⟩
      [.arrive (.disableMember signedIn "bob"), .step 0 1, .step 0 2, .step 0 3,
        .step 0 4]).state.activeOwnerCount "org" := by
  have hone {c : Pool MemberCall MemberRequest Directory} (h : c.threads.length ≤ 1)
      (a : Action ℕ MemberRequest) : c.Undisturbed (ownersOf "org") a :=
    Pool.undisturbed_of_length_le_one _ h a
  refine undisturbed_keeps_active_owner (by decide)
    ⟨hone (by decide) _, hone (by decide) _, hone (by decide) _, hone (by decide) _,
      hone (by decide) _, trivial⟩

/-- Two owners demote each other: both calls count two owners before either of them updates,
and nobody is left who owns the organization. -/
theorem crossing_demotions_leave_no_owner :
    twoOwners.activeOwnerCount "org" = 2 ∧
      (Pool.play system ⟨twoOwners, []⟩
        [.arrive (.changeMemberRole signedIn "bob" .developer),
          .arrive (.changeMemberRole signedIn "ada" .developer),
          .step 0 1, .step 0 2, .step 1 3, .step 1 4,
          .step 0 5, .step 1 6]).state.activeOwnerCount "org" = 0 := by
  decide

end Asterism.Members
