import Asterism.ControlPlane.Members

/-!
# Who may reach a Node

A person reaches a Node as an owner of the organization or of the Node, by the role of their
membership, or by a grant on this Node; the strongest of these counts. The same rule is written
twice: as a decision about one Node, and as a query for all Nodes that a person may reach.
-/

namespace Asterism.NodeAccess

open Members (Role Membership Directory)

/-- `AccessRole`: the roles on a Node; each contains the one before it. -/
inductive AccessRole
  | read | write | admin
  deriving DecidableEq

/-- `RANK`. -/
def AccessRole.rank : AccessRole → ℕ
  | read => 1
  | write => 2
  | admin => 3

/-- `ScopeType`: what a grant is made on. -/
inductive ScopeType
  | node
  deriving DecidableEq

/-- `Grant`: what a grant gives. -/
structure Grant where
  scopeType : ScopeType
  scopeId : String
  role : AccessRole

/-- A row of `permissions`. -/
structure Permission extends Grant where
  organizationId : String
  userId : String

/-- A row of `nodes`. -/
structure Node where
  nodeId : String
  organizationId : String
  ownerUserId : Option String

/-- The tables that access is read from. -/
structure Tables where
  directory : Directory
  nodes : List Node
  permissions : List Permission
  unique : Table.Unique (fun node : Node => some node.nodeId) nodes

/-- `roleFromMembership`; a person without a membership is given the empty name of a role. -/
def roleFromMembership : Option Role → Option AccessRole
  | some .owner | some .admin => some .admin
  | some .developer => some .write
  | some .viewer => some .read
  | none => none

/-- `satisfies`: the role that is held contains the one that is needed. -/
def satisfies (held : Option AccessRole) (needed : AccessRole) : Bool :=
  held.any fun held => needed.rank ≤ held.rank

/-- `strongest`: the higher of two roles, if there is one. -/
def strongest : Option AccessRole → Option AccessRole → Option AccessRole
  | none, b => b
  | some a, none => some a
  | some a, some b => if b.rank ≤ a.rank then some a else some b

/-- `nodeAccess`: owners are admins, and others hold the strongest of what they are given. -/
def nodeAccess (isOrganizationOwner isNodeOwner : Bool) (organizationRole : Option AccessRole)
    (grants : List Grant) (nodeId : String) : Option AccessRole :=
  if isOrganizationOwner || isNodeOwner then some .admin
  else
    grants.foldl (fun held grant =>
      if grant.scopeType = .node ∧ grant.scopeId = nodeId then strongest held (some grant.role)
      else held) organizationRole

/-- What `readableNodeIds` answers: all Nodes of the organization, or the listed ones. -/
structure Readable where
  all : Bool
  ids : List String
  deriving DecidableEq

namespace Tables

variable (t : Tables) (organizationId userId : String)

def activeMemberships : List Membership :=
  (t.directory.of organizationId).filter fun m => m.userId = userId && m.disabledAt.isNone

/-- The role of a person, by the membership that is not disabled. -/
def membershipRole : Option Role :=
  (t.activeMemberships organizationId userId).head?.map fun m => m.role

/-- `grantsFor`: the grants of a person in an organization. -/
def grantsFor : List Grant :=
  (t.permissions.filter fun p => p.organizationId = organizationId && p.userId = userId).map
    Permission.toGrant

/-- What a person holds on a Node, from all that is recorded about them. -/
def accessTo (node : Node) : Option AccessRole :=
  nodeAccess (t.membershipRole organizationId userId = some .owner)
    (node.ownerUserId = some userId) (roleFromMembership (t.membershipRole organizationId userId))
    (t.grantsFor organizationId userId) node.nodeId

/-- The roles that a person was granted on a Node, in whatever organization. -/
def rolesOn (node : Node) : List AccessRole :=
  (t.permissions.filter fun p =>
    p.scopeType = .node && p.scopeId = node.nodeId && p.userId = userId).map fun p => p.role

/-- The Nodes of the organization, each with the roles of the person on it, or with none. -/
def joined : List (Node × Option AccessRole) :=
  (t.nodes.filter fun node => node.organizationId = organizationId).flatMap fun node =>
    if t.rolesOn userId node = [] then [(node, none)]
    else (t.rolesOn userId node).map fun role => (node, some role)

/-- The Nodes of the organization that the person owns, or holds a strong enough grant on. -/
def grantedIds (needed : AccessRole) : List String :=
  let rows := (t.joined organizationId userId).filter fun row =>
    row.1.ownerUserId = some userId || row.2.isSome
  let reached := rows.filter fun row =>
    row.1.ownerUserId = some userId || row.2.any fun role => needed.rank ≤ role.rank
  reached.map fun row => row.1.nodeId

/-- `readableNodeIds`: all Nodes where the membership is enough, else the granted ones. -/
def readableNodeIds (needed : AccessRole) : Readable :=
  if (t.activeMemberships organizationId userId).any fun m => m.role = .owner then ⟨true, []⟩
  else if satisfies (roleFromMembership (t.membershipRole organizationId userId)) needed then
    ⟨true, []⟩
  else ⟨false, t.grantedIds organizationId userId needed⟩

end Tables

/-! ## The algebra of roles -/

section Roles

variable {needed : AccessRole}

theorem satisfies_admin (needed : AccessRole) : satisfies (some .admin) needed = true := by
  cases needed <;> rfl

theorem satisfies_strongest (a b : Option AccessRole) :
    satisfies (strongest a b) needed = true ↔
      satisfies a needed = true ∨ satisfies b needed = true := by
  cases a with
  | none => simp [strongest, satisfies]
  | some a =>
    cases b with
    | none => simp [strongest, satisfies]
    | some b =>
      rw [strongest]
      split <;> simp only [satisfies, Option.any_some, decide_eq_true_eq] <;> omega

/-- What is held after the grants is enough if it was before, or if one of the grants on the Node
is. -/
theorem satisfies_foldl (grants : List Grant) (nodeId : String) (held : Option AccessRole) :
    satisfies (grants.foldl (fun held grant =>
      if grant.scopeType = .node ∧ grant.scopeId = nodeId then strongest held (some grant.role)
      else held) held) needed = true ↔
    satisfies held needed = true ∨ ∃ grant ∈ grants, grant.scopeId = nodeId ∧
      needed.rank ≤ grant.role.rank := by
  induction grants generalizing held with
  | nil => simp
  | cons grant grants ih =>
    rw [List.foldl_cons, ih, List.exists_mem_cons_iff]
    by_cases hnode : grant.scopeId = nodeId
    · rw [if_pos ⟨rfl, hnode⟩, satisfies_strongest, or_assoc]
      simp only [satisfies, Option.any_some, decide_eq_true_eq, hnode, true_and]
    · rw [if_neg fun h => hnode h.2]
      simp only [hnode, false_and, false_or]

theorem satisfies_nodeAccess {isOrganizationOwner isNodeOwner : Bool}
    {organizationRole : Option AccessRole} {grants : List Grant} {nodeId : String} :
    satisfies (nodeAccess isOrganizationOwner isNodeOwner organizationRole grants nodeId) needed =
        true ↔
      isOrganizationOwner = true ∨ isNodeOwner = true ∨
        satisfies organizationRole needed = true ∨
        ∃ grant ∈ grants, grant.scopeId = nodeId ∧ needed.rank ≤ grant.role.rank := by
  unfold nodeAccess
  split
  case isTrue howner =>
    rw [Bool.or_eq_true] at howner
    refine iff_of_true (satisfies_admin needed) ?_
    exact howner.imp_right .inl
  case isFalse howner =>
    obtain ⟨horganization, hnode⟩ := not_or.mp fun h => howner (Bool.or_eq_true _ _ ▸ h)
    rw [satisfies_foldl, or_iff_right horganization, or_iff_right hnode]

end Roles

/-! ## The query -/

namespace Tables

variable {t : Tables} {organizationId userId : String} {needed : AccessRole} {node : Node}

theorem membershipRole_eq_some {m : Membership}
    (h : m ∈ t.activeMemberships organizationId userId) :
    t.membershipRole organizationId userId = some m.role := by
  have hrow {m : Membership} (h : m ∈ t.activeMemberships organizationId userId) :
      m ∈ t.directory.members ∧ (m.organizationId, m.userId) = (organizationId, userId) := by
    obtain ⟨hof, hactive⟩ := List.mem_filter.mp h
    obtain ⟨hmem, horganization⟩ := List.mem_filter.mp hof
    have huser := of_decide_eq_true (Bool.and_eq_true_iff.mp hactive).1
    exact ⟨hmem, by rw [of_decide_eq_true horganization, huser]⟩
  cases hhead : (t.activeMemberships organizationId userId).head? with
  | none => exact absurd h (List.head?_eq_none_iff.mp hhead ▸ List.not_mem_nil)
  | some first =>
    obtain ⟨hfirst, hfirstKey⟩ := hrow (List.mem_of_mem_head? hhead)
    obtain ⟨hmem, hkey⟩ := hrow h
    rw [membershipRole, hhead, t.directory.unique.eq_of_mem hmem hfirst (congrArg some hkey)
      (congrArg some hfirstKey)]
    rfl

theorem any_owner_iff :
    ((t.activeMemberships organizationId userId).any fun m => m.role = .owner) = true ↔
      t.membershipRole organizationId userId = some .owner := by
  rw [List.any_eq_true]
  constructor
  · rintro ⟨m, hm, howner⟩
    rw [membershipRole_eq_some hm, of_decide_eq_true howner]
  · intro howner
    obtain ⟨m, hhead, hrole⟩ := Option.map_eq_some_iff.mp howner
    exact ⟨m, List.mem_of_mem_head? hhead, decide_eq_true hrole⟩

theorem mem_joined {row : Node × Option AccessRole} :
    row ∈ t.joined organizationId userId ↔
      row.1 ∈ t.nodes ∧ row.1.organizationId = organizationId ∧
        (row.2 = none ∧ t.rolesOn userId row.1 = [] ∨
          ∃ role ∈ t.rolesOn userId row.1, row.2 = some role) := by
  obtain ⟨node, role⟩ := row
  rw [joined, List.mem_flatMap]
  constructor
  · rintro ⟨joined, hjoined, hrow⟩
    obtain ⟨hnode, horganization⟩ := List.mem_filter.mp hjoined
    split at hrow
    case isTrue hnone =>
      cases List.mem_singleton.mp hrow
      exact ⟨hnode, of_decide_eq_true horganization, .inl ⟨rfl, hnone⟩⟩
    · obtain ⟨role, hrole, hrow⟩ := List.mem_map.mp hrow
      cases hrow
      exact ⟨hnode, of_decide_eq_true horganization, .inr ⟨role, hrole, rfl⟩⟩
  · rintro ⟨hnode, horganization, hroles⟩
    refine ⟨node, List.mem_filter.mpr ⟨hnode, decide_eq_true horganization⟩, ?_⟩
    rcases hroles with ⟨hnone, hempty⟩ | ⟨granted, hgranted, hsome⟩
    · dsimp only at hnone
      rw [if_pos hempty, hnone]
      exact List.mem_cons_self
    · dsimp only at hsome
      rw [if_neg (List.ne_nil_of_mem hgranted), hsome]
      exact List.mem_map_of_mem hgranted

/-- A Node of the list is one of the organization that the person owns or was granted. -/
theorem mem_grantedIds {id : String} :
    id ∈ t.grantedIds organizationId userId needed ↔
      ∃ node ∈ t.nodes, node.organizationId = organizationId ∧ node.nodeId = id ∧
        (node.ownerUserId = some userId ∨
          ∃ role ∈ t.rolesOn userId node, needed.rank ≤ role.rank) := by
  simp only [grantedIds, List.mem_map, List.mem_filter, mem_joined, Bool.or_eq_true,
    decide_eq_true_eq]
  constructor
  · rintro ⟨⟨node, role⟩, ⟨⟨⟨hnode, horganization, hroles⟩, -⟩, hreached⟩, hid⟩
    refine ⟨node, hnode, horganization, hid, hreached.imp_right fun hrank => ?_⟩
    rcases hroles with ⟨rfl, -⟩ | ⟨granted, hgranted, rfl⟩
    · cases hrank
    · exact ⟨granted, hgranted, of_decide_eq_true hrank⟩
  · rintro ⟨node, hnode, horganization, hid, howner | ⟨role, hrole, hrank⟩⟩
    · by_cases hempty : t.rolesOn userId node = []
      · exact ⟨(node, none), ⟨⟨⟨hnode, horganization, .inl ⟨rfl, hempty⟩⟩, .inl howner⟩,
          .inl howner⟩, hid⟩
      · obtain ⟨role, hrole⟩ := List.exists_mem_of_ne_nil _ hempty
        exact ⟨(node, some role), ⟨⟨⟨hnode, horganization, .inr ⟨role, hrole, rfl⟩⟩, .inl howner⟩,
          .inl howner⟩, hid⟩
    · exact ⟨(node, some role), ⟨⟨⟨hnode, horganization, .inr ⟨role, hrole, rfl⟩⟩, .inr rfl⟩,
        .inr (decide_eq_true hrank)⟩, hid⟩

theorem exists_grant_iff
    (hgrants : ∀ p ∈ t.permissions, p.scopeId = node.nodeId →
      p.organizationId = node.organizationId) :
    (∃ grant ∈ t.grantsFor node.organizationId userId, grant.scopeId = node.nodeId ∧
      needed.rank ≤ grant.role.rank) ↔
    ∃ role ∈ t.rolesOn userId node, needed.rank ≤ role.rank := by
  simp only [grantsFor, rolesOn, List.mem_map, List.mem_filter, Bool.and_eq_true,
    decide_eq_true_eq]
  constructor
  · rintro ⟨_, ⟨p, ⟨hp, -, huser⟩, rfl⟩, hscope, hrank⟩
    exact ⟨p.role, ⟨p, ⟨hp, ⟨trivial, hscope⟩, huser⟩, rfl⟩, hrank⟩
  · rintro ⟨_, ⟨p, ⟨hp, ⟨-, hscope⟩, huser⟩, rfl⟩, hrank⟩
    exact ⟨p.toGrant, ⟨p, ⟨hp, hgrants p hp hscope, huser⟩, rfl⟩, hscope, hrank⟩

end Tables

/-- The Nodes that the query describes are those of the organization that the person may reach. -/
theorem readableNodeIds_exact (t : Tables)
    (hgrants : ∀ p ∈ t.permissions, ∀ node ∈ t.nodes, p.scopeId = node.nodeId →
      p.organizationId = node.organizationId)
    (organizationId userId : String) (needed : AccessRole) :
    (∀ node ∈ t.nodes, node.organizationId = organizationId →
      ((t.readableNodeIds organizationId userId needed).all = true ∨
          node.nodeId ∈ (t.readableNodeIds organizationId userId needed).ids ↔
        satisfies (t.accessTo organizationId userId node) needed = true)) ∧
    ∀ id ∈ (t.readableNodeIds organizationId userId needed).ids,
      ∃ node ∈ t.nodes, node.organizationId = organizationId ∧ node.nodeId = id := by
  unfold Tables.readableNodeIds Tables.accessTo
  simp only [satisfies_nodeAccess, decide_eq_true_eq]
  split
  case isTrue howner =>
    exact ⟨fun node _ _ => iff_of_true (.inl rfl) (.inl (Tables.any_owner_iff.mp howner)), nofun⟩
  case isFalse howner =>
    have howner := fun h => howner (Tables.any_owner_iff.mpr h)
    split
    case isTrue hrole =>
      exact ⟨fun node _ _ => iff_of_true (.inl rfl) (.inr (.inr (.inl hrole))), nofun⟩
    case isFalse hrole =>
      refine ⟨?_, fun id hid => ?_⟩
      · rintro node hnode rfl
        rw [or_iff_right howner, or_iff_right hrole, or_iff_right Bool.false_ne_true,
          Tables.exists_grant_iff fun p hp => hgrants p hp node hnode, Tables.mem_grantedIds]
        constructor
        · rintro ⟨other, hother, -, hid, hreached⟩
          obtain rfl : other = node :=
            t.unique.eq_of_mem hother hnode (congrArg some hid) rfl
          exact hreached
        · exact fun hreached => ⟨node, hnode, rfl, rfl, hreached⟩
      · obtain ⟨node, hnode, horganization, hid, -⟩ := Tables.mem_grantedIds.mp hid
        exact ⟨node, hnode, horganization, hid⟩

/-- One organization with a viewer, and a Node that the viewer was granted. -/
def sampleTables : Tables where
  directory := ⟨[⟨"o1", "u1", .viewer, none⟩], [], by decide⟩
  nodes := [⟨"n1", "o1", none⟩, ⟨"n2", "o1", some "u2"⟩]
  permissions := [⟨⟨.node, "n1", .write⟩, "o1", "u1"⟩]
  unique := by decide

/-- The viewer may write on the one Node only. -/
theorem readableNodeIds_granted :
    sampleTables.readableNodeIds "o1" "u1" .write = ⟨false, ["n1"]⟩ ∧
      satisfies (sampleTables.accessTo "o1" "u1" ⟨"n1", "o1", none⟩) .write = true :=
  ⟨by decide, ((readableNodeIds_exact sampleTables (by decide) "o1" "u1" .write).1
    ⟨"n1", "o1", none⟩ List.mem_cons_self rfl).mp (.inr (by decide))⟩

end Asterism.NodeAccess
