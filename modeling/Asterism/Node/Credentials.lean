import Asterism.Json
import Mathlib.Data.List.Nodup

/-!
# The credentials a Node knows

What a Node records about its credentials, and how the record is brought into agreement with
the shared pool. The secrets are elsewhere: a credential has a home of its own, or is an entry
of the pool. A listing of the pool may name an entry more than once, and reading it stops early
when the registry is full, so what a second reading does rests on what the first one left.
-/

namespace Asterism.Credentials

/-- `CredentialState`: where a credential stands. -/
inductive CredentialState
  | required | authorizing | authorized | failed | revoked | reauthorizing
  | reauthorizationRequired | runtimeMissing
  deriving DecidableEq, Repr

/-- `CredentialStorage`: where the secret is kept. -/
inductive CredentialStorage
  | isolated | legacySharedPool
  deriving DecidableEq, Repr

/-- `Credential`: one credential, as the Node records it. -/
structure Credential where
  id : String
  providerId : String
  authMethod : String
  label : String
  state : CredentialState
  storage : CredentialStorage
  /-- The name of its entry in the pool. -/
  poolEntry : Option String
  /-- How many times it was given new material. -/
  generation : ℕ
  createdAt : ℕ
  updatedAt : ℕ
  deriving DecidableEq, Repr

/-- `PoolEntry`: an entry of the pool, by the name Hermes lists it under. -/
structure PoolEntry where
  id : String
  deriving DecidableEq, Repr

/-- `MAX_CREDENTIALS`. -/
def maxCredentials : ℕ := 16

/-- `Registry`: what the Node records about its credentials. -/
abbrev CredentialRegistry := List Credential

def Credential.isolated (c : Credential) : Bool := c.storage = .isolated

/-- The entry of the pool that a record stands for, with its provider. -/
def Credential.binding (c : Credential) : Option (String × String) :=
  if c.storage = .legacySharedPool then c.poolEntry.map fun id => (c.providerId, id) else none

/-- `reconcile` finds that a record is this entry of the pool. -/
def Credential.withEntry (entry : PoolEntry) (now : ℕ) (c : Credential) : Credential :=
  { c with poolEntry := some entry.id, state := .authorized, updatedAt := now }

namespace CredentialRegistry

/-! ## Reconciling with the pool -/

/-- Change the first record that meets a condition. -/
def modifyFirst (p : Credential → Bool) (f : Credential → Credential) :
    CredentialRegistry → CredentialRegistry
  | [] => []
  | c :: registry => if p c then f c :: registry else c :: modifyFirst p f registry

/-- Some record stands for the entry of the pool already. -/
def bound (registry : CredentialRegistry) (providerId : String) (entry : PoolEntry) : Bool :=
  registry.any fun c => c.storage = .legacySharedPool ∧ c.poolEntry = some entry.id ∧
    c.providerId = providerId

/-- A record that waits for an entry with this name. -/
def awaits (providerId : String) (entry : PoolEntry) (c : Credential) : Bool :=
  c.providerId = providerId && c.storage = .legacySharedPool && c.poolEntry = none &&
    c.label = entry.id && (c.state = .authorizing || c.state = .failed)

section Reconcile

variable (adoptedId : String → String → String) (providerId : String)

/-- The record, under its `adopted_id`, of an entry that nobody asked for. -/
def adopted (now : ℕ) (entry : PoolEntry) : Credential where
  id := adoptedId providerId entry.id
  providerId := providerId
  authMethod := "device_authorization"
  label := "Existing credential"
  state := .authorized
  storage := .legacySharedPool
  poolEntry := some entry.id
  generation := 0
  createdAt := now
  updatedAt := now

/-- The first loop of `reconcile`: entries of the pool that no record stands for are bound to a
record that waits for them, or adopted. It tells whether anything changed. -/
def adopt (now : ℕ) : List PoolEntry → CredentialRegistry → Bool × CredentialRegistry
  | [], registry => (false, registry)
  | entry :: pool, registry =>
    if registry.bound providerId entry then adopt now pool registry
    else if registry.any (awaits providerId entry) then
      (true, (adopt now pool
        (registry.modifyFirst (awaits providerId entry) (.withEntry entry now))).2)
    -- The source leaves the loop here: the entries after this one are not looked at.
    else if maxCredentials ≤ registry.length then (false, registry)
    else (true, (adopt now pool (registry ++ [adopted adoptedId providerId now entry])).2)

/-- The state that `reconcile` gives a record by the pool, unless the record is left alone. -/
def wanted (pool : List PoolEntry) (c : Credential) : Option CredentialState :=
  if c.providerId ≠ providerId ∨ c.storage ≠ .legacySharedPool then none
  else
    let holds := c.poolEntry.any fun id => pool.any fun entry => entry.id = id
    match holds, c.state with
    | true, .authorized => none
    | true, _ => some .authorized
    | false, .authorized => some .required
    | false, _ => none

/-- The second loop of `reconcile`, for one record. -/
def judge (pool : List PoolEntry) (now : ℕ) (c : Credential) : Credential :=
  match wanted providerId pool c with
  | none => c
  | some state => { c with state := state, updatedAt := now }

/-- `reconcile`: whether anything changed, and the registry it leaves. -/
def reconcile (pool : List PoolEntry) (now : ℕ) (registry : CredentialRegistry) :
    Bool × CredentialRegistry :=
  let (changed, kept) := adopt adoptedId providerId now pool registry
  (changed || kept.any fun c => (wanted providerId pool c).isSome,
    kept.map (judge providerId pool now))

end Reconcile

/-! ## What one entry does -/

/-- The entries of the pool that the records stand for. -/
def bindings (registry : CredentialRegistry) : List (String × String) :=
  registry.filterMap Credential.binding

/-- No entry of a provider is bound to two credentials. -/
def OneToOne (registry : CredentialRegistry) : Prop := registry.bindings.Nodup

/-- The credentials with a home of their own. -/
def isolated (registry : CredentialRegistry) : List Credential :=
  registry.filter Credential.isolated

variable {adoptedId : String → String → String} {providerId : String} {entry : PoolEntry}
  {pool : List PoolEntry} {registry : CredentialRegistry} {now : ℕ} {c : Credential}

/-- A record stands for an entry exactly if the entry is among the bindings. -/
theorem bound_iff : registry.bound providerId entry = true ↔
    (providerId, entry.id) ∈ registry.bindings := by
  simp only [bound, bindings, Credential.binding, List.any_eq_true, List.mem_filterMap,
    decide_eq_true_eq]
  refine exists_congr fun c => and_congr_right fun _ => ?_
  by_cases hstorage : c.storage = .legacySharedPool <;>
    simp [hstorage, and_comm]

/-- A record that waits is one of the pool that stands for no entry yet. -/
theorem awaits_spec (h : awaits providerId entry c = true) :
    c.providerId = providerId ∧ c.storage = .legacySharedPool ∧ c.poolEntry = none ∧
      (c.state = .authorizing ∨ c.state = .failed) := by
  simp only [awaits, Bool.and_eq_true, Bool.or_eq_true, decide_eq_true_eq] at h
  obtain ⟨⟨⟨⟨hprovider, hstorage⟩, hentry⟩, -⟩, hstate⟩ := h
  exact ⟨hprovider, hstorage, hentry, hstate⟩

theorem modifyFirst_split {p : Credential → Bool} (f : Credential → Credential)
    (h : registry.any p = true) :
    ∃ front c back, registry = front ++ c :: back ∧ p c = true ∧
      registry.modifyFirst p f = front ++ f c :: back := by
  induction registry with
  | nil => cases h
  | cons c registry ih =>
    by_cases hc : p c = true
    · exact ⟨[], c, registry, rfl, hc, if_pos hc⟩
    · have hrest : registry.any p = true := by simpa [hc] using h
      obtain ⟨front, d, back, hsplit, hd, hmodify⟩ := ih hrest
      refine ⟨c :: front, d, back, by rw [hsplit]; rfl, hd, ?_⟩
      rw [modifyFirst, if_neg hc, hmodify]
      rfl

/-- What reading one entry of the pool does to the registry: it leaves the credentials with a
home of their own alone, and the entry becomes one of the bindings. -/
structure Binds (key : String × String) (before after : CredentialRegistry) : Prop where
  isolated_eq : after.isolated = before.isolated
  length_le : after.length ≤ max before.length maxCredentials
  bindings_eq : ∃ front back, before.bindings = front ++ back ∧
    after.bindings = front ++ key :: back

theorem Binds.mem {key : String × String} {before after : CredentialRegistry}
    (h : Binds key before after) : key ∈ after.bindings := by
  obtain ⟨front, back, -, hafter⟩ := h.bindings_eq
  rw [hafter]
  exact List.mem_append_right _ List.mem_cons_self

theorem Binds.subset {key : String × String} {before after : CredentialRegistry}
    (h : Binds key before after) : before.bindings ⊆ after.bindings := by
  obtain ⟨front, back, hbefore, hafter⟩ := h.bindings_eq
  rw [hbefore, hafter]
  exact List.append_subset.mpr ⟨List.subset_append_left _ _,
    List.Subset.trans (List.subset_cons_self _ _) (List.subset_append_right _ _)⟩

theorem Binds.oneToOne {key : String × String} {before after : CredentialRegistry}
    (h : Binds key before after) (hkey : key ∉ before.bindings) (hbefore : before.OneToOne) :
    after.OneToOne := by
  obtain ⟨front, back, hsplit, hafter⟩ := h.bindings_eq
  unfold OneToOne at hbefore ⊢
  rw [hafter, List.nodup_middle, List.nodup_cons, ← hsplit]
  exact ⟨hkey, hbefore⟩

theorem binds_withEntry (h : registry.any (awaits providerId entry) = true) :
    Binds (providerId, entry.id) registry
      (registry.modifyFirst (awaits providerId entry) (.withEntry entry now)) := by
  obtain ⟨front, c, back, hsplit, hc, hmodify⟩ :=
    modifyFirst_split (Credential.withEntry entry now) h
  obtain ⟨hprovider, hstorage, hentry, -⟩ := awaits_spec hc
  rw [hmodify, hsplit]
  constructor
  case isolated_eq =>
    simp [isolated, Credential.isolated, Credential.withEntry, hstorage]
  case length_le =>
    rw [List.length_append, List.length_append, List.length_cons, List.length_cons]
    exact Nat.le_max_left _ _
  case bindings_eq =>
    refine ⟨bindings front, bindings back, ?_, ?_⟩
    · simp [bindings, Credential.binding, hstorage, hentry]
    · simp [bindings, Credential.binding, Credential.withEntry, hstorage, hprovider]

theorem binds_adopted (h : ¬ maxCredentials ≤ registry.length) :
    Binds (providerId, entry.id) registry
      (registry ++ [adopted adoptedId providerId now entry]) where
  isolated_eq := by simp [isolated, Credential.isolated, adopted]
  length_le := by
    rw [List.length_append]
    exact Nat.le_trans (Nat.lt_of_not_le h) (Nat.le_max_right _ _)
  bindings_eq := by
    refine ⟨registry.bindings, [], by simp, ?_⟩
    simp [bindings, Credential.binding, adopted]

/-! ## The first loop -/

/-- A listing that the first loop has nothing to do for: its entries are bound, up to the one
the loop stops at. -/
inductive Adopted (providerId : String) (registry : CredentialRegistry) : List PoolEntry → Prop
  | nil : Adopted providerId registry []
  | bound (entry : PoolEntry) (pool : List PoolEntry) : registry.bound providerId entry = true →
      Adopted providerId registry pool → Adopted providerId registry (entry :: pool)
  | full (entry : PoolEntry) (pool : List PoolEntry) : registry.bound providerId entry = false →
      registry.any (awaits providerId entry) = false → maxCredentials ≤ registry.length →
      Adopted providerId registry (entry :: pool)

theorem Adopted.adopt_eq (h : Adopted providerId registry pool) (now : ℕ) :
    adopt adoptedId providerId now pool registry = (false, registry) := by
  induction h with
  | nil => rfl
  | bound entry pool hbound _ ih => rw [adopt, if_pos hbound, ih]
  | full entry pool hbound hawaits hfull =>
    rw [adopt, hbound, hawaits, if_neg Bool.false_ne_true, if_neg Bool.false_ne_true, if_pos hfull]

/-- What the first loop keeps of a registry, and what it reaches. -/
structure Adopts (providerId : String) (pool : List PoolEntry)
    (before after : CredentialRegistry) : Prop where
  isolated_eq : after.isolated = before.isolated
  length_le : after.length ≤ max before.length maxCredentials
  subset : before.bindings ⊆ after.bindings
  oneToOne : before.OneToOne → after.OneToOne
  adopted : Adopted providerId after pool

theorem Adopts.of_binds {before middle after : CredentialRegistry}
    (hbinds : Binds (providerId, entry.id) before middle)
    (hbound : ¬ before.bound providerId entry = true)
    (hrest : Adopts providerId pool middle after) :
    Adopts providerId (entry :: pool) before after where
  isolated_eq := hrest.isolated_eq.trans hbinds.isolated_eq
  length_le := Nat.le_trans hrest.length_le
    (Nat.max_le.mpr ⟨hbinds.length_le, Nat.le_max_right _ _⟩)
  subset := List.Subset.trans hbinds.subset hrest.subset
  oneToOne hbefore := hrest.oneToOne (hbinds.oneToOne (fun hkey => hbound (bound_iff.mpr hkey))
    hbefore)
  adopted := .bound _ _ (bound_iff.mpr (hrest.subset hbinds.mem)) hrest.adopted

theorem adopt_spec (pool : List PoolEntry) (registry : CredentialRegistry) :
    Adopts providerId pool registry (adopt adoptedId providerId now pool registry).2 := by
  induction pool generalizing registry with
  | nil => exact ⟨rfl, Nat.le_max_left _ _, List.Subset.refl _, id, .nil⟩
  | cons entry pool ih =>
    rw [adopt]
    by_cases hbound : registry.bound providerId entry = true
    · rw [if_pos hbound]
      have hrest := ih registry
      exact { hrest with
        adopted := .bound _ _ (bound_iff.mpr (hrest.subset (bound_iff.mp hbound))) hrest.adopted }
    rw [if_neg hbound]
    by_cases hawaits : registry.any (awaits providerId entry) = true
    · rw [if_pos hawaits]
      exact .of_binds (binds_withEntry hawaits) hbound (ih _)
    rw [if_neg hawaits]
    by_cases hfull : maxCredentials ≤ registry.length
    · rw [if_pos hfull]
      exact ⟨rfl, Nat.le_max_left _ _, List.Subset.refl _, id,
        .full _ _ (Bool.eq_false_iff.mpr hbound) (Bool.eq_false_iff.mpr hawaits) hfull⟩
    · rw [if_neg hfull]
      exact .of_binds (binds_adopted hfull) hbound (ih _)

/-! ## The second loop -/

theorem judge_of_isolated (h : c.isolated = true) : judge providerId pool now c = c := by
  have hstorage : c.storage ≠ .legacySharedPool := by
    rw [of_decide_eq_true h]
    decide
  rw [judge, wanted, if_pos (.inr hstorage)]

/-- Judging a record keeps where its secret is and what it stands for. -/
theorem judge_frame (c : Credential) :
    (judge providerId pool now c).storage = c.storage ∧
      (judge providerId pool now c).binding = c.binding := by
  unfold judge
  split <;> exact ⟨rfl, rfl⟩

theorem wanted_settled {state : CredentialState} (h : wanted providerId pool c = some state) :
    state = .authorized ∨ state = .required := by
  unfold wanted at h
  split at h
  · cases h
  · dsimp only at h
    split at h <;> cases h
    · exact .inl rfl
    · exact .inr rfl

theorem wanted_judge (c : Credential) :
    wanted providerId pool (judge providerId pool now c) = none := by
  unfold judge
  split
  case h_1 hwanted => exact hwanted
  case h_2 state hwanted =>
    unfold wanted at hwanted ⊢
    dsimp only at hwanted ⊢
    split at hwanted
    · cases hwanted
    case isFalse hpool =>
      rw [if_neg hpool]
      -- The pool has the entry or has not, whatever the state of the record.
      generalize (c.poolEntry.any fun id => pool.any fun entry => decide (entry.id = id)) = holds
        at hwanted ⊢
      split at hwanted <;> cases hwanted <;> rfl

theorem awaits_of_awaits_judge (h : awaits providerId entry (judge providerId pool now c) = true) :
    awaits providerId entry c = true := by
  unfold judge at h
  split at h
  · exact h
  case h_2 state hwanted =>
    obtain ⟨-, -, -, hstate⟩ := awaits_spec h
    obtain rfl | rfl := wanted_settled hwanted <;>
      obtain hstate | hstate := hstate <;> cases hstate

theorem bindings_map_judge (registry : CredentialRegistry) :
    bindings (registry.map (judge providerId pool now)) = registry.bindings := by
  unfold bindings
  rw [List.filterMap_map]
  exact List.filterMap_congr fun c _ => (judge_frame c).2

theorem isolated_map_judge (registry : CredentialRegistry) :
    isolated (registry.map (judge providerId pool now)) = registry.isolated := by
  induction registry with
  | nil => rfl
  | cons c registry ih =>
    unfold isolated at ih ⊢
    by_cases hc : c.isolated = true
    · rw [List.map_cons, judge_of_isolated hc, List.filter_cons_of_pos hc,
        List.filter_cons_of_pos hc, ih]
    · have hjudge : ¬ (judge providerId pool now c).isolated = true := by
        unfold Credential.isolated at hc ⊢
        rwa [(judge_frame c).1]
      rw [List.map_cons, List.filter_cons_of_neg hjudge, List.filter_cons_of_neg hc, ih]

/-- The second loop leaves the first one nothing to do. -/
theorem Adopted.map_judge (h : Adopted providerId registry pool) (listing : List PoolEntry)
    (now : ℕ) : Adopted providerId (registry.map (judge providerId listing now)) pool := by
  have hbound (entry : PoolEntry) :
      CredentialRegistry.bound (registry.map (judge providerId listing now)) providerId entry =
        registry.bound providerId entry :=
    Bool.eq_iff_iff.mpr (by rw [bound_iff, bound_iff, bindings_map_judge])
  induction h with
  | nil => exact .nil
  | bound entry pool h _ ih => exact .bound _ _ ((hbound _).trans h) ih
  | full entry pool h hawaits hfull =>
    refine .full _ _ ((hbound entry).trans h) ?_ (by rwa [List.length_map])
    rw [List.any_map, List.any_eq_false]
    intro c hc hwaits
    exact List.any_eq_false.mp hawaits c hc (awaits_of_awaits_judge hwaits)

/-! ## Both loops -/

/-- Bringing a registry into agreement with the pool changes and removes no credential that has
a home of its own, binds no entry twice, keeps to the limit, and is done at once: with the same
listing, at whatever time, it finds nothing more to change. -/
theorem reconcile_settles (adoptedId : String → String → String) (providerId : String)
    (pool : List PoolEntry) (now : ℕ) (registry : CredentialRegistry) :
    (reconcile adoptedId providerId pool now registry).2.isolated = registry.isolated ∧
      (registry.OneToOne → (reconcile adoptedId providerId pool now registry).2.OneToOne) ∧
      (reconcile adoptedId providerId pool now registry).2.length ≤
        max registry.length maxCredentials ∧
      ∀ later, reconcile adoptedId providerId pool later
          (reconcile adoptedId providerId pool now registry).2 =
        (false, (reconcile adoptedId providerId pool now registry).2) := by
  have hadopts : Adopts providerId pool registry (adopt adoptedId providerId now pool registry).2 :=
    adopt_spec pool registry
  dsimp only [reconcile]
  generalize (adopt adoptedId providerId now pool registry).2 = kept at hadopts ⊢
  refine ⟨(isolated_map_judge kept).trans hadopts.isolated_eq, fun honce => ?_, ?_, fun later => ?_⟩
  · unfold OneToOne
    rw [bindings_map_judge]
    exact hadopts.oneToOne honce
  · rw [List.length_map]
    exact hadopts.length_le
  · rw [(hadopts.adopted.map_judge pool now).adopt_eq later, List.map_map]
    have hquiet : ∀ c, wanted providerId pool (judge providerId pool now c) = none := wanted_judge
    refine Prod.ext ?_ (List.map_congr_left fun c _ => ?_)
    · simp [hquiet]
    · rw [Function.comp_apply, judge, hquiet]

end CredentialRegistry

end Asterism.Credentials
