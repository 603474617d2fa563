import Asterism.Registry.Journal

/-!
# What the registry lists and what it grants once

Which runs are listed, and in which order, depends only on their identifiers, projects and
creation times. A project and an idempotency key name at most one run, a command is recorded
once and keeps its digest, and the decision of an approval request is claimed once.
-/

namespace Asterism

namespace Tables

def liveRuns (t : Tables) (projectId : String) : List RunRecord :=
  (t.runs.filter fun row => row.projectId = projectId ∧ row.status.isActive = true).map
    RunRow.toRunRecord

/-- The live runs that are listed, and those that are too old for it, are all live runs. -/
theorem perm_liveRuns (t : Tables) (projectId : String) :
    (t.liveRuns projectId).Perm (t.activeRuns projectId ++
      (((t.newestFirst projectId).drop 1000).filter fun row => row.status.isActive).map
        RunRow.toRunRecord) := by
  have hlive : (t.runs.filter fun row => row.projectId = projectId ∧ row.status.isActive = true) =
      (t.runs.filter fun row => row.projectId = projectId).filter fun row =>
        row.status.isActive := by
    rw [List.filter_filter]
    exact List.filter_congr fun row _ => by simp [Bool.and_comm]
  have hlisted : (t.activeRuns projectId).Perm
      ((((t.newestFirst projectId).take 1000).filter fun row => row.status.isActive).map
        RunRow.toRunRecord) := by
    unfold activeRuns listRuns
    rw [List.filter_map]
    exact List.reverse_perm _
  rw [liveRuns, hlive]
  refine (((t.newestFirst_perm projectId).symm.filter _).map _).trans ?_
  rw [← List.take_append_drop 1000 (t.newestFirst projectId), List.filter_append, List.map_append,
    List.take_append_drop]
  exact hlisted.symm.append_right _

/-- The live runs of a project are all found exactly if the runs beyond its newest thousand have
ended. -/
theorem activeRuns_perm_iff (t : Tables) (projectId : String) :
    (t.activeRuns projectId).Perm (t.liveRuns projectId) ↔
      ∀ row ∈ (t.newestFirst projectId).drop 1000, row.status.isTerminal = true := by
  have hall := t.perm_liveRuns projectId
  have hnone : (∀ row ∈ (t.newestFirst projectId).drop 1000, row.status.isTerminal = true) ↔
      ((t.newestFirst projectId).drop 1000).filter (fun row => row.status.isActive) = [] := by
    rw [List.filter_eq_nil_iff]
    exact forall₂_congr fun row _ => by simp [RunStatus.isActive]
  rw [hnone]
  constructor
  · intro h
    have hlength := (h.trans hall).length_eq
    rw [List.length_append, List.length_map] at hlength
    exact List.eq_nil_of_length_eq_zero (by omega)
  · intro hempty
    rw [hempty, List.map_nil, List.append_nil] at hall
    exact hall.symm

def numberedRun (status : RunStatus) (n : ℕ) : RunRow :=
  { runId := String.ofList (List.replicate n 'r'), projectId := "p1", sessionId := none,
    idempotencyKey := none, runtimeKind := "hermes-loop", provider := none, model := none,
    status := status, createdAt := 0, startedAt := none, updatedAt := 0, finishedAt := none,
    lastEventSeq := 0, terminalReason := none, errorCode := none, errorMessage := none,
    hermesRunId := none, requestPayload := .null, resultPayload := none, recoveryNote := none,
    retryOfRunId := none, requestFingerprint := "", approvalPolicy := {} }

/-- A run that was never started, and after it so many that have completed. -/
def crowded (n : ℕ) : Tables :=
  { Tables.empty with
    runs := numberedRun .created 0 ::
      (List.range n).map fun i => numberedRun .completed (i + 1) }

theorem newestFirst_crowded (n : ℕ) :
    (crowded n).newestFirst "p1" =
      ((List.range n).map fun i => numberedRun .completed (i + 1)).reverse ++
        [numberedRun .created 0] := by
  have hall : ((crowded n).runs.filter fun row => row.projectId = "p1") = (crowded n).runs := by
    refine List.filter_eq_self.mpr fun row hrow => ?_
    rcases List.mem_cons.mp hrow with rfl | hrow
    · rfl
    · obtain ⟨i, -, rfl⟩ := List.mem_map.mp hrow
      rfl
  have htime : ∀ row ∈ (crowded n).runs, row.createdAt = 0 := by
    intro row hrow
    rcases List.mem_cons.mp hrow with rfl | hrow
    · rfl
    · obtain ⟨i, -, rfl⟩ := List.mem_map.mp hrow
      rfl
  have hsorted : (crowded n).runs.reverse.Pairwise fun a b => b.createdAt ≤ a.createdAt := by
    refine List.pairwise_of_forall_mem_list fun a ha b hb => ?_
    rw [htime a (List.mem_reverse.mp ha), htime b (List.mem_reverse.mp hb)]
  rw [newestFirst, hall, List.Pairwise.insertionSort_eq hsorted]
  exact List.reverse_cons

theorem crowded_valid (n : ℕ) : (crowded n).Valid := by
  have hrow : ∀ row ∈ (crowded n).runs, ∃ status i, row = numberedRun status i := by
    intro row hrow
    rcases List.mem_cons.mp hrow with rfl | hrow
    · exact ⟨_, _, rfl⟩
    · obtain ⟨i, -, rfl⟩ := List.mem_map.mp hrow
      exact ⟨_, _, rfl⟩
  have hnone : ∀ (α : Type) (key : RunRow → Option α),
      (∀ status i, key (numberedRun status i) = none) → (crowded n).runs.filterMap key = [] := by
    intro α key hkey
    refine List.filterMap_eq_nil_iff.mpr fun row hmem => ?_
    obtain ⟨status, i, rfl⟩ := hrow row hmem
    exact hkey status i
  have hids : (crowded n).runs.filterMap (fun row => some row.runId) =
      (List.range (n + 1)).map fun i => String.ofList (List.replicate i 'r') := by
    rw [List.range_succ_eq_map, List.map_cons, List.map_map, crowded, List.filterMap_eq_map',
      List.map_cons, List.map_map]
    rfl
  refine ⟨?_, ?_, ?_, ?_, List.nodup_nil, List.nodup_nil, List.forall_mem_nil _, List.nodup_nil,
    List.forall_mem_nil _, List.nodup_nil, List.forall_mem_nil _, List.nodup_nil, List.nodup_nil⟩
  · rw [Table.Unique, hids]
    refine List.Nodup.map (fun i j hij => ?_) List.nodup_range
    have hlists := String.ofList_injective hij
    rw [← List.length_replicate (n := i) (a := 'r'), hlists, List.length_replicate]
  · rw [Table.Unique, hnone _ _ fun _ _ => rfl]
    exact List.nodup_nil
  · rw [Table.Unique, hnone _ _ fun _ _ => rfl]
    exact List.nodup_nil
  · rw [hnone _ _ fun _ _ => rfl]
    exact List.forall_mem_nil _

/-- A run that was never started is missed once a thousand newer runs have completed. -/
theorem not_activeRuns_perm_crowded :
    (crowded 1000).Valid ∧
      ¬ ((crowded 1000).activeRuns "p1").Perm ((crowded 1000).liveRuns "p1") := by
  refine ⟨crowded_valid 1000, fun hperm => ?_⟩
  have hlive : (numberedRun .created 0).toRunRecord ∈ (crowded 1000).liveRuns "p1" :=
    List.mem_map.mpr ⟨_, List.mem_filter.mpr ⟨List.mem_cons_self, rfl⟩, rfl⟩
  have hactive := hperm.mem_iff.mpr hlive
  unfold activeRuns listRuns at hactive
  rw [newestFirst_crowded, List.take_left' (by simp)] at hactive
  obtain ⟨hmem, hstatus⟩ := List.mem_filter.mp (List.mem_reverse.mp hactive)
  obtain ⟨row, hrow, heq⟩ := List.mem_map.mp hmem
  obtain ⟨i, -, rfl⟩ := List.mem_map.mp (List.mem_reverse.mp hrow)
  rw [← heq] at hstatus
  cases hstatus

end Tables

/-! ## Listing runs -/

/-- What decides whether and where a run is listed. -/
def RunRow.listKey (row : RunRow) : String × String × ℤ :=
  (row.runId, row.projectId, row.createdAt)

namespace Tables

def listedIds (t : Tables) (projectId : String) : List String :=
  ((t.newestFirst projectId).take 1000).map fun row => row.runId

theorem listedIds_eq {t t' : Tables}
    (h : t'.runs.map RunRow.listKey = t.runs.map RunRow.listKey) (projectId : String) :
    t'.listedIds projectId = t.listedIds projectId := by
  have hkeys (u : Tables) : (u.newestFirst projectId).map RunRow.listKey =
      ((u.runs.map RunRow.listKey).filter fun key => key.2.1 = projectId).reverse.insertionSort
        fun a b => b.2.2 ≤ a.2.2 := by
    unfold newestFirst
    rw [List.filter_map, ← List.map_reverse]
    exact List.map_insertionSort _ _ _ _ fun _ _ _ _ => Iff.rfl
  have hids (u : Tables) : u.listedIds projectId =
      (((u.newestFirst projectId).map RunRow.listKey).take 1000).map Prod.fst := by
    unfold listedIds
    rw [← List.map_take, List.map_map]
    rfl
  rw [hids, hids, hkeys, hkeys, h]

theorem mem_newestFirst {t : Tables} {projectId : String} {row : RunRow}
    (h : row ∈ t.newestFirst projectId) : row ∈ t.runs := by
  have hmem := (List.mem_insertionSort _).mp h
  exact List.mem_of_mem_filter (List.mem_reverse.mp hmem)

theorem Valid.mem_activeRuns_iff {t : Tables} (hvalid : t.Valid) {projectId : String}
    {run : RunRecord} :
    run ∈ t.activeRuns projectId ↔
      (∃ row, t.findRun run.runId = some row ∧ row.toRunRecord = run) ∧
        run.runId ∈ t.listedIds projectId ∧ run.status.isActive = true := by
  unfold activeRuns listRuns listedIds
  rw [List.mem_reverse, List.mem_filter, List.mem_map]
  constructor
  · rintro ⟨⟨row, hrow, rfl⟩, hactive⟩
    have hmem := mem_newestFirst (List.mem_of_mem_take hrow)
    exact ⟨⟨row, hvalid.findRun_eq_some hmem, rfl⟩, List.mem_map.mpr ⟨row, hrow, rfl⟩, hactive⟩
  · rintro ⟨⟨row, hfind, rfl⟩, hlisted, hactive⟩
    obtain ⟨listed, hmem, hid⟩ := List.mem_map.mp hlisted
    have hfound := hvalid.findRun_eq_some (mem_newestFirst (List.mem_of_mem_take hmem))
    rw [hid] at hfound
    obtain rfl := Option.some.inj (hfind.symm.trans hfound)
    exact ⟨⟨row, hmem, rfl⟩, hactive⟩

theorem Valid.activeRuns_nodup {t : Tables} (hvalid : t.Valid) (projectId : String) :
    ((t.activeRuns projectId).map fun run => run.runId).Nodup := by
  have hunique : (t.runs.map fun row => row.runId).Nodup := by
    have hprimary := hvalid.runs_primary
    unfold Table.Unique at hprimary
    rwa [List.filterMap_eq_map'] at hprimary
  have hsub : (t.newestFirst projectId).map (fun row => row.runId) |>.Nodup := by
    have hperm := (List.perm_insertionSort (fun a b : RunRow => b.createdAt ≤ a.createdAt)
      ((t.runs.filter fun row => row.projectId = projectId).reverse)).map fun row => row.runId
    refine hperm.nodup_iff.mpr ?_
    rw [List.map_reverse, List.nodup_reverse]
    exact hunique.sublist (List.filter_sublist.map _)
  unfold activeRuns listRuns
  rw [List.map_reverse, List.nodup_reverse]
  refine List.Nodup.sublist (List.filter_sublist.map _) ?_
  rw [List.map_map]
  exact hsub.sublist ((List.take_sublist _ _).map _)

/-- The tables differ at most in one run and in the journal. -/
structure OnlyRun (runId : String) (t t' : Tables) : Prop where
  keys : t'.runs.map RunRow.listKey = t.runs.map RunRow.listKey
  others : ∀ other, other ≠ runId → t'.findRun other = t.findRun other

theorem onlyRun_updateRun (t : Tables) (runId : String) (f : RunRow → RunRow)
    (hkey : ∀ row, (f row).listKey = row.listKey) : t.OnlyRun runId (t.updateRun runId f) where
  keys := Table.map_updateWhere RunRow.listKey hkey t.runs
  others other hne := by
    rw [findRun_updateRun t runId other fun row => congrArg Prod.fst (hkey row), if_neg hne]

theorem OnlyRun.trans {runId : String} {t t' t'' : Tables} (h : t.OnlyRun runId t')
    (h' : t'.OnlyRun runId t'') : t.OnlyRun runId t'' where
  keys := h'.keys.trans h.keys
  others other hne := (h'.others other hne).trans (h.others other hne)

end Tables

/-- A successful append changes at most its own run and the journal. -/
theorem appendEvent_onlyRun {input : RegistryInput} {runId : String} {event : JournalEvent}
    {update : Option RunUpdate} {outcome : AppendOutcome} {r r' : Registry}
    (h : appendEvent input runId event update r = .ok (outcome, r')) :
    r.contents.OnlyRun runId r'.contents := by
  obtain ⟨row, hfind, ⟨_, _, _, rfl⟩ | ⟨_, _, hrest⟩⟩ := appendEvent_ok h
  · exact ⟨rfl, fun _ _ => rfl⟩
  · obtain rfl := Tables.findRun_runId hfind
    have hfirst : r.contents.OnlyRun row.runId (r.contents.appended input row event) := by
      obtain ⟨hkeys, hothers⟩ := Tables.onlyRun_updateRun
        (r.contents.insertEvent (event.row row.runId (row.lastEventSeq + 1) (input.clock 0)))
        row.runId (RunRow.journalled (row.lastEventSeq + 1) (input.clock 1)) fun _ => rfl
      exact ⟨hkeys, hothers⟩
    rcases hrest with ⟨_, hcontents⟩ | ⟨u, _, _, hcontents⟩
    · rw [hcontents]
      exact hfirst
    · rw [hcontents]
      exact hfirst.trans (Tables.onlyRun_updateRun _ row.runId _ fun _ => rfl)

/-- The row after an event was stored: bookkeeping, and the update it carries. -/
theorem appendEvent_stored {input : RegistryInput} {runId : String} {event : JournalEvent}
    {update : Option RunUpdate} {seq : ℕ} {r r' : Registry}
    (h : appendEvent input runId event update r = .ok (.appended seq, r')) {row : RunRow}
    (hrow : r.contents.findRun runId = some row) :
    r'.contents.runEvents.length = r.contents.runEvents.length + 1 ∧
      ∃ row', r'.contents.findRun runId = some row' ∧
        ((update = none ∧ row.SameRun row') ∨
          ∃ u now, update = some u ∧ validateTransition row.status (u.target row) = .ok () ∧
            (u.apply now (u.target row) row).SameRun row') := by
  obtain ⟨found, hfind, ⟨_, _, hdup, _⟩ | ⟨_, _, hrest⟩⟩ := appendEvent_ok h
  · cases hdup
  · obtain rfl := Option.some.inj (hrow.symm.trans hfind)
    obtain rfl := Tables.findRun_runId hrow
    have hlength : (r.contents.appended input row event).runEvents.length =
        r.contents.runEvents.length + 1 := List.length_append
    have hmid := Tables.findRun_appended hrow input event
    rcases hrest with ⟨hnone, hcontents⟩ | ⟨u, hu, hvalid, hcontents⟩
    · rw [hcontents]
      exact ⟨hlength, _, hmid, Or.inl ⟨hnone, .journalled row _ _⟩⟩
    · rw [hcontents]
      refine ⟨hlength, _, ?_, Or.inr ⟨u, input.clock 2, hu, hvalid,
        (RunRow.SameRun.journalled row (row.lastEventSeq + 1) (input.clock 1)).apply u _ _⟩⟩
      have hid (old : RunRow) : (u.apply (input.clock 2) (u.target row) old).runId = old.runId :=
        rfl
      rw [Tables.findRun_updateRun _ _ _ hid, if_pos rfl, hmid]
      rfl

theorem appendEvent_row {input : RegistryInput} {runId : String} {event : JournalEvent}
    {update : Option RunUpdate} {outcome : AppendOutcome} {r r' : Registry}
    (hkey : event.dedupeKey = none) (h : appendEvent input runId event update r = .ok (outcome, r'))
    {row : RunRow} (hrow : r.contents.findRun runId = some row) :
    r'.contents.runEvents.length = r.contents.runEvents.length + 1 ∧
      ∃ row', r'.contents.findRun runId = some row' ∧
        ((update = none ∧ row.SameRun row') ∨
          ∃ u now, update = some u ∧ validateTransition row.status (u.target row) = .ok () ∧
            (u.apply now (u.target row) row).SameRun row') := by
  obtain ⟨found, _, ⟨_, hdup, _⟩ | ⟨_, rfl, _⟩⟩ := appendEvent_ok h
  · rw [hkey] at hdup
    cases hdup
  · exact appendEvent_stored h hrow

theorem RegistryCall.runEvents_length_le {α : Type} (call : RegistryCall α)
    (input : RegistryInput) (r : Registry) :
    r.contents.runEvents.length ≤ (call.exec input r).2.contents.runEvents.length := by
  have hchange {a b : Tables} {label : Option (String × RunUpdate)} (h : Change a label b) :
      a.runEvents.length ≤ b.runEvents.length := by
    cases h with
    | eventAppended =>
      have hlength (e : EventRow) : (a.insertEvent e).runEvents.length = a.runEvents.length + 1 :=
        List.length_append
      exact (Nat.le_succ _).trans (hlength _).ge
    | _ => exact Nat.le_refl _
  obtain ⟨mid, hfirst, hsecond⟩ := call.exec_effect input r
  have hmid : r.contents.runEvents.length ≤ mid.contents.runEvents.length := by
    rcases hfirst with rfl | hfirst
    · exact Nat.le_refl _
    · exact hchange hfirst
  rcases hsecond with hlast | ⟨label, _, hlast⟩
  · rw [hlast]
    exact hmid
  · exact hmid.trans (hchange hlast)

theorem RegistryCall.exec_journalNumbered {α : Type} (call : RegistryCall α)
    (input : RegistryInput) {r : Registry} (h : r.contents.JournalNumbered) :
    (call.exec input r).2.contents.JournalNumbered :=
  (call.exec_effect input r).changes.induction h fun _ _ _ hchange hnumbered =>
    hchange.journalNumbered hnumbered

/-! # What the registry grants once -/

namespace Tables

variable {t : Tables}

/-- A change of run rows that keeps keys, identifiers and requests keeps the run found under
a key. -/
theorem findIdempotent_updateRun {projectId key : String} {first : RunRow}
    (h : t.findIdempotent projectId key = some first) (runId : String) {f : RunRow → RunRow}
    (hkey : ∀ row, idempotencyIndex (f row) = idempotencyIndex row)
    (hid : ∀ row, (f row).runId = row.runId)
    (hrequest : ∀ row, (f row).requestFingerprint = row.requestFingerprint) :
    ∃ row, (t.updateRun runId f).findIdempotent projectId key = some row ∧
      row.runId = first.runId ∧ row.requestFingerprint = first.requestFingerprint := by
  refine ⟨if first.runId = runId then f first else first, ?_, ?_, ?_⟩
  · unfold findIdempotent at h
    unfold findIdempotent updateRun
    rw [Table.find?_updateWhere (fun row => by rw [hkey]), h]
    simp only [decide_eq_true_eq, Option.map_some]
  · split
    · exact hid first
    · rfl
  · split
    · exact hrequest first
    · rfl

/-- Adding a run with a new identifier, a free key and a known original keeps the schema. -/
theorem Valid.insertRun (h : t.Valid) {row : RunRow} (hid : row.runId ∉ t.runIds)
    (hkey : ∀ projectId key, idempotencyIndex row = some (projectId, key) →
      t.findIdempotent projectId key = none)
    (hhermes : row.hermesRunId = none)
    (hretry : ∀ original, row.retryOfRunId = some original → original ∈ t.runIds) :
    (t.insertRun row).Valid where
  runs_primary := by
    refine Table.unique_append_singleton.mpr ⟨h.runs_primary, fun runId hrow old hold heq => ?_⟩
    refine hid (List.mem_map.mpr ⟨old, hold, ?_⟩)
    exact Option.some.inj (heq.trans hrow.symm)
  runs_idempotency := by
    refine Table.unique_append_singleton.mpr ⟨h.runs_idempotency, fun k hrow old hold heq => ?_⟩
    have hnone := List.find?_eq_none.mp (hkey k.1 k.2 hrow) old hold
    simp only [heq, decide_true, not_true] at hnone
  runs_hermesRunId := by
    refine Table.unique_append_singleton.mpr ⟨h.runs_hermesRunId, fun k hrow => ?_⟩
    rw [hhermes] at hrow
    cases hrow
  runs_retryOf := by
    intro original horiginal
    have hmem : original ∈ t.runIds := by
      simp only [Tables.insertRun, List.filterMap_append, List.mem_append] at horiginal
      rcases horiginal with horiginal | horiginal
      · exact h.runs_retryOf original horiginal
      · exact hretry original (by simpa using horiginal)
    simpa only [runIds, Tables.insertRun, List.map_append, List.mem_append] using Or.inl hmem
  events_primary := h.events_primary
  events_dedupe := h.events_dedupe
  events_run := fun event hevent => by
    simpa only [runIds, Tables.insertRun, List.map_append, List.mem_append] using
      Or.inl (h.events_run event hevent)
  approvals_primary := h.approvals_primary
  approvals_run := fun approval happroval => by
    simpa only [runIds, Tables.insertRun, List.map_append, List.mem_append] using
      Or.inl (h.approvals_run approval happroval)
  subscriptions_primary := h.subscriptions_primary
  subscriptions_run := fun row hrow => by
    simpa only [runIds, Tables.insertRun, List.map_append, List.mem_append] using
      Or.inl (h.subscriptions_run row hrow)
  commands_primary := h.commands_primary
  outbox_primary := h.outbox_primary

end Tables

/-- The run under a key keeps its identity and its request through every change. -/
theorem Change.findIdempotent {r r' : Registry} {label : Option (String × RunUpdate)}
    (hchange : Change r.contents label r'.contents) {projectId key : String} {first : RunRow}
    (hfirst : r.contents.findIdempotent projectId key = some first) :
    ∃ row, r'.contents.findIdempotent projectId key = some row ∧ row.runId = first.runId ∧
      row.requestFingerprint = first.requestFingerprint := by
  generalize r'.contents = t' at hchange
  cases hchange with
  | runInserted request runId now =>
    refine ⟨first, ?_, rfl, rfl⟩
    unfold Tables.findIdempotent at hfirst ⊢
    rw [Tables.insertRun, List.find?_append, hfirst, Option.some_or]
  | runUpdated runId row update now =>
    exact Tables.findIdempotent_updateRun hfirst runId (fun _ => rfl) (fun _ => rfl) fun _ => rfl
  | eventAppended runId row event now now' =>
    have hsame :
        (r.contents.insertEvent (event.row runId (row.lastEventSeq + 1) now)).findIdempotent
        projectId key = some first := hfirst
    exact Tables.findIdempotent_updateRun hsame runId (fun _ => rfl) (fun _ => rfl) fun _ => rfl
  | policySet runId state =>
    exact Tables.findIdempotent_updateRun hfirst runId (fun _ => rfl) (fun _ => rfl) fun _ => rfl
  | approvalRequested | approvalDecided | approvalResolved | subscriptionsChanged
  | commandAdmitted | commandUpdated | outboxChanged => exact ⟨first, hfirst, rfl, rfl⟩

/-- The run under a key keeps its identity and its request through every later operation. -/
theorem Registry.play_findIdempotent {r : Registry} {projectId key : String} {first : RunRow}
    (hfirst : r.contents.findIdempotent projectId key = some first) (later : List RegistryOp) :
    ∃ row, (r.play later).contents.findIdempotent projectId key = some row ∧
      row.runId = first.runId ∧ row.requestFingerprint = first.requestFingerprint := by
  refine (r.play_changes later).induction (motive := fun r => ∃ row,
    r.contents.findIdempotent projectId key = some row ∧ row.runId = first.runId ∧
      row.requestFingerprint = first.requestFingerprint) ⟨first, hfirst, rfl, rfl⟩ ?_
  rintro a b label hchange ⟨row, hrow, hid, hrequest⟩
  obtain ⟨row', hrow', hid', hrequest'⟩ := hchange.findIdempotent hrow
  exact ⟨row', hrow', hid'.trans hid, hrequest'.trans hrequest⟩

/-- A request under a stored key is answered from the stored run and changes nothing. -/
theorem Registry.exec_createRun_known (r : Registry) {request : NewRun} {key : String}
    {first : RunRow} (hkey : request.idempotencyKey = some key)
    (hfirst : r.contents.findIdempotent request.projectId key = some first)
    {input : RegistryInput} (hstorage : input.storage = true) :
    (RegistryCall.createRun request).exec input r =
      (if first.requestFingerprint = requestFingerprint request then
          .ok (.existing first.toRunRecord)
        else .error (.idempotencyConflict ⟨request.projectId, key, first.runId⟩), r) := by
  unfold RegistryCall.exec
  rw [if_pos hstorage]
  unfold RegistryCall.transaction createRun Transaction.commit
  simp only [Transaction.get_bind, hkey, hfirst]
  by_cases hsame : first.requestFingerprint = requestFingerprint request
  · simp only [hsame, ne_eq, not_true, if_false, if_true]
    rfl
  · simp only [hsame, ne_eq, not_false_eq_true, if_true, if_false]
    rfl

/-- A request under a free key stores its run, provided the drawn identifier is new and the
run it retries exists. -/
theorem Registry.exec_createRun_free (r : Registry) {request : NewRun} {key : String}
    (hkey : request.idempotencyKey = some key)
    (hfree : r.contents.findIdempotent request.projectId key = none)
    {input : RegistryInput} (hstorage : input.storage = true)
    (hid : input.runId ∉ r.contents.runIds)
    (hretry : ∀ original, request.retryOfRunId = some original → original ∈ r.contents.runIds) :
    ∃ r', (RegistryCall.createRun request).exec input r =
        (.ok (.created (request.row input.runId (input.clock 0)).toRunRecord), r') ∧
      r'.contents.findIdempotent request.projectId key =
        some (request.row input.runId (input.clock 0)) := by
  have hvalid : r.contents.Valid := r.valid
  have hindex : idempotencyIndex (request.row input.runId (input.clock 0)) =
      some (request.projectId, key) := by
    simp only [idempotencyIndex, NewRun.row, hkey, Option.map_some]
  have hinsert : (r.contents.insertRun (request.row input.runId (input.clock 0))).Valid := by
    refine hvalid.insertRun hid (fun projectId key' heq => ?_) rfl hretry
    obtain ⟨rfl, rfl⟩ := Prod.mk.inj (Option.some.inj (hindex.symm.trans heq))
    exact hfree
  refine ⟨⟨_, hinsert⟩, ?_, ?_⟩
  · have htx : createRun input request r =
        .ok (.created (request.row input.runId (input.clock 0)).toRunRecord, ⟨_, hinsert⟩) := by
      unfold createRun
      simp only [Transaction.get_bind, hkey, hfree]
      exact Transaction.bind_ok_iff.mpr ⟨(), _, Transaction.write_of_valid hinsert, rfl⟩
    unfold RegistryCall.exec
    rw [if_pos hstorage]
    exact Transaction.commit_ok_iff.mpr htx
  · change (r.contents.runs ++ [request.row input.runId (input.clock 0)]).find? _ = _
    unfold Tables.findIdempotent at hfree
    rw [List.find?_append, hfree, Option.none_or, List.find?_cons]
    simp only [hindex, decide_true]

/-- What callers that use idempotency keys rely on. -/
structure Registry.KeysHonoured (r : Registry) : Prop where
  /-- A project and a key name at most one run. -/
  unique : ∀ a ∈ r.contents.runs, ∀ b ∈ r.contents.runs, ∀ key, a.projectId = b.projectId →
    a.idempotencyKey = some key → b.idempotencyKey = some key → a = b
  /-- A request under a free key stores its run under the key. -/
  free : ∀ (request : NewRun) (key : String) (input : RegistryInput),
    request.idempotencyKey = some key →
    r.contents.findIdempotent request.projectId key = none → input.storage = true →
    input.runId ∉ r.contents.runIds →
    (∀ original, request.retryOfRunId = some original → original ∈ r.contents.runIds) →
    ∃ r', (RegistryCall.createRun request).exec input r =
        (.ok (.created (request.row input.runId (input.clock 0)).toRunRecord), r') ∧
      r'.contents.findIdempotent request.projectId key =
        some (request.row input.runId (input.clock 0))
  /-- Once a key is stored, and whatever is done in between, a request under it changes
  nothing. The same request gets the run first stored, and a different one gets the
  conflict that names that run. -/
  answered : ∀ (request : NewRun) (key : String) (first : RunRow) (later : List RegistryOp)
    (input : RegistryInput), request.idempotencyKey = some key →
    r.contents.findIdempotent request.projectId key = some first → input.storage = true →
    ∃ row, (r.play later).contents.findIdempotent request.projectId key = some row ∧
      row.runId = first.runId ∧ row.requestFingerprint = first.requestFingerprint ∧
      (RegistryCall.createRun request).exec input (r.play later) =
        (if first.requestFingerprint = requestFingerprint request then
            .ok (.existing row.toRunRecord)
          else .error (.idempotencyConflict ⟨request.projectId, key, first.runId⟩), r.play later)

/-- Idempotency keys are honoured at every point of every interleaving of registry
operations. -/
theorem Registry.play_keysHonoured (ops : List RegistryOp) :
    (Registry.empty.play ops).KeysHonoured where
  unique := fun a ha b hb key hproject hka hkb => by
    have hvalid : (Registry.empty.play ops).contents.Valid := (Registry.empty.play ops).valid
    refine hvalid.runs_idempotency.eq_of_mem ha hb (k := (a.projectId, key)) ?_ ?_
    · rw [idempotencyIndex, hka, Option.map_some]
    · rw [idempotencyIndex, hkb, Option.map_some, hproject]
  free := fun _ _ _ hkey hfree hstorage hid hretry =>
    exec_createRun_free _ hkey hfree hstorage hid hretry
  answered := fun request key first later input hkey hfirst hstorage => by
    obtain ⟨row, hrow, hid, hrequest⟩ := play_findIdempotent hfirst later
    refine ⟨row, hrow, hid, hrequest, ?_⟩
    rw [exec_createRun_known _ hkey hrow hstorage, hrequest, hid]

/-! ## Commands and decisions -/

theorem Change.findCommand {t t' : Tables} {label : Option (String × RunUpdate)}
    (hchange : Change t label t') {commandId : String} {record : RemoteCommandRecord}
    (hrecord : t.findCommand commandId = some record) :
    ∃ record', t'.findCommand commandId = some record' ∧
      record'.payloadDigest = record.payloadDigest := by
  cases hchange with
  | commandAdmitted new hnew =>
    refine ⟨record, ?_, rfl⟩
    unfold Tables.findCommand at hrecord ⊢
    rw [List.find?_append, hrecord, Option.some_or]
  | commandUpdated changed f hkeep =>
    have hid (row : RemoteCommandRecord) :
        decide ((f row).commandId = commandId) = decide (row.commandId = commandId) := by
      rw [(hkeep row).1]
    unfold Tables.findCommand at hrecord ⊢
    unfold Tables.updateCommand
    rw [Table.find?_updateWhere hid, hrecord]
    refine ⟨_, rfl, ?_⟩
    dsimp only
    split
    · exact (hkeep record).2.2.2
    · rfl
  | _ => exact ⟨record, hrecord, rfl⟩

theorem RegistryCall.exec_findCommand {α : Type} (call : RegistryCall α) (input : RegistryInput)
    {r : Registry} {commandId : String} {record : RemoteCommandRecord}
    (hrecord : r.contents.findCommand commandId = some record) :
    ∃ record', (call.exec input r).2.contents.findCommand commandId = some record' ∧
      record'.payloadDigest = record.payloadDigest := by
  refine (call.exec_effect input r).changes.induction
    (motive := fun s => ∃ record', s.contents.findCommand commandId = some record' ∧
      record'.payloadDigest = record.payloadDigest) ⟨record, hrecord, rfl⟩ ?_
  rintro a b label hchange ⟨found, hfound, hdigest⟩
  obtain ⟨record', hrecord', hkept⟩ := hchange.findCommand hfound
  exact ⟨record', hrecord', hkept.trans hdigest⟩

/-- A command that is admitted was unknown, and is recorded from then on. -/
theorem RegistryCall.exec_admit_fresh {commandId command : String} {projectId : Option String}
    {payloadDigest : String} {input : RegistryInput} {r r' : Registry}
    {record : RemoteCommandRecord}
    (h : (admitRemoteCommand commandId command projectId payloadDigest).exec input r =
      (.ok (.fresh record), r')) :
    r.contents.findCommand commandId = none ∧ r'.contents.findCommand commandId = some record := by
  rcases admitRemoteCommand_ok (exec_ok h) with ⟨stored, _, _, hadmission⟩ |
    ⟨new, hnone, hadmission, hid, _, hcontents⟩
  · rcases hadmission with ⟨_, hadmission⟩ | ⟨_, hadmission⟩ <;> cases hadmission
  · obtain rfl : record = new := CommandAdmission.fresh.inj hadmission
    refine ⟨hnone, ?_⟩
    unfold Tables.findCommand at hnone ⊢
    rw [hcontents, List.find?_append, hnone, Option.none_or]
    simp only [hid, decide_true, List.find?_cons_of_pos]

/-- A decision is stored for an approval request. -/
def Tables.Decided (t : Tables) (runId : String) (requestSeq : ℕ) : Prop :=
  ∃ row ∈ t.runApprovals, row.runId = runId ∧ row.requestSeq = requestSeq ∧ row.decision ≠ none

instance (t : Tables) (runId : String) (requestSeq : ℕ) :
    Decidable (t.Decided runId requestSeq) :=
  inferInstanceAs (Decidable (∃ row ∈ t.runApprovals,
    row.runId = runId ∧ row.requestSeq = requestSeq ∧ row.decision ≠ none))

theorem Tables.Decided.updateApprovals {t : Tables} {runId : String} {requestSeq : ℕ}
    (h : t.Decided runId requestSeq) (p : ApprovalRecord → Bool)
    {f : ApprovalRecord → ApprovalRecord}
    (hkeep : ∀ row, (f row).runId = row.runId ∧ (f row).requestSeq = row.requestSeq ∧
      (row.decision ≠ none → (f row).decision ≠ none)) :
    (t.updateApprovals p f).Decided runId requestSeq := by
  obtain ⟨row, hrow, hid, hseq, hdecision⟩ := h
  refine ⟨if p row then f row else row, Table.mem_updateWhere.mpr ⟨row, hrow, rfl⟩, ?_⟩
  obtain ⟨hkeepId, hkeepSeq, hkeepDecision⟩ := hkeep row
  split
  · exact ⟨hkeepId.trans hid, hkeepSeq.trans hseq, hkeepDecision hdecision⟩
  · exact ⟨hid, hseq, hdecision⟩

theorem Change.decided {t t' : Tables} {label : Option (String × RunUpdate)}
    (hchange : Change t label t') {runId : String} {requestSeq : ℕ}
    (h : t.Decided runId requestSeq) : t'.Decided runId requestSeq := by
  cases hchange with
  | approvalRequested =>
    obtain ⟨row, hrow, hdecided⟩ := h
    exact ⟨row, List.mem_append_left _ hrow, hdecided⟩
  | approvalDecided => exact h.updateApprovals _ fun row => ⟨rfl, rfl, fun _ => nofun⟩
  | approvalResolved => exact h.updateApprovals _ fun row => ⟨rfl, rfl, id⟩
  | _ => exact h

theorem RegistryCall.exec_decided {α : Type} (call : RegistryCall α) (input : RegistryInput)
    {r : Registry} {runId : String} {requestSeq : ℕ}
    (h : r.contents.Decided runId requestSeq) :
    (call.exec input r).2.contents.Decided runId requestSeq :=
  (call.exec_effect input r).changes.induction
    (motive := fun s => s.contents.Decided runId requestSeq) h
    fun _ _ _ hchange hdecided => hchange.decided hdecided

theorem RegistryCall.exec_claim {runId : String} {requestSeq : ℕ} {decision : String}
    {input : RegistryInput} {r r' : Registry}
    (h : (recordApprovalDecision runId requestSeq decision).exec input r = (.ok true, r')) :
    ¬r.contents.Decided runId requestSeq ∧ r'.contents.Decided runId requestSeq := by
  obtain ⟨hclaimed, hcontents⟩ := recordApprovalDecision_ok (exec_ok h)
  have hcount := beq_iff_eq.mp hclaimed.symm
  obtain ⟨row, hrow, hopen⟩ := List.countP_pos_iff.mp (hcount ▸ Nat.one_pos)
  obtain ⟨hid, hseq, hnone⟩ := of_decide_eq_true hopen
  constructor
  · rintro ⟨other, hother, hotherId, hotherSeq, hdecided⟩
    -- The two rows would be one row of the primary key.
    have hsame : other = row := r.valid.approvals_primary.eq_of_mem hother hrow
      (k := (runId, requestSeq)) (by rw [hotherId, hotherSeq]) (by rw [hid, hseq])
    rw [hsame] at hdecided
    exact hdecided hnone
  · rw [hcontents]
    refine ⟨_, Table.mem_updateWhere.mpr ⟨row, hrow, rfl⟩, ?_⟩
    rw [if_pos hopen]
    exact ⟨hid, hseq, nofun⟩

end Asterism
