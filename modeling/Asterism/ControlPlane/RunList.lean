import Asterism.Sorting.Stable
import Mathlib.Data.Prod.Lex
import Mathlib.Data.String.Basic

/-!
# The pages of the run list

The runs of an organization are listed newest first, in pages. A client asks for the next page with
the identifier of the last run it has seen. The list then begins after this identifier in the order
of identifiers, and not after this run in the order of the list.
-/

namespace Asterism.ControlPlane.RunList

variable {Id Time : Type}

/-- A run, as far as the list reads it. -/
structure Run (Id Time : Type) where
  runId : Id
  organizationId : String
  projectId : String
  nodeId : String
  status : String
  createdAt : Time
  deriving DecidableEq

structure Trash where
  projects : List String
  nodes : List String

structure Query (Id : Type) where
  projectId : Option String := none
  status : Option String := none
  limit : Option ℕ := none
  beforeId : Option Id := none

/-- The length of a page: a hundred if none is given, and at most two hundred. -/
def readLimit (limit : Option ℕ) : Option ℕ :=
  let limit := limit.getD 100
  if 1 ≤ limit ∧ limit ≤ 200 then some limit else none

/-- A filter that is not given admits everything. -/
def agrees (given : Option String) (value : String) : Bool :=
  given.all fun given => value = given

/-- The run is one of those that an ordinary view shows, and that were asked for. -/
def shown (trash : Trash) (organizationId : String) (query : Query Id) (run : Run Id Time) : Bool :=
  run.organizationId = organizationId && run.projectId ∉ trash.projects &&
    run.nodeId ∉ trash.nodes && agrees query.projectId run.projectId &&
    agrees query.status run.status

/-- What the list is ordered by: `created_at DESC, run_id DESC`. -/
def listKey (run : Run Id Time) : (Time ×ₗ Id)ᵒᵈ :=
  OrderDual.toDual (toLex (run.createdAt, run.runId))

theorem listKey_injOn {runs : List (Run Id Time)}
    (hids : (runs.map fun run => run.runId).Nodup) :
    ∀ run ∈ runs, ∀ other ∈ runs, listKey run = listKey other → run = other := by
  intro run hrun other hother h
  have hkey := toLex_inj.mp (OrderDual.toDual_inj.mp h)
  exact List.inj_on_of_nodup_map hids hrun hother (Prod.ext_iff.mp hkey).2

variable [LinearOrder Id] [LinearOrder Time]

def newestFirst (runs : List (Run Id Time)) : List (Run Id Time) := Sorting.sortBy listKey runs

/-- A run that comes before the cursor, by its identifier. -/
def beforeId (cursor : Option Id) (run : Run Id Time) : Bool :=
  cursor.all fun id => run.runId < id

/-- `GET /api/v1/runs`. A query that is not well formed is refused. -/
def listRuns (runs : List (Run Id Time)) (trash : Trash) (organizationId : String)
    (query : Query Id) : Option (List (Run Id Time)) :=
  (readLimit query.limit).map fun limit =>
    (newestFirst (runs.filter fun run =>
      shown trash organizationId query run && beforeId query.beforeId run)).take limit

def nextPage (runs : List (Run Id Time)) (trash : Trash) (organizationId : String)
    (query : Query Id) (last : Option (Run Id Time)) : List (Run Id Time) :=
  (listRuns runs trash organizationId
    { query with beforeId := last.map fun run => run.runId }).getD []

/-! ## The pages as pages of one list -/

section Pages

variable {runs : List (Run Id Time)} {p : Run Id Time → Bool}

theorem newestFirst_filter (hids : (runs.map fun run => run.runId).Nodup) :
    newestFirst (runs.filter p) = (newestFirst runs).filter p := by
  have hperm : (newestFirst (runs.filter p)).Perm ((newestFirst runs).filter p) :=
    (List.perm_insertionSort _ _).trans ((List.perm_insertionSort _ runs).filter p).symm
  refine hperm.eq_of_pairwise (fun run other hrun hother hle hge => ?_)
    (Sorting.pairwise_sortBy _ _) ((Sorting.pairwise_sortBy _ _).filter p)
  refine listKey_injOn hids run ?_ other ?_ (le_antisymm hle hge)
  · exact List.mem_of_mem_filter ((List.mem_insertionSort _).mp hrun)
  · exact (List.mem_insertionSort _).mp (List.mem_of_mem_filter hother)

theorem nodup_newestFirst (hids : (runs.map fun run => run.runId).Nodup) :
    (newestFirst runs).Nodup :=
  (List.perm_insertionSort _ runs).nodup_iff.mpr hids.of_map

theorem take_newestFirst (hids : (runs.map fun run => run.runId).Nodup)
    {admits : Run Id Time → Run Id Time → Bool} (limit : ℕ) (cursor : Option (Run Id Time)) :
    (newestFirst (runs.filter fun run => p run && cursor.all fun last => admits last run)).take
        limit =
      Paging.pageOf admits limit (newestFirst (runs.filter p)) cursor := by
  have hids' : ((runs.filter p).map fun run => run.runId).Nodup :=
    hids.sublist (List.filter_sublist.map _)
  have hfilter : (runs.filter fun run => p run && cursor.all fun last => admits last run) =
      (runs.filter p).filter fun run => cursor.all fun last => admits last run := by
    rw [List.filter_filter]
    exact List.filter_congr fun run _ => Bool.and_comm _ _
  rw [hfilter, newestFirst_filter hids']
  cases cursor with
  | none => exact congrArg (List.take limit) (List.filter_eq_self.mpr fun _ _ => rfl)
  | some last => rfl

theorem nextPage_eq (hids : (runs.map fun run => run.runId).Nodup) {trash : Trash}
    {organizationId : String} {query : Query Id} {limit : ℕ}
    (hlimit : readLimit query.limit = some limit) :
    nextPage runs trash organizationId query =
      Paging.pageOf (fun last run => run.runId < last.runId) limit
        (newestFirst (runs.filter (shown trash organizationId query))) := by
  funext cursor
  rw [← take_newestFirst hids]
  unfold nextPage listRuns
  rw [hlimit]
  cases cursor <;> rfl

theorem readLimit_pos {given : Option ℕ} {limit : ℕ} (h : readLimit given = some limit) :
    0 < limit := by
  unfold readLimit at h
  dsimp only at h
  split at h
  case isTrue hrange =>
    rw [← Option.some.inj h]
    exact hrange.1
  · cases h

end Pages

/-- The pages give every run once, newest first, exactly if the last run of each page has a greater
identifier than the runs that come after it, and than no others. -/
theorem follow_listRuns_iff (runs : List (Run Id Time))
    (hids : (runs.map fun run => run.runId).Nodup) (trash : Trash) (organizationId : String)
    (query : Query Id) (limit : ℕ) (hlimit : readLimit query.limit = some limit) (rounds : ℕ)
    (hrounds : runs.length < rounds) :
    Paging.follow (nextPage runs trash organizationId query) rounds none =
        newestFirst (runs.filter (shown trash organizationId query)) ↔
      ∀ before last after,
        newestFirst (runs.filter (shown trash organizationId query)) = before ++ last :: after →
        limit ∣ before.length + 1 ∨ after = [] →
        ∀ run ∈ newestFirst (runs.filter (shown trash organizationId query)),
          run.runId < last.runId ↔ run ∈ after := by
  have hids' : ((runs.filter (shown trash organizationId query)).map
      fun run => run.runId).Nodup := hids.sublist (List.filter_sublist.map _)
  have hlength : (newestFirst (runs.filter (shown trash organizationId query))).length <
      rounds := by
    rw [newestFirst, List.length_insertionSort]
    exact (List.length_filter_le _ _).trans_lt hrounds
  rw [nextPage_eq hids hlimit, Paging.follow_eq_iff (fun a b c hab hbc => ?_)
    (readLimit_pos hlimit) (nodup_newestFirst hids') hlength]
  · simp only [Paging.Continues, decide_eq_true_eq]
  · exact decide_eq_true ((of_decide_eq_true hbc).trans (of_decide_eq_true hab))

def sampleRun (runId : String) (createdAt : ℕ) : Run String ℕ :=
  ⟨runId, "o1", "p1", "n1", "completed", createdAt⟩

/-- The newer run has the smaller identifier, and the older run is never listed. -/
theorem follow_listRuns_skips :
    Paging.follow (nextPage [sampleRun "run_b" 1, sampleRun "run_a" 2] ⟨[], []⟩ "o1"
        { limit := some 1 }) 3 none = [sampleRun "run_a" 2] ∧
      newestFirst ([sampleRun "run_b" 1, sampleRun "run_a" 2].filter
          (shown ⟨[], []⟩ "o1" { limit := some 1 })) =
        [sampleRun "run_a" 2, sampleRun "run_b" 1] := by
  decide

/-- With identifiers that grow with time, the older run is on the next page. -/
theorem follow_listRuns_growing :
    (sampleRun "run_a" 1).runId < (sampleRun "run_b" 2).runId ↔
      sampleRun "run_a" 1 ∈ [sampleRun "run_a" 1] :=
  (follow_listRuns_iff [sampleRun "run_a" 1, sampleRun "run_b" 2] (by decide) ⟨[], []⟩ "o1"
    { limit := some 1 } 1 rfl 3 (by decide)).mp (by decide) [] (sampleRun "run_b" 2)
    [sampleRun "run_a" 1] (by decide) (.inl (by decide)) (sampleRun "run_a" 1) (by decide)

end Asterism.ControlPlane.RunList
