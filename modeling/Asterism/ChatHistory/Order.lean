import Asterism.Hermes
import Asterism.Forest.Lineage
import Asterism.Sorting.Stable
import Mathlib.Data.Fintype.EquivFin

/-!
# The order of the runs

The runs are searched and sorted by the time they were created, and times can tie. Two messages of
one session that were asked at the same time are sent in the order in which the runs were listed,
and of two attempts that ended with an answer and were created at the same time the later one
listed may decide. The history does not depend on the order of the runs exactly if no such tie
has different outcomes.
-/

namespace Asterism.ChatHistory

/-! ## The attempts of a message -/

/-- The retries of a retry, and so on. -/
abbrev Lineage (runs : List RunRecord) : List RunRecord → Prop :=
  Forest.Lineage RunRecord.runId RunRecord.retryOfRunId runs

/-- The retries of a run, their retries, and so on, as the search finds them. -/
abbrev retriesOf (runs : List RunRecord) (runId : String) : List RunRecord :=
  Forest.descendants RunRecord.runId RunRecord.retryOfRunId runs runId

/-- The search of the Node is the loop with a stack. -/
theorem descend_eq_search (runs : List RunRecord) (rounds : ℕ) (frontier : List String)
    (chain : List RunRecord) :
    descend runs rounds frontier chain =
      Forest.search RunRecord.runId RunRecord.retryOfRunId runs rounds frontier chain := by
  induction rounds generalizing frontier chain with
  | zero => rfl
  | succ rounds ih =>
    cases frontier with
    | nil => rfl
    | cons parent frontier => exact ih _ _

/-- The search ends: more rounds find nothing more. -/
theorem descend_eq {runs : List RunRecord} (hids : (runs.map RunRecord.runId).Nodup)
    {root : RunRecord} (hroot : Lineage runs [root]) {rounds : ℕ}
    (hrounds : runs.length + 1 ≤ rounds) (chain : List RunRecord) :
    descend runs rounds [root.runId] chain = chain ++ retriesOf runs root.runId := by
  rw [descend_eq_search]
  exact (Forest.search_singleton hids hroot hrounds chain).2

theorem attemptChain_eq {runs : List RunRecord} (hids : (runs.map RunRecord.runId).Nodup)
    {root : RunRecord} (hroot : Lineage runs [root]) :
    attemptChain runs root.runId = (root :: retriesOf runs root.runId).insertionSort
      fun a b => a.createdAt ≤ b.createdAt := by
  have hfirst : (runs.filter fun run => run.runId = root.runId) = [root] := by
    have hnodup : runs.Nodup := hids.of_map
    refine List.perm_singleton.mp ((List.perm_ext_iff_of_nodup (hnodup.filter _)
      (List.nodup_singleton root)).mpr fun run => ?_)
    rw [List.mem_filter, List.mem_singleton, decide_eq_true_eq]
    constructor
    · rintro ⟨hrun, hid⟩
      exact List.inj_on_of_nodup_map hids hrun hroot.mem hid
    · rintro rfl
      exact ⟨hroot.mem, rfl⟩
  rw [attemptChain, descend_eq hids hroot le_rfl, hfirst, List.singleton_append]

/-! ## What is kept -/

/-- The answered turns, oldest first. -/
def eligibleTurns (runs : List RunRecord) (sessionId currentRunId : String) : List Turn :=
  (collectTurns runs sessionId currentRunId).insertionSort fun a b => a.createdAt ≤ b.createdAt

/-- Dropping the oldest turns leaves the longest rest that fits. -/
theorem fit_spec (maxBytes : ℕ) (turns : List Turn) :
    fit maxBytes turns <:+ turns ∧
      (fit maxBytes turns = [] ∨ serializedBytes (fit maxBytes turns) ≤ maxBytes) ∧
      ∀ other, other <:+ turns → serializedBytes other ≤ maxBytes →
        other <:+ fit maxBytes turns := by
  induction turns with
  | nil => exact ⟨List.suffix_refl _, .inl rfl, fun other hother _ => hother⟩
  | cons turn turns ih =>
    obtain ⟨hsuffix, hfits, hlongest⟩ := ih
    by_cases hlong : maxBytes < serializedBytes (turn :: turns)
    · rw [fit, if_pos hlong]
      refine ⟨hsuffix.trans (List.suffix_cons turn turns), hfits, fun other hother hsize => ?_⟩
      rcases List.suffix_cons_iff.mp hother with rfl | hother
      · omega
      · exact hlongest other hother hsize
    · rw [fit, if_neg hlong]
      exact ⟨List.suffix_refl _, .inr (Nat.le_of_not_lt hlong), fun other hother _ => hother⟩

theorem suffix_drop {α : Type} {kept turns : List α} {maxTurns : ℕ} (hkept : kept <:+ turns)
    (hfew : kept.length ≤ maxTurns) : kept <:+ turns.drop (turns.length - maxTurns) := by
  refine List.suffix_of_suffix_length_le hkept (List.drop_suffix _ _) ?_
  have hle := hkept.length_le
  rw [List.length_drop]
  omega

/-- A history that keeps the longest rest of the turns within both limits. -/
structure Fits (eligible : List Turn) (limits : HistoryLimits) (built : BuiltHistory)
    (kept : List Turn) : Prop where
  /-- The newest turns are kept, in chronological order. -/
  newest : kept <:+ eligible
  sent : built.messages = messages kept
  reported : built.bytes = serializedBytes kept
  counted : kept.length + built.omittedTurns = eligible.length
  few : kept.length ≤ limits.maxTurns
  short : kept = [] ∨ serializedBytes kept ≤ limits.maxBytes
  /-- No longer rest is within the limits. -/
  longest : ∀ other, other <:+ eligible → other.length ≤ limits.maxTurns →
    serializedBytes other ≤ limits.maxBytes → other <:+ kept

theorem exists_fits (runs : List RunRecord) (sessionId currentRunId : String)
    (limits : HistoryLimits) :
    ∃ kept, Fits (eligibleTurns runs sessionId currentRunId) limits
      (build runs sessionId currentRunId limits) kept := by
  let turns := eligibleTurns runs sessionId currentRunId
  let recent := turns.drop (turns.length - limits.maxTurns)
  obtain ⟨hsuffix, hfits, hlongest⟩ := fit_spec limits.maxBytes recent
  have hnewest : fit limits.maxBytes recent <:+ turns := hsuffix.trans (List.drop_suffix _ _)
  have hbuild : build runs sessionId currentRunId limits =
      ⟨messages (fit limits.maxBytes recent),
        turns.length - (fit limits.maxBytes recent).length,
        serializedBytes (fit limits.maxBytes recent)⟩ := rfl
  rw [hbuild]
  refine ⟨fit limits.maxBytes recent, hnewest, ?_, ?_, ?_, ?_, hfits,
    fun other hother hfew hsize => hlongest other (suffix_drop hother hfew) hsize⟩
  · dsimp only
  · dsimp only
  · exact Nat.add_sub_cancel' hnewest.length_le
  · refine hsuffix.length_le.trans ?_
    rw [List.length_drop]
    omega

/-- The history is the longest one that fits, of the answered turns in chronological order. -/
theorem build_keeps_longest (runs : List RunRecord) (sessionId currentRunId : String)
    (limits : HistoryLimits) :
    (eligibleTurns runs sessionId currentRunId).Perm (collectTurns runs sessionId currentRunId) ∧
      (eligibleTurns runs sessionId currentRunId).Pairwise (fun a b => a.createdAt ≤ b.createdAt) ∧
      (∃ kept, Fits (eligibleTurns runs sessionId currentRunId) limits
        (build runs sessionId currentRunId limits) kept) ∧
      ((runs.map RunRecord.runId).Nodup → ∀ root ∈ runs, root.retryOfRunId = none →
        ∀ rounds, runs.length + 1 ≤ rounds → ∀ chain,
          descend runs rounds [root.runId] chain =
            descend runs (runs.length + 1) [root.runId] chain) := by
  refine ⟨List.perm_insertionSort _ _, Sorting.pairwise_sortBy Turn.createdAt _,
    exists_fits runs sessionId currentRunId limits,
    fun hids root hmem hroot rounds hrounds chain => ?_⟩
  have hline : Lineage runs [root] := .root hmem hroot
  rw [descend_eq hids hline hrounds, descend_eq hids hline le_rfl]

/-! ## The order of the runs -/

def answer (run : RunRecord) : Option String :=
  if run.status = .completed then run.resultPayload.bind fun payload => textField payload "output"
  else none

def prompt (run : RunRecord) : Option String :=
  (textField run.requestPayload "input").map fun user =>
    user ++ Attachments.historySuffix
      (match Attachments.parse (run.requestPayload.get "attachments") with
        | .ok attachments => attachments
        | .error _ => [])

def attempts (runs : List RunRecord) (root : RunRecord) : List RunRecord :=
  root :: retriesOf runs root.runId

/-- The answer that is sent for a message. -/
def finalAnswer (runs : List RunRecord) (root : RunRecord) : Option String :=
  latestCompletedAnswer (attemptChain runs root.runId)

/-- The newest attempt with an answer decides. -/
theorem latestCompletedAnswer_eq (chain : List RunRecord) :
    latestCompletedAnswer chain = chain.reverse.findSome? answer := by
  unfold latestCompletedAnswer
  induction chain.reverse with
  | nil => rfl
  | cons run rest ih =>
    by_cases hcompleted : run.status = .completed
    · have hanswer : answer run = run.resultPayload.bind fun payload =>
          textField payload "output" := if_pos hcompleted
      rw [List.filter_cons, if_pos (decide_eq_true hcompleted), List.findSome?_cons,
        List.findSome?_cons, hanswer, ih]
    · have hanswer : answer run = none := if_neg hcompleted
      rw [List.filter_cons, if_neg (by simpa using hcompleted), List.findSome?_cons, hanswer, ih]

variable {run : RunRecord}

theorem turn_eq {runs : List RunRecord} {sessionId currentRunId : String}
    (hcurrent : run.runId ≠ currentRunId) (hsession : run.sessionId = some sessionId)
    (hroot : run.retryOfRunId = none) :
    turn runs sessionId currentRunId run = (prompt run).bind fun user =>
      (finalAnswer runs run).map fun assistant => ⟨run.createdAt, user, assistant⟩ := by
  unfold turn prompt finalAnswer
  rw [if_neg hcurrent, if_neg (not_not.mpr hsession), hroot]
  cases textField run.requestPayload "input" with
  | none => rfl
  | some user => rfl

theorem turn_isSome {runs : List RunRecord} {sessionId currentRunId : String}
    (h : (turn runs sessionId currentRunId run).isSome = true) :
    run.runId ≠ currentRunId ∧ run.sessionId = some sessionId ∧ run.retryOfRunId = none := by
  unfold turn at h
  split at h
  · cases h
  · next hcurrent =>
    split at h
    · cases h
    · next hsession =>
      split at h
      · cases h
      · next hroot =>
        exact ⟨hcurrent, not_not.mp hsession, Option.not_isSome_iff_eq_none.mp hroot⟩

section Standing

variable {runs runs' : List RunRecord} {root : RunRecord}

/-- A retry, at any remove, of the attempt or of another retry of the same attempt. It is found
after the attempt however the runs are listed. -/
def Follows (runs : List RunRecord) (attempt later : RunRecord) : Prop :=
  ∃ sibling ∈ runs, (sibling = attempt ∨
    (sibling.retryOfRunId = attempt.retryOfRunId ∧ attempt.retryOfRunId ≠ none)) ∧
      later ∈ retriesOf runs sibling.runId

/-- The answer of the attempt can be the one that is sent: no attempt with an answer is newer, and
none that is as new is always found after it. -/
structure Stands (runs : List RunRecord) (root attempt : RunRecord) : Prop where
  mem : attempt ∈ attempts runs root
  answered : (answer attempt).isSome = true
  newest : ∀ other ∈ attempts runs root, (answer other).isSome = true →
    other.createdAt ≤ attempt.createdAt
  last : ∀ other ∈ attempts runs root, (answer other).isSome = true →
    other.createdAt = attempt.createdAt → ¬ Follows runs attempt other

variable {attempt : RunRecord}

theorem exists_lineage (hids : (runs.map RunRecord.runId).Nodup) (hroot : Lineage runs [root])
    (h : attempt ∈ attempts runs root) :
    attempt = root ∨ ∃ between, Lineage runs (attempt :: (between ++ [root])) := by
  rcases List.mem_cons.mp h with rfl | h
  · exact .inl rfl
  · exact .inr ((Forest.mem_descendants_iff hids hroot).mp h)

theorem retryOfRunId_root (hroot : Lineage runs [root]) : root.retryOfRunId = none := by
  cases hroot with
  | root _ hnone => exact hnone

theorem retryOfRunId_ne_none {between : List RunRecord}
    (h : Lineage runs (run :: (between ++ [root]))) : run.retryOfRunId ≠ none := by
  cases between with
  | nil =>
    have hparent : run.retryOfRunId = some root.runId := h.parent_eq rfl
    rw [hparent]
    exact Option.some_ne_none _
  | cons up between =>
    have hparent : run.retryOfRunId = some up.runId := h.parent_eq rfl
    rw [hparent]
    exact Option.some_ne_none _

theorem lineage_of_mem (hids : (runs.map RunRecord.runId).Nodup) (hroot : Lineage runs [root])
    (h : attempt ∈ attempts runs root) :
    ∃ line, Lineage runs (attempt :: line) := by
  rcases exists_lineage hids hroot h with rfl | ⟨between, hline⟩
  · exact ⟨[], hroot⟩
  · exact ⟨_, hline⟩

theorem nodup_attempts (hids : (runs.map RunRecord.runId).Nodup) (hroot : Lineage runs [root]) :
    (attempts runs root).Nodup := by
  refine List.nodup_cons.mpr ⟨fun hmem => ?_, Forest.nodup_descendants hids hroot⟩
  obtain ⟨between, hline⟩ := (Forest.mem_descendants_iff hids hroot).mp hmem
  have hlength := congrArg List.length (hroot.unique hids hline)
  rw [List.length_append, List.length_singleton, List.length_nil] at hlength
  omega

theorem mem_attempts_perm (hids : (runs.map RunRecord.runId).Nodup) (hperm : runs.Perm runs')
    (hroot : Lineage runs [root]) :
    attempt ∈ attempts runs' root ↔ attempt ∈ attempts runs root := by
  rw [attempts, attempts, List.mem_cons, List.mem_cons,
    Forest.mem_descendants_perm hids hperm hroot]

/-- Which attempts follow one another does not depend on the order of the runs. -/
theorem follows_perm (hids : (runs.map RunRecord.runId).Nodup) (hperm : runs.Perm runs')
    {attempt later : RunRecord} {line : List RunRecord} (h : Lineage runs (attempt :: line)) :
    Follows runs' attempt later ↔ Follows runs attempt later := by
  refine exists_congr fun sibling => ?_
  rw [hperm.mem_iff]
  refine and_congr_right fun hsibling => and_congr_right fun hsame => ?_
  have hline : Lineage runs (sibling :: line) := by
    rcases hsame with rfl | ⟨hparent, -⟩
    · exact h
    · exact h.sibling (hperm.mem_iff.mpr hsibling) hparent
  exact Forest.mem_descendants_perm hids hperm hline

theorem Stands.perm (hids : (runs.map RunRecord.runId).Nodup) (hperm : runs.Perm runs')
    (hroot : Lineage runs [root]) (h : Stands runs root attempt) :
    Stands runs' root attempt := by
  obtain ⟨line, hline⟩ := lineage_of_mem hids hroot h.mem
  refine ⟨(mem_attempts_perm hids hperm hroot).mpr h.mem, h.answered, fun other hother => ?_,
    fun other hother hanswered hequal hfollows => ?_⟩
  · exact h.newest other ((mem_attempts_perm hids hperm hroot).mp hother)
  · exact h.last other ((mem_attempts_perm hids hperm hroot).mp hother) hanswered hequal
      ((follows_perm hids hperm hline).mp hfollows)

theorem pair_sublist_of_follows (hids : (runs.map RunRecord.runId).Nodup)
    (hroot : Lineage runs [root]) {attempt later : RunRecord}
    (h : attempt ∈ attempts runs root) (hfollows : Follows runs attempt later) :
    [attempt, later].Sublist (attempts runs root) := by
  obtain ⟨sibling, hsibling, hsame, hlater⟩ := hfollows
  rcases exists_lineage hids hroot h with rfl | ⟨between, hline⟩
  · -- Nothing but the first attempt itself counts as its sibling.
    rcases hsame with rfl | ⟨-, hretry⟩
    · exact (List.singleton_sublist.mpr hlater).cons_cons _
    · exact absurd (retryOfRunId_root hroot) hretry
  · obtain ⟨up, line, hup⟩ : ∃ up line, between ++ [root] = up :: line := by
      cases between with
      | nil => exact ⟨root, [], rfl⟩
      | cons up between => exact ⟨up, between ++ [root], rfl⟩
    rw [hup] at hline
    have hparent : attempt.retryOfRunId = some up.runId := hline.parent_eq rfl
    have hparent' : sibling.retryOfRunId = some up.runId := by
      rcases hsame with rfl | ⟨heq, -⟩
      · exact hparent
      · exact heq.trans hparent
    have hupper : Lineage runs (up :: line) := hline.of_append [attempt]
    have hpair := Forest.pair_sublist_descendants hids hupper
      (Forest.mem_children.mpr ⟨hline.mem, hparent⟩)
      (Forest.mem_children.mpr ⟨hsibling, hparent'⟩) hlater
    refine (hpair.trans ?_).cons _
    cases between with
    | nil =>
      cases hup
      exact List.Sublist.refl _
    | cons first between =>
      obtain ⟨rfl, rfl⟩ := List.cons.inj hup
      exact Forest.descendants_sublist hids hroot
        ((Forest.mem_descendants_iff hids hroot).mpr ⟨between, hupper⟩)

/-- The last attempt found of the newest ones with an answer decides. -/
theorem finalAnswer_eq (hids : (runs.map RunRecord.runId).Nodup) (hroot : Lineage runs [root])
    {before after : List RunRecord} (hsplit : attempts runs root = before ++ attempt :: after)
    (h : Sorting.LastGreatest RunRecord.createdAt (fun run => (answer run).isSome = true) before
      attempt after) : finalAnswer runs root = answer attempt := by
  have hnodup := nodup_attempts hids hroot
  have hchain : attemptChain runs root.runId =
      Sorting.sortBy RunRecord.createdAt (attempts runs root) := attemptChain_eq hids hroot
  rw [hsplit] at hnodup
  rw [finalAnswer, latestCompletedAnswer_eq, hchain, hsplit]
  exact Sorting.findSome?_sortBy hnodup h

theorem finalAnswer_eq_none (hids : (runs.map RunRecord.runId).Nodup)
    (hroot : Lineage runs [root])
    (h : ¬ ∃ attempt ∈ attempts runs root, (answer attempt).isSome = true) :
    finalAnswer runs root = none := by
  rw [finalAnswer, latestCompletedAnswer_eq, attemptChain_eq hids hroot]
  refine List.findSome?_eq_none_iff.mpr fun attempt hattempt => ?_
  have hmem := (List.mem_insertionSort _).mp (List.mem_reverse.mp hattempt)
  exact Option.not_isSome_iff_eq_none.mp fun hanswered => h ⟨attempt, hmem, hanswered⟩

/-- The answer that is sent is that of an attempt which can decide. -/
theorem exists_stands (hids : (runs.map RunRecord.runId).Nodup) (hroot : Lineage runs [root])
    (h : ∃ attempt ∈ attempts runs root, (answer attempt).isSome = true) :
    ∃ attempt, Stands runs root attempt ∧ finalAnswer runs root = answer attempt := by
  obtain ⟨before, attempt, after, hsplit, hgreatest⟩ :=
    Sorting.exists_lastGreatest RunRecord.createdAt h
  have hnodup := nodup_attempts hids hroot
  have hmem : attempt ∈ attempts runs root := by
    rw [hsplit]
    exact List.mem_append_right _ List.mem_cons_self
  refine ⟨attempt, ⟨hmem, hgreatest.has, fun other hother hanswered => ?_,
    fun other hother hanswered hequal hfollows => ?_⟩, finalAnswer_eq hids hroot hsplit hgreatest⟩
  · rw [hsplit] at hother
    rcases List.mem_append.mp hother with hbefore | hafter
    · exact hgreatest.before other hbefore hanswered
    · rcases List.mem_cons.mp hafter with rfl | hafter
      · exact le_rfl
      · exact (hgreatest.after other hafter hanswered).le
  · have hpair := pair_sublist_of_follows hids hroot hmem hfollows
    rw [hsplit] at hother hpair hnodup
    rcases List.mem_append.mp hother with hbefore | hafter
    · obtain ⟨front, back, rfl⟩ := List.append_of_mem hbefore
      rw [List.append_assoc, List.cons_append] at hpair hnodup
      exact Sorting.not_pair_sublist hnodup (List.mem_append_right _ List.mem_cons_self) hpair
    · rcases List.mem_cons.mp hafter with rfl | hafter
      · exact List.nodup_iff_sublist.mp hnodup _ hpair
      · exact absurd hequal (hgreatest.after other hafter hanswered).ne

theorem finalAnswer_isSome_perm (hids : (runs.map RunRecord.runId).Nodup)
    (hperm : runs.Perm runs') (hroot : Lineage runs [root]) :
    (finalAnswer runs' root).isSome = (finalAnswer runs root).isSome := by
  have hids' : (runs'.map RunRecord.runId).Nodup := (hperm.map _).nodup_iff.mp hids
  have hroot' : Lineage runs' [root] := hroot.of_subset hperm.subset
  by_cases h : ∃ attempt ∈ attempts runs root, (answer attempt).isSome = true
  · have h' : ∃ attempt ∈ attempts runs' root, (answer attempt).isSome = true := by
      obtain ⟨attempt, hmem, hanswered⟩ := h
      exact ⟨attempt, (mem_attempts_perm hids hperm hroot).mpr hmem, hanswered⟩
    obtain ⟨attempt, hstands, hfinal⟩ := exists_stands hids hroot h
    obtain ⟨attempt', hstands', hfinal'⟩ := exists_stands hids' hroot' h'
    rw [hfinal, hfinal', hstands.answered, hstands'.answered]
  · have h' : ¬ ∃ attempt ∈ attempts runs' root, (answer attempt).isSome = true := by
      rintro ⟨attempt, hmem, hanswered⟩
      exact h ⟨attempt, (mem_attempts_perm hids hperm hroot).mp hmem, hanswered⟩
    rw [finalAnswer_eq_none hids hroot h, finalAnswer_eq_none hids' hroot' h']

theorem stands_of_finalAnswer (hids : (runs.map RunRecord.runId).Nodup)
    (hroot : Lineage runs [root]) {text : String} (h : finalAnswer runs root = some text) :
    ∃ attempt, Stands runs root attempt ∧ answer attempt = some text := by
  by_cases hanswered : ∃ attempt ∈ attempts runs root, (answer attempt).isSome = true
  · obtain ⟨attempt, hstands, hfinal⟩ := exists_stands hids hroot hanswered
    exact ⟨attempt, hstands, hfinal.symm.trans h⟩
  · rw [finalAnswer_eq_none hids hroot hanswered] at h
    cases h

/-- Every answer that can be sent is sent for some order of the runs, one in which the first
attempt comes before all other first attempts. -/
theorem exists_order (hids : (runs.map RunRecord.runId).Nodup) (hroot : Lineage runs [root])
    (h : Stands runs root attempt) :
    ∃ front rest, runs.Perm (front ++ root :: rest) ∧
      (∀ run ∈ front, run.retryOfRunId ≠ none) ∧
      finalAnswer (front ++ root :: rest) root = answer attempt := by
  -- An attempt that is as new and is found later would follow.
  have hlater {other : RunRecord} (hmem : other ∈ attempts runs root)
      (hanswered : (answer other).isSome = true) (hfollows : Follows runs attempt other) :
      other.createdAt < attempt.createdAt :=
    lt_of_le_of_ne (h.newest other hmem hanswered) fun hequal =>
      h.last other hmem hanswered hequal hfollows
  rcases exists_lineage hids hroot h.mem with rfl | ⟨between, hline⟩
  · have hperm : runs.Perm (attempt :: runs.erase attempt) := List.perm_cons_erase hroot.mem
    refine ⟨[], runs.erase attempt, hperm, (fun run hrun => by cases hrun), ?_⟩
    have hattempts : attempts (attempt :: runs.erase attempt) attempt =
        [] ++ attempt :: retriesOf (attempt :: runs.erase attempt) attempt.runId := rfl
    refine finalAnswer_eq ((hperm.map _).nodup_iff.mp hids) (hroot.of_subset hperm.subset)
      hattempts ⟨h.answered, (fun run hrun => by cases hrun), fun other hother => ?_⟩
    have hmem := (Forest.mem_descendants_perm hids hperm hroot).mp hother
    exact fun hanswered => hlater (List.mem_cons_of_mem _ hmem) hanswered
      ⟨attempt, hroot.mem, .inl rfl, hmem⟩
  · obtain ⟨before, after, hsplit, hafter⟩ := Forest.exists_promoted_split hids hline
    have hperm := Forest.promoted_perm hids hline
    have hshape : Forest.promoted runs attempt (between ++ [root]) = between ++ root ::
        (runs.filter (fun run => run ∉ attempt :: (between ++ [root])) ++ [attempt]) := by
      rw [Forest.promoted, List.append_assoc, List.append_assoc]
      rfl
    rw [hshape] at hperm hsplit
    refine ⟨between, _, hperm, fun run hrun => ?_, ?_⟩
    · obtain ⟨newer, older, rfl⟩ := List.append_of_mem hrun
      rw [List.append_assoc, List.cons_append] at hline
      exact retryOfRunId_ne_none (hline.of_append (attempt :: newer))
    · have hattempts : attempts _ root = (root :: before) ++ attempt :: after :=
        congrArg (root :: ·) hsplit
      refine finalAnswer_eq ((hperm.map _).nodup_iff.mp hids) (hroot.of_subset hperm.subset)
        hattempts ⟨h.answered, fun other hother => ?_, fun other hother hanswered => ?_⟩
      · refine h.newest other ((mem_attempts_perm hids hperm hroot).mp ?_)
        rw [hattempts]
        exact List.mem_append_left _ hother
      · have hmem : other ∈ attempts runs root := by
          refine (mem_attempts_perm hids hperm hroot).mp ?_
          rw [hattempts]
          exact List.mem_append_right _ (List.mem_cons_of_mem _ hother)
        obtain ⟨sibling, hsibling, hparent, hbelow⟩ := hafter other hother
        exact hlater hmem hanswered
          ⟨sibling, hsibling, .inr ⟨hparent, retryOfRunId_ne_none hline⟩, hbelow⟩

end Standing

/-! ## Runs without ties that matter -/

/-- Two messages of one session that were asked at the same time, if they are two, are the same
and have the same answers that can be sent. -/
def Unambiguous (runs : List RunRecord) : Prop :=
  ∀ first ∈ runs, ∀ second ∈ runs, first.retryOfRunId = none → second.retryOfRunId = none →
    first.sessionId ≠ none → first.sessionId = second.sessionId →
    first.createdAt = second.createdAt → ∀ user ∈ prompt first, ∀ user' ∈ prompt second,
    ∀ attempt attempt', Stands runs first attempt → Stands runs second attempt' →
      user = user' ∧ answer attempt = answer attempt'

section Order

variable {runs runs' : List RunRecord} {sessionId currentRunId : String}

theorem turn_some {found : Turn} (h : turn runs sessionId currentRunId run = some found) :
    run.sessionId = some sessionId ∧ run.retryOfRunId = none ∧ found.createdAt = run.createdAt ∧
      prompt run = some found.user ∧ finalAnswer runs run = some found.assistant := by
  obtain ⟨hcurrent, hsession, hroot⟩ := turn_isSome (Option.isSome_of_eq_some h)
  rw [turn_eq hcurrent hsession hroot] at h
  obtain ⟨user, huser, hfinal⟩ := Option.bind_eq_some_iff.mp h
  obtain ⟨assistant, hassistant, rfl⟩ := Option.map_eq_some_iff.mp hfinal
  exact ⟨hsession, hroot, rfl, huser, hassistant⟩

theorem turn_eq_none (h : ¬ (run.runId ≠ currentRunId ∧
    run.sessionId = some sessionId ∧ run.retryOfRunId = none)) :
    turn runs sessionId currentRunId run = none :=
  Option.not_isSome_iff_eq_none.mp fun hsome => h (turn_isSome hsome)

theorem createdAt_turn_perm (hids : (runs.map RunRecord.runId).Nodup) (hperm : runs.Perm runs')
    (hrun : run ∈ runs) :
    (turn runs' sessionId currentRunId run).map Turn.createdAt =
      (turn runs sessionId currentRunId run).map Turn.createdAt := by
  by_cases h : run.runId ≠ currentRunId ∧ run.sessionId = some sessionId ∧
      run.retryOfRunId = none
  · obtain ⟨hcurrent, hsession, hroot⟩ := h
    have hsome := finalAnswer_isSome_perm hids hperm (.root hrun hroot)
    rw [turn_eq hcurrent hsession hroot, turn_eq hcurrent hsession hroot]
    cases prompt run with
    | none => rfl
    | some user =>
      cases hfinal : finalAnswer runs run with
      | none =>
        rw [hfinal] at hsome
        rw [Option.isNone_iff_eq_none.mp (Option.isSome_eq_false_iff.mp hsome)]
      | some text =>
        rw [hfinal] at hsome
        obtain ⟨text', hfinal'⟩ := Option.isSome_iff_exists.mp hsome
        rw [hfinal']
        rfl
  · rw [turn_eq_none h, turn_eq_none h]

theorem createdAt_collectTurns_perm (hids : (runs.map RunRecord.runId).Nodup)
    (hperm : runs.Perm runs') :
    ((collectTurns runs' sessionId currentRunId).map Turn.createdAt).Perm
      ((collectTurns runs sessionId currentRunId).map Turn.createdAt) := by
  rw [collectTurns, collectTurns, List.map_filterMap, List.map_filterMap,
    List.filterMap_congr fun run hrun => createdAt_turn_perm hids hperm (hperm.mem_iff.mpr hrun)]
  exact hperm.symm.filterMap _

/-- Without ties that matter, the turn of a message does not depend on the order of the runs. -/
theorem turn_perm (hids : (runs.map RunRecord.runId).Nodup) (hperm : runs.Perm runs')
    (h : Unambiguous runs) (hrun : run ∈ runs) :
    turn runs' sessionId currentRunId run = turn runs sessionId currentRunId run := by
  by_cases hadmitted : run.runId ≠ currentRunId ∧ run.sessionId = some sessionId ∧
      run.retryOfRunId = none
  · obtain ⟨hcurrent, hsession, hnone⟩ := hadmitted
    have hroot : Lineage runs [run] := .root hrun hnone
    have hroot' : Lineage runs' [run] := hroot.of_subset hperm.subset
    have hids' : (runs'.map RunRecord.runId).Nodup := (hperm.map _).nodup_iff.mp hids
    have hsome := finalAnswer_isSome_perm hids hperm hroot
    rw [turn_eq hcurrent hsession hnone, turn_eq hcurrent hsession hnone]
    cases huser : prompt run with
    | none => rfl
    | some user =>
      have hsame : finalAnswer runs' run = finalAnswer runs run := by
        cases hfinal : finalAnswer runs run with
        | none =>
          rw [hfinal] at hsome
          exact Option.isNone_iff_eq_none.mp (Option.isSome_eq_false_iff.mp hsome)
        | some text =>
          rw [hfinal] at hsome
          obtain ⟨text', hfinal'⟩ := Option.isSome_iff_exists.mp hsome
          obtain ⟨attempt, hstands, hanswer⟩ := stands_of_finalAnswer hids hroot hfinal
          obtain ⟨attempt', hstands', hanswer'⟩ := stands_of_finalAnswer hids' hroot' hfinal'
          have hmember : run.sessionId ≠ none := by
            rw [hsession]
            exact Option.some_ne_none _
          have hequal := (h run hrun run hrun hnone hnone hmember rfl rfl user huser user huser
            attempt attempt' hstands (hstands'.perm hids' hperm.symm hroot')).2
          rw [hfinal', ← hanswer', ← hequal, hanswer]
      rw [hsame]
  · rw [turn_eq_none hadmitted, turn_eq_none hadmitted]

/-- Without ties that matter, turns of the same time are the same. -/
theorem eq_of_createdAt (hids : (runs.map RunRecord.runId).Nodup) (h : Unambiguous runs)
    {first second : Turn} (hfirst : first ∈ collectTurns runs sessionId currentRunId)
    (hsecond : second ∈ collectTurns runs sessionId currentRunId)
    (htime : first.createdAt = second.createdAt) : first = second := by
  obtain ⟨run, hrun, hturn⟩ := List.mem_filterMap.mp hfirst
  obtain ⟨run', hrun', hturn'⟩ := List.mem_filterMap.mp hsecond
  obtain ⟨hsession, hnone, hcreated, huser, hfinal⟩ := turn_some hturn
  obtain ⟨hsession', hnone', hcreated', huser', hfinal'⟩ := turn_some hturn'
  obtain ⟨attempt, hstands, hanswer⟩ := stands_of_finalAnswer hids (.root hrun hnone) hfinal
  obtain ⟨attempt', hstands', hanswer'⟩ := stands_of_finalAnswer hids (.root hrun' hnone') hfinal'
  have hsessions : run.sessionId ≠ none := by
    rw [hsession]
    exact Option.some_ne_none _
  obtain ⟨husers, hanswers⟩ := h run hrun run' hrun' hnone hnone' hsessions
    (hsession.trans hsession'.symm) (hcreated.symm.trans (htime.trans hcreated')) _ huser _ huser'
    attempt attempt' hstands hstands'
  obtain ⟨createdAt, user, assistant⟩ := first
  obtain ⟨createdAt', user', assistant'⟩ := second
  rw [hanswer, hanswer', Option.some.injEq] at hanswers
  simp only [Turn.mk.injEq]
  exact ⟨htime, husers, hanswers⟩

/-- Without ties that matter, the turns do not depend on the order of the runs. -/
theorem eligibleTurns_perm (hids : (runs.map RunRecord.runId).Nodup) (hperm : runs.Perm runs')
    (h : Unambiguous runs) (sessionId currentRunId : String) :
    eligibleTurns runs' sessionId currentRunId = eligibleTurns runs sessionId currentRunId := by
  have hturns : (collectTurns runs sessionId currentRunId).Perm
      (collectTurns runs' sessionId currentRunId) := by
    rw [collectTurns, collectTurns,
      List.filterMap_congr fun run hrun => turn_perm hids hperm h (hperm.mem_iff.mpr hrun)]
    exact hperm.filterMap _
  exact (Sorting.sortBy_eq_of_perm Turn.createdAt hturns fun first hfirst second hsecond =>
    eq_of_createdAt hids h hfirst hsecond).symm

/-! ## Ties that show -/

theorem contents_eq {turns turns' : List Turn} (h : messages turns = messages turns') :
    (turns.map fun turn => (turn.user, turn.assistant)) =
      turns'.map fun turn => (turn.user, turn.assistant) := by
  induction turns generalizing turns' with
  | nil =>
    cases turns' with
    | nil => rfl
    | cons turn turns' => cases h
  | cons turn turns ih =>
    cases turns' with
    | nil => cases h
    | cons turn' turns' =>
      simp only [messages, List.flatMap_cons, List.cons_append, List.nil_append, List.cons.injEq,
        HistoryMessage.mk.injEq, true_and] at h
      obtain ⟨huser, hassistant, hrest⟩ := h
      rw [List.map_cons, List.map_cons, ih hrest, huser, hassistant]

theorem build_messages (limits : HistoryLimits)
    (hturns : (eligibleTurns runs sessionId currentRunId).length ≤ limits.maxTurns)
    (hbytes : serializedBytes (eligibleTurns runs sessionId currentRunId) ≤ limits.maxBytes) :
    (build runs sessionId currentRunId limits).messages =
      messages (eligibleTurns runs sessionId currentRunId) := by
  obtain ⟨kept, hkept⟩ := exists_fits runs sessionId currentRunId limits
  have hall := hkept.longest _ (List.suffix_refl _) hturns hbytes
  rw [hkept.sent, hkept.newest.eq_of_length
    (Nat.le_antisymm hkept.newest.length_le hall.length_le)]

/-- Every answer that can be sent is sent for some order of the runs, right after the turns that
were asked earlier. -/
theorem exists_eligibleTurns (hids : (runs.map RunRecord.runId).Nodup) {root : RunRecord}
    (hmem : root ∈ runs) (hcurrent : root.runId ≠ currentRunId)
    (hsession : root.sessionId = some sessionId) (hnone : root.retryOfRunId = none)
    {user : String} (huser : prompt root = some user) {attempt : RunRecord}
    (h : Stands runs root attempt) {text : String} (htext : answer attempt = some text) :
    ∃ runs' older newer, runs.Perm runs' ∧ eligibleTurns runs' sessionId currentRunId =
        older ++ ⟨root.createdAt, user, text⟩ :: newer ∧
      older.length = ((collectTurns runs sessionId currentRunId).map Turn.createdAt).countP
        fun time => time < root.createdAt := by
  obtain ⟨front, rest, hperm, hfront, hfinal⟩ := exists_order hids (.root hmem hnone) h
  have hfirst : collectTurns (front ++ root :: rest) sessionId currentRunId =
      ⟨root.createdAt, user, text⟩ ::
        rest.filterMap (turn (front ++ root :: rest) sessionId currentRunId) := by
    have hskip : front.filterMap (turn (front ++ root :: rest) sessionId currentRunId) = [] := by
      refine List.filterMap_eq_nil_iff.mpr fun run hrun => turn_eq_none fun hadmitted => ?_
      exact hfront run hrun hadmitted.2.2
    have hturn : turn (front ++ root :: rest) sessionId currentRunId root =
        some ⟨root.createdAt, user, text⟩ := by
      rw [turn_eq hcurrent hsession hnone, huser, hfinal, htext]
      rfl
    rw [collectTurns, List.filterMap_append, hskip, List.nil_append, List.filterMap_cons, hturn]
  obtain ⟨older, newer, hsplit, hlength⟩ := Sorting.exists_sortBy_cons Turn.createdAt
    ⟨root.createdAt, user, text⟩
    (rest.filterMap (turn (front ++ root :: rest) sessionId currentRunId))
  refine ⟨front ++ root :: rest, older, newer, hperm, ?_, ?_⟩
  · rw [eligibleTurns, hfirst]
    exact hsplit
  · rw [hlength, ← (createdAt_collectTurns_perm hids hperm).countP_eq, hfirst, List.map_cons,
      List.countP_cons, List.countP_map]
    simp only [lt_irrefl, decide_false, Bool.false_eq_true, if_false, Nat.add_zero]
    rfl

end Order

/-- The history does not depend on the order of the runs exactly if no tie matters. -/
theorem build_perm_iff {runs : List RunRecord} (hids : (runs.map RunRecord.runId).Nodup) :
    (∀ runs', runs.Perm runs' → ∀ sessionId currentRunId limits,
      build runs' sessionId currentRunId limits = build runs sessionId currentRunId limits) ↔
      Unambiguous runs := by
  constructor
  · intro h first hfirst second hsecond hnone hnone' hmember hsessions htime user huser user' huser'
      attempt attempt' hstands hstands'
    obtain ⟨sessionId, hsession⟩ := Option.ne_none_iff_exists'.mp hmember
    obtain ⟨currentRunId, hfresh⟩ :=
      Infinite.exists_notMem_finset (runs.map RunRecord.runId).toFinset
    have hcurrent {run : RunRecord} (hrun : run ∈ runs) : run.runId ≠ currentRunId := by
      rintro rfl
      exact hfresh (List.mem_toFinset.mpr (List.mem_map_of_mem hrun))
    obtain ⟨text, htext⟩ := Option.isSome_iff_exists.mp hstands.answered
    obtain ⟨text', htext'⟩ := Option.isSome_iff_exists.mp hstands'.answered
    obtain ⟨runs₁, older, newer, hperm, hturns, hlength⟩ := exists_eligibleTurns hids hfirst
      (hcurrent hfirst) hsession hnone huser hstands htext
    obtain ⟨runs₂, older', newer', hperm', hturns', hlength'⟩ := exists_eligibleTurns hids hsecond
      (hcurrent hsecond) (hsessions ▸ hsession) hnone' huser' hstands' htext'
    let limits : HistoryLimits :=
      ⟨max (eligibleTurns runs₁ sessionId currentRunId).length
        (eligibleTurns runs₂ sessionId currentRunId).length,
      max (serializedBytes (eligibleTurns runs₁ sessionId currentRunId))
        (serializedBytes (eligibleTurns runs₂ sessionId currentRunId))⟩
    have hsame : messages (eligibleTurns runs₁ sessionId currentRunId) =
        messages (eligibleTurns runs₂ sessionId currentRunId) := by
      rw [← build_messages limits (le_max_left _ _) (le_max_left _ _),
        ← build_messages limits (le_max_right _ _) (le_max_right _ _),
        h runs₁ hperm, h runs₂ hperm']
    have hcontents := contents_eq hsame
    rw [hturns, hturns', List.map_append, List.map_append, List.map_cons,
      List.map_cons] at hcontents
    rw [← htime] at hlength'
    have hsplit := (List.append_inj hcontents (by
      rw [List.length_map, List.length_map, hlength, hlength'])).2
    obtain ⟨husers, hanswers⟩ := Prod.mk.inj (List.cons.inj hsplit).1
    exact ⟨husers, htext.trans ((congrArg some hanswers).trans htext'.symm)⟩
  · intro h runs' hperm sessionId currentRunId limits
    have hturns := eligibleTurns_perm hids hperm h sessionId currentRunId
    unfold eligibleTurns at hturns
    unfold build
    rw [hturns]

theorem unambiguous_of_distinct {runs : List RunRecord} (hids : (runs.map RunRecord.runId).Nodup)
    (htimes : (runs.map RunRecord.createdAt).Nodup) : Unambiguous runs := by
  intro first hfirst second hsecond hnone _ _ _ htime user huser user' huser' attempt attempt'
    hstands hstands'
  obtain rfl := List.inj_on_of_nodup_map htimes hfirst hsecond htime
  refine ⟨Option.some.inj (huser.symm.trans huser'), congrArg answer ?_⟩
  have hroot : Lineage runs [first] := .root hfirst hnone
  obtain ⟨line, hline⟩ := lineage_of_mem hids hroot hstands.mem
  obtain ⟨line', hline'⟩ := lineage_of_mem hids hroot hstands'.mem
  refine List.inj_on_of_nodup_map htimes hline.mem hline'.mem (le_antisymm ?_ ?_)
  · exact hstands'.newest attempt hstands.mem hstands.answered
  · exact hstands.newest attempt' hstands'.mem hstands'.answered

def answeredRun (runId : String) (createdAt : ℤ) (input output : String) : RunRecord :=
  { runId := runId, projectId := "p1", sessionId := some "s1", idempotencyKey := none,
    runtimeKind := "hermes-loop", provider := none, model := none, status := .completed,
    createdAt := createdAt, startedAt := none, updatedAt := createdAt, finishedAt := none,
    lastEventSeq := 0, terminalReason := none, errorCode := none, errorMessage := none,
    hermesRunId := none, requestPayload := .object [("input", .string input)],
    resultPayload := some (.object [("output", .string output)]), recoveryNote := none,
    retryOfRunId := none }

/-- Two messages of different times are sent in the same order whichever is listed first. -/
theorem build_perm_untied :
    build [answeredRun "r2" 2 "two" "2", answeredRun "r1" 1 "one" "1"] "s1" "now" {} =
      build [answeredRun "r1" 1 "one" "1", answeredRun "r2" 2 "two" "2"] "s1" "now" {} :=
  (build_perm_iff (by decide)).mpr (unambiguous_of_distinct (by decide) (by decide)) _
    (List.Perm.swap _ _ _) "s1" "now" {}

/-- Two messages that were asked in the same millisecond are sent in the order of the listing. -/
theorem build_depends_on_order :
    [answeredRun "r1" 1 "one" "1", answeredRun "r2" 1 "two" "2"].Perm
      [answeredRun "r2" 1 "two" "2", answeredRun "r1" 1 "one" "1"] ∧
    (build [answeredRun "r1" 1 "one" "1", answeredRun "r2" 1 "two" "2"] "s1" "now" {}).messages ≠
      (build [answeredRun "r2" 1 "two" "2", answeredRun "r1" 1 "one" "1"] "s1" "now"
        {}).messages := by
  refine ⟨List.Perm.swap _ _ _, ?_⟩
  decide +kernel

/-! # One turn for a chain of retries -/

/-! ## The search for the attempts -/

def frontierAfter (runs : List RunRecord) : ℕ → List String → List String
  | 0, frontier => frontier
  | _ + 1, [] => []
  | rounds + 1, parent :: frontier =>
    let retries := runs.filter fun run => run.retryOfRunId = some parent
    frontierAfter runs rounds ((retries.map fun run => run.runId).reverse ++ frontier)

/-- A run of the list that retries another one of the list. -/
def Retries (runs : List RunRecord) (run parent : RunRecord) : Prop :=
  run ∈ runs ∧ parent ∈ runs ∧ run.retryOfRunId = some parent.runId

section Search

variable {runs : List RunRecord} {root run : RunRecord}

theorem frontierAfter_eq (runs : List RunRecord) (rounds : ℕ) (frontier : List String) :
    frontierAfter runs rounds frontier =
      Forest.stackAfter RunRecord.runId RunRecord.retryOfRunId runs rounds frontier := by
  induction rounds generalizing frontier with
  | zero => rfl
  | succ rounds ih =>
    cases frontier with
    | nil => rfl
    | cons parent frontier => exact ih _

theorem reflTransGen_of_lineage {between : List RunRecord}
    (h : Lineage runs (run :: (between ++ [root]))) :
    Relation.ReflTransGen (Retries runs) run root := by
  induction between generalizing run with
  | nil =>
    cases h with
    | child hrun hparent h => exact .single ⟨hrun, h.mem, hparent⟩
  | cons up between ih =>
    cases h with
    | child hrun hparent h => exact .head ⟨hrun, h.mem, hparent⟩ (ih h)

theorem lineage_of_reflTransGen (hroot : Lineage runs [root])
    (h : Relation.ReflTransGen (Retries runs) run root) :
    run = root ∨ ∃ between, Lineage runs (run :: (between ++ [root])) := by
  induction h using Relation.ReflTransGen.head_induction_on with
  | refl => exact .inl rfl
  | head hstep _ ih =>
    obtain ⟨hrun, -, hparent⟩ := hstep
    rcases ih with rfl | ⟨between, hline⟩
    · exact .inr ⟨[], .child hrun hparent hroot⟩
    · exact .inr ⟨_ :: between, .child hrun hparent hline⟩

/-- The attempts of a message are the runs whose retries lead to the first one. -/
theorem mem_attempts_iff (hids : (runs.map RunRecord.runId).Nodup) (hroot : Lineage runs [root]) :
    run ∈ attempts runs root ↔ Relation.ReflTransGen (Retries runs) run root := by
  constructor
  · intro h
    rcases exists_lineage hids hroot h with rfl | ⟨between, hline⟩
    · exact .refl
    · exact reflTransGen_of_lineage hline
  · intro h
    rcases lineage_of_reflTransGen hroot h with rfl | hline
    · exact List.mem_cons_self
    · exact List.mem_cons_of_mem _ ((Forest.mem_descendants_iff hids hroot).mpr hline)

/-- The search for the attempts of a message empties its frontier, and finds the runs whose retries
lead to the first attempt, each of them once. -/
theorem attemptChain_exact (hids : (runs.map RunRecord.runId).Nodup) (hmem : root ∈ runs)
    (hnone : root.retryOfRunId = none) :
    (∀ rounds, runs.length + 1 ≤ rounds → frontierAfter runs rounds [root.runId] = [] ∧
        ∀ chain, descend runs rounds [root.runId] chain =
          descend runs (runs.length + 1) [root.runId] chain) ∧
      (attemptChain runs root.runId).Nodup ∧
      ∀ run, run ∈ attemptChain runs root.runId ↔
        Relation.ReflTransGen (Retries runs) run root := by
  have hroot : Lineage runs [root] := .root hmem hnone
  have hchain : (attemptChain runs root.runId).Perm (attempts runs root) := by
    rw [attemptChain_eq hids hroot]
    exact List.perm_insertionSort _ _
  refine ⟨fun rounds hrounds => ⟨?_, fun chain => ?_⟩, ?_, fun run => ?_⟩
  · rw [frontierAfter_eq]
    exact (Forest.search_singleton hids hroot hrounds []).1
  · rw [descend_eq hids hroot hrounds, descend_eq hids hroot le_rfl]
  · exact hchain.nodup_iff.mpr (nodup_attempts hids hroot)
  · rw [hchain.mem_iff, mem_attempts_iff hids hroot]

end Search

def answeredRetry (runId retryOf : String) (createdAt : ℤ) (output : String) : RunRecord :=
  { answeredRun runId createdAt "again" output with retryOfRunId := some retryOf }

/-- Two runs that retry one another and a retry of a missing run are not in the way. -/
theorem attemptChain_beside_cycle :
    answeredRetry "r2" "r1" 2 "2" ∈ attemptChain [answeredRun "r1" 1 "one" "1",
      answeredRetry "r2" "r1" 2 "2", answeredRetry "x" "y" 3 "3", answeredRetry "y" "x" 4 "4",
      answeredRetry "z" "gone" 5 "5"] "r1" :=
  ((@attemptChain_exact _ (answeredRun "r1" 1 "one" "1") (by decide) (by decide) rfl).2.2
    _).mpr (.single ⟨by decide, by decide, rfl⟩)

/-! ## The runs of one session -/

def inSession (sessionId : String) (runs : List RunRecord) : List RunRecord :=
  runs.filter fun run => run.sessionId = some sessionId

/-- Every retry carries the session of the run it retries. -/
def KeepsSession (runs : List RunRecord) : Prop :=
  ∀ run parent, Retries runs run parent → run.sessionId = parent.sessionId

instance : DecidablePred KeepsSession := fun runs =>
  decidable_of_iff (∀ run ∈ runs, ∀ parent ∈ runs, run.retryOfRunId = some parent.runId →
      run.sessionId = parent.sessionId)
    ⟨fun h run parent hretries => h run hretries.1 parent hretries.2.1 hretries.2.2,
      fun h run hrun parent hparent hretry => h run parent ⟨hrun, hparent, hretry⟩⟩

/-- The turn of a first attempt that has one. -/
def turnOf (runs : List RunRecord) (root : RunRecord) : Turn :=
  ⟨root.createdAt, (prompt root).getD "", (finalAnswer runs root).getD ""⟩

section Session

variable {runs : List RunRecord} {root run : RunRecord} {sessionId currentRunId : String}

/-- The search from runs of a session sees the runs of this session only. -/
theorem descend_inSession (hkeeps : KeepsSession runs) (rounds : ℕ) (frontier : List String)
    (chain : List RunRecord)
    (hfrontier : ∀ id ∈ frontier, ∃ parent ∈ inSession sessionId runs, parent.runId = id) :
    descend (inSession sessionId runs) rounds frontier chain =
      descend runs rounds frontier chain := by
  induction rounds generalizing frontier chain with
  | zero => rfl
  | succ rounds ih =>
    cases frontier with
    | nil => rfl
    | cons id frontier =>
      obtain ⟨parent, hparent, hid⟩ := hfrontier id List.mem_cons_self
      obtain ⟨hmem, hsession⟩ := List.mem_filter.mp hparent
      have hsame : ((inSession sessionId runs).filter fun run => run.retryOfRunId = some id) =
          runs.filter fun run => run.retryOfRunId = some id := by
        rw [inSession, List.filter_filter]
        refine List.filter_congr fun run hrun => ?_
        by_cases hretry : run.retryOfRunId = some id
        · have hkept := hkeeps run parent ⟨hrun, hmem, by rw [hretry, hid]⟩
          rw [of_decide_eq_true hsession] at hkept
          simp only [hretry, hkept, decide_true, Bool.and_self]
        · simp only [hretry, decide_false, Bool.false_and]
      rw [descend, descend, hsame]
      refine ih _ _ fun next hnext => ?_
      rcases List.mem_append.mp hnext with hretry | hrest
      · obtain ⟨run, hrun, hnext⟩ := List.mem_map.mp (List.mem_reverse.mp hretry)
        rw [← hsame] at hrun
        exact ⟨run, List.mem_of_mem_filter hrun, hnext⟩
      · exact hfrontier next (List.mem_cons_of_mem _ hrest)

theorem nodup_inSession (hids : (runs.map RunRecord.runId).Nodup) :
    ((inSession sessionId runs).map RunRecord.runId).Nodup :=
  hids.sublist (List.filter_sublist.map _)

theorem attemptChain_inSession (hids : (runs.map RunRecord.runId).Nodup)
    (hkeeps : KeepsSession runs) (hmem : root ∈ inSession sessionId runs)
    (hnone : root.retryOfRunId = none) :
    attemptChain (inSession sessionId runs) root.runId = attemptChain runs root.runId := by
  have hinner : Lineage (inSession sessionId runs) [root] := .root hmem hnone
  have houter : Lineage runs [root] := .root (List.mem_of_mem_filter hmem) hnone
  have hshorter : (inSession sessionId runs).length + 1 ≤ runs.length + 1 :=
    Nat.succ_le_succ (List.length_filter_le _ _)
  have hsearch := descend_inSession hkeeps (runs.length + 1) [root.runId] [] fun id hid =>
    ⟨root, hmem, (List.mem_singleton.mp hid).symm⟩
  rw [descend_eq (nodup_inSession hids) hinner hshorter, descend_eq hids houter le_rfl,
    List.nil_append, List.nil_append] at hsearch
  rw [attemptChain_eq (nodup_inSession hids) hinner, attemptChain_eq hids houter, hsearch]

theorem collectTurns_inSession (hids : (runs.map RunRecord.runId).Nodup)
    (hkeeps : KeepsSession runs) :
    collectTurns (inSession sessionId runs) sessionId currentRunId =
      collectTurns runs sessionId currentRunId := by
  unfold collectTurns
  nth_rewrite 2 [inSession]
  rw [List.filterMap_filter]
  refine List.filterMap_congr fun run hrun => ?_
  by_cases hadmitted : run.runId ≠ currentRunId ∧ run.sessionId = some sessionId ∧
      run.retryOfRunId = none
  · obtain ⟨hcurrent, hsession, hnone⟩ := hadmitted
    have hmem : run ∈ inSession sessionId runs :=
      List.mem_filter.mpr ⟨hrun, decide_eq_true hsession⟩
    rw [if_pos (decide_eq_true hsession), turn_eq hcurrent hsession hnone,
      turn_eq hcurrent hsession hnone, finalAnswer, finalAnswer,
      attemptChain_inSession hids hkeeps hmem hnone]
  · rw [turn_eq_none hadmitted, turn_eq_none hadmitted, ite_self]

/-- The history of a session is built from its own runs. -/
theorem build_inSession (hids : (runs.map RunRecord.runId).Nodup) (hkeeps : KeepsSession runs)
    (limits : HistoryLimits) :
    build (inSession sessionId runs) sessionId currentRunId limits =
      build runs sessionId currentRunId limits := by
  unfold build
  rw [collectTurns_inSession hids hkeeps]

theorem disjoint_attempts (hids : (runs.map RunRecord.runId).Nodup) {other : RunRecord}
    (hroot : Lineage runs [root]) (hother : Lineage runs [other]) (hne : root ≠ other) :
    (attempts runs root).Disjoint (attempts runs other) := by
  have hline {first : RunRecord} (hfirst : Lineage runs [first]) {attempt : RunRecord}
      (h : attempt ∈ attempts runs first) :
      ∃ line, Lineage runs (attempt :: line) ∧ (attempt :: line).getLast? = some first := by
    rcases exists_lineage hids hfirst h with rfl | ⟨between, hline⟩
    · exact ⟨[], hfirst, rfl⟩
    · exact ⟨_, hline, by rw [← List.cons_append, List.getLast?_concat]⟩
  intro attempt h h'
  obtain ⟨line, hattempt, hlast⟩ := hline hroot h
  obtain ⟨line', hattempt', hlast'⟩ := hline hother h'
  rw [hattempt.unique hids hattempt', hlast'] at hlast
  exact hne (Option.some.inj hlast).symm

theorem collectTurns_eq_map :
    collectTurns runs sessionId currentRunId =
      (runs.filter fun run => (turn runs sessionId currentRunId run).isSome).map
        (turnOf runs) := by
  rw [← List.filterMap_eq_map, List.filterMap_filter]
  refine List.filterMap_congr fun run _ => ?_
  cases hturn : turn runs sessionId currentRunId run with
  | none => rfl
  | some found =>
    obtain ⟨-, -, hcreated, huser, hfinal⟩ := turn_some hturn
    rw [Option.isSome_some, if_pos rfl, Function.comp_apply, turnOf, huser, hfinal, ← hcreated]
    rfl

end Session

/-- The messages of a history are a question and an answer for each of some first attempts, no two
of which have an attempt in common. Runs of other sessions do not matter. -/
theorem build_separates (runs : List RunRecord) (hids : (runs.map RunRecord.runId).Nodup)
    (hkeeps : KeepsSession runs) (sessionId currentRunId : String) (limits : HistoryLimits) :
    (∃ roots : List RunRecord,
      roots.Pairwise (fun root other =>
        (attemptChain runs root.runId).Disjoint (attemptChain runs other.runId)) ∧
      (∀ root ∈ roots, root ∈ attemptChain runs root.runId ∧
        root.sessionId = some sessionId ∧ root.retryOfRunId = none) ∧
      (build runs sessionId currentRunId limits).messages = roots.flatMap fun root =>
        [⟨"user", (prompt root).getD ""⟩, ⟨"assistant", (finalAnswer runs root).getD ""⟩]) ∧
    ∀ runs' : List RunRecord, (runs'.map RunRecord.runId).Nodup → KeepsSession runs' →
      inSession sessionId runs' = inSession sessionId runs →
      build runs' sessionId currentRunId limits = build runs sessionId currentRunId limits := by
  refine ⟨?_, fun runs' hids' hkeeps' hsame => ?_⟩
  · let opening := runs.filter fun run => (turn runs sessionId currentRunId run).isSome
    obtain ⟨kept, hfits⟩ := exists_fits runs sessionId currentRunId limits
    have hperm : (eligibleTurns runs sessionId currentRunId).Perm (opening.map (turnOf runs)) := by
      rw [← collectTurns_eq_map]
      exact List.perm_insertionSort _ _
    obtain ⟨sorted, hturns, hsorted⟩ :=
      (congrFun₂ (List.eq_map_comp_perm (turnOf runs)) _ opening).mpr hperm
    obtain ⟨dropped, hdropped⟩ := hfits.newest
    have hkept : kept = (sorted.drop dropped.length).map (turnOf runs) := by
      rw [List.map_drop, ← hturns, ← hdropped, List.drop_left]
    have hopens (root : RunRecord) (hroot : root ∈ sorted.drop dropped.length) :
        Lineage runs [root] ∧ root.sessionId = some sessionId := by
      obtain ⟨hmem, hsome⟩ := List.mem_filter.mp (hsorted.mem_iff.mp (List.mem_of_mem_drop hroot))
      obtain ⟨-, hsession, hnone⟩ := turn_isSome hsome
      exact ⟨.root hmem hnone, hsession⟩
    have hchain (root : RunRecord) (hroot : Lineage runs [root]) :
        (attemptChain runs root.runId).Perm (attempts runs root) := by
      rw [attemptChain_eq hids hroot]
      exact List.perm_insertionSort _ _
    refine ⟨sorted.drop dropped.length, ?_, fun root hroot => ?_, ?_⟩
    · have hnodup : (sorted.drop dropped.length).Nodup :=
        (hsorted.nodup_iff.mpr (hids.of_map.filter _)).sublist (List.drop_sublist _ _)
      refine hnodup.pairwise_of_forall_ne fun root hroot other hother hne attempt h h' => ?_
      have hfirst := (hopens root hroot).1
      have hsecond := (hopens other hother).1
      exact disjoint_attempts hids hfirst hsecond hne ((hchain root hfirst).mem_iff.mp h)
        ((hchain other hsecond).mem_iff.mp h')
    · obtain ⟨hline, hsession⟩ := hopens root hroot
      exact ⟨(hchain root hline).mem_iff.mpr List.mem_cons_self, hsession,
        retryOfRunId_root hline⟩
    · rw [hfits.sent, hkept, messages, List.flatMap_map]
      rfl
  · rw [← build_inSession hids' hkeeps', hsame, build_inSession hids hkeeps]

/-- A message that was retried, and one of another session that was retried too. -/
theorem build_beside_other_session :
    let retried (first second : String) : List RunRecord := [answeredRun first 1 "one" "1",
      { answeredRun second 2 "one" "2" with retryOfRunId := some first }]
    build (retried "r1" "r2" ++ (retried "r3" "r4").map fun run =>
        { run with sessionId := some "s2" }) "s1" "now" {} =
      build (retried "r1" "r2") "s1" "now" {} :=
  (build_separates _ (by decide) (by decide) "s1" "now" {}).2 _ (by decide) (by decide) (by decide)

end Asterism.ChatHistory
