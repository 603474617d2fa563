import Asterism.ControlPlane.Channel
import Asterism.Sorting.Stable
import Mathlib.Data.Prod.Lex

/-!
# Dispatching commands to a Node

A round claims a few queued commands of the Node and sends them. The commands of every project are
ranked on their own and the ranks are interleaved, so that no project waits behind the queue of
another. What is claimed is the beginning of that order. Some of it may be left in the queue: a Node
that is draining is sent no `runs.create`. Those commands are claimed again in every round, and
whatever comes after them is not reached.
-/

namespace Asterism.Dispatch

open ControlPlane (CommandRecordState)

/-- The columns of `remote_commands` that dispatching reads and writes. -/
structure Command (Id : Type) where
  commandId : Id
  nodeId : String
  projectId : Option String
  commandType : String
  state : CommandRecordState
  createdAt : ℤ
  errorCode : Option String
  deriving DecidableEq

/-- The table: no two rows have one identifier. -/
structure CommandTable (Id : Type) where
  rows : List (Command Id)
  unique : (rows.map Command.commandId).Nodup

variable {Id : Type} [LinearOrder Id]

/-! ## Claiming -/

namespace Command

/-- When a command was queued; identifiers tell commands of one moment apart. -/
def position (command : Command Id) : ℤ ×ₗ Id := toLex (command.createdAt, command.commandId)

omit [LinearOrder Id] in
/-- The queue of a command. Commands without a project share one queue. -/
def queue (command : Command Id) : String := command.projectId.getD ""

end Command

/-- The row number of a command in the queue of its project. -/
def projectRank (rows : List (Command Id)) (command : Command Id) : ℕ :=
  rows.countP fun other => other.queue = command.queue ∧ other.position ≤ command.position

/-- The order in which commands are claimed. -/
def priority (rows : List (Command Id)) (command : Command Id) : ℕ ×ₗ (ℤ ×ₗ Id) :=
  toLex (projectRank rows command, command.position)

namespace CommandTable

omit [LinearOrder Id] in
/-- The queued commands of a Node. -/
def pending (table : CommandTable Id) (nodeId : String) : List (Command Id) :=
  table.rows.filter fun command => command.nodeId = nodeId ∧ command.state = .queued

/-- `claimPending`: claim the first queued commands of a Node. Rows that another transaction holds
are skipped. -/
def claimPending (table : CommandTable Id) (locked : Id → Bool) (nodeId : String) (limit : ℕ) :
    List (Command Id) :=
  let rows := table.pending nodeId
  let chosen := ((Sorting.sortBy (priority rows) rows).take limit).map Command.commandId
  Sorting.sortBy Command.position
    (table.rows.filter fun command => command.commandId ∈ chosen ∧ locked command.commandId = false)

end CommandTable

section Claiming

variable (table : CommandTable Id) (locked : Id → Bool) (nodeId : String) (limit : ℕ)

omit [LinearOrder Id] in
theorem eq_of_commandId {table : CommandTable Id} {command other : Command Id}
    (hcommand : command ∈ table.rows) (hother : other ∈ table.rows)
    (h : command.commandId = other.commandId) : command = other :=
  List.inj_on_of_nodup_map table.unique hcommand hother h

theorem nodup_priority :
    ((table.pending nodeId).map (priority (table.pending nodeId))).Nodup := by
  refine List.Nodup.map_on (fun command hcommand other hother heq => ?_)
    (table.unique.of_map.filter _)
  have hposition : command.position = other.position := congrArg (fun key => (ofLex key).2) heq
  exact eq_of_commandId (List.mem_of_mem_filter hcommand) (List.mem_of_mem_filter hother)
    (congrArg (fun position => (ofLex position).2) hposition)

/-- The claimed commands are the pending ones with fewer than `limit` commands before them, without
those that another transaction holds. -/
theorem mem_claimPending_iff {command : Command Id} :
    command ∈ table.claimPending locked nodeId limit ↔
      command ∈ table.pending nodeId ∧ locked command.commandId = false ∧
        (table.pending nodeId).countP (fun other => decide (priority (table.pending nodeId) other <
          priority (table.pending nodeId) command)) < limit := by
  have hfirst (other : Command Id) := Sorting.mem_take_sortBy_iff (nodup_priority table nodeId)
    (a := other) (n := limit)
  rw [CommandTable.claimPending, List.mem_insertionSort, List.mem_filter, decide_eq_true_eq,
    List.mem_map]
  constructor
  · rintro ⟨hrow, ⟨chosen, hchosen, hid⟩, hfree⟩
    obtain ⟨hpending, hfew⟩ := (hfirst chosen).mp hchosen
    obtain rfl := eq_of_commandId (List.mem_of_mem_filter hpending) hrow hid
    exact ⟨hpending, hfree, hfew⟩
  · rintro ⟨hpending, hfree, hfew⟩
    exact ⟨List.mem_of_mem_filter hpending, ⟨command, (hfirst command).mpr ⟨hpending, hfew⟩, rfl⟩,
      hfree⟩

theorem mem_claimPending_of_lt {command earlier : Command Id}
    (h : command ∈ table.claimPending locked nodeId limit)
    (hpending : earlier ∈ table.pending nodeId) (hfree : locked earlier.commandId = false)
    (hlt : priority (table.pending nodeId) earlier < priority (table.pending nodeId) command) :
    earlier ∈ table.claimPending locked nodeId limit := by
  obtain ⟨-, -, hfew⟩ := (mem_claimPending_iff table locked nodeId limit).mp h
  refine (mem_claimPending_iff table locked nodeId limit).mpr
    ⟨hpending, hfree, lt_of_le_of_lt (List.countP_mono_left fun other _ hother => ?_) hfew⟩
  exact decide_eq_true ((of_decide_eq_true hother).trans hlt)

theorem projectRank_lt {command earlier : Command Id} (hcommand : command ∈ table.pending nodeId)
    (hqueue : earlier.queue = command.queue) (hlt : earlier.position < command.position) :
    projectRank (table.pending nodeId) earlier < projectRank (table.pending nodeId) command := by
  obtain ⟨before, after, hsplit⟩ := List.append_of_mem hcommand
  have hmono (rows : List (Command Id)) : projectRank rows earlier ≤ projectRank rows command := by
    refine List.countP_mono_left fun other _ hother => ?_
    obtain ⟨hsame, hle⟩ := of_decide_eq_true hother
    exact decide_eq_true ⟨hsame.trans hqueue, hle.trans hlt.le⟩
  have hself : projectRank [command] earlier < projectRank [command] command := by
    have hafter : ¬ (command.queue = earlier.queue ∧ command.position ≤ earlier.position) :=
      fun h => absurd hlt (not_lt.mpr h.2)
    simp only [projectRank, List.countP_singleton, decide_eq_true_eq, hafter, if_false, le_refl,
      and_self, if_true, Nat.zero_lt_one]
  have happend (rows more : List (Command Id)) (other : Command Id) :
      projectRank (rows ++ more) other = projectRank rows other + projectRank more other :=
    List.countP_append
  have hbefore := hmono before
  have hafter := hmono after
  rw [hsplit, ← List.singleton_append, happend, happend, happend, happend]
  omega

/-- Claiming is fair. The claimed commands are the beginning of the order by rank, time and
identifier: those with fewer than `limit` pending commands before them. With a command every pending
command of a smaller rank of any project is claimed, and every older one of its own project, unless
another transaction holds it. They are returned oldest first. -/
theorem claimPending_fair :
    (∀ command, command ∈ table.claimPending locked nodeId limit ↔
      command ∈ table.pending nodeId ∧ locked command.commandId = false ∧
        (table.pending nodeId).countP (fun other => decide (priority (table.pending nodeId) other <
          priority (table.pending nodeId) command)) < limit) ∧
      (∀ command ∈ table.claimPending locked nodeId limit, ∀ other ∈ table.pending nodeId,
        (projectRank (table.pending nodeId) other < projectRank (table.pending nodeId) command ∨
          (other.queue = command.queue ∧ other.position < command.position)) →
        other ∈ table.claimPending locked nodeId limit ∨ locked other.commandId = true) ∧
      (table.claimPending locked nodeId limit).Pairwise fun command other =>
        command.position ≤ other.position := by
  refine ⟨fun command => mem_claimPending_iff table locked nodeId limit,
    fun command hcommand other hother hearlier => ?_, Sorting.pairwise_sortBy Command.position _⟩
  cases hfree : locked other.commandId with
  | true => exact .inr rfl
  | false =>
    have hpending := ((mem_claimPending_iff table locked nodeId limit).mp hcommand).1
    have hrank : projectRank (table.pending nodeId) other <
        projectRank (table.pending nodeId) command := by
      rcases hearlier with hrank | ⟨hqueue, hlt⟩
      · exact hrank
      · exact projectRank_lt table nodeId hpending hqueue hlt
    exact .inl (mem_claimPending_of_lt table locked nodeId limit hcommand hother hfree
      (Prod.Lex.toLex_lt_toLex.mpr (.inl hrank)))

end Claiming

/-! ## A round -/

/-- The columns of `nodes` that dispatching reads. -/
structure Node where
  nodeId : String
  revoked : Bool
  draining : Bool
  trashed : Bool

omit [LinearOrder Id] in
/-- `trashDispatchRefusal`: a command for something in the trash is refused, except the one that
puts a worker to sleep. -/
def trashDispatchRefusal (trashed : String → Bool) (node : Node) (command : Command Id) :
    Option String :=
  if command.commandType = "project.suspend" then none
  else if node.trashed then some "node_trashed"
  else
    match command.projectId with
    | none => none
    | some projectId =>
      if projectId ≠ "" ∧ trashed projectId = true then some "project_trashed" else none

namespace CommandTable

def update (table : CommandTable Id) (commandId : Id) (f : Command Id → Command Id)
    (hf : ∀ command, (f command).commandId = command.commandId) : CommandTable Id where
  rows := table.rows.map fun command => if command.commandId = commandId then f command else command
  unique := by
    have hids : (fun command => (if command.commandId = commandId then f command
        else command).commandId) = Command.commandId := by
      funext command
      split
      · exact hf command
      · rfl
    rw [List.map_map]
    exact (congrArg (fun ids => (table.rows.map ids).Nodup) hids).mpr table.unique

/-- `markDispatched`: the command was sent. -/
def markDispatched (table : CommandTable Id) (commandId : Id) : CommandTable Id :=
  table.update commandId (fun command => { command with state := .dispatched }) fun _ => rfl

/-- `commandsRepo.complete`: the command has an outcome, unless it had one. -/
def complete (table : CommandTable Id) (commandId : Id) (state : CommandRecordState)
    (errorCode : Option String) : CommandTable Id :=
  table.update commandId
    (fun command => if command.state.isOpen then { command with state, errorCode } else command)
    fun command => by split <;> rfl

end CommandTable

/-- What a round has done so far: the table, and what was sent. -/
abbrev Round (Id : Type) := CommandTable Id × List (Command Id)

/-- The loop of `dispatchFor`: a claimed command is left in the queue, refused or sent. -/
def dispatch (trashed : String → Bool) (node : Node) (round : Round Id) (command : Command Id) :
    Round Id :=
  if node.draining = true ∧ command.commandType = "runs.create" then round
  else
    match trashDispatchRefusal trashed node command with
    | some refusal => (round.1.complete command.commandId .rejected (some refusal), round.2)
    | none => (round.1.markDispatched command.commandId, round.2 ++ [command])

/-- The limit that `dispatchFor` gives to `claimPending`. -/
def claimLimit : ℕ := 8

/-- `dispatchFor`: one round. -/
def dispatchFor (trashed : String → Bool) (locked : Id → Bool) (node : Node)
    (table : CommandTable Id) : Round Id :=
  if node.revoked then (table, [])
  else (table.claimPending locked node.nodeId claimLimit).foldl (dispatch trashed node) (table, [])

section Rounds

variable (trashed : String → Bool) (locked : Id → Bool) (node : Node) (table : CommandTable Id)

omit [LinearOrder Id] in
/-- A command that may be sent to the Node and creates no run. -/
def Deliverable (command : Command Id) : Prop :=
  command.commandType ≠ "runs.create" ∧ trashDispatchRefusal trashed node command = none

/-- A command that creates no run is sent exactly if it is claimed and not refused. -/
theorem mem_foldl_dispatch {command : Command Id} (hcommand : command.commandType ≠ "runs.create")
    (claimed : List (Command Id)) (round : Round Id) :
    command ∈ (claimed.foldl (dispatch trashed node) round).2 ↔ command ∈ round.2 ∨
      (command ∈ claimed ∧ trashDispatchRefusal trashed node command = none) := by
  induction claimed generalizing round with
  | nil => simp
  | cons first claimed ih =>
    rw [List.foldl_cons, ih]
    have hstep : command ∈ (dispatch trashed node round first).2 ↔ command ∈ round.2 ∨
        (command = first ∧ trashDispatchRefusal trashed node command = none) := by
      unfold dispatch
      split
      · rename_i hskipped
        refine ⟨.inl, ?_⟩
        rintro (hsent | ⟨rfl, -⟩)
        · exact hsent
        · exact absurd hskipped.2 hcommand
      · split
        · rename_i refusal hrefused
          refine ⟨.inl, ?_⟩
          rintro (hsent | ⟨rfl, hnone⟩)
          · exact hsent
          · rw [hrefused] at hnone
            cases hnone
        · rename_i hnone
          rw [List.mem_append, List.mem_singleton]
          refine or_congr_right ⟨?_, And.left⟩
          rintro rfl
          exact ⟨rfl, hnone⟩
    rw [hstep, List.mem_cons]
    tauto

/-- A round sends a command other than `runs.create` exactly if the Node is not revoked and one that
may be sent, and that no other transaction holds, has fewer than eight queued commands before it. -/
theorem sends_deliverable_iff :
    (∃ command ∈ (dispatchFor trashed locked node table).2, command.commandType ≠ "runs.create") ↔
      node.revoked = false ∧ ∃ command ∈ table.pending node.nodeId,
        Deliverable trashed node command ∧ locked command.commandId = false ∧
        (table.pending node.nodeId).countP (fun other =>
          decide (priority (table.pending node.nodeId) other <
            priority (table.pending node.nodeId) command)) < claimLimit := by
  unfold dispatchFor
  cases node.revoked with
  | true => simp
  | false =>
    rw [if_neg Bool.false_ne_true]
    constructor
    · rintro ⟨command, hsent, hcommand⟩
      rcases (mem_foldl_dispatch trashed node hcommand _ _).mp hsent with hnone | ⟨hclaimed, hfree⟩
      · cases hnone
      · obtain ⟨hpending, hunlocked, hfew⟩ := (mem_claimPending_iff table locked _ _).mp hclaimed
        exact ⟨rfl, command, hpending, ⟨hcommand, hfree⟩, hunlocked, hfew⟩
    · rintro ⟨-, command, hpending, ⟨hcommand, hfree⟩, hunlocked, hfew⟩
      refine ⟨command, (mem_foldl_dispatch trashed node hcommand _ _).mpr (.inr ⟨?_, hfree⟩),
        hcommand⟩
      exact (mem_claimPending_iff table locked _ _).mpr ⟨hpending, hunlocked, hfew⟩

end Rounds

def queuedCommand (commandType : String) (n : ℕ) : Command ℕ :=
  { commandId := n, nodeId := "n1", projectId := some "p1", commandType, state := .queued,
    createdAt := n, errorCode := none }

/-- Eight runs are to be created, and after them one is to be cancelled. -/
def crowdedQueue : CommandTable ℕ where
  rows := (List.range 8).map (queuedCommand "runs.create") ++ [queuedCommand "runs.cancel" 8]
  unique := by decide

def drainingNode : Node := ⟨"n1", false, true, false⟩

/-- The cancellation is not sent, and the round leaves everything as it was for the next one. -/
theorem cancellation_not_sent :
    queuedCommand "runs.cancel" 8 ∈ crowdedQueue.pending "n1" ∧
      trashDispatchRefusal (fun _ => false) drainingNode (queuedCommand "runs.cancel" 8) = none ∧
      (dispatchFor (fun _ => false) (fun _ => false) drainingNode crowdedQueue).2 = [] ∧
      (dispatchFor (fun _ => false) (fun _ => false) drainingNode crowdedQueue).1.rows =
        crowdedQueue.rows := by
  refine ⟨by decide, by decide, ?_, ?_⟩
  · decide +kernel
  · decide +kernel

end Asterism.Dispatch
