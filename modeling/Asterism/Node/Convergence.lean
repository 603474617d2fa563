import Asterism.Sorting.Stable
import Mathlib.Data.List.Destutter

/-!
# Waiting for services to settle

After a restart the Node looks at every service in rounds. A service has settled when it has been
active, with one main process that executes one expected file, from one look to another that is the
settling time later. The rounds end when every service has settled, or with the first round at or
after the deadline.
-/

namespace Asterism.Convergence

/-- `ActiveState` of a unit. -/
inductive ActiveState
  | active | activating | deactivating | reloading | inactive | failed | unknown
  deriving DecidableEq

/-- `ExecutableClass`: how an observed executable relates to the expectation. -/
inductive ExecutableClass
  | expected | previous | deleted | replaced | outside | unreadable | noProcess
  deriving DecidableEq

/-- `Role`: which service this is. -/
inductive Role
  | node
  | hostHermes
  | projectWorker (projectId : String)
  deriving DecidableEq

/-- `Target`: one service to bring to a verified state. -/
structure Target where
  unit : String
  role : Role

/-- `UnitStatus`: a unit's state and main process, read together. -/
structure UnitStatus where
  activeState : ActiveState
  mainPid : Option ℕ

/-- `ProcessImage`: the device and the inode of a file. -/
abbrev Identity := ℕ × ℕ

/-- What the host answers about a service: its status, the file its process executes, and how that
file relates to the expectation. -/
structure Answers where
  unitStatus : Option UnitStatus
  processImage : Option Identity
  classify : ExecutableClass

/-- `Observation`: one look at a service. -/
structure Observation where
  activeState : ActiveState
  mainPid : Option ℕ
  executable : ExecutableClass
  identity : Option Identity

/-- `observe`: look at a service. -/
def observe (answers : Answers) : Observation :=
  let status := answers.unitStatus.getD ⟨.unknown, none⟩
  match status.mainPid with
  | none => ⟨status.activeState, none, .noProcess, none⟩
  | some pid => ⟨status.activeState, some pid, answers.classify, answers.processImage⟩

namespace Observation

/-- `good`: the service is as it should be. -/
def good (seen : Observation) : Bool :=
  seen.activeState = .active && seen.mainPid.isSome && seen.executable = .expected

/-- `key`: the process and the file it runs. -/
def key (seen : Observation) : Option (ℕ × Identity) :=
  seen.mainPid.bind fun pid => seen.identity.map fun identity => (pid, identity)

/-- `Held`: what a good look holds on to. -/
def held (seen : Observation) : Option (ℕ × Identity) := if seen.good then seen.key else none

end Observation

/-- `Policy`: how long to wait, how often to look, and how long a good state must hold. -/
structure Policy where
  deadline : ℕ
  interval : ℕ
  settle : ℕ

/-- `Watch`: what is known of a service so far. -/
structure Watch where
  last : Option Observation := none
  since : Option (ℕ × (ℕ × Identity)) := none
  done : Option ℕ := none

/-- The loop of `converge`, on one target: take in a look, unless the service has settled. -/
def Watch.look (policy : Policy) (now : ℕ) (seen : Observation) (watch : Watch) : Watch :=
  if watch.done.isSome then watch
  else
    match seen.good, seen.key with
    | true, some key =>
      match watch.since with
      | some (since, held) =>
        if held = key then
          if policy.settle ≤ now - since then
            { watch with done := some key.1, last := some seen }
          else { watch with last := some seen }
        else { watch with since := some (now, key), last := some seen }
      | none => { watch with since := some (now, key), last := some seen }
    | _, _ => { watch with since := none, last := some seen }

/-- `Converged`: a service that reached and held the expected state. -/
structure Converged where
  role : Role
  mainPid : ℕ

/-- `Reason`: why a service did not converge. -/
inductive Reason
  | notActive | noMainProcess | wrongExecutable | unsettled

/-- `NotConverged`: a service that did not converge before the deadline. -/
structure NotConverged where
  role : Role
  reason : Reason
  last : Observation

/-- `from_last`: the report about a service from the last look at it. -/
def NotConverged.fromLast (role : Role) (last : Observation) : NotConverged :=
  let reason :=
    if last.activeState ≠ .active then .notActive
    else if last.mainPid.isNone then .noMainProcess
    else if last.executable ≠ .expected then .wrongExecutable
    else .unsettled
  ⟨role, reason, last⟩

/-- `Clock`: when the waiting began, and the time at the start of each round. -/
structure Clock where
  started : ℕ
  now : ℕ → ℕ

/-- A target of `converge`, with its position and what is known of it. -/
structure Slot where
  target : Target
  position : ℕ
  watch : Watch := {}

/-- The loop of `converge` from a round on, for as many rounds as are allowed. -/
def rounds (policy : Policy) (clock : Clock) (answers : ℕ → ℕ → Answers) :
    ℕ → ℕ → List Slot → Option (Except (List NotConverged) (List Converged))
  | 0, _, _ => none
  | fuel + 1, round, slots =>
    let looked := slots.map fun slot =>
      { slot with
        watch := slot.watch.look policy (clock.now round) (observe (answers slot.position round)) }
    if looked.all fun slot => slot.watch.done.isSome then
      some (.ok (looked.map fun slot => ⟨slot.target.role, slot.watch.done.getD 0⟩))
    else if policy.deadline ≤ clock.now round - clock.started then
      some (.error ((looked.filter fun slot => slot.watch.done.isNone).map fun slot =>
        .fromLast slot.target.role (slot.watch.last.getD ⟨.unknown, none, .noProcess, none⟩)))
    else rounds policy clock answers fuel (round + 1) looked

/-- `converge`: watch every target until each has held a good state, or the deadline passes. -/
def converge (policy : Policy) (clock : Clock) (targets : List Target)
    (answers : ℕ → ℕ → Answers) (fuel : ℕ) :
    Option (Except (List NotConverged) (List Converged)) :=
  rounds policy clock answers fuel 0
    (targets.zipIdx.map fun target => { target := target.1, position := target.2 })

/-! ## One service -/

section Series

variable (policy : Policy) (now : ℕ → ℕ) (seen : ℕ → Observation)

/-- What is known of a service before a round. -/
def watchAt : ℕ → Watch
  | 0 => {}
  | round + 1 => (watchAt round).look policy (now round) (seen round)

/-- Every look from one round to another is good, at one process and one file. -/
def Held (first last : ℕ) (key : ℕ × Identity) : Prop :=
  ∀ round, first ≤ round → round ≤ last → (seen round).held = some key

/-- Before this round there were two looks the settling time apart, with every look from the one to
the other good and at one process and one file. -/
def SettledBefore (round : ℕ) : Prop :=
  ∃ first last key, first ≤ last ∧ last < round ∧ policy.settle ≤ now last - now first ∧
    Held seen first last key

/-- What the watch says about the looks so far. -/
structure Watch.Follows (watch : Watch) (round : ℕ) : Prop where
  done : watch.done.isSome = true ↔ SettledBefore policy now seen round
  last : watch.done = none → ∀ before, round = before + 1 → watch.last = some (seen before)
  since : watch.done = none → ∀ time key, watch.since = some (time, key) ↔
    ∃ first last, round = last + 1 ∧ first ≤ last ∧ time = now first ∧ Held seen first last key ∧
      ∀ earlier, earlier ≤ last → Held seen earlier last key → first ≤ earlier

end Series

section Looks

variable {policy : Policy} {now : ℕ → ℕ} {seen : ℕ → Observation} {watch : Watch} {round : ℕ}
  {key : ℕ × Identity}

theorem Watch.look_of_none {time : ℕ} {sight : Observation} (hdone : watch.done = none)
    (hheld : sight.held = none) :
    watch.look policy time sight = { watch with since := none, last := some sight } := by
  unfold Observation.held at hheld
  unfold look
  rw [hdone]
  cases hgood : sight.good with
  | false => rfl
  | true =>
    rw [hgood, if_pos rfl] at hheld
    rw [hheld]
    rfl

theorem Watch.look_of_new {time : ℕ} {sight : Observation} (hdone : watch.done = none)
    (hheld : sight.held = some key) (hnew : ∀ since, watch.since ≠ some (since, key)) :
    watch.look policy time sight =
      { watch with since := some (time, key), last := some sight } := by
  unfold Observation.held at hheld
  split at hheld
  · rename_i hgood
    unfold look
    rw [hdone, hgood, hheld]
    cases hsince : watch.since with
    | none => rfl
    | some found =>
      have hother : found.2 ≠ key := fun heq => hnew found.1 (heq ▸ hsince)
      simp only [Option.isSome_none, Bool.false_eq_true, if_false, if_neg hother]
  · cases hheld

/-- A look at the same process and file goes on with the series, or ends it well. -/
theorem Watch.look_of_same {time since : ℕ} {sight : Observation} (hdone : watch.done = none)
    (hheld : sight.held = some key) (hsince : watch.since = some (since, key)) :
    watch.look policy time sight =
      if policy.settle ≤ time - since then { watch with done := some key.1, last := some sight }
      else { watch with last := some sight } := by
  unfold Observation.held at hheld
  split at hheld
  · rename_i hgood
    unfold look
    rw [hdone, hgood, hheld, hsince]
    simp only [Option.isSome_none, Bool.false_eq_true, if_false, if_true]
  · cases hheld

theorem Held.key_eq {first last : ℕ} {key' : ℕ × Identity} (h : Held seen first last key')
    (hle : first ≤ last) (hkey : (seen last).held = some key) : key' = key :=
  Option.some.inj ((h last hle (Nat.le_refl _)).symm.trans hkey)

theorem Held.succ {first : ℕ} (h : Held seen first round key)
    (hkey : (seen (round + 1)).held = some key) : Held seen first (round + 1) key := by
  intro k hfirst hlast
  rcases Nat.lt_or_eq_of_le hlast with hlt | rfl
  · exact h k hfirst (Nat.lt_succ_iff.mp hlt)
  · exact hkey

theorem Held.exists_first {earlier last : ℕ} (h : Held seen earlier last key)
    (hle : earlier ≤ last) : ∃ first ≤ last, Held seen first last key ∧
      ∀ start, start ≤ last → Held seen start last key → first ≤ start := by
  classical
  have hexists : ∃ first, first ≤ last ∧ Held seen first last key := ⟨earlier, hle, h⟩
  refine ⟨Nat.find hexists, (Nat.find_spec hexists).1, (Nat.find_spec hexists).2, ?_⟩
  exact fun start hstart hheld => Nat.find_min' hexists ⟨hstart, hheld⟩

/-- A service settles in a round when it had not before and the series that reaches the round is
long enough. -/
theorem settledBefore_succ :
    SettledBefore policy now seen (round + 1) ↔ SettledBefore policy now seen round ∨
      ∃ first key, first ≤ round ∧ policy.settle ≤ now round - now first ∧
        Held seen first round key := by
  constructor
  · rintro ⟨first, last, key, hle, hlast, hsettle, hheld⟩
    rcases Nat.lt_or_eq_of_le (Nat.lt_succ_iff.mp hlast) with hlt | rfl
    · exact .inl ⟨first, last, key, hle, hlt, hsettle, hheld⟩
    · exact .inr ⟨first, key, hle, hsettle, hheld⟩
  · rintro (⟨first, last, key, hle, hlast, hsettle, hheld⟩ | ⟨first, key, hle, hsettle, hheld⟩)
    · exact ⟨first, last, key, hle, Nat.lt_succ_of_lt hlast, hsettle, hheld⟩
    · exact ⟨first, round, key, hle, Nat.lt_succ_self _, hsettle, hheld⟩

theorem Watch.follows_zero : Watch.Follows policy now seen {} 0 := by
  refine ⟨⟨fun h => (Bool.false_ne_true h).elim, ?_⟩, fun _ _ h => (Nat.succ_ne_zero _ h.symm).elim,
    fun _ time key => ⟨fun h => (Option.some_ne_none _ h.symm).elim, ?_⟩⟩
  · rintro ⟨_, last, _, _, hlast, _⟩
    exact (Nat.not_lt_zero last hlast).elim
  · rintro ⟨_, last, hround, _⟩
    exact (Nat.succ_ne_zero last hround.symm).elim

/-- A series that did not reach the round before begins in this round. -/
theorem Watch.Follows.first_eq (h : watch.Follows policy now seen round)
    (hdone : watch.done = none) (hnew : ∀ since, watch.since ≠ some (since, key)) {first : ℕ}
    (hle : first ≤ round) (hheld : Held seen first round key) : first = round := by
  by_contra hne
  obtain ⟨last, rfl⟩ : ∃ last, round = last + 1 := Nat.exists_eq_succ_of_ne_zero (by omega)
  have hbefore : Held seen first last key :=
    fun k hfirst hlast => hheld k hfirst (Nat.le_succ_of_le hlast)
  obtain ⟨start, hstart, hseries, hfirst⟩ := hbefore.exists_first (by omega)
  exact hnew _ ((h.since hdone _ key).mpr ⟨start, last, rfl, hstart, rfl, hseries, hfirst⟩)

theorem Watch.Follows.look (hsettle : 0 < policy.settle) (hnow : Monotone now)
    (h : watch.Follows policy now seen round) :
    (watch.look policy (now round) (seen round)).Follows policy now seen (round + 1) := by
  cases hdone : watch.done with
  | some pid =>
    have hsome : watch.done.isSome = true := by rw [hdone]; rfl
    have hsame : watch.look policy (now round) (seen round) = watch := if_pos hsome
    rw [hsame]
    refine ⟨⟨fun _ => settledBefore_succ.mpr (.inl (h.done.mp hsome)), fun _ => hsome⟩,
      fun hnone => ?_, fun hnone => ?_⟩
    · rw [hdone] at hnone
      cases hnone
    · rw [hdone] at hnone
      cases hnone
  | none =>
    -- As long as the series that reaches the round is short, the service has not settled.
    have hopen : (∀ first key, first ≤ round → Held seen first round key →
        now round - now first < policy.settle) →
        (watch.done.isSome = true ↔ SettledBefore policy now seen (round + 1)) := by
      intro hshort
      rw [h.done, settledBefore_succ]
      refine ⟨.inl, fun hsettled => hsettled.resolve_right ?_⟩
      rintro ⟨first, key, hle, hlong, hseries⟩
      exact Nat.not_lt.mpr hlong (hshort first key hle hseries)
    have hlast : ∀ before, round + 1 = before + 1 → some (seen round) = some (seen before) :=
      fun before heq => by rw [Nat.succ_injective heq]
    cases hheld : (seen round).held with
    | none =>
      have hbroken : ∀ first key, first ≤ round → ¬ Held seen first round key := by
        intro first key hle hseries
        rw [hseries round hle (Nat.le_refl _)] at hheld
        cases hheld
      rw [look_of_none hdone hheld]
      refine ⟨hopen fun first key hle hseries => (hbroken first key hle hseries).elim,
        fun _ => hlast,
        fun _ time key => ⟨fun hsome => (Option.some_ne_none _ hsome.symm).elim, ?_⟩⟩
      rintro ⟨first, last, hround, hle, _, hseries, _⟩
      cases hround
      exact (hbroken first key hle hseries).elim
    | some key =>
      by_cases hsince : ∃ since, watch.since = some (since, key)
      · obtain ⟨since, hsince⟩ := hsince
        obtain ⟨first, last, rfl, hle, rfl, hseries, hfirst⟩ := (h.since hdone _ _).mp hsince
        have hlonger := hseries.succ hheld
        -- The series that reaches the round cannot have begun earlier.
        have hstart : ∀ start, start ≤ last + 1 → Held seen start (last + 1) key →
            first ≤ start := by
          intro start hstart hseries'
          rcases Nat.lt_or_eq_of_le hstart with hlt | rfl
          · refine hfirst start (Nat.lt_succ_iff.mp hlt) fun k hk hk' => ?_
            exact hseries' k hk (Nat.le_succ_of_le hk')
          · exact Nat.le_succ_of_le hle
        rw [look_of_same hdone hheld hsince]
        split
        · rename_i hlong
          refine ⟨⟨fun _ => settledBefore_succ.mpr (.inr ?_), fun _ => rfl⟩,
            fun hnone => (Option.some_ne_none _ hnone).elim,
            fun hnone => (Option.some_ne_none _ hnone).elim⟩
          exact ⟨first, key, Nat.le_succ_of_le hle, hlong, hlonger⟩
        · rename_i hshort
          refine ⟨hopen fun start key' hle' hseries' => ?_, fun _ => hlast,
            fun _ time key' => ⟨fun hsame => ?_, ?_⟩⟩
          · obtain rfl := hseries'.key_eq hle' hheld
            have hearly := hnow (hstart start hle' hseries')
            omega
          · cases hsince.symm.trans hsame
            exact ⟨first, last + 1, rfl, Nat.le_succ_of_le hle, rfl, hlonger, hstart⟩
          · rintro ⟨start, last', hround, hle', rfl, hseries', hfirst'⟩
            cases hround
            obtain rfl := hseries'.key_eq hle' hheld
            have hearly := hfirst' first (Nat.le_succ_of_le hle) hlonger
            have hlate := hstart start hle' hseries'
            rw [hsince, Nat.le_antisymm hearly hlate]
      · push Not at hsince
        have hbegins : ∀ first key', first ≤ round → Held seen first round key' →
            first = round ∧ key' = key := by
          intro first key' hle hseries
          obtain rfl := hseries.key_eq hle hheld
          exact ⟨h.first_eq hdone hsince hle hseries, rfl⟩
        have halone : Held seen round round key := fun k hk hk' => Nat.le_antisymm hk' hk ▸ hheld
        rw [look_of_new hdone hheld hsince]
        refine ⟨hopen fun first key' hle hseries => ?_, fun _ => hlast,
          fun _ time key' => ⟨fun hsame => ?_, ?_⟩⟩
        · obtain ⟨rfl, _⟩ := hbegins first key' hle hseries
          omega
        · cases hsame
          refine ⟨round, round, rfl, Nat.le_refl _, rfl, halone, fun earlier hle hseries => ?_⟩
          exact Nat.le_of_eq (hbegins earlier key hle hseries).1.symm
        · rintro ⟨first, last, hround, hle, rfl, hseries, _⟩
          cases hround
          obtain ⟨rfl, rfl⟩ := hbegins first key' hle hseries
          rfl

theorem watchAt_follows (hsettle : 0 < policy.settle) (hnow : Monotone now) (round : ℕ) :
    (watchAt policy now seen round).Follows policy now seen round := by
  induction round with
  | zero => exact Watch.follows_zero
  | succ round ih => exact ih.look hsettle hnow

end Looks

/-! ## All services -/

section Rounds

variable (policy : Policy) (clock : Clock) (targets : List Target) (answers : ℕ → ℕ → Answers)

/-- The services before a round. -/
def slotsAt (round : ℕ) : List Slot :=
  targets.zipIdx.map fun target =>
    ⟨target.1, target.2, watchAt policy clock.now (fun k => observe (answers target.2 k)) round⟩

/-- The clock moves on by the interval from each round to the next. -/
def Clock.Advances (clock : Clock) (interval : ℕ) : Prop :=
  ∀ round, clock.now round + interval ≤ clock.now (round + 1)

/-- The round is the first one at or after the deadline. -/
def AtDeadline (round : ℕ) : Prop :=
  policy.deadline ≤ clock.now round - clock.started ∧
    ∀ earlier < round, clock.now earlier - clock.started < policy.deadline

/-- By the end of this round the service at a position has settled. -/
def SettledBy (position round : ℕ) : Prop :=
  SettledBefore policy clock.now (fun k => observe (answers position k)) (round + 1)

variable {policy clock targets answers}

theorem rounds_slotsAt (fuel round : ℕ) :
    rounds policy clock answers (fuel + 1) round (slotsAt policy clock targets answers round) =
      let looked := slotsAt policy clock targets answers (round + 1)
      if looked.all fun slot => slot.watch.done.isSome then
        some (.ok (looked.map fun slot => ⟨slot.target.role, slot.watch.done.getD 0⟩))
      else if policy.deadline ≤ clock.now round - clock.started then
        some (.error ((looked.filter fun slot => slot.watch.done.isNone).map fun slot =>
          .fromLast slot.target.role (slot.watch.last.getD ⟨.unknown, none, .noProcess, none⟩)))
      else rounds policy clock answers fuel (round + 1) looked := by
  have hlooked : (slotsAt policy clock targets answers round).map (fun slot => { slot with
      watch := slot.watch.look policy (clock.now round)
        (observe (answers slot.position round)) }) =
      slotsAt policy clock targets answers (round + 1) := by
    simp only [slotsAt, List.map_map]
    rfl
  rw [rounds, hlooked]

theorem Clock.Advances.monotone {interval : ℕ} (h : clock.Advances interval) :
    Monotone clock.now :=
  monotone_nat_of_le_succ fun round => Nat.le_trans (Nat.le_add_right _ _) (h round)

theorem Clock.Advances.exists_atDeadline (h : clock.Advances policy.interval)
    (hinterval : 0 < policy.interval) : ∃ last, AtDeadline policy clock last := by
  have hreached : ∀ round, round ≤ clock.now round := by
    intro round
    induction round with
    | zero => exact Nat.zero_le _
    | succ round ih =>
      have hstep := h round
      omega
  have hexists : ∃ round, policy.deadline ≤ clock.now round - clock.started := by
    refine ⟨policy.deadline + clock.started, ?_⟩
    have hlate := hreached (policy.deadline + clock.started)
    omega
  refine ⟨Nat.find hexists, Nat.find_spec hexists, fun earlier hearlier => ?_⟩
  exact Nat.lt_of_not_le (Nat.find_min hexists hearlier)

theorem all_done_iff (hsettle : 0 < policy.settle) (hnow : Monotone clock.now) (round : ℕ) :
    ((slotsAt policy clock targets answers (round + 1)).all fun slot => slot.watch.done.isSome) =
        true ↔ ∀ target ∈ targets.zipIdx, SettledBy policy clock answers target.2 round := by
  simp only [slotsAt, List.all_map, List.all_eq_true, Function.comp_apply]
  exact forall₂_congr fun target _ => (watchAt_follows hsettle hnow (round + 1)).done

theorem SettledBy.mono {position round later : ℕ}
    (h : SettledBy policy clock answers position round) (hle : round ≤ later) :
    SettledBy policy clock answers position later := by
  obtain ⟨first, last, key, hfirst, hlast, hrest⟩ := h
  exact ⟨first, last, key, hfirst, by omega, hrest⟩

/-- The rounds from one on end well if every service settles by the deadline. -/
theorem rounds_ok (hsettle : 0 < policy.settle) (hnow : Monotone clock.now) {last : ℕ}
    (hlast : AtDeadline policy clock last)
    (hall : ∀ target ∈ targets.zipIdx, SettledBy policy clock answers target.2 last) (fuel : ℕ) :
    ∀ round ≤ last, last < round + fuel → ∃ converged,
      rounds policy clock answers fuel round (slotsAt policy clock targets answers round) =
        some (.ok converged) := by
  induction fuel with
  | zero => intro round hround hfuel; omega
  | succ fuel ih =>
    intro round hround hfuel
    rw [rounds_slotsAt]
    dsimp only
    split
    · exact ⟨_, rfl⟩
    · rename_i hopen
      rcases Nat.lt_or_eq_of_le hround with hlt | rfl
      · rw [if_neg (Nat.not_le.mpr (hlast.2 round hlt))]
        exact ih (round + 1) hlt (by omega)
      · exact absurd ((all_done_iff hsettle hnow round).mpr hall) hopen

/-- The rounds from one on end with a report if a service does not settle by the deadline. -/
theorem rounds_error (hsettle : 0 < policy.settle) (hnow : Monotone clock.now) {last : ℕ}
    (hlast : AtDeadline policy clock last)
    (hopen : ¬ ∀ target ∈ targets.zipIdx, SettledBy policy clock answers target.2 last)
    (fuel : ℕ) : ∀ round ≤ last, last < round + fuel →
      rounds policy clock answers fuel round (slotsAt policy clock targets answers round) =
        some (.error (((slotsAt policy clock targets answers (last + 1)).filter fun slot =>
          slot.watch.done.isNone).map fun slot => .fromLast slot.target.role
            (slot.watch.last.getD ⟨.unknown, none, .noProcess, none⟩))) := by
  induction fuel with
  | zero => intro round hround hfuel; omega
  | succ fuel ih =>
    intro round hround hfuel
    have hnot : ¬ ((slotsAt policy clock targets answers (round + 1)).all fun slot =>
        slot.watch.done.isSome) = true := fun hdone => hopen fun target htarget =>
      ((all_done_iff hsettle hnow round).mp hdone target htarget).mono hround
    rw [rounds_slotsAt]
    dsimp only
    rw [if_neg hnot]
    rcases Nat.lt_or_eq_of_le hround with hlt | rfl
    · rw [if_neg (Nat.not_le.mpr (hlast.2 round hlt))]
      exact ih (round + 1) hlt (by omega)
    · rw [if_pos hlast.1]

end Rounds

/-- For every clock that moves on by the interval: no more rounds are made than up to the first one
at or after the deadline. They end well exactly if by then every service had two looks the settling
time apart with every look from the one to the other good and at one process and one file.
Otherwise exactly the services that had not are reported, each with the last look at it. -/
theorem converge_iff_settled (policy : Policy) (hinterval : 0 < policy.interval)
    (hsettle : 0 < policy.settle) (clock : Clock) (hclock : clock.Advances policy.interval)
    (targets : List Target) (answers : ℕ → ℕ → Answers) :
    ∃ last, AtDeadline policy clock last ∧ ∀ fuel, last < fuel →
      ∃ result, converge policy clock targets answers fuel = some result ∧
        ((∃ converged, result = .ok converged) ↔
          ∀ target ∈ targets.zipIdx, SettledBy policy clock answers target.2 last) ∧
        ∀ failed, result = .error failed → ∃ left : List (Target × ℕ),
          left.Sublist targets.zipIdx ∧
          (∀ target ∈ targets.zipIdx,
            target ∈ left ↔ ¬ SettledBy policy clock answers target.2 last) ∧
          failed = left.map fun target =>
            .fromLast target.1.role (observe (answers target.2 last)) := by
  have hnow := hclock.monotone
  obtain ⟨last, hlast⟩ := hclock.exists_atDeadline hinterval
  refine ⟨last, hlast, fun fuel hfuel => ?_⟩
  by_cases hall : ∀ target ∈ targets.zipIdx, SettledBy policy clock answers target.2 last
  · obtain ⟨converged, hrounds⟩ := rounds_ok hsettle hnow hlast hall fuel 0 (Nat.zero_le _)
      (by omega)
    exact ⟨.ok converged, hrounds, ⟨fun _ => hall, fun _ => ⟨converged, rfl⟩⟩,
      fun failed hfailed => by cases hfailed⟩
  · refine ⟨_, rounds_error hsettle hnow hlast hall fuel 0 (Nat.zero_le _) (by omega),
      ⟨fun ⟨_, hok⟩ => (by cases hok), fun h => absurd h hall⟩, fun failed hfailed => ?_⟩
    cases hfailed
    have hfollows : ∀ position, Watch.Follows policy clock.now
        (fun k => observe (answers position k))
        (watchAt policy clock.now (fun k => observe (answers position k)) (last + 1)) (last + 1) :=
      fun _ => watchAt_follows hsettle hnow _
    rw [slotsAt, List.filter_map, List.map_map]
    refine ⟨_, List.filter_sublist, fun target htarget => ?_,
      List.map_congr_left fun target h => ?_⟩
    · rw [List.mem_filter, SettledBy, ← (hfollows target.2).done]
      simp only [htarget, true_and, Function.comp_apply, Option.isNone_iff_eq_none,
        Option.not_isSome_iff_eq_none]
    · have hnone := (List.mem_filter.mp h).2
      simp only [Function.comp_apply, Option.isNone_iff_eq_none] at hnone
      simp only [Function.comp_apply, (hfollows target.2).last hnone last rfl, Option.getD_some]

def steady (_ _ : ℕ) : Answers := ⟨some ⟨.active, some 7⟩, some (1, 2), .expected⟩

/-- With a clock that counts the rounds, the service has settled before the deadline. -/
theorem steady_converges : ∃ converged,
    converge ⟨3, 1, 2⟩ ⟨0, id⟩ [⟨"worker", .hostHermes⟩] steady 4 = some (.ok converged) := by
  obtain ⟨last, hlast, hresult⟩ := converge_iff_settled ⟨3, 1, 2⟩ (by decide) (by decide) ⟨0, id⟩
    (fun _ => Nat.le_refl _) [⟨"worker", .hostHermes⟩] steady
  have hthree : last = 3 := by
    have hreached : 3 ≤ last := hlast.1
    by_contra hne
    exact absurd (hlast.2 3 (by omega)) (Nat.lt_irrefl 3)
  subst hthree
  obtain ⟨result, hresult, hok, _⟩ := hresult 4 (by decide)
  obtain ⟨converged, rfl⟩ := hok.mpr fun target _ =>
    ⟨0, 2, (7, 1, 2), by decide, by decide, by decide, fun _ _ _ => rfl⟩
  exact ⟨converged, hresult⟩

end Asterism.Convergence
