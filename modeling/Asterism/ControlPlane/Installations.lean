import Asterism.ControlPlane.Updates
import Mathlib.Algebra.Group.Nat.Defs
import Mathlib.Data.List.Induction

/-!
# Installing a Node

An installer reports how far it is, with nothing but its connection code. The code is looked up
first, and the report is applied later in a transaction of its own. A report of an older attempt,
and one about an attempt that has ended, change nothing. A failure keeps the bar where it stopped.
The installer may also report that it was cancelled or has expired, and then the bar is put to
zero.
-/

namespace Asterism.Installations

open ControlPlane (InstallationState)

/-- `TERMINAL`: nothing follows these states. -/
def isTerminal : InstallationState → Bool
  | .complete | .failed | .cancelled | .expired => true
  | _ => false

/-- `FAILURE_CODES`: why an installation stopped. -/
inductive FailureCode
  | unsupportedOs | unsupportedArchitecture | insufficientDisk | downloadFailed | digestMismatch
  | signatureInvalid | unsupportedBundleSchema | prerequisitesFailed | runtimeInstallFailed
  | enrollmentRejected | serviceStartFailed | healthCheckFailed | interrupted | internalError
  | releaseMismatch | servicesNotConverged
  deriving DecidableEq

/-- `PERMANENT`: trying again could plausibly work. -/
def FailureCode.isRetryable : FailureCode → Bool
  | unsupportedOs | unsupportedArchitecture | unsupportedBundleSchema => false
  | _ => true

/-- `ProgressReport`: a report that the route accepts. -/
structure Report where
  state : InstallationState
  generation : ℕ
  bytesDone : Option ℕ := none
  bytesTotal : Option ℕ := none
  failureCode : Option FailureCode := none
  generation_pos : 1 ≤ generation

/-- `InstallationRecord`. Times are in milliseconds. -/
structure Installation where
  state : InstallationState := .codeIssued
  generation : ℕ := 1
  percent : ℕ := 0
  bytesDone : Option ℕ := none
  bytesTotal : Option ℕ := none
  failureCode : Option FailureCode := none
  retryable : Option Bool := none
  completedAt : Option ℕ := none
  cancelledAt : Option ℕ := none
  updatedAt : ℕ
  expiresAt : ℕ

/-- `ProgressDecision`: whether a report may be applied. -/
inductive Decision
  | apply (percent : ℕ)
  | staleGeneration
  | alreadyTerminal
  | wouldMoveBackwards

/-- `decideProgress`: decide whether a report may be applied to an attempt. -/
def decideProgress (current : Installation) (report : Report) : Decision :=
  if report.generation < current.generation then .staleGeneration
  else if isTerminal current.state ∧ report.generation = current.generation then .alreadyTerminal
  else
    let percent := report.state.percentFor report.bytesDone report.bytesTotal
    if report.generation > current.generation then .apply percent
    else if isTerminal report.state then .apply percent
    else if percent < current.percent then .wouldMoveBackwards
    else .apply percent

/-- The numbers of the report fit the columns they are written to. -/
def Report.fits (report : Report) : Bool :=
  report.generation < 2 ^ 31 && report.bytesDone.all (· < 2 ^ 63) &&
    report.bytesTotal.all (· < 2 ^ 63)

/-- `recordProgress`: apply one progress report. A report that cannot be written is rolled back. -/
def recordProgress (now : ℕ) (record : Installation) (report : Report) : Installation :=
  match decideProgress record report with
  | .staleGeneration | .alreadyTerminal | .wouldMoveBackwards => record
  | .apply percent =>
    if report.fits then
      { record with
        state := report.state
        generation := max record.generation report.generation
        percent := if report.state = .failed then record.percent else percent
        bytesDone := report.bytesDone
        bytesTotal := report.bytesTotal
        failureCode := report.failureCode
        retryable := report.failureCode.map FailureCode.isRetryable
        completedAt := if report.state = .complete then some now else record.completedAt
        updatedAt := now }
    else record

/-- `cancel`: stop an installation that has not finished. -/
def cancel (now : ℕ) (record : Installation) : Installation :=
  if isTerminal record.state then record
  else { record with state := .cancelled, cancelledAt := some now, updatedAt := now }

/-- `expireOverdue`: retire an installation whose code has run out of time. -/
def expireOverdue (now : ℕ) (record : Installation) : Installation :=
  if record.expiresAt ≤ now ∧ isTerminal record.state = false then
    { record with state := .expired, updatedAt := now }
  else record

/-- `resolveByCode`: the code still attaches to the installation. -/
def resolvable (now : ℕ) (record : Installation) : Bool :=
  now < record.expiresAt && record.cancelledAt.isNone && !isTerminal record.state

/-- An installation, and the reports whose code was found and that are not applied yet. -/
structure World where
  now : ℕ
  record : Installation
  waiting : List Report := []

/-- What can happen to an installation: the route `POST /v1/node-installations/progress`, a
cancellation and a sweep. -/
inductive Event
  /-- A report arrives. The code may be refused for other reasons than those of the record. -/
  | arrive (report : Report) (refused : Bool)
  /-- The transaction of a report that waits. -/
  | record (i : ℕ)
  | cancel
  | expireOverdue

namespace World

def handle (w : World) : Event → World
  | .arrive report refused =>
    if refused = false ∧ resolvable w.now w.record then { w with waiting := w.waiting ++ [report] }
    else w
  | .record i =>
    match w.waiting[i]? with
    | some report =>
      { w with
        record := recordProgress w.now w.record report, waiting := w.waiting.eraseIdx i }
    | none => w
  | .cancel => { w with record := Installations.cancel w.now w.record }
  | .expireOverdue => { w with record := Installations.expireOverdue w.now w.record }

/-- The request or sweep happens some time after the one before. -/
def step (w : World) (event : ℕ × Event) : World :=
  { w with now := w.now + event.1 }.handle event.2

def play (w : World) (script : List (ℕ × Event)) : World := script.foldl step w

def initial (expiresAt : ℕ) : World := { now := 0, record := { updatedAt := 0, expiresAt } }

end World

/-- The report says that the attempt was cancelled or has expired, and puts the bar to zero. -/
def Resets (record : Installation) (report : Report) : Prop :=
  (report.state = .cancelled ∨ report.state = .expired) ∧ report.fits = true ∧
    report.generation = record.generation ∧ isTerminal record.state = false ∧ 0 < record.percent

theorem percentFor_le (state : InstallationState) (done total : Option ℕ) :
    state.percentFor done total ≤ 100 := by
  unfold InstallationState.percentFor
  split
  · rename_i done total
    dsimp only [InstallationState.stagePercent]
    split
    · decide
    · refine Nat.div_le_of_le_mul ?_
      have hmin := Nat.min_le_right done total
      omega
  · cases state <;> decide

theorem decideProgress_apply {record : Installation} {report : Report} {percent : ℕ}
    (h : decideProgress record report = .apply percent) :
    percent = report.state.percentFor report.bytesDone report.bytesTotal ∧
      record.generation ≤ report.generation ∧
      (report.generation = record.generation → isTerminal record.state = false ∧
        (isTerminal report.state = true ∨ record.percent ≤ percent)) := by
  unfold decideProgress at h
  split at h
  · cases h
  · rename_i hstale
    split at h
    · cases h
    · rename_i hended
      have hlive : report.generation = record.generation → isTerminal record.state = false :=
        fun hsame => Bool.eq_false_iff.mpr fun hterminal => hended ⟨hterminal, hsame⟩
      dsimp only at h
      split at h
      · rename_i hnewer
        cases h
        exact ⟨rfl, Nat.le_of_lt hnewer, fun hsame => absurd hsame (Nat.ne_of_gt hnewer)⟩
      · split at h
        · rename_i hterminal
          cases h
          exact ⟨rfl, Nat.le_of_not_lt hstale, fun hsame => ⟨hlive hsame, .inl hterminal⟩⟩
        · split at h
          · cases h
          · rename_i hforward
            cases h
            exact ⟨rfl, Nat.le_of_not_lt hstale,
              fun hsame => ⟨hlive hsame, .inr (Nat.le_of_not_lt hforward)⟩⟩

/-- A report on an attempt that has ended, of that attempt or an older one, changes nothing. -/
theorem recordProgress_ended {record : Installation} {report : Report} (now : ℕ)
    (hended : isTerminal record.state = true) (hle : report.generation ≤ record.generation) :
    recordProgress now record report = record := by
  unfold recordProgress
  split
  · rfl
  · rfl
  · rfl
  · rename_i percent hdecision
    obtain ⟨_, hge, hlive⟩ := decideProgress_apply hdecision
    have hopen := (hlive (Nat.le_antisymm hle hge)).1
    rw [hended] at hopen
    cases hopen

/-- What a report does to the bar: it stays within its bounds and goes forward within the attempt,
unless the report resets it. -/
theorem recordProgress_percent {record : Installation} (hpercent : record.percent ≤ 100)
    (now : ℕ) (report : Report) :
    (recordProgress now record report).percent ≤ 100 ∧
      record.generation ≤ (recordProgress now record report).generation ∧
      ((recordProgress now record report).generation = record.generation →
        record.percent ≤ (recordProgress now record report).percent ∨ Resets record report) := by
  have hsame : record.percent ≤ 100 ∧ record.generation ≤ record.generation ∧
      (record.generation = record.generation →
        record.percent ≤ record.percent ∨ Resets record report) :=
    ⟨hpercent, Nat.le_refl _, fun _ => .inl (Nat.le_refl _)⟩
  unfold recordProgress
  split
  · exact hsame
  · exact hsame
  · exact hsame
  · rename_i percent hdecision
    obtain ⟨rfl, hge, hlive⟩ := decideProgress_apply hdecision
    split
    · rename_i hfits
      refine ⟨?_, Nat.le_max_left _ _, fun hmax => ?_⟩
      · dsimp only
        split
        · exact hpercent
        · exact percentFor_le _ _ _
      · have hgeneration : report.generation = record.generation :=
          Nat.le_antisymm (Nat.le_trans (Nat.le_max_right _ _) (Nat.le_of_eq hmax)) hge
        obtain ⟨hopen, hterminal | hforward⟩ := hlive hgeneration
        · have hreset : 0 < record.percent →
              report.state = .cancelled ∨ report.state = .expired → Resets record report :=
            fun hpositive hstate => ⟨hstate, hfits, hgeneration, hopen, hpositive⟩
          cases hstate : report.state with
          | failed => exact .inl (Nat.le_refl _)
          | complete => exact .inl hpercent
          | cancelled =>
            rcases Nat.eq_zero_or_pos record.percent with hzero | hpositive
            · exact .inl (Nat.le_of_eq hzero)
            · exact .inr (hreset hpositive (.inl hstate))
          | expired =>
            rcases Nat.eq_zero_or_pos record.percent with hzero | hpositive
            · exact .inl (Nat.le_of_eq hzero)
            · exact .inr (hreset hpositive (.inr hstate))
          | _ =>
            rw [hstate] at hterminal
            cases hterminal
        · left
          split
          · exact Nat.le_refl _
          · exact hforward
    · exact hsame

theorem Resets.percent_lt {record : Installation} {report : Report} (h : Resets record report)
    (now : ℕ) : (recordProgress now record report).generation = record.generation ∧
      (recordProgress now record report).percent < record.percent := by
  obtain ⟨hstate, hfits, hgeneration, hopen, hpositive⟩ := h
  have hzero : report.state.percentFor report.bytesDone report.bytesTotal = 0 ∧
      isTerminal report.state = true ∧ report.state ≠ .failed := by
    rcases hstate with hstate | hstate <;> rw [hstate] <;>
      exact ⟨rfl, rfl, InstallationState.noConfusion⟩
  have hdecision : decideProgress record report = .apply 0 := by
    unfold decideProgress
    rw [if_neg (by omega), if_neg (by rw [hopen]; exact fun h => Bool.false_ne_true h.1)]
    dsimp only
    rw [if_neg (by omega), if_pos hzero.2.1, hzero.1]
  unfold recordProgress
  rw [hdecision]
  dsimp only
  rw [if_pos hfits]
  exact ⟨by rw [hgeneration, Nat.max_self], by rwa [if_neg hzero.2.2]⟩

namespace World

variable {w : World}

/-- The report whose transaction the event is. -/
def transaction (w : World) : Event → Option Report
  | .record i => w.waiting[i]?
  | _ => none

theorem step_percent (hpercent : w.record.percent ≤ 100) (event : ℕ × Event) :
    (w.step event).record.percent ≤ 100 ∧
      w.record.generation ≤ (w.step event).record.generation ∧
      ((w.step event).record.generation = w.record.generation →
        w.record.percent ≤ (w.step event).record.percent ∨
          ∃ report, w.transaction event.2 = some report ∧ Resets w.record report) := by
  have hsame : w.record.percent ≤ 100 ∧ w.record.generation ≤ w.record.generation ∧
      (w.record.generation = w.record.generation → w.record.percent ≤ w.record.percent ∨
          ∃ report, w.transaction event.2 = some report ∧ Resets w.record report) :=
    ⟨hpercent, Nat.le_refl _, fun _ => .inl (Nat.le_refl _)⟩
  obtain ⟨elapsed, event⟩ := event
  cases event with
  | arrive report refused =>
    unfold step handle
    dsimp only
    split
    · exact hsame
    · exact hsame
  | record i =>
    unfold step handle transaction
    dsimp only
    cases hwaiting : w.waiting[i]? with
    | none => exact ⟨hpercent, Nat.le_refl _, fun _ => .inl (Nat.le_refl _)⟩
    | some report =>
      obtain ⟨hle, hgeneration, hbar⟩ := recordProgress_percent hpercent (w.now + elapsed) report
      exact ⟨hle, hgeneration, fun h => (hbar h).imp_right fun hreset => ⟨report, rfl, hreset⟩⟩
  | cancel =>
    unfold step handle Installations.cancel
    dsimp only
    split
    · exact hsame
    · exact hsame
  | expireOverdue =>
    unfold step handle Installations.expireOverdue
    dsimp only
    split
    · exact hsame
    · exact hsame

theorem step_transaction {event : ℕ × Event} {report : Report}
    (h : w.transaction event.2 = some report) :
    (w.step event).record = recordProgress (w.now + event.1) w.record report := by
  obtain ⟨elapsed, event⟩ := event
  cases event with
  | record i =>
    have hwaiting : w.waiting[i]? = some report := h
    simp only [step, handle, hwaiting]
  | arrive | cancel | expireOverdue => cases h

theorem play_concat (script : List (ℕ × Event)) (event : ℕ × Event) :
    w.play (script ++ [event]) = (w.play script).step event := List.foldl_concat _ _ _ _

theorem play_percent_le (expiresAt : ℕ) (script : List (ℕ × Event)) :
    ((initial expiresAt).play script).record.percent ≤ 100 := by
  induction script using List.reverseRecOn with
  | nil => exact Nat.zero_le _
  | append_singleton script event ih =>
    rw [play_concat]
    exact (step_percent ih event).1

/-- Within one attempt the bar never goes back, and once the attempt has ended no report of it or
of an older one changes what is recorded. -/
structure Upheld (w : World) (script : List (ℕ × Event)) : Prop where
  forward : ∀ earlier later, earlier <+: later → later <+: script →
    (w.play later).record.generation = (w.play earlier).record.generation →
    (w.play earlier).record.percent ≤ (w.play later).record.percent
  ended : ∀ earlier event report, earlier ++ [event] <+: script →
    (w.play earlier).transaction event.2 = some report →
    isTerminal (w.play earlier).record.state = true →
    report.generation ≤ (w.play earlier).record.generation →
    (w.play (earlier ++ [event])).record = (w.play earlier).record

/-- The bar goes forward while no report resets it. -/
theorem play_forward {expiresAt : ℕ} {earlier : List (ℕ × Event)} (rest : List (ℕ × Event))
    (h : ∀ before event report, before ++ [event] <+: earlier ++ rest →
      ((initial expiresAt).play before).transaction event.2 = some report →
      ¬ Resets ((initial expiresAt).play before).record report) :
    ((initial expiresAt).play earlier).record.generation ≤
        ((initial expiresAt).play (earlier ++ rest)).record.generation ∧
      (((initial expiresAt).play (earlier ++ rest)).record.generation =
          ((initial expiresAt).play earlier).record.generation →
        ((initial expiresAt).play earlier).record.percent ≤
          ((initial expiresAt).play (earlier ++ rest)).record.percent) := by
  induction rest using List.reverseRecOn with
  | nil =>
    rw [List.append_nil]
    exact ⟨Nat.le_refl _, fun _ => Nat.le_refl _⟩
  | append_singleton rest event ih =>
    rw [← List.append_assoc] at h ⊢
    obtain ⟨hgeneration, hbar⟩ := ih fun before event' report hearlier =>
      h before event' report (hearlier.trans (List.prefix_append _ _))
    obtain ⟨_, hstep, hnext⟩ := step_percent (play_percent_le expiresAt (earlier ++ rest)) event
    rw [play_concat]
    refine ⟨Nat.le_trans hgeneration hstep, fun hsame => ?_⟩
    have hbefore := Nat.le_antisymm (Nat.le_trans hstep (Nat.le_of_eq hsame)) hgeneration
    refine Nat.le_trans (hbar hbefore) ((hnext (hsame.trans hbefore.symm)).resolve_right ?_)
    rintro ⟨report, hreport, hreset⟩
    exact h _ event report (List.prefix_refl _) hreport hreset

/-- In every run the bar goes forward within an attempt and what ended an attempt stays, exactly if
no report of a running attempt that was applied said that it was cancelled or had expired when the
bar was above zero. -/
theorem upheld_iff (expiresAt : ℕ) (script : List (ℕ × Event)) :
    (initial expiresAt).Upheld script ↔ ∀ earlier event report, earlier ++ [event] <+: script →
      ((initial expiresAt).play earlier).transaction event.2 = some report →
      ¬ Resets ((initial expiresAt).play earlier).record report := by
  constructor
  · intro hupheld earlier event report hearlier hreport hreset
    obtain ⟨hgeneration, hpercent⟩ := hreset.percent_lt
      (((initial expiresAt).play earlier).now + event.1)
    have hforward := hupheld.forward earlier _ (List.prefix_append _ _) hearlier
    rw [play_concat, step_transaction hreport] at hforward
    exact Nat.not_le.mpr hpercent (hforward hgeneration)
  · intro h
    refine ⟨fun earlier later hearlier hlater hsame => ?_,
      fun earlier event report _ hreport hended hle => ?_⟩
    · obtain ⟨rest, rfl⟩ := hearlier
      exact (play_forward rest fun before event report hearlier =>
        h before event report (hearlier.trans hlater)).2 hsame
    · rw [play_concat, step_transaction hreport]
      exact recordProgress_ended _ hended hle

/-- A bundle is verified, and then the installer says that it was cancelled. -/
def withdrawn : List (ℕ × Event) :=
  [(0, .arrive ⟨.bundleVerified, 1, none, none, none, Nat.le_refl 1⟩ false), (0, .record 0),
    (0, .arrive ⟨.cancelled, 1, none, none, none, Nat.le_refl 1⟩ false), (0, .record 0)]

/-- The bar falls from 65 to 0 within the attempt. -/
theorem withdrawn_not_upheld : ¬ (initial 1).Upheld withdrawn := by
  intro hupheld
  have hforward := hupheld.forward (withdrawn.take 2) withdrawn (List.take_prefix _ _)
    (List.prefix_refl _) rfl
  revert hforward
  decide

end World

end Asterism.Installations
