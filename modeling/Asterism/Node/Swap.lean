import Asterism.Process.Attempt
import Asterism.Json
import Mathlib.Tactic.IntervalCases

/-!
# Replacing what a credential holds

A swap moves the store of a credential aside, renames the staged one into its place, and keeps
the previous one until the new one is accepted. Every operation on the files may fail, and the
Node may stop between any two of them.
-/

namespace Asterism.CredentialSwap

open Process

/-- The files of `credential_swap.rs`: `auth.json` and `auth.json.rollback` in the home of a
credential, and the staged store. -/
inductive Name
  | credential
  | rollback
  | staged
  deriving DecidableEq

/-- What a name stands for. A link may lead nowhere. -/
inductive Entry
  | file (contents : List UInt8) (uid mode : ℕ)
  | link (reaches : Bool)
  | directory
  deriving DecidableEq

def Entry.contents : Entry → Option (List UInt8)
  | .file contents _ _ => some contents
  | _ => none

/-- The path leads to something. -/
def Entry.reaches : Entry → Bool
  | .link reaches => reaches
  | _ => true

/-- The home of a credential, with the store that is staged for it. -/
structure Home where
  credential : Option Entry
  rollback : Option Entry
  staged : Option Entry
  deriving DecidableEq

namespace Home

def get (home : Home) : Name → Option Entry
  | .credential => home.credential
  | .rollback => home.rollback
  | .staged => home.staged

def set (home : Home) (name : Name) (entry : Option Entry) : Home :=
  match name with
  | .credential => { home with credential := entry }
  | .rollback => { home with rollback := entry }
  | .staged => { home with staged := entry }

def file (home : Home) (name : Name) : Option (List UInt8) := (home.get name).bind Entry.contents

def reaches (home : Home) (name : Name) : Bool := (home.get name).any Entry.reaches

end Home

/-- What the system makes of an operation. -/
inductive Outcome
  | done
  | failed (error : String)
  deriving DecidableEq

/-- The operations of `credential_swap.rs` on the files, each of which may fail. -/
inductive HomeCall : Type → Type 1
  | symlinkMetadata (name : Name) : HomeCall (Except String Entry)
  | pathExists (name : Name) : HomeCall Bool
  | setPermissions (name : Name) (mode : ℕ) : HomeCall (Except String Unit)
  | openFile (name : Name) : HomeCall (Except String Unit)
  | syncFile (name : Name) : HomeCall (Except String Unit)
  | openParent (name : Name) : HomeCall (Except String Unit)
  | syncParent (name : Name) : HomeCall (Except String Unit)
  | rename (source target : Name) : HomeCall (Except String Unit)
  | removeFile (name : Name) : HomeCall (Except String Unit)

/-- `ENOENT`, as it is printed. -/
def notFound : String := "No such file or directory (os error 2)"

/-- `EISDIR`, as it is printed. -/
def isADirectory : String := "Is a directory (os error 21)"

def Entry.withMode (mode : ℕ) : Entry → Entry
  | .file contents uid _ => .file contents uid mode
  | entry => entry

/-- Carry out an operation. A path whose metadata cannot be read counts as one that leads
nowhere. -/
def HomeCall.exec {β : Type} : HomeCall β → Outcome → Home → β × Home
  | .pathExists name, outcome, home => (outcome = .done && home.reaches name, home)
  | .symlinkMetadata _, .failed error, home => (.error error, home)
  | .symlinkMetadata name, .done, home =>
    (match home.get name with
      | none => .error notFound
      | some entry => .ok entry, home)
  | .setPermissions _ _, .failed error, home => (.error error, home)
  | .setPermissions name mode, .done, home =>
    match home.get name with
    | none => (.error notFound, home)
    | some entry => (.ok (), home.set name (some (entry.withMode mode)))
  | .openFile _, .failed error, home => (.error error, home)
  | .openFile name, .done, home =>
    (match home.get name with
      | none => .error notFound
      | some _ => .ok (), home)
  | .syncFile _, .failed error, home => (.error error, home)
  | .syncFile _, .done, home => (.ok (), home)
  | .openParent _, .failed error, home => (.error error, home)
  | .openParent _, .done, home => (.ok (), home)
  | .syncParent _, .failed error, home => (.error error, home)
  | .syncParent _, .done, home => (.ok (), home)
  | .rename _ _, .failed error, home => (.error error, home)
  | .rename source target, .done, home =>
    match home.get source, home.get target with
    | none, _ => (.error notFound, home)
    | some _, some .directory => (.error isADirectory, home)
    | some entry, _ => (.ok (), (home.set target (some entry)).set source none)
  | .removeFile _, .failed error, home => (.error error, home)
  | .removeFile name, .done, home =>
    match home.get name with
    | none => (.error notFound, home)
    | some .directory => (.error isADirectory, home)
    | some _ => (.ok (), home.set name none)

def machine : Machine HomeCall Outcome Home where
  exec := HomeCall.exec

section Procedures

open Attempt

abbrev Procedure (α : Type) := Attempt HomeCall String α

/-- The checks of `check_plain_private_file` on what was found. -/
def plainPrivate (entry : Entry) (uid : ℕ) (what : String) : Except String Unit :=
  match entry with
  | .link _ => .error (what ++ " is a symlink")
  | .directory => .error (what ++ " is not a regular file")
  | .file _ owner mode =>
    if owner ≠ uid then
      .error (what ++ " is owned by uid " ++ Text.decimal owner ++ ", not " ++ Text.decimal uid)
    else if (mode &&& 0o777) &&& 0o077 ≠ 0 then .error (what ++ " is open beyond its owner")
    else .ok ()

/-- `check_plain_private_file`: refuse anything that is not a plain, private file owned by the
runtime. -/
def checkPlainPrivateFile (name : Name) (uid : ℕ) (what : String) : Procedure Unit := do
  let entry ← mapError (fun _ => "cannot inspect " ++ what) (attempt (.symlinkMetadata name))
  Attempt.ofExcept (plainPrivate entry uid what)

/-- `swap_in` checks that the store in place, if there is one, is fit to be replaced. -/
def checkCredential (uid : ℕ) : Procedure Unit := do
  let live ← ask (.pathExists .credential)
  if live then checkPlainPrivateFile .credential uid "this credential's store" else pure ()

/-- `swap_in` refuses while another swap is waiting to be accepted. -/
def refuseWaiting : Procedure Unit := do
  let waiting ← ask (.pathExists .rollback)
  if waiting then throw "this credential already has a swap waiting to be accepted" else pure ()

/-- `fsync_file_and_parent`: make a file durable, and its name durable in its directory. -/
def fsyncFileAndParent (name : Name) : Procedure Unit := do
  attempt (.openFile name)
  attempt (.syncFile name)
  attempt (.openParent name)
  attempt (.syncParent name)

/-- The end of `swap_in`, `roll_back` and `accept`: make the names in the home durable. -/
def syncHome : Procedure Unit := do
  attempt (.openParent .credential)
  attempt (.syncParent .credential)

/-- `swap_in` moves the store in place aside. -/
def setAside : Procedure Unit := do
  let live ← ask (.pathExists .credential)
  if live then
    mapError (fun _ => "cannot set this credential's store aside")
      (attempt (.rename .credential .rollback))
  else pure ()

/-- `swap_in`: put the staged store in place, keeping the old one recoverable. -/
def swapIn (uid : ℕ) : Procedure Unit := do
  checkPlainPrivateFile .staged uid "the staged credential store"
  checkCredential uid
  refuseWaiting
  attempt (.setPermissions .staged 0o600)
  fsyncFileAndParent .staged
  setAside
  mapError (fun _ => "cannot put the new credential store in place")
    (attempt (.rename .staged .credential))
  syncHome

/-- `roll_back` asks for something to roll back to. -/
def requireRollback : Procedure Unit := do
  let waiting ← ask (.pathExists .rollback)
  if waiting then pure () else throw "this credential has nothing to roll back to"

/-- `roll_back` removes the material that failed. -/
def removeCredential : Procedure Unit := do
  let live ← ask (.pathExists .credential)
  if live then attempt (.removeFile .credential) else pure ()

/-- `roll_back`: undo a swap. -/
def rollBack : Procedure Unit := do
  requireRollback
  removeCredential
  mapError (fun _ => "cannot put this credential's store back")
    (attempt (.rename .rollback .credential))
  syncHome

/-- `accept` drops the rollback material. -/
def dropRollback : Procedure Unit := do
  mapError (fun _ => "cannot clear this credential's rollback store")
    (attempt (.removeFile .rollback))
  syncHome

/-- `accept`: drop the rollback material, once the new credential has been proven. -/
def accept : Procedure Unit := do
  let waiting ← ask (.pathExists .rollback)
  if waiting then dropRollback else pure ()

end Procedures

namespace Home

/-- The credential from before a swap: what was moved aside, or else what is in place. -/
def kept (home : Home) : Option (List UInt8) := (home.file .rollback).or (home.file .credential)

/-- What was moved aside is a file. -/
def Sound (home : Home) : Prop := home.rollback.all (fun entry => entry.contents.isSome) = true

instance (home : Home) : Decidable home.Sound := inferInstanceAs (Decidable (_ = true))

/-- A step that does not lose the credential from before the swap. -/
def Steps (home home' : Home) : Prop :=
  home.Sound → home'.Sound ∧ ∀ bytes, home.kept = some bytes → home'.kept = some bytes

theorem Steps.refl (home : Home) : home.Steps home := fun h => ⟨h, fun _ hkept => hkept⟩

theorem Steps.trans {home home' home'' : Home} (h : home.Steps home') (h' : home'.Steps home'') :
    home.Steps home'' := by
  intro hsound
  obtain ⟨hsound', hkept⟩ := h hsound
  obtain ⟨hsound'', hkept'⟩ := h' hsound'
  exact ⟨hsound'', fun bytes hbytes => hkept' bytes (hkept bytes hbytes)⟩

theorem steps_staged (home : Home) (entry : Option Entry) :
    home.Steps { home with staged := entry } := fun h => ⟨h, fun _ hkept => hkept⟩

theorem Sound.rollback_eq_none {home : Home} (h : home.Sound)
    (hreaches : home.reaches .rollback = false) : home.rollback = none := by
  obtain ⟨credential, rollback, staged⟩ := home
  cases rollback with
  | none => rfl
  | some entry =>
    cases entry with
    | file contents uid mode => cases hreaches
    | link reaches => cases h
    | directory => cases h

theorem file_eq_none {home : Home} {name : Name} (hreaches : home.reaches name = false) :
    home.file name = none := by
  rw [reaches] at hreaches
  rw [file]
  cases hget : home.get name with
  | none => rfl
  | some entry =>
    rw [hget] at hreaches
    cases entry with
    | file contents uid mode => cases hreaches
    | link reaches => rfl
    | directory => rfl

end Home

/-- A check whether something is there does not miss it. -/
def Sees {β : Type} : HomeCall β → Outcome → Home → Prop
  | .pathExists name, outcome, home => home.reaches name = true → outcome = .done
  | _, _, _ => True

section Checks

open Attempt

variable {A : {β : Type} → HomeCall β → Outcome → Home → Prop} {home : Home}

theorem checkPlainPrivateFile_meets (name : Name) (uid : ℕ) (what : String) :
    (checkPlainPrivateFile name uid what).run.Meets (Contract.stepwise A Home.Steps) machine
      (onOk fun _ home' => home' = home ∧
        ∃ contents owner mode, home.get name = some (.file contents owner mode)) home := by
  have hinspected : (attempt (.symlinkMetadata name)).run.Meets (Contract.stepwise A Home.Steps)
      machine (onOk fun entry home' => home' = home ∧ home.get name = some entry) home := by
    rintro _ rfl outcome -
    cases outcome with
    | failed error => exact ⟨.refl _, trivial⟩
    | done =>
      refine ⟨.refl _, ?_⟩
      cases hget : home.get name with
      | none =>
        have : (machine.exec (.symlinkMetadata name) .done home).1 = .error notFound := by
          simp only [machine, HomeCall.exec, hget]
        rw [this]
        trivial
      | some entry =>
        have : (machine.exec (.symlinkMetadata name) .done home).1 = .ok entry := by
          simp only [machine, HomeCall.exec, hget]
        rw [this]
        exact ⟨rfl, rfl⟩
  refine meets_bind (meets_mapError hinspected) fun entry home' hentry => ?_
  obtain ⟨rfl, hget⟩ := hentry
  refine meets_ofExcept fun _ hplain => ⟨rfl, ?_⟩
  cases entry with
  | file contents owner mode => exact ⟨contents, owner, mode, hget⟩
  | link reaches => cases hplain
  | directory => cases hplain

theorem pathExists_meets (hsees : ∀ {name : Name} {outcome : Outcome} {home : Home},
      A (.pathExists name) outcome home → home.reaches name = true → outcome = .done)
    (name : Name) :
    (ask (.pathExists name) : Procedure Bool).run.Meets (Contract.stepwise A Home.Steps) machine
      (onOk fun found home' => home' = home ∧ found = home.reaches name) home := by
  refine meets_ask ?_
  rintro _ rfl outcome hadmits
  refine ⟨.refl _, rfl, ?_⟩
  cases hreaches : home.reaches name with
  | false => simp [machine, HomeCall.exec, hreaches]
  | true => simp [machine, HomeCall.exec, hreaches, hsees hadmits hreaches]

theorem attempt_meets {call : HomeCall (Except String Unit)} {post : Home → Prop}
    (h : ∀ outcome, home.Steps (call.exec outcome home).2 ∧
      ((call.exec outcome home).1 = .ok () → post (call.exec outcome home).2)) :
    (attempt call).run.Meets (Contract.stepwise A Home.Steps) machine
      (onOk fun _ home' => post home') home := by
  rintro _ rfl outcome -
  obtain ⟨hsteps, hpost⟩ := h outcome
  refine ⟨hsteps, ?_⟩
  change onOk _ (call.exec outcome home).1 (call.exec outcome home).2
  cases hanswer : (call.exec outcome home).1 with
  | ok _ => exact hpost hanswer
  | error error => trivial

theorem quiet_meets {call : HomeCall (Except String Unit)}
    (h : ∀ outcome home, (call.exec outcome home).2 = home) (home : Home) :
    (attempt call).run.Meets (Contract.stepwise A Home.Steps) machine
      (onOk fun _ home' => home' = home) home := by
  refine attempt_meets fun outcome => ?_
  rw [h outcome home]
  exact ⟨.refl home, fun _ => rfl⟩

theorem openFile_quiet (name : Name) (outcome : Outcome) (home : Home) :
    ((HomeCall.openFile name).exec outcome home).2 = home := by
  cases outcome <;> rfl

theorem syncFile_quiet (name : Name) (outcome : Outcome) (home : Home) :
    ((HomeCall.syncFile name).exec outcome home).2 = home := by
  cases outcome <;> rfl

theorem openParent_quiet (name : Name) (outcome : Outcome) (home : Home) :
    ((HomeCall.openParent name).exec outcome home).2 = home := by
  cases outcome <;> rfl

theorem syncParent_quiet (name : Name) (outcome : Outcome) (home : Home) :
    ((HomeCall.syncParent name).exec outcome home).2 = home := by
  cases outcome <;> rfl

theorem fsyncFileAndParent_meets (name : Name) (home : Home) :
    (fsyncFileAndParent name).run.Meets (Contract.stepwise A Home.Steps) machine
      (onOk fun _ home' => home' = home) home := by
  refine meets_bind (quiet_meets (openFile_quiet name) home) fun _ t ht => ?_
  subst ht
  refine meets_bind (quiet_meets (syncFile_quiet name) t) fun _ u hu => ?_
  subst hu
  refine meets_bind (quiet_meets (openParent_quiet name) u) fun _ v hv => ?_
  subst hv
  exact quiet_meets (syncParent_quiet name) v

theorem syncHome_meets (home : Home) :
    syncHome.run.Meets (Contract.stepwise A Home.Steps) machine
      (onOk fun _ home' => home' = home) home := by
  refine meets_bind (quiet_meets (openParent_quiet .credential) home) fun _ t ht => ?_
  subst ht
  exact quiet_meets (syncParent_quiet .credential) t

theorem rename_cases (source target : Name) (outcome : Outcome) (home : Home) :
    ((HomeCall.rename source target).exec outcome home).2 = home ∧
      (∃ error, ((HomeCall.rename source target).exec outcome home).1 = .error error) ∨
    ∃ entry, home.get source = some entry ∧
      (HomeCall.rename source target).exec outcome home =
        (.ok (), (home.set target (some entry)).set source none) := by
  cases outcome with
  | failed error => exact .inl ⟨rfl, error, rfl⟩
  | done =>
    simp only [HomeCall.exec]
    split
    next => exact .inl ⟨rfl, _, rfl⟩
    next => exact .inl ⟨rfl, _, rfl⟩
    next _ _ entry hsource _ => exact .inr ⟨entry, hsource, rfl⟩

theorem removeFile_cases (name : Name) (outcome : Outcome) (home : Home) :
    ((HomeCall.removeFile name).exec outcome home).2 = home ∧
      (∃ error, ((HomeCall.removeFile name).exec outcome home).1 = .error error) ∨
    (HomeCall.removeFile name).exec outcome home = (.ok (), home.set name none) := by
  cases outcome with
  | failed error => exact .inl ⟨rfl, error, rfl⟩
  | done =>
    simp only [HomeCall.exec]
    split
    next => exact .inl ⟨rfl, _, rfl⟩
    next => exact .inl ⟨rfl, _, rfl⟩
    next => exact .inr rfl

theorem setPermissions_cases (name : Name) (mode : ℕ) (outcome : Outcome) (home : Home) :
    ((HomeCall.setPermissions name mode).exec outcome home).2 = home ∧
      (∃ error, ((HomeCall.setPermissions name mode).exec outcome home).1 = .error error) ∨
    ∃ entry, home.get name = some entry ∧
      (HomeCall.setPermissions name mode).exec outcome home =
        (.ok (), home.set name (some (entry.withMode mode))) := by
  cases outcome with
  | failed error => exact .inl ⟨rfl, error, rfl⟩
  | done =>
    simp only [HomeCall.exec]
    split
    next => exact .inl ⟨rfl, _, rfl⟩
    next entry hentry => exact .inr ⟨entry, hentry, rfl⟩

theorem rename_meets {source target : Name} {post : Home → Prop}
    (h : ∀ entry, home.get source = some entry →
      home.Steps ((home.set target (some entry)).set source none) ∧
        post ((home.set target (some entry)).set source none)) :
    (attempt (.rename source target)).run.Meets (Contract.stepwise A Home.Steps) machine
      (onOk fun _ home' => post home') home := by
  refine attempt_meets fun outcome => ?_
  rcases rename_cases source target outcome home with ⟨hsame, error, herror⟩ | ⟨entry, hget, heq⟩
  · rw [hsame, herror]
    exact ⟨.refl home, fun h => by cases h⟩
  · rw [heq]
    exact ⟨(h entry hget).1, fun _ => (h entry hget).2⟩

end Checks

section Procedures

open Attempt

variable {home : Home}

theorem sees_pathExists {name : Name} {outcome : Outcome} {home : Home}
    (h : Sees (.pathExists name) outcome home) : home.reaches name = true → outcome = .done := h

theorem checkCredential_meets (uid : ℕ) :
    (checkCredential uid).run.Meets (Contract.stepwise Sees Home.Steps) machine
      (onOk fun _ home' => home' = home ∧ (home.reaches .credential = true →
        ∃ contents owner mode, home.credential = some (.file contents owner mode))) home := by
  refine meets_bind (pathExists_meets sees_pathExists .credential) fun found t ht => ?_
  obtain ⟨rfl, rfl⟩ := ht
  cases hreaches : t.reaches .credential with
  | false => exact ⟨rfl, fun h => by cases h⟩
  | true =>
    refine (checkPlainPrivateFile_meets .credential uid _).mono fun result u hu => ?_
    cases result with
    | ok _ => exact ⟨hu.1, fun _ => hu.2⟩
    | error _ => trivial

theorem refuseWaiting_meets :
    refuseWaiting.run.Meets (Contract.stepwise Sees Home.Steps) machine
      (onOk fun _ home' => home' = home ∧ home.reaches .rollback = false) home := by
  refine meets_bind (pathExists_meets sees_pathExists .rollback) fun found t ht => ?_
  obtain ⟨rfl, rfl⟩ := ht
  cases hreaches : t.reaches .rollback with
  | false => exact ⟨rfl, rfl⟩
  | true => trivial

/-- Before anything moves: the staged store is a file, nothing was moved aside, and the store
in place is a file or there is none. -/
structure Ready (home : Home) : Prop where
  staged : ∃ contents owner mode, home.staged = some (.file contents owner mode)
  waiting : home.reaches .rollback = false
  credential : home.reaches .credential = true →
    ∃ contents owner mode, home.credential = some (.file contents owner mode)

theorem setPermissions_meets (mode : ℕ) (h : Ready home) :
    (attempt (.setPermissions .staged mode)).run.Meets (Contract.stepwise Sees Home.Steps) machine
      (onOk fun _ home' => Ready home') home := by
  refine attempt_meets fun outcome => ?_
  rcases setPermissions_cases .staged mode outcome home with ⟨hsame, _, _⟩ | ⟨entry, hget, heq⟩
  · rw [hsame]
    exact ⟨.refl home, fun _ => h⟩
  · rw [heq]
    refine ⟨home.steps_staged _, fun _ => ⟨?_, h.waiting, h.credential⟩⟩
    obtain ⟨contents, owner, old, hstaged⟩ := h.staged
    obtain rfl : entry = .file contents owner old := Option.some.inj (hget.symm.trans hstaged)
    exact ⟨contents, owner, mode, rfl⟩

/-- The store in place was moved aside, if there was one. -/
structure Aside (home : Home) : Prop where
  staged : ∃ contents owner mode, home.staged = some (.file contents owner mode)
  moved : home.file .rollback = none → home.file .credential = none

theorem setAside_meets (h : Ready home) :
    setAside.run.Meets (Contract.stepwise Sees Home.Steps) machine
      (onOk fun _ home' => Aside home') home := by
  refine meets_bind (pathExists_meets sees_pathExists .credential) fun found t ht => ?_
  obtain ⟨rfl, rfl⟩ := ht
  cases hreaches : t.reaches .credential with
  | false => exact ⟨h.staged, fun _ => Home.file_eq_none hreaches⟩
  | true =>
    obtain ⟨contents, owner, mode, hfile⟩ := h.credential hreaches
    refine meets_mapError (rename_meets fun entry hget => ⟨fun hsound => ?_, h.staged, ?_⟩)
    · obtain rfl : entry = .file contents owner mode := Option.some.inj (hget.symm.trans hfile)
      refine ⟨rfl, fun bytes hkept => ?_⟩
      have hnone := hsound.rollback_eq_none h.waiting
      rw [Home.kept, Home.file, Home.file, Home.get, Home.get, hnone, hfile] at hkept
      exact hkept
    · exact fun _ => rfl

theorem putInPlace_meets (h : Aside home) :
    (attempt (.rename .staged .credential)).run.Meets (Contract.stepwise Sees Home.Steps) machine
      (onOk fun _ _ => True) home := by
  refine rename_meets fun entry hget => ⟨fun hsound => ⟨hsound, fun bytes hkept => ?_⟩, trivial⟩
  rw [Home.kept] at hkept ⊢
  cases hrollback : home.file .rollback with
  | none =>
    rw [hrollback, h.moved hrollback] at hkept
    cases hkept
  | some old =>
    rw [hrollback] at hkept
    have hsame : ((home.set .credential (some entry)).set .staged none).file .rollback = some old :=
      hrollback
    rw [hsame]
    exact hkept

/-- A swap loses nothing, wherever it is stopped. -/
theorem swapIn_meets (uid : ℕ) (home : Home) :
    (swapIn uid).run.Meets (Contract.stepwise Sees Home.Steps) machine
      (onOk fun _ _ => True) home := by
  refine meets_bind (checkPlainPrivateFile_meets .staged uid _) fun _ t ht => ?_
  obtain ⟨rfl, hstaged⟩ := ht
  refine meets_bind (checkCredential_meets uid) fun _ u hu => ?_
  obtain ⟨rfl, hcredential⟩ := hu
  refine meets_bind refuseWaiting_meets fun _ v hv => ?_
  obtain ⟨rfl, hwaiting⟩ := hv
  refine meets_bind (setPermissions_meets _ ⟨hstaged, hwaiting, hcredential⟩) fun _ w hw => ?_
  refine meets_bind (fsyncFileAndParent_meets .staged w) fun _ x hx => ?_
  subst hx
  refine meets_bind (setAside_meets hw) fun _ y hy => ?_
  refine meets_bind (meets_mapError (putInPlace_meets hy)) fun _ z _ => ?_
  exact (syncHome_meets z).mono fun result _ _ => onOk_true result _

variable {A : {β : Type} → HomeCall β → Outcome → Home → Prop}

theorem pathExists_meets_true (name : Name) :
    (ask (.pathExists name) : Procedure Bool).run.Meets (Contract.stepwise A Home.Steps) machine
      (onOk fun found home' => home' = home ∧ (found = true → home.reaches name = true)) home := by
  refine meets_ask ?_
  rintro _ rfl outcome -
  exact ⟨.refl _, rfl, fun hfound => (Bool.and_eq_true_iff.mp hfound).2⟩

theorem requireRollback_meets :
    requireRollback.run.Meets (Contract.stepwise A Home.Steps) machine
      (onOk fun _ home' => home'.reaches .rollback = true) home := by
  refine meets_bind (pathExists_meets_true .rollback) fun found t ht => ?_
  obtain ⟨rfl, hfound⟩ := ht
  cases found with
  | false => trivial
  | true => exact hfound rfl

theorem Home.Sound.kept_eq {home : Home} (hsound : home.Sound)
    (hreaches : home.reaches .rollback = true) :
    ∃ contents uid mode, home.rollback = some (.file contents uid mode) ∧
      home.kept = some contents := by
  obtain ⟨credential, rollback, staged⟩ := home
  cases rollback with
  | none => cases hreaches
  | some entry =>
    cases entry with
    | file contents uid mode => exact ⟨contents, uid, mode, rfl, rfl⟩
    | link reaches => cases hsound
    | directory => cases hsound

/-- While something was moved aside, what is in place may go. -/
theorem removeCredential_meets (h : home.reaches .rollback = true) :
    removeCredential.run.Meets (Contract.stepwise A Home.Steps) machine
      (onOk fun _ home' => home'.reaches .rollback = true) home := by
  refine meets_bind (pathExists_meets_true .credential) fun found t ht => ?_
  obtain ⟨rfl, -⟩ := ht
  cases found with
  | false => exact h
  | true =>
    refine attempt_meets fun outcome => ?_
    rcases removeFile_cases .credential outcome t with ⟨hsame, error, herror⟩ | heq
    · rw [hsame]
      exact ⟨.refl t, fun _ => h⟩
    · rw [heq]
      refine ⟨fun hsound => ⟨hsound, fun bytes hkept => ?_⟩, fun _ => h⟩
      obtain ⟨contents, uid, mode, hfile, hcontents⟩ := hsound.kept_eq h
      obtain rfl : contents = bytes := Option.some.inj (hcontents.symm.trans hkept)
      have hsame : (t.set .credential none).file .rollback = some contents := by
        change t.rollback.bind Entry.contents = _
        rw [hfile]
        rfl
      rw [Home.kept, hsame]
      rfl

theorem putBack_meets (h : home.reaches .rollback = true) :
    (attempt (.rename .rollback .credential)).run.Meets (Contract.stepwise A Home.Steps) machine
      (onOk fun _ _ => True) home := by
  refine rename_meets fun entry hget => ⟨fun hsound => ⟨rfl, fun bytes hkept => ?_⟩, trivial⟩
  obtain ⟨contents, uid, mode, hfile, hcontents⟩ := hsound.kept_eq h
  obtain rfl : contents = bytes := Option.some.inj (hcontents.symm.trans hkept)
  obtain rfl : entry = .file contents uid mode := Option.some.inj (hget.symm.trans hfile)
  rfl

/-- Undoing a swap loses nothing, wherever it is stopped. -/
theorem rollBack_meets (home : Home) :
    rollBack.run.Meets (Contract.stepwise A Home.Steps) machine (onOk fun _ _ => True) home := by
  refine meets_bind requireRollback_meets fun _ t ht => ?_
  refine meets_bind (removeCredential_meets ht) fun _ u hu => ?_
  refine meets_bind (meets_mapError (putBack_meets hu)) fun _ v _ => ?_
  exact (syncHome_meets v).mono fun result _ _ => onOk_true result _

end Procedures

section Contents

/-- Every file in the home holds one of some contents. -/
def Home.Holds (allowed : List UInt8 → Prop) (home : Home) : Prop :=
  ∀ name bytes, home.file name = some bytes → allowed bytes

variable {allowed : List UInt8 → Prop} {home : Home}

theorem Home.Holds.set (h : home.Holds allowed) (name : Name) {entry : Option Entry}
    (hentry : ∀ bytes, entry.bind Entry.contents = some bytes → allowed bytes) :
    (home.set name entry).Holds allowed := by
  intro other bytes hfile
  by_cases hsame : other = name
  · subst hsame
    refine hentry bytes ?_
    cases other <;> exact hfile
  · refine h other bytes ?_
    cases other <;> cases name <;> first | exact absurd rfl hsame | exact hfile

/-- No operation makes contents: files only move, as a whole. -/
theorem HomeCall.holds_exec {β : Type} (call : HomeCall β) (outcome : Outcome)
    (h : home.Holds allowed) : (call.exec outcome home).2.Holds allowed := by
  have hentry {name : Name} {entry : Entry} (hget : home.get name = some entry) :
      ∀ bytes, entry.contents = some bytes → allowed bytes := by
    intro bytes hbytes
    refine h name bytes ?_
    rw [Home.file, hget]
    exact hbytes
  cases call with
  | pathExists name => exact h
  | symlinkMetadata name => cases outcome <;> exact h
  | openFile name => cases outcome <;> exact h
  | syncFile name => cases outcome <;> exact h
  | openParent name => cases outcome <;> exact h
  | syncParent name => cases outcome <;> exact h
  | setPermissions name mode =>
    rcases setPermissions_cases name mode outcome home with ⟨hsame, _⟩ | ⟨entry, hget, heq⟩
    · rw [hsame]
      exact h
    · rw [heq]
      refine h.set name fun bytes hbytes => hentry hget bytes ?_
      cases entry with
      | file contents uid old => exact hbytes
      | link reaches => exact hbytes
      | directory => exact hbytes
  | rename source target =>
    rcases rename_cases source target outcome home with ⟨hsame, _⟩ | ⟨entry, hget, heq⟩
    · rw [hsame]
      exact h
    · rw [heq]
      have hmoved : (home.set target (some entry)).Holds allowed := h.set target (hentry hget)
      exact hmoved.set source fun bytes hbytes => by cases hbytes
  | removeFile name =>
    rcases removeFile_cases name outcome home with ⟨hsame, _⟩ | heq
    · rw [hsame]
      exact h
    · rw [heq]
      exact h.set name fun bytes hbytes => by cases hbytes

end Contents

section Turns

/-- What is done with the home of a credential. A swap comes with the store that is staged. -/
inductive Work
  | swapIn (staged : Option Entry)
  | rollBack
  | accept

/-- One piece of work: what is done, how many operations are carried out before the Node stops,
and what the system makes of each. -/
structure Turn where
  work : Work
  operations : ℕ
  outcomes : ℕ → Outcome

variable (uid : ℕ)

def Work.staged : Work → Option Entry
  | .swapIn staged => staged
  | _ => none

def Work.code : Work → Procedure Unit
  | .swapIn _ => CredentialSwap.swapIn uid
  | .rollBack => CredentialSwap.rollBack
  | .accept => CredentialSwap.accept

def Turn.begin (turn : Turn) (home : Home) : Home := { home with staged := turn.work.staged }

def conduct (home : Home) (turn : Turn) : Home :=
  ((turn.work.code uid).run.runFor machine turn.operations turn.outcomes (turn.begin home)).2

def conductAll (home : Home) (turns : List Turn) : Home := turns.foldl (conduct uid) home

/-- The checks that a swap makes do not miss what is there. -/
def Turn.Sees (home : Home) (turn : Turn) : Prop :=
  match turn.work with
  | .swapIn _ => (swapIn uid).run.AdmitsFor machine CredentialSwap.Sees turn.operations
      turn.outcomes (turn.begin home)
  | _ => True

/-- No swap misses anything. -/
def SeesAlong : Home → List Turn → Prop
  | _, [] => True
  | home, turn :: turns => turn.Sees uid home ∧ SeesAlong (conduct uid home turn) turns

/-- The store moved aside is not removed by accepting the new one. -/
def Unaccepted : Home → List Turn → Prop
  | _, [] => True
  | home, turn :: turns =>
    (turn.work = .accept → (conduct uid home turn).rollback = home.rollback) ∧
      Unaccepted (conduct uid home turn) turns

/-- The contents of the stores that are there or are staged. -/
def stock (home : Home) (turns : List Turn) : List (List UInt8) :=
  (home.file .credential).toList ++ (home.file .rollback).toList ++
    turns.flatMap fun turn => (turn.work.staged.bind Entry.contents).toList

variable {uid}

theorem accept_all : accept.run.All fun call =>
    ∀ outcome home, (call.exec outcome home).2.credential = home.credential := by
  refine Attempt.all_bind (Attempt.all_ask fun _ _ => rfl) fun waiting => ?_
  cases waiting with
  | false => trivial
  | true =>
    refine Attempt.all_bind (Attempt.all_mapError (Attempt.all_attempt fun outcome home => ?_))
      fun _ => Attempt.all_bind (Attempt.all_attempt fun outcome home => ?_)
        fun _ => Attempt.all_attempt fun outcome home => ?_
    · rcases removeFile_cases .rollback outcome home with ⟨hsame, _⟩ | heq
      · rw [hsame]
      · rw [heq]
        rfl
    · rw [openParent_quiet]
    · rw [syncParent_quiet]

/-- One piece of work does not lose the credential from before a swap, unless it accepts the
swap. -/
theorem steps_conduct {home : Home} {turn : Turn} (hsees : turn.Sees uid home)
    (haccept : turn.work = .accept → (conduct uid home turn).rollback = home.rollback) :
    home.Steps (conduct uid home turn) := by
  obtain ⟨work, operations, outcomes⟩ := turn
  cases work with
  | swapIn staged =>
    exact (home.steps_staged staged).trans
      ((swapIn_meets uid _).runFor Home.Steps.refl Home.Steps.trans hsees).1
  | rollBack =>
    exact (home.steps_staged none).trans
      ((rollBack_meets (A := fun _ _ _ => True) _).runFor Home.Steps.refl Home.Steps.trans
        (Program.admitsFor_of_forall (fun _ _ _ => trivial) _ _ _)).1
  | accept =>
    have hcredential : (conduct uid home ⟨.accept, operations, outcomes⟩).credential =
        home.credential :=
      accept_all.runFor (M := machine) (Q := fun home' => home'.credential = home.credential)
        (fun call outcome home' hcall heq => (hcall outcome home').trans heq) _ _ rfl
    have hrollback := haccept rfl
    generalize conduct uid home ⟨.accept, operations, outcomes⟩ = home' at hcredential hrollback
    intro hsound
    refine ⟨?_, fun bytes hkept => ?_⟩
    · rw [Home.Sound, hrollback]
      exact hsound
    · rw [Home.kept, Home.file, Home.file, Home.get, Home.get, hrollback, hcredential]
      exact hkept

/-- One piece of work puts nothing into the home but what was there or was staged for it. -/
theorem holds_conduct {allowed : List UInt8 → Prop} {home : Home} {turn : Turn}
    (hcredential : ∀ bytes, home.file .credential = some bytes → allowed bytes)
    (hrollback : ∀ bytes, home.file .rollback = some bytes → allowed bytes)
    (hstaged : ∀ bytes, turn.work.staged.bind Entry.contents = some bytes → allowed bytes) :
    (conduct uid home turn).Holds allowed := by
  refine (Program.all_true _).runFor (fun call outcome home' _ h => call.holds_exec outcome h)
    _ _ fun name bytes hfile => ?_
  cases name with
  | credential => exact hcredential bytes hfile
  | rollback => exact hrollback bytes hfile
  | staged => exact hstaged bytes hfile

theorem holds_conductAll {allowed : List UInt8 → Prop} {home : Home} {turns : List Turn}
    (hcredential : ∀ bytes, home.file .credential = some bytes → allowed bytes)
    (hrollback : ∀ bytes, home.file .rollback = some bytes → allowed bytes)
    (hstaged : ∀ turn ∈ turns, ∀ bytes,
      turn.work.staged.bind Entry.contents = some bytes → allowed bytes) :
    ∀ bytes, (conductAll uid home turns).file .credential = some bytes → allowed bytes := by
  induction turns generalizing home with
  | nil => exact hcredential
  | cons turn turns ih =>
    have hnext : (conduct uid home turn).Holds allowed :=
      holds_conduct hcredential hrollback (hstaged turn List.mem_cons_self)
    exact ih (hnext .credential) (hnext .rollback) fun other hother =>
      hstaged other (List.mem_cons_of_mem turn hother)

/-- Whatever is done with the home of a credential, and wherever it is stopped: the credential
from before a swap is kept until the swap is accepted, if no swap misses what is there; and
the store in place is always one that was there or was staged, as a whole. -/
theorem conductAll_keeps_previous {home : Home} (hsound : home.Sound) {turns : List Turn}
    (hsees : SeesAlong uid home turns) :
    (∀ bytes, home.kept = some bytes → Unaccepted uid home turns →
      (conductAll uid home turns).kept = some bytes) ∧
    ∀ bytes, (conductAll uid home turns).file .credential = some bytes →
      bytes ∈ stock home turns := by
  refine ⟨fun bytes hkept hunaccepted => ?_, ?_⟩
  · induction turns generalizing home with
    | nil => exact hkept
    | cons turn turns ih =>
      obtain ⟨hsound', hkept'⟩ := steps_conduct hsees.1 hunaccepted.1 hsound
      exact ih hsound' hsees.2 (hkept' bytes hkept) hunaccepted.2
  · refine holds_conductAll (fun bytes hfile => ?_) (fun bytes hfile => ?_)
      fun turn hturn bytes hbytes => ?_
    · refine List.mem_append_left _ (List.mem_append_left _ ?_)
      exact Option.mem_toList.mpr hfile
    · refine List.mem_append_left _ (List.mem_append_right _ ?_)
      exact Option.mem_toList.mpr hfile
    · refine List.mem_append_right _ (List.mem_flatMap.mpr ⟨turn, hturn, ?_⟩)
      exact Option.mem_toList.mpr hbytes

def privateStore (contents : List UInt8) : Option Entry := some (.file contents 1000 0o600)

def settledHome : Home := ⟨privateStore [1], none, none⟩

/-- A swap that goes through, and is undone. -/
def undoneSwap : List Turn :=
  [⟨.swapIn (privateStore [2]), 20, fun _ => .done⟩, ⟨.rollBack, 20, fun _ => .done⟩]

theorem sees_done {β : Type} (call : HomeCall β) (home : Home) : Sees call .done home := by
  cases call <;> first | trivial | exact fun _ => rfl

theorem undoneSwap_keeps_previous :
    (conductAll 1000 settledHome undoneSwap).kept = some [1] := by
  have hsees : SeesAlong 1000 settledHome undoneSwap :=
    ⟨Program.admitsFor_of_forall (fun call _ home => sees_done call home) _ _ _, trivial, trivial⟩
  have hunaccepted : Unaccepted 1000 settledHome undoneSwap :=
    ⟨(fun h => by cases h), (fun h => by cases h), trivial⟩
  exact (conductAll_keeps_previous (by decide) hsees).1 [1] rfl hunaccepted

/-- A swap in which the second look at the store in place fails. -/
def blindSwap : Turn :=
  ⟨.swapIn (privateStore [2]), 20, fun n => if n = 9 then .failed "" else .done⟩

/-- A swap whose second look at the store in place fails renames the staged store over it. -/
theorem blindSwap_loses_previous :
    settledHome.Sound ∧ settledHome.kept = some [1] ∧ Unaccepted 1000 settledHome [blindSwap] ∧
      (conductAll 1000 settledHome [blindSwap]) = ⟨privateStore [2], none, none⟩ := by
  refine ⟨by decide, by decide, ⟨(fun h => by cases h), trivial⟩, by decide⟩

end Turns

/-! ## A reauthorization that is interrupted -/

/-- `SwapState`: what one home looks like part-way through a swap. -/
inductive SwapState
  | settled
  | swapped
  | interrupted
  deriving DecidableEq

/-- `swap_state`: which of the three shapes a home is in. -/
def swapState (home : Home) : SwapState :=
  match home.reaches .credential, home.reaches .rollback with
  | true, false => .settled
  | true, true => .swapped
  | false, true => .interrupted
  | false, false => .settled

/-- What `perform_reauthorization` does to the files: `swap_credential_material` swaps the staged
store in and rolls back if `start_and_prove` fails, and else `accept` follows. Stopping and starting
the workers touches no file of the home. -/
def reauthorize (uid : ℕ) (proven : Bool) : Procedure Unit := do
  swapIn uid
  if proven then accept else rollBack

/-- An `Attempt` that replaces what the credential holds: the generation that it began under, and
whether its process has ended. The store that it leaves is the entry `staged` of the home. -/
structure Login where
  generation : ℕ
  ended : Bool

/-- What `Provider` keeps of reauthorizations, in memory only: the login in flight, the
generation of the `FinishedReauthorization` that waits to be put in place, and the generation of
the latest login. -/
structure Memory where
  attempt : Option Login
  finished : Option ℕ
  generation : ℕ

namespace Memory

/-- A process that starts knows of no login. -/
def initial : Memory := ⟨none, none, 0⟩

/-- `settle_finished_reauthorization`: a login that has ended is parked, unless another one has
begun since. -/
def settleFinished (memory : Memory) : Memory :=
  match memory.attempt with
  | some ⟨generation, true⟩ =>
    if generation = memory.generation then
      { memory with attempt := none, finished := some generation }
    else { memory with attempt := none }
  | _ => memory

/-- `take_finished_reauthorization`. -/
def takeFinished (memory : Memory) : Option ℕ × Memory :=
  (memory.settleFinished.finished, { memory.settleFinished with finished := none })

end Memory

/-- The Node, as far as it deals with one credential. -/
structure Node where
  home : Home
  memory : Memory

namespace Node

/-- `apply_finished_reauthorization`, which every tick of the pump calls, up to a number of
operations on the files. The staging home goes with the `FinishedReauthorization` when that is
dropped, but stays where the process is stopped before. -/
def applyFinished (uid : ℕ) (proven : Bool) (operations : ℕ) (node : Node) : Node :=
  match node.memory.takeFinished with
  | (none, memory) => { node with memory }
  | (some generation, memory) =>
    if generation = memory.generation then
      let result :=
        (reauthorize uid proven).run.runFor machine operations (fun _ => .done) node.home
      ⟨if result.1.isSome then { result.2 with staged := none } else result.2, memory⟩
    else ⟨{ node.home with staged := none }, memory⟩

/-- A new process on the files that the last one left. The name of a staging home is made up for
one login, and no other login looks for it. -/
def startUp (node : Node) : Node := ⟨{ node.home with staged := none }, .initial⟩

/-- The pump of a process that has just started finds no reauthorization to put in place, whatever
shape the home is in. -/
theorem applyFinished_startUp (uid : ℕ) (proven : Bool) (operations : ℕ) (node : Node) :
    node.startUp.applyFinished uid proven operations = node.startUp := rfl

end Node

/-- The home after the pump has found that a login has ended, was stopped after some operations on
the files, and has ticked again in a new process. -/
def restarted (uid : ℕ) (proven : Bool) (operations generation : ℕ) (ticks : List (Bool × ℕ))
    (home : Home) : Home :=
  let node : Node := ⟨home, ⟨some ⟨generation, true⟩, none, generation⟩⟩
  let stopped := node.applyFinished uid proven operations
  (ticks.foldl (fun node tick => node.applyFinished uid tick.1 tick.2) stopped.startUp).home

/-- Nothing of what the Node does after a restart moves a file of the home, so the home keeps the
shape in which the reauthorization was stopped. -/
theorem restarted_eq (uid : ℕ) (proven : Bool) (operations generation : ℕ)
    (ticks : List (Bool × ℕ)) (home : Home) :
    restarted uid proven operations generation ticks home =
      { ((reauthorize uid proven).run.runFor machine operations (fun _ => .done) home).2 with
        staged := none } := by
  rw [restarted, List.foldl_fixed' fun tick => Node.applyFinished_startUp uid tick.1 tick.2 _]
  simp only [Node.startUp, Node.applyFinished, Memory.takeFinished, Memory.settleFinished, if_true]
  split <;> rfl

/-- What the next swap comes to, with a store that is staged for it. -/
def nextSwap (uid : ℕ) (home : Home) (staged : Entry) : Option (Except String Unit) :=
  ((swapIn uid).run.runFor machine 20 (fun _ => .done) { home with staged := some staged }).1

def IsPrivate (mode : ℕ) : Prop := (mode &&& 0o777) &&& 0o077 = 0

instance (mode : ℕ) : Decidable (IsPrivate mode) := inferInstanceAs (Decidable (_ = _))

/-- The home has its credential and nothing aside, and no swap is refused because another one is
waiting. -/
structure Recovered (uid : ℕ) (home : Home) : Prop where
  settled : swapState home = .settled
  live : home.reaches .credential = true
  free : ∀ contents mode, IsPrivate mode → nextSwap uid home (.file contents uid mode) ≠
    some (.error "this credential already has a swap waiting to be accepted")

section Paths

variable {α β : Type} {home : Home} {uid : ℕ}

/-- The procedure succeeds and makes these calls. -/
abbrev Path (p : Procedure α) (calls : List ((γ : Type) × HomeCall γ)) (home : Home) (a : α) :
    Prop :=
  p.run.Makes machine .done calls home (.ok a)

theorem path_bind {p : Procedure α} {f : α → Procedure β}
    {calls later : List ((γ : Type) × HomeCall γ)} {a : α} {b : β} (hp : Path p calls home a)
    (hf : Path (f a) later (Program.after machine .done calls home) b) :
    Path (p >>= f) (calls ++ later) home b := by
  unfold Path
  rw [Attempt.run_bind]
  exact Program.Makes.bind hp hf

theorem path_checkPlainPrivateFile {name : Name} {contents : List UInt8} {mode : ℕ}
    (what : String) (hname : home.get name = some (.file contents uid mode))
    (hmode : IsPrivate mode) :
    Path (checkPlainPrivateFile name uid what) [⟨_, .symlinkMetadata name⟩] home () := by
  have hplain : plainPrivate (.file contents uid mode) uid what = .ok () := by
    unfold IsPrivate at hmode
    simp only [plainPrivate, ne_eq, not_true_eq_false, if_false, hmode]
  refine .call ?_
  simp only [machine, HomeCall.exec, hname, Except.mapError]
  change Program.Makes machine .done
    (Program.pure (plainPrivate (.file contents uid mode) uid what)) [] home _
  rw [hplain]
  exact .pure _ _

/-- The operations of a swap. The eleventh moves the store in place aside. -/
def swapCalls : List ((γ : Type) × HomeCall γ) :=
  [⟨_, .symlinkMetadata .staged⟩, ⟨_, .pathExists .credential⟩, ⟨_, .symlinkMetadata .credential⟩,
    ⟨_, .pathExists .rollback⟩, ⟨_, .setPermissions .staged 0o600⟩, ⟨_, .openFile .staged⟩,
    ⟨_, .syncFile .staged⟩, ⟨_, .openParent .staged⟩, ⟨_, .syncParent .staged⟩,
    ⟨_, .pathExists .credential⟩, ⟨_, .rename .credential .rollback⟩,
    ⟨_, .rename .staged .credential⟩, ⟨_, .openParent .credential⟩, ⟨_, .syncParent .credential⟩]

/-- The operations after a swap. The second one drops what was moved aside, or the fourth one puts
it back. -/
def endCalls (proven : Bool) : List ((γ : Type) × HomeCall γ) :=
  if proven then
    [⟨_, .pathExists .rollback⟩, ⟨_, .removeFile .rollback⟩, ⟨_, .openParent .credential⟩,
      ⟨_, .syncParent .credential⟩]
  else
    [⟨_, .pathExists .rollback⟩, ⟨_, .pathExists .credential⟩, ⟨_, .removeFile .credential⟩,
      ⟨_, .rename .rollback .credential⟩, ⟨_, .openParent .credential⟩,
      ⟨_, .syncParent .credential⟩]

variable {old new : List UInt8} {mode mode' : ℕ}

theorem path_swapIn (hmode : IsPrivate mode) (hmode' : IsPrivate mode') :
    Path (swapIn uid) swapCalls ⟨some (.file old uid mode), none, some (.file new uid mode')⟩
      () := by
  have hcredential : Path (checkCredential uid)
      [⟨_, .pathExists .credential⟩, ⟨_, .symlinkMetadata .credential⟩]
      ⟨some (.file old uid mode), none, some (.file new uid mode')⟩ () :=
    .call (path_checkPlainPrivateFile _ rfl hmode)
  refine path_bind (path_checkPlainPrivateFile _ rfl hmode') ?_
  refine path_bind hcredential ?_
  exact .call (.call (.call (.call (.call (.call (.call (.call (.call (.call (.call
    (.pure _ _)))))))))))

theorem path_reauthorize (hmode : IsPrivate mode) (hmode' : IsPrivate mode') (proven : Bool) :
    Path (reauthorize uid proven) (swapCalls ++ endCalls proven)
      ⟨some (.file old uid mode), none, some (.file new uid mode')⟩ () := by
  refine path_bind (path_swapIn hmode hmode') ?_
  cases proven with
  | true => exact .call (.call (.call (.call (.pure _ _))))
  | false => exact .call (.call (.call (.call (.call (.call (.pure _ _))))))

/-- The home of a Node that is stopped after some operations of the path. -/
def stopped (uid : ℕ) (old new : List UInt8) (mode mode' : ℕ) (proven : Bool)
    (operations : ℕ) : Home :=
  Program.after machine .done ((swapCalls ++ endCalls proven).take operations)
    ⟨some (.file old uid mode), none, some (.file new uid mode')⟩

theorem stopped_before (proven : Bool) {operations : ℕ} (h : operations < 11) :
    { stopped uid old new mode mode' proven operations with staged := none } =
      ⟨some (.file old uid mode), none, none⟩ := by
  interval_cases operations <;> rfl

theorem stopped_between (proven : Bool) {operations : ℕ} (h : 11 ≤ operations)
    (hend : operations < if proven then 16 else 18) :
    (stopped uid old new mode mode' proven operations).rollback =
      some (.file old uid mode) := by
  cases proven with
  | true =>
    have hlt : operations < 16 := hend
    interval_cases operations <;> rfl
  | false =>
    have hlt : operations < 18 := hend
    interval_cases operations <;> rfl

theorem stopped_after (proven : Bool) {operations : ℕ}
    (hend : (if proven then 16 else 18) ≤ operations) :
    { stopped uid old new mode mode' proven operations with staged := none } =
      ⟨if proven then some (.file new uid 0o600) else some (.file old uid mode), none, none⟩ := by
  rcases Nat.lt_or_ge operations 20 with hlt | hge
  · cases proven with
    | true =>
      have hge : 16 ≤ operations := hend
      interval_cases operations <;> rfl
    | false =>
      have hge : 18 ≤ operations := hend
      interval_cases operations <;> rfl
  · rw [stopped, List.take_of_length_le (Nat.le_trans (by cases proven <;> decide) hge)]
    cases proven <;> rfl

theorem recovered_settled {contents : List UInt8} (hmode : IsPrivate mode) :
    Recovered uid ⟨some (.file contents uid mode), none, none⟩ := by
  refine ⟨rfl, rfl, fun staged mode' hmode' => ?_⟩
  rw [nextSwap, Program.Makes.runFor (path_swapIn hmode hmode') 20]
  exact fun h => by cases h

end Paths

/-- A home has recovered from a reauthorization that was stopped exactly if the Node was stopped
before it moved the previous store aside, or after it removed that store or put it back. -/
theorem reauthorization_recovers_iff {uid mode mode' : ℕ} (hmode : IsPrivate mode)
    (hmode' : IsPrivate mode') (old new : List UInt8) (proven : Bool)
    (operations generation : ℕ) (ticks : List (Bool × ℕ)) :
    Recovered uid (restarted uid proven operations generation ticks
        ⟨some (.file old uid mode), none, some (.file new uid mode')⟩) ↔
      operations < 11 ∨ (if proven then 16 else 18) ≤ operations := by
  have hstate : restarted uid proven operations generation ticks
      ⟨some (.file old uid mode), none, some (.file new uid mode')⟩ =
        { stopped uid old new mode mode' proven operations with staged := none } := by
    rw [restarted_eq, Program.Makes.runFor (path_reauthorize hmode hmode' proven) operations]
    rfl
  rw [hstate]
  constructor
  · intro h
    by_contra hbetween
    obtain ⟨hge, hlt⟩ := not_or.mp hbetween
    have hrollback : (stopped uid old new mode mode' proven operations).rollback =
        some (.file old uid mode) :=
      stopped_between proven (Nat.le_of_not_lt hge) (Nat.lt_of_not_le hlt)
    have hsettled := h.settled
    rw [swapState, h.live, Home.reaches, Home.get, hrollback] at hsettled
    cases hsettled
  · rintro (hbefore | hafter)
    · rw [stopped_before proven hbefore]
      exact recovered_settled hmode
    · rw [stopped_after proven hafter]
      cases proven with
      | true => exact recovered_settled (by decide)
      | false => exact recovered_settled hmode

/-- A Node that is stopped after the swap was accepted finds the new store in place. -/
theorem accepted_recovers :
    Recovered 1000 (restarted 1000 true 16 1 [(true, 20)]
      ⟨privateStore [1], none, privateStore [2]⟩) :=
  (reauthorization_recovers_iff (by decide) (by decide) [1] [2] true 16 1 _).mpr
    (.inr (by decide))

/-- A Node that is stopped between the two renames has no credential after that, and the next swap
is refused. -/
theorem interrupted_stays :
    let home := restarted 1000 true 11 1 [(true, 20)] ⟨privateStore [1], none, privateStore [2]⟩
    home = ⟨none, privateStore [1], none⟩ ∧ swapState home = .interrupted ∧
      nextSwap 1000 home (.file [3] 1000 0o600) =
        some (.error "this credential already has a swap waiting to be accepted") := by
  refine ⟨by decide, by decide, by decide⟩

end Asterism.CredentialSwap
