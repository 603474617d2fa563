import Asterism.Process.Pool
import Mathlib.Data.List.Nodup

/-!
# Tables with unique indexes

A table is the list of its rows in insertion order. An index assigns some rows a
key, and is unique when no key occurs twice. The lemmas here say how lookups and
uniqueness follow the two ways a table is written: appending a row, and updating
the rows that match a condition. A transaction reads a store whose data satisfy a
schema and proposes new contents statement by statement; if it fails at any point it
leaves the store as it was.
-/

namespace Table

variable {Row Key : Type}

/-- Update the rows that match a condition. -/
def updateWhere (p : Row → Bool) (f : Row → Row) (rows : List Row) : List Row :=
  rows.map fun row => if p row then f row else row

/-- No key of the index occurs twice. A row without a key is not indexed. -/
def Unique (key : Row → Option Key) (rows : List Row) : Prop := (rows.filterMap key).Nodup

instance [DecidableEq Key] (key : Row → Option Key) (rows : List Row) :
    Decidable (Unique key rows) :=
  inferInstanceAs (Decidable (List.Nodup _))

theorem forall_mem_none {P : Row → Prop} : ∀ row ∈ (none : Option Row), P row :=
  fun row hrow => absurd hrow (Option.not_mem_none row)

variable {p : Row → Bool} {f : Row → Row} {rows : List Row}

/-- A row after an update is a row before it, updated if it matched. -/
theorem mem_updateWhere {row : Row} :
    row ∈ updateWhere p f rows ↔ ∃ old ∈ rows, row = if p old then f old else old := by
  simp only [updateWhere, List.mem_map, eq_comm]

/-- An update that only concerns rows of one kind, and keeps them of that kind, leaves the other
rows as they were. -/
theorem mem_updateWhere_of_not {p Q : Row → Prop} [DecidablePred p] {row : Row}
    (hp : ∀ old ∈ rows, p old → Q old) (hf : ∀ old, Q old → Q (f old)) (hrow : ¬Q row) :
    row ∈ updateWhere (fun r => p r) f rows ↔ row ∈ rows := by
  refine mem_updateWhere.trans ⟨?_, fun h => ⟨row, h, ?_⟩⟩
  · rintro ⟨old, hold, rfl⟩
    by_cases hmatch : p old
    · simp only [hmatch, decide_true, if_true] at hrow
      exact absurd (hf old (hp old hold hmatch)) hrow
    · simpa only [hmatch, decide_false, Bool.false_eq_true, if_false] using hold
  · simp only [mt (hp row h) hrow, decide_false, Bool.false_eq_true, if_false]

/-- An update changes nothing exactly if it leaves every row it concerns as it was. -/
theorem updateWhere_eq_self_iff :
    updateWhere p f rows = rows ↔ ∀ row ∈ rows, p row = true → f row = row := by
  have hsame : updateWhere p f rows = rows ↔ updateWhere p f rows = rows.map id := by
    rw [List.map_id]
  rw [hsame, updateWhere, List.map_inj_left]
  exact forall₂_congr fun row _ => ite_eq_right_iff

theorem updateWhere_eq_self
    (h : ∀ row ∈ rows, p row = true → f row = row) : updateWhere p f rows = rows :=
  updateWhere_eq_self_iff.mpr h

/-- A projection the update keeps is the same list before and after. -/
theorem map_updateWhere {α : Type} (g : Row → α) (hkeep : ∀ row, g (f row) = g row)
    (rows : List Row) :
    (updateWhere p f rows).map g = rows.map g := by
  simp only [updateWhere, List.map_map]
  refine List.map_congr_left fun row _ => ?_
  simp only [Function.comp_apply]
  split
  · exact hkeep row
  · rfl

theorem filter_updateWhere {q p : Row → Bool} (hkeep : ∀ row, q (f row) = q row)
    (rows : List Row) : (updateWhere p f rows).filter q = updateWhere p f (rows.filter q) := by
  unfold updateWhere
  rw [List.filter_map]
  congr 1
  refine List.filter_congr fun row _ => ?_
  rw [Function.comp_apply]
  split
  · exact hkeep row
  · rfl

theorem filterMap_updateWhere (key : Row → Option Key) (hkeep : ∀ row, key (f row) = key row)
    (rows : List Row) :
    (updateWhere p f rows).filterMap key = rows.filterMap key := by
  simp only [updateWhere, List.filterMap_map]
  refine List.filterMap_congr fun row _ => ?_
  simp only [Function.comp_apply]
  split
  · exact hkeep row
  · rfl

variable {key : Row → Option Key}

theorem Unique.of_updateWhere (h : Unique key rows) (hkeep : ∀ row, key (f row) = key row) :
    Unique key (updateWhere p f rows) := by
  unfold Unique
  rw [filterMap_updateWhere key hkeep]
  exact h

theorem find?_updateWhere {q p : Row → Bool} (hkeep : ∀ row, q (f row) = q row) (rows : List Row) :
    (updateWhere p f rows).find? q =
      (rows.find? q).map fun row => if p row then f row else row := by
  induction rows with
  | nil => rfl
  | cons row rows ih =>
    have hrow : q (if p row then f row else row) = q row := by
      split
      · exact hkeep row
      · rfl
    simp only [updateWhere, List.map_cons, List.find?_cons, hrow]
    cases q row with
    | true => rfl
    | false => exact ih

theorem updateWhere_updateWhere {f g : Row → Row} (hkeep : ∀ row, p (f row) = p row)
    (rows : List Row) :
    updateWhere p g (updateWhere p f rows) = updateWhere p (fun row => g (f row)) rows := by
  simp only [updateWhere, List.map_map]
  refine List.map_congr_left fun row _ => ?_
  simp only [Function.comp_apply]
  by_cases hp : p row = true
  · simp only [hp, if_true, hkeep]
  · simp only [hp, if_false, Bool.false_eq_true]

/-- Two rows of a unique index with the same key are the same row. -/
theorem Unique.eq_of_mem (h : Unique key rows) {a b : Row} (ha : a ∈ rows) (hb : b ∈ rows) {k : Key}
    (hka : key a = some k) (hkb : key b = some k) : a = b := by
  induction rows with
  | nil => cases ha
  | cons row rows ih =>
    unfold Unique at h
    rcases List.mem_cons.mp ha with rfl | ha' <;> rcases List.mem_cons.mp hb with rfl | hb'
    · rfl
    · rw [List.filterMap_cons_some hka, List.nodup_cons] at h
      exact absurd (List.mem_filterMap.mpr ⟨b, hb', hkb⟩) h.1
    · rw [List.filterMap_cons_some hkb, List.nodup_cons] at h
      exact absurd (List.mem_filterMap.mpr ⟨a, ha', hka⟩) h.1
    · refine ih ?_ ha' hb'
      cases hrow : key row with
      | none => rwa [List.filterMap_cons_none hrow] at h
      | some k' =>
        rw [List.filterMap_cons_some hrow, List.nodup_cons] at h
        exact h.2

/-- In a unique index, the row found under a key is the only row with that key. -/
theorem Unique.find?_eq_some [DecidableEq Key] (h : Unique key rows) {row : Row} (hrow : row ∈ rows)
    {k : Key} (hk : key row = some k) :
    (rows.find? fun r => key r = some k) = some row := by
  cases hfind : rows.find? fun r => key r = some k with
  | none =>
    have hnone := List.find?_eq_none.mp hfind row hrow
    simp only [hk, decide_true, not_true] at hnone
  | some found =>
    have hkey : key found = some k := by simpa using List.find?_some hfind
    rw [h.eq_of_mem (List.mem_of_find?_eq_some hfind) hrow hkey hk]

/-- Appending a row keeps an index unique exactly if its key is new. -/
theorem unique_append_singleton {row : Row} :
    Unique key (rows ++ [row]) ↔
      Unique key rows ∧ ∀ k, key row = some k → ∀ old ∈ rows, key old ≠ some k := by
  unfold Unique
  rw [List.filterMap_append]
  cases hrow : key row with
  | none => simp [List.filterMap_cons_none hrow]
  | some k =>
    rw [List.filterMap_cons_some hrow, List.filterMap_nil, List.nodup_append]
    simp only [List.nodup_cons, List.not_mem_nil, not_false_eq_true, List.nodup_nil, and_true,
      List.mem_filterMap, List.mem_singleton, ne_eq, forall_eq, forall_exists_index, and_imp,
      true_and, Option.some.injEq, forall_eq']
    exact and_congr_right fun _ =>
      ⟨fun h old hold hkey => h k old hold hkey rfl,
        fun h k' old hold hkey heq => h old hold (by rw [hkey, heq])⟩

theorem unique_iff_pairwise :
    Unique key rows ↔ rows.Pairwise fun a b => ∀ k, key a = some k → key b ≠ some k := by
  unfold Unique List.Nodup
  rw [List.pairwise_filterMap]
  constructor
  · intro h
    exact h.imp fun hab k hka hkb => hab k hka k hkb rfl
  · intro h
    refine h.imp fun hab k hka k' hkb heq => hab k hka ?_
    rw [hkb, heq]

/-- Updating rows of one primary key keeps another index unique, if every key the update
gives a row was the row's own or was not used. -/
theorem Unique.updateWhere {Primary : Type} (h : Unique key rows) (primary : Row → Primary)
    (hprimary : Unique (fun row => some (primary row)) rows) (id : Primary)
    (hp : ∀ row, p row = true → primary row = id)
    (hkey : ∀ row ∈ rows, p row = true → ∀ k, key (f row) = some k →
      key row = some k ∨ ∀ other ∈ rows, key other ≠ some k) :
    Unique key (updateWhere p f rows) := by
  rw [unique_iff_pairwise] at h hprimary ⊢
  unfold Table.updateWhere
  rw [List.pairwise_map]
  refine (h.and hprimary).imp_of_mem fun {a b} ha hb hab k hka hkb => ?_
  obtain ⟨hdistinct, hids⟩ := hab
  by_cases hpa : p a = true <;> by_cases hpb : p b = true <;>
    simp only [hpa, hpb, if_true, if_false, Bool.false_eq_true] at hka hkb
  · exact hids _ rfl (congrArg some ((hp b hpb).trans (hp a hpa).symm))
  · rcases hkey a ha hpa k hka with hold | hfresh
    · exact hdistinct k hold hkb
    · exact hfresh b hb hkb
  · rcases hkey b hb hpb k hkb with hold | hfresh
    · exact hdistinct k hka hold
    · exact hfresh a ha hka
  · exact hdistinct k hka hkb

end Table

/-! ## Transactions -/

namespace Transaction

/-- The constraints a store enforces, and the error reported when one is violated. -/
structure Schema (T ε : Type) where
  /-- The contents the store may hold. -/
  Valid : T → Prop
  /-- The constraints are checked at every statement. -/
  decidable : DecidablePred Valid
  /-- The error of a violated constraint. -/
  violation : ε

/-- A store: contents together with the proof that they satisfy the schema. -/
structure Store {T ε : Type} (schema : Schema T ε) where
  contents : T
  valid : schema.Valid contents

variable {T ε α β : Type} {schema : Schema T ε}

theorem Store.ext {a b : Store schema} (h : a.contents = b.contents) : a = b := by
  cases a
  cases b
  cases h
  rfl

/-- A transaction in progress: it reads and rewrites the store, and may fail. -/
abbrev Tx (schema : Schema T ε) (α : Type) := StateT (Store schema) (Except ε) α

/-- One writing statement. It fails when the new contents violate the schema. -/
def write (f : T → T) : Tx schema Unit := fun store =>
  match schema.decidable (f store.contents) with
  | isTrue h => .ok ((), ⟨f store.contents, h⟩)
  | isFalse _ => .error schema.violation

/-- Run a transaction: commit its result, or roll everything back. -/
def commit (tx : Tx schema α) (store : Store schema) : Except ε α × Store schema :=
  match tx store with
  | .ok (a, store') => (.ok a, store')
  | .error e => (.error e, store)

variable {tx : Tx schema α} {store store' : Store schema}

theorem commit_error {e : ε} (h : commit tx store = (.error e, store')) : store' = store := by
  unfold commit at h
  split at h
  · cases h
  · cases h
    rfl

theorem commit_ok_iff {a : α} :
    commit tx store = (.ok a, store') ↔ tx store = .ok (a, store') := by
  unfold commit
  split <;> rename_i heq <;> simp [heq]

/-- A statement succeeds exactly if its contents satisfy the schema. -/
theorem write_ok_iff {f : T → T} {u : Unit} :
    write f store = .ok (u, store') ↔ store'.contents = f store.contents := by
  unfold write
  split
  · rename_i h _
    constructor
    · intro heq
      cases heq
      rfl
    · intro heq
      exact congrArg _ (congrArg _ (Store.ext heq.symm))
  · rename_i h _
    constructor
    · intro heq
      cases heq
    · intro heq
      exact absurd (heq ▸ store'.valid) h

theorem bind_ok_iff {f : α → Tx schema β} {b : β} :
    (tx >>= f) store = .ok (b, store') ↔
      ∃ a mid, tx store = .ok (a, mid) ∧ f a mid = .ok (b, store') := by
  simp only [bind, StateT.bind, Except.bind]
  cases tx store with
  | error e => simp
  | ok v =>
    constructor
    · intro h
      exact ⟨v.1, v.2, rfl, h⟩
    · rintro ⟨a, mid, hv, h⟩
      cases hv
      exact h

@[simp] theorem get_bind (f : Store schema → Tx schema β) (store : Store schema) :
    ((get : Tx schema (Store schema)) >>= f) store = f store store := rfl

@[simp] theorem pure_ok_iff {a b : α} {store store' : Store schema} :
    (pure a : Tx schema α) store = .ok (b, store') ↔ a = b ∧ store = store' := by
  change Except.ok (a, store) = _ ↔ _
  rw [Except.ok.injEq, Prod.mk.injEq]

@[simp] theorem throw_ok_iff {e : ε} {b : α} {store store' : Store schema} :
    (throw e : Tx schema α) store = .ok (b, store') ↔ False := by
  refine iff_false_intro fun h => ?_
  cases h

/-- A property of two stores that a transaction establishes whenever it succeeds, and that
holds when nothing happens, holds for the store before and after it is run. -/
theorem commit_induction {store : Store schema} {motive : Store schema → Prop}
    (hsame : motive store) (hok : ∀ a store', tx store = .ok (a, store') → motive store') :
    motive (commit tx store).2 := by
  cases h : tx store with
  | error e => simpa only [commit, h] using hsame
  | ok v => simpa only [commit, h] using hok v.1 v.2 h

theorem write_of_valid {f : T → T} {store : Store schema} (h : schema.Valid (f store.contents)) :
    write f store = .ok ((), ⟨f store.contents, h⟩) :=
  write_ok_iff.mpr rfl

end Transaction

/-! ## Transactions as programs of statements -/

namespace Transaction

open Process

/-- What the statements of a database mean. -/
structure Dialect (E : Type → Type 1) (I T : Type) where
  /-- What a statement returns. -/
  answer : {β : Type} → E β → I → T → β
  /-- The tables after a statement. -/
  effect : {β : Type} → E β → I → T → T

namespace Dialect

variable {E : Type → Type 1} {I T ε α β : Type} (D : Dialect E I T) (schema : Schema T ε)

/-- The outcome of a transaction that nothing disturbs, and `none` if it breaks the schema. -/
def eval (input : I) : Program E α → T → Option (α × T)
  | .pure a, t => some (a, t)
  | .call request next, t =>
    match schema.decidable (D.effect request input t) with
    | isTrue _ => eval input (next (D.answer request input t)) (D.effect request input t)
    | isFalse _ => none
  | .fork _ next, t => eval input next t

variable {D schema} {input : I} {t t' : T}

@[simp] theorem eval_pure (a : α) : D.eval schema input (.pure a) t = some (a, t) := rfl

theorem eval_call {request : E β} {next : β → Program E α}
    (h : schema.Valid (D.effect request input t)) :
    D.eval schema input (.call request next) t =
      D.eval schema input (next (D.answer request input t)) (D.effect request input t) := by
  rw [eval]
  split
  · rfl
  · rename_i hnot _
    exact absurd h hnot

theorem eval_call_of_not {request : E β} {next : β → Program E α}
    (h : ¬schema.Valid (D.effect request input t)) :
    D.eval schema input (.call request next) t = none := by
  rw [eval]
  split
  · rename_i hvalid _
    exact absurd hvalid h
  · rfl

/-- The parts of a transaction are evaluated one after the other. -/
theorem eval_bind (p : Program E α) (f : α → Program E β) :
    D.eval schema input (p >>= f) t =
      (D.eval schema input p t).bind fun r => D.eval schema input (f r.1) r.2 := by
  induction p generalizing t with
  | pure a => rfl
  | call request next ih =>
    rw [Program.call_bind]
    by_cases h : schema.Valid (D.effect request input t)
    · rw [eval_call h, eval_call h, ih]
    · rw [eval_call_of_not h, eval_call_of_not h, Option.bind_none]
  | fork child next _ ih => exact ih f

theorem eval_valid {p : Program E α} {a : α} (ht : schema.Valid t)
    (h : D.eval schema input p t = some (a, t')) : schema.Valid t' := by
  induction p generalizing t with
  | pure b =>
    cases h
    exact ht
  | call request next ih =>
    by_cases hvalid : schema.Valid (D.effect request input t)
    · rw [eval_call hvalid] at h
      exact ih _ hvalid h
    · rw [eval_call_of_not hvalid] at h
      cases h
  | fork child next _ ih => exact ih ht h

variable (D)

/-- Run a transaction alone: commit its result, or roll everything back. -/
def transact (p : Program E α) (input : I) (store : Store schema) : Option α × Store schema :=
  match h : D.eval schema input p store.contents with
  | some (a, _) => (some a, ⟨_, eval_valid store.valid h⟩)
  | none => (none, store)

variable {D}

theorem transact_of_some {p : Program E α} {store : Store schema} {a : α}
    (h : D.eval schema input p store.contents = some (a, t')) :
    (D.transact p input store).1 = some a ∧ (D.transact p input store).2.contents = t' := by
  unfold transact
  split <;> rename_i heq <;> rw [h] at heq <;> cases heq
  exact ⟨rfl, rfl⟩

theorem transact_of_none {p : Program E α} {store : Store schema}
    (h : D.eval schema input p store.contents = none) :
    D.transact p input store = (none, store) := by
  unfold transact
  split
  next heq =>
    rw [h] at heq
    cases heq
  next => rfl

theorem transact_contents (p : Program E α) (store : Store schema) :
    (D.transact p input store).2.contents =
      ((D.eval schema input p store.contents).map Prod.snd).getD store.contents := by
  cases h : D.eval schema input p store.contents with
  | none => rw [transact_of_none h, Option.map_none, Option.getD_none]
  | some r => exact (transact_of_some h).2

end Dialect

end Transaction
