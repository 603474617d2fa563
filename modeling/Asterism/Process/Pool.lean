import Mathlib.Algebra.BigOperators.Group.List.Basic
import Mathlib.Algebra.Ring.Nat

/-!
# Interleaved procedures, crashes and contracts

A procedure is a sequence of atomic calls. A pool holds any number of procedures in progress
over one shared state, and a script decides who performs the next call and what is lost. A
contract says what a procedure may expect of the others and what each of its calls owes them;
`Pool.play_meets` turns its condition `Meets` into a fact about every interleaving.
-/

namespace Process

/-- A procedure over the calls `E`. A call waits for its answer; `fork` starts a
task that runs on its own and whose result nobody awaits. -/
inductive Program (E : Type → Type 1) : Type → Type 1
  /-- The procedure has returned. -/
  | pure {α : Type} (a : α) : Program E α
  /-- Make one atomic call and continue with its answer. -/
  | call {α β : Type} (request : E β) (next : β → Program E α) : Program E α
  /-- Start a detached task and continue at once. -/
  | fork {α : Type} (child : Program E Unit) (next : Program E α) : Program E α

/-- What a call does to the shared state. The input `I` is everything the outside
world contributes while the call is carried out. -/
structure Machine (E : Type → Type 1) (I : Type) (S : Type*) where
  /-- The answer to a call and the state after it. -/
  exec : {β : Type} → E β → I → S → β × S

/-- One performed call together with the answer it received. -/
structure Event (E : Type → Type 1) where
  answerType : Type
  request : E answerType
  answer : answerType

namespace Program

variable {E : Type → Type 1} {I α : Type} {S : Type*}

/-- Sequential composition. Tasks forked by the first part keep running. -/
def bind {β : Type} : Program E α → (α → Program E β) → Program E β
  | .pure a, f => f a
  | .call request next, f => .call request fun answer => (next answer).bind f
  | .fork child next, f => .fork child (next.bind f)

instance : Monad (Program E) where
  pure := .pure
  bind := bind

/-- The procedure that makes one call and returns its answer. -/
def perform {β : Type} (request : E β) : Program E β := .call request .pure

/-- The procedure that starts a detached task. -/
def spawn (child : Program E Unit) : Program E Unit := .fork child (.pure ())

@[simp] theorem pure_bind_eq {β : Type} (a : α) (f : α → Program E β) :
    (Program.pure a >>= f) = f a := rfl

@[simp] theorem pure_eq (a : α) : (Pure.pure a : Program E α) = Program.pure a := rfl

@[simp] theorem call_bind {β γ : Type} (request : E γ) (next : γ → Program E α)
    (f : α → Program E β) :
    (Program.call request next >>= f) = Program.call request fun answer => next answer >>= f := rfl

@[simp] theorem fork_bind {β : Type} (child : Program E Unit) (next : Program E α)
    (f : α → Program E β) :
    (Program.fork child next >>= f) = Program.fork child (next >>= f) := rfl

@[simp] theorem perform_bind {β : Type} (request : E α) (f : α → Program E β) :
    (perform request >>= f) = Program.call request f := rfl

@[simp] theorem spawn_bind {β : Type} (child : Program E Unit) (f : Unit → Program E β) :
    (spawn child >>= f) = Program.fork child (f ()) := rfl

theorem bind_assoc_eq {β γ : Type} (p : Program E α) (f : α → Program E β)
    (g : β → Program E γ) :
    (p >>= f) >>= g = p >>= fun a => f a >>= g := by
  induction p with
  | pure a => rfl
  | call request next ih => exact congrArg _ (funext fun answer => ih answer f)
  | fork child next _ ih => exact congrArg _ (ih f)

/-- Run a procedure alone. The stream supplies the input of each call in turn, and
what is left of it is returned. Forked tasks are not run. -/
def run (M : Machine E I S) : Program E α → (ℕ → I) → S → α × S × (ℕ → I)
  | .pure a, inputs, s => (a, s, inputs)
  | .call request next, inputs, s =>
    let result := M.exec request (inputs 0) s
    (next result.1).run M (fun n => inputs (n + 1)) result.2
  | .fork _ next, inputs, s => next.run M inputs s

/-- Every call the procedure and its tasks can make satisfies the predicate. -/
def All (φ : {γ : Type} → E γ → Prop) {α : Type} : Program E α → Prop
  | .pure _ => True
  | .call request next => φ request ∧ ∀ answer, (next answer).All φ
  | .fork child next => child.All φ ∧ next.All φ

theorem All.bind {β : Type} {φ : {γ : Type} → E γ → Prop} {p : Program E α}
    {f : α → Program E β}
    (hp : p.All φ) (hf : ∀ a, (f a).All φ) : (p >>= f).All φ := by
  induction p with
  | pure a => exact hf a
  | call request next ih => exact ⟨hp.1, fun answer => ih answer (hp.2 answer) hf⟩
  | fork child next _ ih => exact ⟨hp.1, ih hp.2 hf⟩

theorem all_true (p : Program E α) : p.All fun _ => True := by
  induction p with
  | pure a => trivial
  | call request next ih => exact ⟨trivial, ih⟩
  | fork child next ihchild ih => exact ⟨ihchild, ih⟩

end Program

/-- One procedure in progress. -/
structure Thread (E : Type → Type 1) (P : Type) where
  /-- What the procedure was started as, and `none` for a forked task. -/
  origin : Option P
  /-- The calls it has made so far, oldest first. -/
  done : List (Event E)
  /-- What it still has to do. -/
  code : Program E Unit

/-- One scheduling decision. -/
inductive Action (I P : Type)
  /-- The thread performs its next call with this input, or starts its next task. -/
  | step (thread : ℕ) (input : I)
  /-- A new procedure arrives. -/
  | arrive (start : P)
  /-- The thread is lost before its next call. -/
  | kill (thread : ℕ)
  /-- Every thread is lost. -/
  | crash

/-- Calls, what they do, and the procedures that may arrive. -/
structure System (E : Type → Type 1) (I P S : Type) where
  /-- The effect of each call. -/
  machine : Machine E I S
  /-- The code of each procedure that may arrive. -/
  start : P → Program E Unit

/-- A shared state and the procedures in progress over it. -/
structure Pool (E : Type → Type 1) (P S : Type) where
  state : S
  /-- The procedures in progress. A finished or lost one keeps its place. -/
  threads : List (Thread E P)

namespace Pool

variable {E : Type → Type 1} {I P S : Type} (Y : System E I P S)

def step (c : Pool E P S) (i : ℕ) (input : I) : Pool E P S :=
  match c.threads[i]? with
  | none => c
  | some t =>
    match t.code with
    | .pure _ => c
    | .call request next =>
      let result := Y.machine.exec request input c.state
      { state := result.2
        threads := c.threads.set i
          { t with done := t.done ++ [⟨_, request, result.1⟩], code := next result.1 } }
    | .fork child next =>
      { c with threads := c.threads.set i { t with code := next } ++ [⟨none, [], child⟩] }

def act (c : Pool E P S) : Action I P → Pool E P S
  | .step i input => c.step Y i input
  | .arrive p => { c with threads := c.threads ++ [⟨some p, [], Y.start p⟩] }
  | .kill i => { c with threads := c.threads.modify i fun t => { t with code := .pure () } }
  | .crash => { c with threads := c.threads.map fun t => { t with code := .pure () } }

def play (c : Pool E P S) (script : List (Action I P)) : Pool E P S :=
  script.foldl (act Y) c

@[simp] theorem play_nil (c : Pool E P S) : c.play Y [] = c := rfl

@[simp] theorem play_cons (c : Pool E P S) (a : Action I P) (script : List (Action I P)) :
    c.play Y (a :: script) = (c.act Y a).play Y script := rfl

/-- Everything one scheduling step can do: nothing, one call by one thread, or the
start of one forked task. -/
theorem step_cases (c : Pool E P S) (i : ℕ) (input : I) :
    c.step Y i input = c ∨
    (∃ (t : Thread E P) (β : Type) (request : E β) (next : β → Program E Unit),
      c.threads[i]? = some t ∧ t.code = .call request next ∧
      c.step Y i input =
        { state := (Y.machine.exec request input c.state).2
          threads := c.threads.set i
            { t with
              done := t.done ++ [⟨β, request, (Y.machine.exec request input c.state).1⟩]
              code := next (Y.machine.exec request input c.state).1 } }) ∨
    (∃ (t : Thread E P) (child next : Program E Unit),
      c.threads[i]? = some t ∧ t.code = .fork child next ∧
      c.step Y i input =
        { c with threads := c.threads.set i { t with code := next } ++ [⟨none, [], child⟩] }) := by
  cases ht : c.threads[i]? with
  | none => exact Or.inl (by simp only [step, ht])
  | some t =>
    obtain ⟨origin, done, code⟩ := t
    cases code with
    | pure _ => exact Or.inl (by simp only [step, ht])
    | call request next =>
      exact Or.inr (Or.inl ⟨_, _, request, next, rfl, rfl, by simp only [step, ht]⟩)
    | fork child next =>
      exact Or.inr (Or.inr ⟨_, child, next, rfl, rfl, by simp only [step, ht]⟩)

/-- A pool property that every action preserves holds at the end of every script. -/
theorem play_induction {c : Pool E P S} (motive : Pool E P S → Prop) (hstart : motive c)
    (hact : ∀ d a, motive d → motive (d.act Y a)) (script : List (Action I P)) :
    motive (c.play Y script) := by
  induction script generalizing c with
  | nil => exact hstart
  | cons a script ih => exact ih (hact c a hstart)

/-- The call a thread makes when it is scheduled. -/
def nextCall (c : Pool E P S) (i : ℕ) : Option ((β : Type) × E β) :=
  (c.threads[i]?).bind fun t =>
    match t.code with
    | .call request _ => some ⟨_, request⟩
    | _ => none

theorem nextCall_eq {c : Pool E P S} {i : ℕ} {t : Thread E P} {β : Type} {request : E β}
    {next : β → Program E Unit} (hget : c.threads[i]? = some t)
    (hcode : t.code = .call request next) : c.nextCall i = some ⟨β, request⟩ := by
  simp only [nextCall, hget, Option.bind_some, hcode]

section Admissible

variable (admits : {β : Type} → E β → I → S → Prop)

/-- A call meets a condition on itself, its input and the state it finds. -/
def Admissible (c : Pool E P S) : Action I P → Prop
  | .step i input => ∀ call ∈ c.nextCall i, admits call.2 input c.state
  | _ => True

/-- Every call made while the script is followed meets the condition. -/
def AllAdmissible (c : Pool E P S) : List (Action I P) → Prop
  | [] => True
  | a :: script => c.Admissible admits a ∧ (c.act Y a).AllAdmissible script

variable [∀ (β : Type) (request : E β) (input : I) (s : S), Decidable (admits request input s)]

instance (c : Pool E P S) : (a : Action I P) → Decidable (c.Admissible admits a)
  | .step i input =>
    inferInstanceAs (Decidable (∀ call ∈ c.nextCall i, admits call.2 input c.state))
  | .arrive _ => .isTrue trivial
  | .kill _ => .isTrue trivial
  | .crash => .isTrue trivial

instance decidableAllAdmissible (c : Pool E P S) :
    (script : List (Action I P)) → Decidable (c.AllAdmissible Y admits script)
  | [] => .isTrue trivial
  | a :: script =>
    have := decidableAllAdmissible (c.act Y a) script
    inferInstanceAs (Decidable (c.Admissible admits a ∧ (c.act Y a).AllAdmissible Y admits script))

end Admissible

/-- Where a thread of a pool after an action comes from, and the state after the action. -/
inductive Outcome (c : Pool E P S) (a : Action I P) : S → Thread E P → Prop
  | kept {t : Thread E P} (ht : t ∈ c.threads) : Outcome c a c.state t
  | lost {t : Thread E P} (ht : t ∈ c.threads) : Outcome c a c.state { t with code := .pure () }
  | arrived (p : P) : Outcome c a c.state ⟨some p, [], Y.start p⟩
  | forked {t : Thread E P} {child next : Program E Unit} (ht : t ∈ c.threads)
      (hcode : t.code = .fork child next) : Outcome c a c.state { t with code := next }
  | started {t : Thread E P} {child next : Program E Unit} (ht : t ∈ c.threads)
      (hcode : t.code = .fork child next) : Outcome c a c.state ⟨none, [], child⟩
  | called {i : ℕ} {t : Thread E P} {β : Type} {request : E β} {next : β → Program E Unit}
      {input : I} (ha : a = .step i input) (ht : c.threads[i]? = some t)
      (hcode : t.code = .call request next) :
      Outcome c a (Y.machine.exec request input c.state).2
        { t with
          done := t.done ++ [⟨β, request, (Y.machine.exec request input c.state).1⟩]
          code := next (Y.machine.exec request input c.state).1 }
  | waited {u : Thread E P} (hu : u ∈ c.threads) {i : ℕ} {t : Thread E P} {β : Type}
      {request : E β} {next : β → Program E Unit} {input : I} (ha : a = .step i input)
      (ht : c.threads[i]? = some t) (hcode : t.code = .call request next) :
      Outcome c a (Y.machine.exec request input c.state).2 u

theorem act_kill (c : Pool E P S) (i : ℕ) :
    c.act Y (.kill i) = c ∨ ∃ t, c.threads[i]? = some t ∧
      c.act Y (.kill i) = { c with threads := c.threads.set i { t with code := .pure () } } := by
  cases ht : c.threads[i]? with
  | none =>
    refine Or.inl ?_
    simp only [act, List.modify_eq_set_getElem?, ht]
    rfl
  | some t =>
    refine Or.inr ⟨t, rfl, ?_⟩
    simp only [act, List.modify_eq_set_getElem?, ht]
    rfl

theorem act_outcome {c : Pool E P S} {a : Action I P} {u : Thread E P}
    (hu : u ∈ (c.act Y a).threads) : Outcome Y c a (c.act Y a).state u := by
  cases a with
  | step i input =>
    rcases step_cases Y c i input with h | ⟨t, β, request, next, hget, hcode, h⟩ |
      ⟨t, child, next, hget, hcode, h⟩
    · simp only [act, h] at hu ⊢
      exact .kept hu
    · simp only [act, h] at hu ⊢
      rcases List.mem_or_eq_of_mem_set hu with hu | rfl
      · exact .waited hu rfl hget hcode
      · exact .called rfl hget hcode
    · have ht : t ∈ c.threads := List.mem_of_getElem? hget
      simp only [act, h] at hu ⊢
      rcases List.mem_append.mp hu with hu | hu
      · rcases List.mem_or_eq_of_mem_set hu with hu | rfl
        · exact .kept hu
        · exact .forked ht hcode
      · rw [List.mem_singleton.mp hu]
        exact .started ht hcode
  | arrive p =>
    rcases List.mem_append.mp hu with hu | hu
    · exact .kept hu
    · rw [List.mem_singleton.mp hu]
      exact .arrived p
  | kill i =>
    rcases act_kill Y c i with h | ⟨t, hget, h⟩
    · rw [h] at hu ⊢
      exact .kept hu
    · rw [h] at hu ⊢
      rcases List.mem_or_eq_of_mem_set hu with hu | rfl
      · exact .kept hu
      · exact .lost (List.mem_of_getElem? hget)
  | crash =>
    obtain ⟨t, ht, rfl⟩ := List.mem_map.mp hu
    exact .lost ht

/-- The state after an action: unchanged, or what one call of one thread made of it. -/
theorem act_state (c : Pool E P S) (a : Action I P) :
    (c.act Y a).state = c.state ∨
      ∃ (i : ℕ) (t : Thread E P) (β : Type) (request : E β) (next : β → Program E Unit) (input : I),
        a = .step i input ∧ c.threads[i]? = some t ∧ t.code = .call request next ∧
        (c.act Y a).state = (Y.machine.exec request input c.state).2 := by
  cases a with
  | step i input =>
    rcases step_cases Y c i input with h | ⟨t, β, request, next, hget, hcode, h⟩ |
      ⟨t, child, next, _, _, h⟩
    · exact Or.inl (by simp only [act, h])
    · exact Or.inr ⟨i, t, β, request, next, input, rfl, hget, hcode, by simp only [act, h]⟩
    · exact Or.inl (by simp only [act, h])
  | arrive p => exact Or.inl rfl
  | kill i => exact Or.inl rfl
  | crash => exact Or.inl rfl

/-- A preorder along which every call moves the state relates the two ends of every script. -/
theorem play_related (R : S → S → Prop) (hrefl : ∀ s, R s s)
    (htrans : ∀ {s t u}, R s t → R t u → R s u)
    (hcall : ∀ {β : Type} (request : E β) input s, R s (Y.machine.exec request input s).2)
    (c : Pool E P S) (script : List (Action I P)) : R c.state (c.play Y script).state := by
  refine play_induction Y (fun d => R c.state d.state) (hrefl _) (fun d a hd => ?_) script
  rcases act_state Y d a with h | ⟨_, _, _, request, _, input, _, _, _, h⟩
  · exact h ▸ hd
  · exact h ▸ htrans hd (hcall request input d.state)

/-- What the threads have done, one list for each thread. -/
def observed {α : Type*} (c : Pool E P S) (f : Event E → Option α) : List (List α) :=
  c.threads.map fun t => t.done.filterMap f

theorem exists_of_observed {α : Type*} {c : Pool E P S} {f : Event E → Option α} {x : α}
    {seen : List α} (hseen : seen ∈ c.observed f) (hx : x ∈ seen) :
    ∃ t ∈ c.threads, ∃ e ∈ t.done, f e = some x := by
  obtain ⟨t, ht, rfl⟩ := List.mem_map.mp hseen
  obtain ⟨e, he, hfe⟩ := List.mem_filterMap.mp hx
  exact ⟨t, ht, e, he, hfe⟩

theorem mem_observed {α : Type*} {c : Pool E P S} {f : Event E → Option α} {t : Thread E P}
    (ht : t ∈ c.threads) {e : Event E} (he : e ∈ t.done) {x : α} (hfe : f e = some x) :
    ∃ seen ∈ c.observed f, x ∈ seen :=
  ⟨_, List.mem_map_of_mem ht, List.mem_filterMap.mpr ⟨e, he, hfe⟩⟩

end Pool

/-! # Contracts for interleaved procedures -/

/-- What a procedure may expect of the others and what it owes them. -/
structure Contract (E : Type → Type 1) (I : Type) (S : Type*) where
  /-- The calls the contract speaks about, with their input and the state they find. -/
  admits : {β : Type} → E β → I → S → Prop
  /-- What the others may do to the state between two calls. -/
  rely : S → S → Prop
  /-- The others may do nothing. -/
  rely_refl : ∀ s, rely s s
  /-- What the others do in several steps they may do at once. -/
  rely_trans : ∀ {s t u}, rely s t → rely t u → rely s u
  /-- What a call with this answer does to the state. -/
  guarantee : {β : Type} → E β → β → S → S → Prop

namespace Program

variable {E : Type → Type 1} {I α β : Type} {S : Type*}

/-- From this state on, each call of the procedure keeps the guarantee, whatever the others
do in between as long as they keep the rely condition, and the result satisfies `post`. -/
def Meets (C : Contract E I S) (M : Machine E I S) {α : Type} :
    Program E α → (α → S → Prop) → S → Prop
  | .pure a, post, s => post a s
  | .call request next, post, s => ∀ t, C.rely s t → ∀ input, C.admits request input t →
      C.guarantee request (M.exec request input t).1 t (M.exec request input t).2 ∧
        (next (M.exec request input t).1).Meets C M post (M.exec request input t).2
  | .fork child next, post, s => child.Meets C M (fun _ _ => True) s ∧ next.Meets C M post s

variable {C : Contract E I S} {M : Machine E I S}

@[simp] theorem meets_pure (a : α) (post : α → S → Prop) (s : S) :
    (Program.pure a : Program E α).Meets C M post s ↔ post a s := Iff.rfl

/-- The condition of a composition is the condition of its first part, with the condition
of the second part as postcondition. -/
theorem meets_bind (p : Program E α) (f : α → Program E β) (post : β → S → Prop) (s : S) :
    (p >>= f).Meets C M post s ↔ p.Meets C M (fun a t => (f a).Meets C M post t) s := by
  induction p generalizing s with
  | pure a => rfl
  | call request next ih =>
    refine forall_congr' fun t => forall_congr' fun _ => forall_congr' fun input => ?_
    exact forall_congr' fun _ => and_congr Iff.rfl (ih _ f _)
  | fork child next _ ih => exact and_congr Iff.rfl (ih f s)

theorem Meets.mono {p : Program E α} {post post' : α → S → Prop} {s : S}
    (h : p.Meets C M post s) (hpost : ∀ a t, post a t → post' a t) : p.Meets C M post' s := by
  induction p generalizing s with
  | pure a => exact hpost a s h
  | call request next ih =>
    intro t hst input hadmits
    obtain ⟨hguarantee, hnext⟩ := h t hst input hadmits
    exact ⟨hguarantee, ih _ hnext hpost⟩
  | fork child next _ ih => exact ⟨h.1, ih h.2 hpost⟩

theorem Meets.rely {p : Program E α} {post : α → S → Prop} {s t : S} (h : p.Meets C M post s)
    (hst : C.rely s t) (hstable : ∀ a u v, post a u → C.rely u v → post a v) :
    p.Meets C M post t := by
  induction p with
  | pure a => exact hstable a s t h hst
  | call request next _ =>
    exact fun u htu input hadmits => h u (C.rely_trans hst htu) input hadmits
  | fork child next ihchild ih =>
    exact ⟨ihchild h.1 (fun _ _ _ _ _ => trivial), ih h.2 hstable⟩

/-- Whatever is answered, the result satisfies the predicate. -/
def Returns {α : Type} (φ : α → Prop) : Program E α → Prop
  | .pure a => φ a
  | .call _ next => ∀ answer, (next answer).Returns φ
  | .fork _ next => next.Returns φ

theorem Meets.returns {p : Program E α} {post : α → S → Prop} {φ : α → Prop} {s : S}
    (h : p.Meets C M post s) (hp : p.Returns φ) :
    p.Meets C M (fun a t => post a t ∧ φ a) s := by
  induction p generalizing s with
  | pure a => exact ⟨h, hp⟩
  | call request next ih =>
    intro t hst input hadmits
    obtain ⟨hguarantee, hnext⟩ := h t hst input hadmits
    exact ⟨hguarantee, ih _ hnext (hp _)⟩
  | fork child next _ ih => exact ⟨h.1, ih h.2 hp⟩

/-- A procedure whose calls all keep the guarantee and an assertion the others cannot break
meets the contract with that assertion. -/
theorem Meets.of_all {φ : {γ : Type} → E γ → Prop} {p : Program E α} (P : S → Prop)
    (hstable : ∀ s t, P s → C.rely s t → P t)
    (hcalls : ∀ {γ : Type} (request : E γ), φ request → ∀ input s, P s → C.admits request input s →
      C.guarantee request (M.exec request input s).1 s (M.exec request input s).2 ∧
        P (M.exec request input s).2)
    (hp : p.All φ) {s : S} (hs : P s) : p.Meets C M (fun _ t => P t) s := by
  induction p generalizing s with
  | pure a => exact hs
  | call request next ih =>
    intro t hst input hadmits
    have hcall := hcalls request hp.1 input t (hstable s t hs hst) hadmits
    exact ⟨hcall.1, ih _ (hp.2 _) hcall.2⟩
  | fork child next ihchild ih =>
    exact ⟨(ihchild hp.1 hs).mono fun _ _ _ => trivial, ih hp.2 hs⟩

theorem Meets.of_preserved (p : Program E α) (P : S → Prop)
    (hstable : ∀ s t, P s → C.rely s t → P t)
    (hcalls : ∀ {γ : Type} (request : E γ) (input : I) (s : S), P s → C.admits request input s →
      C.guarantee request (M.exec request input s).1 s (M.exec request input s).2 ∧
        P (M.exec request input s).2)
    {s : S} (hs : P s) : p.Meets C M (fun _ t => P t) s :=
  .of_all P hstable (fun request _ => hcalls request) p.all_true hs

end Program

namespace Pool

variable {E : Type → Type 1} {I P S : Type} (Y : System E I P S) (C : Contract E I S)

/-- The pool got here from a state by calls that keep the guarantee, and every thread still
meets the contract. -/
structure Keeps (start : S) (c : Pool E P S) : Prop where
  /-- The state changed only as the rely condition allows. -/
  reached : C.rely start c.state
  /-- What each thread still has to do meets the contract. -/
  code : ∀ t ∈ c.threads, t.code.Meets C Y.machine (fun _ _ => True) c.state
  /-- Every call made kept the guarantee, and the state changed since then only as the rely
  condition allows. -/
  done : ∀ t ∈ c.threads, ∀ e ∈ t.done, ∃ before after,
    C.guarantee e.request e.answer before after ∧ C.rely start before ∧ C.rely after c.state

variable {Y C}

theorem Keeps.act {start : S} {c : Pool E P S} (hc : c.Keeps Y C start)
    (hrely : ∀ {β : Type} (request : E β) (answer : β) (s t : S),
      C.guarantee request answer s t → C.rely s t)
    (hstart : ∀ p s, C.rely start s → (Y.start p).Meets C Y.machine (fun _ _ => True) s)
    {a : Action I P} (ha : c.Admissible C.admits a) : (c.act Y a).Keeps Y C start := by
  -- The call an action makes keeps the guarantee.
  have hcall {i : ℕ} {t : Thread E P} {β : Type} {request : E β} {next : β → Program E Unit}
      {input : I} (hstep : a = .step i input) (hget : c.threads[i]? = some t)
      (hcode : t.code = .call request next) :
      C.guarantee request (Y.machine.exec request input c.state).1 c.state
          (Y.machine.exec request input c.state).2 ∧
        (next (Y.machine.exec request input c.state).1).Meets C Y.machine (fun _ _ => True)
          (Y.machine.exec request input c.state).2 := by
    subst hstep
    have hmeets := hc.code t (List.mem_of_getElem? hget)
    rw [hcode] at hmeets
    exact hmeets c.state (C.rely_refl _) input (ha ⟨β, request⟩ (nextCall_eq hget hcode))
  have hstate : C.rely c.state (c.act Y a).state := by
    rcases act_state Y c a with h | ⟨i, t, β, request, next, input, hstep, hget, hcode, h⟩
    · rw [h]
      exact C.rely_refl _
    · rw [h]
      exact hrely _ _ _ _ (hcall hstep hget hcode).1
  have hkept : ∀ t ∈ c.threads, ∀ e ∈ t.done, ∃ before after,
      C.guarantee e.request e.answer before after ∧ C.rely start before ∧
        C.rely after (c.act Y a).state := by
    intro t ht e he
    obtain ⟨before, after, hguarantee, hbefore, hafter⟩ := hc.done t ht e he
    exact ⟨before, after, hguarantee, hbefore, C.rely_trans hafter hstate⟩
  refine ⟨C.rely_trans hc.reached hstate, fun u hu => ?_, fun u hu e he => ?_⟩
  · have houtcome := act_outcome Y hu
    generalize (c.act Y a).state = s at houtcome
    cases houtcome with
    | kept ht => exact hc.code u ht
    | lost ht => trivial
    | arrived p => exact hstart p c.state hc.reached
    | forked ht hcode =>
      have hmeets := hc.code _ ht
      rw [hcode] at hmeets
      exact hmeets.2
    | started ht hcode =>
      have hmeets := hc.code _ ht
      rw [hcode] at hmeets
      exact hmeets.1
    | called hstep hget hcode => exact (hcall hstep hget hcode).2
    | waited ht hstep hget hcode =>
      exact (hc.code u ht).rely (hrely _ _ _ _ (hcall hstep hget hcode).1) fun _ _ _ _ _ => trivial
  · have houtcome := act_outcome Y hu
    generalize (c.act Y a).state = s at houtcome hkept
    cases houtcome with
    | kept ht => exact hkept u ht e he
    | lost ht => exact hkept _ ht e he
    | arrived p => cases he
    | forked ht hcode => exact hkept _ ht e he
    | started ht hcode => cases he
    | called hstep hget hcode =>
      rcases List.mem_append.mp he with he | he
      · exact hkept _ (List.mem_of_getElem? hget) e he
      · rw [List.mem_singleton.mp he]
        exact ⟨c.state, _, (hcall hstep hget hcode).1, hc.reached, C.rely_refl _⟩
    | waited ht => exact hkept u ht e he

/-- Procedures that meet a contract keep it along every script: whatever interleaving, losses
and crashes it describes. -/
theorem play_meets {start : S} {c : Pool E P S} (hc : c.Keeps Y C start)
    (hrely : ∀ {β : Type} (request : E β) (answer : β) (s t : S),
      C.guarantee request answer s t → C.rely s t)
    (hstart : ∀ p s, C.rely start s → (Y.start p).Meets C Y.machine (fun _ _ => True) s)
    {script : List (Action I P)} (hscript : c.AllAdmissible Y C.admits script) :
    (c.play Y script).Keeps Y C start := by
  induction script generalizing c with
  | nil => exact hc
  | cons a script ih => exact ih (hc.act hrely hstart hscript.1) hscript.2

variable (Y C) in
/-- Each thread of one procedure goes on as the contract says, and its calls kept the guarantee. -/
def OriginMeets (p : P) (c : Pool E P S) : Prop :=
  ∀ t ∈ c.threads, t.origin = some p →
    t.code.Meets C Y.machine (fun _ _ => True) c.state ∧
      ∀ e ∈ t.done, ∃ before after, C.guarantee e.request e.answer before after ∧
        C.rely after c.state

section Origin

variable {p : P}
  (hrely : ∀ {β : Type} (request : E β) (input : I) (s : S),
    C.rely s (Y.machine.exec request input s).2)
  (hadmits : ∀ {β : Type} (request : E β) (input : I) (s : S), C.admits request input s)
  (hstart : ∀ s, (Y.start p).Meets C Y.machine (fun _ _ => True) s)

include hrely hadmits hstart

/-- A thread of the procedure goes on or is lost, whatever the action. -/
theorem OriginMeets.act {c : Pool E P S} (hc : c.OriginMeets Y C p) (a : Action I P) :
    (c.act Y a).OriginMeets Y C p := by
  intro u hu horigin
  have houtcome := act_outcome Y hu
  generalize (c.act Y a).state = s at houtcome ⊢
  cases houtcome with
  | kept ht => exact hc u ht horigin
  | lost ht => exact ⟨trivial, (hc _ ht horigin).2⟩
  | arrived q =>
    obtain rfl := Option.some.inj horigin
    exact ⟨hstart c.state, fun e he => absurd he List.not_mem_nil⟩
  | forked ht hcode =>
    obtain ⟨hmeets, hdone⟩ := hc _ ht horigin
    rw [hcode] at hmeets
    exact ⟨hmeets.2, hdone⟩
  | started ht hcode => cases horigin
  | called hstep hget hcode =>
    obtain ⟨hmeets, hdone⟩ := hc _ (List.mem_of_getElem? hget) horigin
    rw [hcode] at hmeets
    obtain ⟨hguarantee, hnext⟩ := hmeets c.state (C.rely_refl _) _ (hadmits _ _ _)
    refine ⟨hnext, fun e he => ?_⟩
    rcases List.mem_append.mp he with he | he
    · obtain ⟨before, after, hkept, hafter⟩ := hdone e he
      exact ⟨before, after, hkept, C.rely_trans hafter (hrely _ _ _)⟩
    · rw [List.mem_singleton.mp he]
      exact ⟨_, _, hguarantee, C.rely_refl _⟩
  | waited ht _ hget hcode =>
    obtain ⟨hmeets, hdone⟩ := hc u ht horigin
    refine ⟨hmeets.rely (hrely _ _ _) fun _ _ _ _ _ => trivial, fun e he => ?_⟩
    obtain ⟨before, after, hkept, hafter⟩ := hdone e he
    exact ⟨before, after, hkept, C.rely_trans hafter (hrely _ _ _)⟩

/-- When every call keeps the rely condition, this holds along every script, whatever the other
threads are. -/
theorem OriginMeets.play {c : Pool E P S} (hc : c.OriginMeets Y C p)
    (script : List (Action I P)) : (c.play Y script).OriginMeets Y C p := by
  induction script generalizing c with
  | nil => exact hc
  | cons a script ih => exact ih (hc.act hrely hadmits hstart a)

end Origin

end Pool

/-- The contract of a procedure that runs alone with inputs of some kind, when only its result
matters. -/
def Contract.sequential (E : Type → Type 1) {I : Type} (S : Type*) (allowed : I → Prop) :
    Contract E I S where
  admits _ input _ := allowed input
  rely s t := s = t
  rely_refl _ := rfl
  rely_trans := Eq.trans
  guarantee _ _ _ _ := True

/-- A procedure that meets the sequential contract ends in its postcondition. -/
theorem Program.Meets.run_sequential {E : Type → Type 1} {I α : Type} {S : Type*}
    {M : Machine E I S} {allowed : I → Prop} {p : Program E α} {post : α → S → Prop} {s : S}
    (hp : p.Meets (Contract.sequential E S allowed) M post s) {inputs : ℕ → I}
    (hinputs : ∀ n, allowed (inputs n)) :
    post (p.run M inputs s).1 (p.run M inputs s).2.1 := by
  induction p generalizing inputs s with
  | pure a => exact hp
  | call request next ih =>
    exact ih _ (hp s rfl (inputs 0) (hinputs 0)).2 fun n => hinputs (n + 1)
  | fork child next _ ih => exact ih hp.2 hinputs

/-- One call of a history: what was asked and answered, and the state before and after. -/
structure Step (E : Type → Type 1) (S : Type) extends Event E where
  before : S
  after : S

/-- A condition on each step of a history, newest step first, given the steps before it. -/
def Upheld {E : Type → Type 1} {S : Type} (ok : List (Step E S) → Step E S → Prop) :
    List (Step E S) → Prop
  | [] => True
  | step :: history => ok history step ∧ Upheld ok history

theorem Upheld.of_append {E : Type → Type 1} {S : Type}
    {ok : List (Step E S) → Step E S → Prop} {later history : List (Step E S)}
    (h : Upheld ok (later ++ history)) : Upheld ok history := by
  induction later with
  | nil => exact h
  | cons step later ih => exact ih h.2

theorem Upheld.iff_of_forall {E : Type → Type 1} {S : Type}
    {ok ok' : List (Step E S) → Step E S → Prop} {history : List (Step E S)}
    (h : Upheld (fun history step => ok history step ↔ ok' history step) history) :
    Upheld ok history ↔ Upheld ok' history := by
  induction history with
  | nil => rfl
  | cons step history ih => exact and_congr h.1 (ih h.2)

namespace Machine

variable {E : Type → Type 1} {I S : Type}

def step (M : Machine E I S) {β : Type} (request : E β) (input : I) (s : S) : Step E S :=
  ⟨⟨β, request, (M.exec request input s).1⟩, s, (M.exec request input s).2⟩

/-- The machine that also records every step, newest first. -/
def recording (M : Machine E I S) : Machine E I (List (Step E S) × S) where
  exec request input hs :=
    ((M.exec request input hs.2).1,
      (M.step request input hs.2 :: hs.1, (M.exec request input hs.2).2))

/-- The contract of a procedure that runs alone: given one condition on its steps, each of
them satisfies another. -/
def alone (M : Machine E I S) (given ok : List (Step E S) → Step E S → Prop) :
    Contract E I (List (Step E S) × S) where
  admits request input hs := given hs.1 (M.step request input hs.2)
  rely hs ht := hs = ht
  rely_refl _ := rfl
  rely_trans := Eq.trans
  guarantee request answer hs ht := ok hs.1 ⟨⟨_, request, answer⟩, hs.2, ht.2⟩

end Machine

namespace Program

variable {E : Type → Type 1} {I S α : Type} {M : Machine E I S}
  {given ok : List (Step E S) → Step E S → Prop}

/-- The steps of a procedure that runs alone, newest first. -/
def history (M : Machine E I S) (p : Program E α) (inputs : ℕ → I) (s : S) : List (Step E S) :=
  (p.run M.recording inputs ([], s)).2.1.1

theorem run_recording_history (p : Program E α) (inputs : ℕ → I) (h : List (Step E S)) (s : S) :
    ∃ later, (p.run M.recording inputs (h, s)).2.1.1 = later ++ h := by
  induction p generalizing inputs h s with
  | pure a => exact ⟨[], rfl⟩
  | call request next ih =>
    obtain ⟨later, hlater⟩ := ih _ (fun n => inputs (n + 1)) (M.step request (inputs 0) s :: h) _
    exact ⟨later ++ [M.step request (inputs 0) s], hlater.trans (by rw [List.append_assoc]; rfl)⟩
  | fork child next _ ih => exact ih inputs h s

/-- A condition that the inputs alone guarantee is upheld by every run. -/
theorem upheld_run {inputs : ℕ → I}
    (hinputs : ∀ {β : Type} (request : E β) n history s,
      ok history (M.step request (inputs n) s))
    (p : Program E α) {h : List (Step E S)} (hh : Upheld ok h) (s : S) :
    Upheld ok (p.run M.recording inputs (h, s)).2.1.1 := by
  induction p generalizing inputs h s with
  | pure a => exact hh
  | call request next ih =>
    have hstep : Upheld ok (M.step request (inputs 0) s :: h) := ⟨hinputs request 0 h s, hh⟩
    exact ih _ (fun request n => hinputs request (n + 1)) hstep _
  | fork child next _ ih => exact ih hinputs hh s

theorem upheld_history {inputs : ℕ → I}
    (hinputs : ∀ {β : Type} (request : E β) n history s,
      ok history (M.step request (inputs n) s))
    (p : Program E α) (s : S) : Upheld ok (p.history M inputs s) :=
  upheld_run (h := []) hinputs p trivial s

/-- A procedure that meets the contract of running alone satisfies its condition at every step
of every run, and its postcondition at the end. -/
theorem Meets.run_alone {p : Program E α} {post : α → List (Step E S) × S → Prop}
    {h : List (Step E S)} {s : S} (hp : p.Meets (M.alone given ok) M.recording post (h, s))
    (hh : Upheld ok h) (inputs : ℕ → I)
    (hgiven : Upheld given (p.run M.recording inputs (h, s)).2.1.1) :
    Upheld ok (p.run M.recording inputs (h, s)).2.1.1 ∧
      post (p.run M.recording inputs (h, s)).1 (p.run M.recording inputs (h, s)).2.1 := by
  induction p generalizing inputs h s with
  | pure a => exact ⟨hh, hp⟩
  | call request next ih =>
    have hfirst : given h (M.step request (inputs 0) s) := by
      obtain ⟨later, hlater⟩ := run_recording_history (M := M)
        (next (M.exec request (inputs 0) s).1) (fun n => inputs (n + 1))
        (M.step request (inputs 0) s :: h) (M.exec request (inputs 0) s).2
      have hall : Upheld given (later ++ M.step request (inputs 0) s :: h) := hlater ▸ hgiven
      exact hall.of_append.1
    obtain ⟨hstep, hnext⟩ := hp (h, s) rfl (inputs 0) hfirst
    exact ih _ hnext ⟨hstep, hh⟩ _ hgiven
  | fork child next _ ih => exact ih hp.2 hh inputs hgiven

end Program

/-! ## Budgets -/

namespace Program

variable {E : Type → Type 1} {α β : Type}

/-- With this many credits, the procedure and its tasks never make a call they cannot pay
for, and the result with the credits left satisfies `post`. -/
def Funded (earns spends : Event E → ℕ) {α : Type} :
    Program E α → (α → ℕ → Prop) → ℕ → Prop
  | .pure a, post, credit => post a credit
  | .call request next, post, credit => ∀ answer,
      spends ⟨_, request, answer⟩ ≤ credit + earns ⟨_, request, answer⟩ ∧
        (next answer).Funded earns spends post
          (credit + earns ⟨_, request, answer⟩ - spends ⟨_, request, answer⟩)
  | .fork child next, post, credit => ∃ given kept, given + kept ≤ credit ∧
      child.Funded earns spends (fun _ _ => True) given ∧ next.Funded earns spends post kept

variable {earns spends : Event E → ℕ}

@[simp] theorem funded_pure (a : α) (post : α → ℕ → Prop) (credit : ℕ) :
    (Program.pure a : Program E α).Funded earns spends post credit ↔ post a credit := Iff.rfl

/-- A composition is funded when its first part is, with enough left for the second. -/
theorem funded_bind (p : Program E α) (f : α → Program E β) (post : β → ℕ → Prop) (credit : ℕ) :
    (p >>= f).Funded earns spends post credit ↔
      p.Funded earns spends (fun a left => (f a).Funded earns spends post left) credit := by
  induction p generalizing credit with
  | pure a => rfl
  | call request next ih => exact forall_congr' fun answer => and_congr Iff.rfl (ih _ f _)
  | fork child next _ ih =>
    refine exists_congr fun given => exists_congr fun kept => and_congr Iff.rfl ?_
    exact and_congr Iff.rfl (ih f kept)

theorem Funded.mono {p : Program E α} {post post' : α → ℕ → Prop} {credit : ℕ}
    (h : p.Funded earns spends post credit) (hpost : ∀ a left, post a left → post' a left) :
    p.Funded earns spends post' credit := by
  induction p generalizing credit with
  | pure a => exact hpost a credit h
  | call request next ih => exact fun answer => ⟨(h answer).1, ih _ (h answer).2 hpost⟩
  | fork child next _ ih =>
    obtain ⟨given, kept, hsplit, hchild, hnext⟩ := h
    exact ⟨given, kept, hsplit, hchild, ih hnext hpost⟩

theorem Funded.more {p : Program E α} {credit credit' : ℕ}
    (h : p.Funded earns spends (fun _ _ => True) credit) (hle : credit ≤ credit') :
    p.Funded earns spends (fun _ _ => True) credit' := by
  induction p generalizing credit credit' with
  | pure a => trivial
  | call request next ih =>
    intro answer
    obtain ⟨hpaid, hnext⟩ := h answer
    exact ⟨by omega, ih answer hnext (by omega)⟩
  | fork child next _ ih =>
    obtain ⟨given, kept, hsplit, hchild, hnext⟩ := h
    exact ⟨given, kept, by omega, hchild, hnext⟩

end Program

/-- The weight of all calls made by one thread. -/
def Thread.weigh {E : Type → Type 1} {P : Type} (weight : Event E → ℕ) (t : Thread E P) : ℕ :=
  (t.done.map weight).sum

namespace Pool

variable {E : Type → Type 1} {I P S : Type} (Y : System E I P S)

def total (weight : Event E → ℕ) (c : Pool E P S) : ℕ :=
  (c.threads.map (Thread.weigh weight)).sum

/-- Replacing one thread changes the total by the difference of the two. -/
theorem sum_map_set {A : Type*} (f : A → ℕ) (new : A) {l : List A} {i : ℕ} {old : A}
    (hget : l[i]? = some old) : ((l.set i new).map f).sum + f old = (l.map f).sum + f new := by
  induction l generalizing i with
  | nil => cases hget
  | cons first rest ih =>
    cases i with
    | zero =>
      obtain rfl := Option.some.inj hget
      simp only [List.set_cons_zero, List.map_cons, List.sum_cons]
      omega
    | succ i =>
      have hrest := ih hget
      simp only [List.set_cons_succ, List.map_cons, List.sum_cons]
      omega

theorem total_set_code (weight : Event E → ℕ) {c : Pool E P S} {i : ℕ} {t : Thread E P}
    (hget : c.threads[i]? = some t) (code : Program E Unit) :
    ((c.threads.set i { t with code := code }).map (Thread.weigh weight)).sum =
      c.total weight := by
  have hset := sum_map_set (Thread.weigh weight) { t with code := code } hget
  exact Nat.add_right_cancel hset

theorem total_set_call (weight : Event E → ℕ) {c : Pool E P S} {i : ℕ} {t : Thread E P}
    (hget : c.threads[i]? = some t) (e : Event E) (code : Program E Unit) :
    ((c.threads.set i { t with done := t.done ++ [e], code := code }).map
      (Thread.weigh weight)).sum = c.total weight + weight e := by
  have hset :=
    sum_map_set (Thread.weigh weight) { t with done := t.done ++ [e], code := code } hget
  have hweigh : Thread.weigh weight { t with done := t.done ++ [e], code := code } =
      t.weigh weight + weight e := by
    simp only [Thread.weigh, List.map_append, List.sum_append, List.map_cons, List.map_nil,
      List.sum_cons, List.sum_nil, Nat.add_zero]
  rw [hweigh] at hset
  simp only [total]
  omega

theorem total_act (weight : Event E → ℕ) (c : Pool E P S) (a : Action I P) :
    ((c.act Y a).state = c.state ∧ (c.act Y a).total weight = c.total weight) ∨
    ∃ (β : Type) (request : E β) (input : I),
      (c.act Y a).state = (Y.machine.exec request input c.state).2 ∧
      (c.act Y a).total weight =
        c.total weight + weight ⟨β, request, (Y.machine.exec request input c.state).1⟩ := by
  cases a with
  | step i input =>
    rcases step_cases Y c i input with h | ⟨t, β, request, next, hget, _, h⟩ |
      ⟨t, child, next, hget, _, h⟩
    · exact Or.inl (by simp only [act, h, and_self])
    · refine Or.inr ⟨β, request, input, ?_, ?_⟩
      · simp only [act, h]
      · simp only [act, h]
        exact total_set_call weight hget _ _
    · refine Or.inl ⟨by simp only [act, h], ?_⟩
      simp only [act, h, total, List.map_append, List.sum_append]
      exact total_set_code weight hget next
  | arrive p => exact Or.inl ⟨rfl, by simp [act, total, Thread.weigh]⟩
  | kill i =>
    refine Or.inl ⟨rfl, ?_⟩
    rcases act_kill Y c i with h | ⟨t, hget, h⟩
    · rw [h]
    · rw [h]
      exact total_set_code weight hget _
  | crash => exact Or.inl ⟨rfl, by simp only [act, total, List.map_map]; rfl⟩

/-- When each call of a kind uses up part of a potential of the state, what is left of the
potential bounds how many more such calls a script can make. -/
theorem total_play_le {weight : Event E → ℕ} (potential : S → ℕ)
    (hexec : ∀ {β : Type} (request : E β) (input : I) (s : S),
      weight ⟨β, request, (Y.machine.exec request input s).1⟩ +
        potential (Y.machine.exec request input s).2 ≤ potential s)
    (c : Pool E P S) (script : List (Action I P)) :
    (c.play Y script).total weight + potential (c.play Y script).state ≤
      c.total weight + potential c.state := by
  induction script generalizing c with
  | nil => exact Nat.le_refl _
  | cons a script ih =>
    refine Nat.le_trans (ih (c.act Y a)) ?_
    rcases total_act Y weight c a with ⟨hstate, htotal⟩ | ⟨β, request, input, hstate, htotal⟩
    · exact Nat.le_of_eq (by rw [hstate, htotal])
    · have hcall := hexec request input c.state
      rw [hstate, htotal]
      omega

/-- Every thread is funded by its entry in a ledger, and the credits of all entries together
with those already spent do not exceed those earned. -/
def Solvent (earns spends : Event E → ℕ) (c : Pool E P S) : Prop :=
  ∃ ledger : List (Thread E P × ℕ), ledger.map Prod.fst = c.threads ∧
    (∀ entry ∈ ledger, entry.1.code.Funded earns spends (fun _ _ => True) entry.2) ∧
    c.total spends + (ledger.map Prod.snd).sum ≤ c.total earns

variable {Y} {earns spends : Event E → ℕ}

theorem exists_entry {ledger : List (Thread E P × ℕ)} {threads : List (Thread E P)}
    (hledger : ledger.map Prod.fst = threads) {i : ℕ} {t : Thread E P}
    (hget : threads[i]? = some t) : ∃ credit, ledger[i]? = some (t, credit) := by
  rw [← hledger, List.getElem?_map] at hget
  obtain ⟨entry, hentry, rfl⟩ := Option.map_eq_some_iff.mp hget
  exact ⟨entry.2, hentry⟩

theorem Solvent.act {c : Pool E P S} (hc : c.Solvent earns spends)
    (hstart : ∀ p, (Y.start p).Funded earns spends (fun _ _ => True) 0) (a : Action I P) :
    (c.act Y a).Solvent earns spends := by
  obtain ⟨ledger, hledger, hfunded, hsum⟩ := hc
  cases a with
  | step i input =>
    rcases step_cases Y c i input with h | ⟨t, β, request, next, hget, hcode, h⟩ |
      ⟨t, child, next, hget, hcode, h⟩
    · simp only [Pool.act, h]
      exact ⟨ledger, hledger, hfunded, hsum⟩
    · obtain ⟨credit, hentry⟩ := exists_entry hledger hget
      have hthread := hfunded _ (List.mem_of_getElem? hentry)
      rw [hcode] at hthread
      obtain ⟨hpaid, hnext⟩ := hthread (Y.machine.exec request input c.state).1
      let answered : Event E := ⟨β, request, (Y.machine.exec request input c.state).1⟩
      let after : Thread E P :=
        { t with
          done := t.done ++ [answered]
          code := next (Y.machine.exec request input c.state).1 }
      let left := credit + earns answered - spends answered
      have hspent := total_set_call spends hget answered after.code
      have hearned := total_set_call earns hget answered after.code
      have hcredits := sum_map_set Prod.snd (after, left) hentry
      simp only [Pool.act, h]
      refine ⟨ledger.set i (after, left), ?_, fun entry hmem => ?_, ?_⟩
      · rw [List.map_set, hledger]
      · rcases List.mem_or_eq_of_mem_set hmem with hmem | rfl
        · exact hfunded entry hmem
        · exact hnext
      · simp only [total, after, answered, left] at hspent hearned hcredits hsum ⊢
        omega
    · obtain ⟨credit, hentry⟩ := exists_entry hledger hget
      have hthread := hfunded _ (List.mem_of_getElem? hentry)
      rw [hcode] at hthread
      obtain ⟨given, kept, hsplit, hchild, hnext⟩ := hthread
      have hcredits := sum_map_set Prod.snd ({ t with code := next }, kept) hentry
      have hspent := total_set_code spends hget next
      have hearned := total_set_code earns hget next
      simp only [Pool.act, h]
      refine ⟨ledger.set i ({ t with code := next }, kept) ++ [(⟨none, [], child⟩, given)], ?_,
        fun entry hmem => ?_, ?_⟩
      · rw [List.map_append, List.map_set, hledger]
        rfl
      · rcases List.mem_append.mp hmem with hmem | hmem
        · rcases List.mem_or_eq_of_mem_set hmem with hmem | rfl
          · exact hfunded entry hmem
          · exact hnext
        · rw [List.mem_singleton.mp hmem]
          exact hchild
      · simp only [total, List.map_append, List.sum_append, List.map_cons, List.map_nil,
          List.sum_cons, List.sum_nil, Thread.weigh] at hspent hearned hcredits hsum ⊢
        omega
  | arrive p =>
    refine ⟨ledger ++ [(⟨some p, [], Y.start p⟩, 0)], ?_, fun entry hmem => ?_, ?_⟩
    · rw [List.map_append, hledger]
      rfl
    · rcases List.mem_append.mp hmem with hmem | hmem
      · exact hfunded entry hmem
      · rw [List.mem_singleton.mp hmem]
        exact hstart p
    · simpa [Pool.act, total, Thread.weigh] using hsum
  | kill i =>
    rcases act_kill Y c i with h | ⟨t, hget, h⟩ <;> rw [h]
    · exact ⟨ledger, hledger, hfunded, hsum⟩
    · obtain ⟨credit, hentry⟩ := exists_entry hledger hget
      have hcredits := sum_map_set Prod.snd ({ t with code := .pure () }, credit) hentry
      have hspent := total_set_code spends hget (.pure ())
      have hearned := total_set_code earns hget (.pure ())
      refine ⟨ledger.set i ({ t with code := .pure () }, credit), ?_, fun entry hmem => ?_, ?_⟩
      · rw [List.map_set, hledger]
      · rcases List.mem_or_eq_of_mem_set hmem with hmem | rfl
        · exact hfunded entry hmem
        · trivial
      · simp only [total] at hspent hearned hcredits hsum ⊢
        omega
  | crash =>
    refine ⟨ledger.map fun entry => ({ entry.1 with code := .pure () }, entry.2), ?_,
      fun entry hmem => ?_, ?_⟩
    · simp only [Pool.act, ← hledger, List.map_map]
      rfl
    · obtain ⟨old, _, rfl⟩ := List.mem_map.mp hmem
      trivial
    · simp only [Pool.act, total, List.map_map]
      exact hsum

/-- Along every script the calls that need a credit are at most those that earn one. -/
theorem total_spends_le {c : Pool E P S} (hc : c.Solvent earns spends)
    (hstart : ∀ p, (Y.start p).Funded earns spends (fun _ _ => True) 0)
    (script : List (Action I P)) :
    (c.play Y script).total spends ≤ (c.play Y script).total earns := by
  obtain ⟨ledger, _, _, hsum⟩ :=
    play_induction Y (Solvent earns spends) hc (fun d a hd => hd.act hstart a) script
  omega

/-- Along every script a thread that is not a forked task has itself earned what it spent. -/
theorem weigh_spends_le {c : Pool E P S} (hc : c.threads = [])
    (hstart : ∀ p, (Y.start p).Funded earns spends (fun _ _ => True) 0)
    (script : List (Action I P)) :
    ∀ t ∈ (c.play Y script).threads, t.origin ≠ none → t.weigh spends ≤ t.weigh earns := by
  have hpaid : ∀ t ∈ (c.play Y script).threads, t.origin ≠ none → ∃ credit,
      t.code.Funded earns spends (fun _ _ => True) credit ∧
        t.weigh spends + credit ≤ t.weigh earns := by
    refine play_induction Y (fun d => ∀ t ∈ d.threads, t.origin ≠ none → ∃ credit,
      t.code.Funded earns spends (fun _ _ => True) credit ∧
        t.weigh spends + credit ≤ t.weigh earns) ?_ (fun d a hd u hu horigin => ?_) script
    · intro t ht
      rw [hc] at ht
      cases ht
    · have houtcome := act_outcome Y hu
      generalize (d.act Y a).state = s at houtcome
      cases houtcome with
      | kept ht => exact hd u ht horigin
      | lost ht =>
        obtain ⟨credit, _, hle⟩ := hd _ ht horigin
        exact ⟨credit, trivial, hle⟩
      | arrived p => exact ⟨0, hstart p, Nat.le_refl 0⟩
      | forked ht hcode =>
        obtain ⟨credit, hfunded, hle⟩ := hd _ ht horigin
        rw [hcode] at hfunded
        obtain ⟨given, kept, hsplit, _, hnext⟩ := hfunded
        refine ⟨kept, hnext, ?_⟩
        simp only [Thread.weigh] at hle ⊢
        omega
      | started ht hcode => exact absurd rfl horigin
      | called hstep hget hcode =>
        obtain ⟨credit, hfunded, hle⟩ := hd _ (List.mem_of_getElem? hget) horigin
        rw [hcode] at hfunded
        obtain ⟨hpaid, hnext⟩ := hfunded (Y.machine.exec _ _ d.state).1
        refine ⟨_, hnext, ?_⟩
        simp only [Thread.weigh, List.map_append, List.sum_append, List.map_cons, List.map_nil,
          List.sum_cons, List.sum_nil, Nat.add_zero] at hle ⊢
        omega
      | waited ht => exact hd u ht horigin
  intro t ht horigin
  obtain ⟨credit, _, hle⟩ := hpaid t ht horigin
  omega

end Pool

end Process
