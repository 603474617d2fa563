import Asterism.Process.Pool

/-!
# Procedures that can stop early, families of procedures, and custody

An error ends everything after it unless it is observed. A family is a property of procedures
that composition and starting tasks keep, so that it is checked for single calls only. A
procedure gets hold of something through an answer, and passes it on or uses it up in a later
call; `Custody` tells from the calls a thread has made what it holds.
-/

namespace Process

/-- A procedure that can stop with an error. -/
abbrev Attempt (E : Type → Type 1) (ε α : Type) := ExceptT ε (Program E) α

namespace Attempt

variable {E : Type → Type 1} {ε δ α β : Type}

/-- Make a call that cannot fail. -/
def ask (call : E α) : Attempt E ε α := ExceptT.lift (Program.perform call)

/-- Make a call and stop on its error. -/
def attempt (call : E (Except ε α)) : Attempt E ε α := ExceptT.mk (Program.perform call)

/-- Stop with the error, or go on with the result. -/
def ofExcept (result : Except ε α) : Attempt E ε α := ExceptT.mk (Program.pure result)

/-- Go on with what a procedure came to, even if it stopped early. -/
def observe (act : Attempt E δ α) : Attempt E ε (Except δ α) := ExceptT.lift act.run

def mapError (f : δ → ε) (act : Attempt E δ α) : Attempt E ε α :=
  ExceptT.mk (act.run >>= fun result => Program.pure (result.mapError f))

def spawn (task : Program E Unit) : Attempt E ε Unit := ExceptT.lift (Program.spawn task)

def discard (act : Attempt E ε α) : Program E Unit := do
  let _ ← act.run
  .pure ()

@[simp] theorem run_pure (a : α) : (pure a : Attempt E ε α).run = .pure (.ok a) := rfl

@[simp] theorem run_throw (e : ε) : (throw e : Attempt E ε α).run = .pure (.error e) := rfl

@[simp] theorem run_ask (call : E α) :
    (ask call : Attempt E ε α).run = .call call fun a => .pure (.ok a) := rfl

@[simp] theorem run_ofExcept (result : Except ε α) :
    (ofExcept result : Attempt E ε α).run = .pure result := rfl

@[simp] theorem run_observe (act : Attempt E δ α) :
    (observe act : Attempt E ε (Except δ α)).run = act.run >>= fun result => .pure (.ok result) :=
  rfl

@[simp] theorem run_mapError (f : δ → ε) (act : Attempt E δ α) :
    (mapError f act).run = act.run >>= fun result => .pure (result.mapError f) := rfl

@[simp] theorem run_lift (p : Program E α) :
    (ExceptT.lift p : Attempt E ε α).run = p >>= fun a => .pure (.ok a) := rfl

/-- What follows a fallible step: the next step, or the error. -/
def andThen (f : α → Attempt E ε β) : Except ε α → Program E (Except ε β)
  | .ok a => (f a).run
  | .error e => .pure (.error e)

theorem run_bind (x : Attempt E ε α) (f : α → Attempt E ε β) :
    (x >>= f).run = x.run >>= andThen f := by
  refine congrArg (x.run >>= ·) (funext fun result => ?_)
  cases result <;> rfl

@[simp] theorem andThen_ok (f : α → Attempt E ε β) (a : α) :
    andThen f (.ok a) = (f a).run := rfl

@[simp] theorem andThen_error (f : α → Attempt E ε β) (e : ε) :
    andThen f (.error e) = .pure (.error e) := rfl

theorem run_lift_bind (p : Program E α) (f : α → Attempt E ε β) :
    (ExceptT.lift p >>= f).run = p >>= fun a => (f a).run := by
  rw [run_bind, run_lift, Program.bind_assoc_eq]
  rfl

section All

variable {φ : {γ : Type} → E γ → Prop}

theorem all_bind {x : Attempt E ε α} {f : α → Attempt E ε β} (hx : x.run.All φ)
    (hf : ∀ a, (f a).run.All φ) : (x >>= f).run.All φ := by
  rw [run_bind]
  refine hx.bind fun result => ?_
  cases result with
  | ok a => exact hf a
  | error e => trivial

theorem all_ask {call : E α} (h : φ call) : (ask call : Attempt E ε α).run.All φ :=
  ⟨h, fun _ => trivial⟩

theorem all_attempt {call : E (Except ε α)} (h : φ call) : (attempt call).run.All φ :=
  ⟨h, fun _ => trivial⟩

theorem all_mapError {f : δ → ε} {act : Attempt E δ α} (h : act.run.All φ) :
    (mapError f act).run.All φ :=
  h.bind fun _ => trivial

theorem all_observe {act : Attempt E δ α} (h : act.run.All φ) :
    (observe act : Attempt E ε (Except δ α)).run.All φ :=
  h.bind fun _ => trivial

theorem all_spawn {task : Program E Unit} (h : task.All φ) :
    (spawn task : Attempt E ε Unit).run.All φ :=
  ⟨h, trivial⟩

end All

section Meets

variable {I : Type} {S : Type*} {C : Contract E I S} {M : Machine E I S}

/-- A postcondition on the result of a step that does not stop. -/
def onOk (post : α → S → Prop) : Except ε α → S → Prop
  | .ok a, s => post a s
  | .error _, _ => True

theorem onOk_true (result : Except ε α) (s : S) : onOk (fun _ _ => True) result s := by
  cases result <;> trivial

theorem meets_onOk {x : Attempt E ε α} {P : S → Prop} {s : S}
    (h : x.run.Meets C M (fun _ t => P t) s) : x.run.Meets C M (onOk fun _ t => P t) s := by
  refine h.mono fun result t ht => ?_
  cases result with
  | ok a => exact ht
  | error e => trivial

/-- Two steps in sequence meet a contract when the second does after every result of the
first, and an early end has the postcondition. -/
theorem meets_bind_of {x : Attempt E ε α} {f : α → Attempt E ε β} {mid : Except ε α → S → Prop}
    {post : Except ε β → S → Prop} {s : S} (hx : x.run.Meets C M mid s)
    (hf : ∀ a t, mid (.ok a) t → (f a).run.Meets C M post t)
    (herror : ∀ e t, mid (.error e) t → post (.error e) t) :
    (x >>= f).run.Meets C M post s := by
  rw [run_bind, Program.meets_bind]
  refine hx.mono fun result t hresult => ?_
  cases result with
  | ok a => exact hf a t hresult
  | error e => exact herror e t hresult

/-- Two steps in sequence meet a contract when the second does after every result of the
first, and nothing is asked of an early end. -/
theorem meets_bind {x : Attempt E ε α} {f : α → Attempt E ε β} {post : β → S → Prop}
    {mid : α → S → Prop} {s : S} (hx : x.run.Meets C M (onOk mid) s)
    (hf : ∀ a t, mid a t → (f a).run.Meets C M (onOk post) t) :
    (x >>= f).run.Meets C M (onOk post) s :=
  meets_bind_of hx hf fun _ _ _ => trivial

theorem meets_mapError {f : δ → ε} {act : Attempt E δ α} {post : α → S → Prop} {s : S}
    (h : act.run.Meets C M (onOk post) s) : (mapError f act).run.Meets C M (onOk post) s := by
  rw [run_mapError, Program.meets_bind]
  refine h.mono fun result t hresult => ?_
  cases result with
  | ok a => exact hresult
  | error e => trivial

theorem meets_ask {call : E α} {post : α → S → Prop} {s : S}
    (h : ∀ t, C.rely s t → ∀ input, C.admits call input t →
      C.guarantee call (M.exec call input t).1 t (M.exec call input t).2 ∧
        post (M.exec call input t).1 (M.exec call input t).2) :
    (ask call : Attempt E ε α).run.Meets C M (onOk post) s := h

theorem meets_ofExcept {result : Except ε α} {post : α → S → Prop} {s : S}
    (h : ∀ a, result = .ok a → post a s) :
    (ofExcept result : Attempt E ε α).run.Meets C M (onOk post) s := by
  cases result with
  | ok a => exact h a rfl
  | error e => trivial

theorem meets_lift {p : Program E α} {post : α → S → Prop} {s : S} (h : p.Meets C M post s) :
    (ExceptT.lift p : Attempt E ε α).run.Meets C M (onOk post) s := by
  rw [run_lift, Program.meets_bind]
  exact h

theorem meets_discard {act : Attempt E ε α} {post : Except ε α → S → Prop} {s : S}
    (h : act.run.Meets C M post s) : (discard act).Meets C M (fun _ _ => True) s := by
  rw [discard, Program.meets_bind]
  exact h.mono fun _ _ _ => trivial

end Meets

section Funded

variable {earns spends : Event E → ℕ}

/-- A postcondition on the credits left after a step that does not stop. -/
def okLeft (post : α → ℕ → Prop) : Except ε α → ℕ → Prop
  | .ok a, left => post a left
  | .error _, _ => True

theorem okLeft_true (result : Except ε α) (left : ℕ) : okLeft (fun _ _ => True) result left := by
  cases result <;> trivial

/-- Two steps in sequence are funded when the second is after every result of the first. -/
theorem funded_bind {x : Attempt E ε α} {f : α → Attempt E ε β} {post : β → ℕ → Prop}
    {mid : α → ℕ → Prop} {credit : ℕ} (hx : x.run.Funded earns spends (okLeft mid) credit)
    (hf : ∀ a left, mid a left → (f a).run.Funded earns spends (okLeft post) left) :
    (x >>= f).run.Funded earns spends (okLeft post) credit := by
  rw [run_bind, Program.funded_bind]
  refine hx.mono fun result left hresult => ?_
  cases result with
  | ok a => exact hf a left hresult
  | error e => trivial

theorem funded_mapError {f : δ → ε} {act : Attempt E δ α} {post : α → ℕ → Prop} {credit : ℕ}
    (h : act.run.Funded earns spends (okLeft post) credit) :
    (mapError f act).run.Funded earns spends (okLeft post) credit := by
  rw [run_mapError, Program.funded_bind]
  refine h.mono fun result left hresult => ?_
  cases result with
  | ok a => exact hresult
  | error e => trivial

end Funded

end Attempt

/-! ## Procedures as parts of others -/

section Embed

variable {E F : Type → Type 1} {I α ε : Type} {S : Type*} (h : {β : Type} → E β → F β)

/-- The procedure with each of its calls read as a call of another kind. -/
def Program.embed {α : Type} : Program E α → Program F α
  | .pure a => .pure a
  | .call request next => .call (h request) fun answer => (next answer).embed
  | .fork child next => .fork child.embed next.embed

/-- The fallible procedure with each of its calls read as a call of another kind. -/
def Attempt.embed (x : Attempt E ε α) : Attempt F ε α := ExceptT.mk (x.run.embed h)

/-- What a machine answers to the calls that are read as its own. -/
def Machine.comap (M : Machine F I S) : Machine E I S := ⟨fun request => M.exec (h request)⟩

/-- A contract for the calls that are read as the ones it speaks about. -/
def Contract.comap (C : Contract F I S) : Contract E I S where
  admits request := C.admits (h request)
  rely := C.rely
  rely_refl := C.rely_refl
  rely_trans := C.rely_trans
  guarantee request := C.guarantee (h request)

/-- An embedded procedure meets a contract if the procedure meets it for its own calls. -/
theorem Program.Meets.embed {C : Contract F I S} {M : Machine F I S} {p : Program E α}
    {post : α → S → Prop} {s : S} (hp : p.Meets (C.comap h) (M.comap h) post s) :
    (p.embed h).Meets C M post s := by
  induction p generalizing s with
  | pure a => exact hp
  | call request next ih =>
    intro t hst input hadmits
    obtain ⟨hguarantee, hnext⟩ := hp t hst input hadmits
    exact ⟨hguarantee, ih _ hnext⟩
  | fork child next ihchild ih => exact ⟨ihchild hp.1, ih hp.2⟩

end Embed

/-! ## Procedures that are stopped -/

namespace Program

variable {E : Type → Type 1} {I α : Type} {S : Type*}

/-- Run a procedure alone for a number of calls. There is no result if it was stopped. -/
def runFor (M : Machine E I S) : Program E α → ℕ → (ℕ → I) → S → Option α × S
  | .pure a, _, _, s => (some a, s)
  | .call _ _, 0, _, s => (none, s)
  | .call request next, n + 1, inputs, s =>
    let result := M.exec request (inputs 0) s
    (next result.1).runFor M n (fun k => inputs (k + 1)) result.2
  | .fork _ next, n, inputs, s => next.runFor M n inputs s

/-- Every call that is made before the procedure is stopped meets a condition on itself, its
input and the state it finds. -/
def AdmitsFor (M : Machine E I S) (admits : {β : Type} → E β → I → S → Prop) :
    Program E α → ℕ → (ℕ → I) → S → Prop
  | .pure _, _, _, _ => True
  | .call _ _, 0, _, _ => True
  | .call request next, n + 1, inputs, s =>
    admits request (inputs 0) s ∧
      (next (M.exec request (inputs 0) s).1).AdmitsFor M admits n (fun k => inputs (k + 1))
        (M.exec request (inputs 0) s).2
  | .fork _ next, n, inputs, s => next.AdmitsFor M admits n inputs s

/-- A condition that every call meets with these inputs is met until the procedure is
stopped. -/
theorem admitsFor_of_forall {M : Machine E I S} {admits : {β : Type} → E β → I → S → Prop}
    {inputs : ℕ → I} (h : ∀ {β : Type} (request : E β) (n : ℕ) (s : S), admits request (inputs n) s)
    (p : Program E α) (n : ℕ) (s : S) : p.AdmitsFor M admits n inputs s := by
  induction p generalizing n inputs s with
  | pure a => trivial
  | call request next ih =>
    cases n with
    | zero => trivial
    | succ n => exact ⟨h request 0 s, ih _ (fun request k => h request (k + 1)) n _⟩
  | fork child next _ ih => exact ih h n s

end Program

/-- The contract of a procedure that runs alone and whose calls each relate the state before
to the state after. -/
def Contract.stepwise {E : Type → Type 1} {I : Type} {S : Type*}
    (admits : {β : Type} → E β → I → S → Prop) (R : S → S → Prop) : Contract E I S where
  admits := admits
  rely s t := s = t
  rely_refl _ := rfl
  rely_trans := Eq.trans
  guarantee _ _ s t := R s t

namespace Program

variable {E : Type → Type 1} {I α : Type} {S : Type*} {M : Machine E I S}

/-- A procedure that meets a stepwise contract relates its first state to the one in which it
is stopped, and ends in its postcondition if it is not. -/
theorem Meets.runFor {admits : {β : Type} → E β → I → S → Prop} {R : S → S → Prop}
    (hrefl : ∀ s, R s s) (htrans : ∀ {s t u}, R s t → R t u → R s u)
    {p : Program E α} {post : α → S → Prop} {s : S}
    (hp : p.Meets (Contract.stepwise admits R) M post s) {n : ℕ} {inputs : ℕ → I}
    (hadmits : p.AdmitsFor M admits n inputs s) :
    R s (p.runFor M n inputs s).2 ∧
      ∀ a, (p.runFor M n inputs s).1 = some a → post a (p.runFor M n inputs s).2 := by
  induction p generalizing n inputs s with
  | pure a =>
    refine ⟨hrefl s, fun b hb => ?_⟩
    obtain rfl := Option.some.inj hb
    exact hp
  | call request next ih =>
    cases n with
    | zero => exact ⟨hrefl s, fun a ha => by cases ha⟩
    | succ n =>
      obtain ⟨hstep, hnext⟩ := hp s rfl (inputs 0) hadmits.1
      obtain ⟨hrest, hpost⟩ := ih _ hnext hadmits.2
      exact ⟨htrans hstep hrest, hpost⟩
  | fork child next _ ih => exact ih hp.2 hadmits

theorem All.runFor {φ : {γ : Type} → E γ → Prop} {Q : S → Prop}
    (hkeeps : ∀ {γ : Type} (request : E γ) (input : I) (s : S), φ request → Q s →
      Q (M.exec request input s).2)
    {p : Program E α} (hp : p.All φ) (n : ℕ) (inputs : ℕ → I) {s : S} (hs : Q s) :
    Q (p.runFor M n inputs s).2 := by
  induction p generalizing n inputs s with
  | pure a => exact hs
  | call request next ih =>
    cases n with
    | zero => exact hs
    | succ n => exact ih _ (hp.2 _) n _ (hkeeps request (inputs 0) s hp.1 hs)
  | fork child next _ ih => exact ih hp.2 n inputs hs

section Paths

variable {β : Type} {input : I}

def after (M : Machine E I S) (input : I) (calls : List ((γ : Type) × E γ)) (s : S) : S :=
  calls.foldl (fun s call => (M.exec call.2 input s).2) s

/-- A procedure that runs alone makes these calls, and then has this result. -/
inductive Makes (M : Machine E I S) (input : I) :
    Program E α → List ((γ : Type) × E γ) → S → α → Prop
  | pure (a : α) (s : S) : Makes M input (.pure a) [] s a
  | call {γ : Type} {request : E γ} {next : γ → Program E α} {calls : List ((γ : Type) × E γ)}
      {s : S} {a : α}
      (h : Makes M input (next (M.exec request input s).1) calls (M.exec request input s).2 a) :
      Makes M input (.call request next) (⟨γ, request⟩ :: calls) s a

theorem Makes.bind {p : Program E α} {f : α → Program E β} {calls later : List ((γ : Type) × E γ)}
    {s : S} {a : α} {b : β} (hp : p.Makes M input calls s a)
    (hf : (f a).Makes M input later (after M input calls s) b) :
    (p >>= f).Makes M input (calls ++ later) s b := by
  induction hp with
  | pure a s => exact hf
  | call h ih => exact .call (ih hf)

/-- A procedure that is stopped has made the first of its calls. -/
theorem Makes.runFor {p : Program E α} {calls : List ((γ : Type) × E γ)} {s : S} {a : α}
    (hp : p.Makes M input calls s a) (n : ℕ) :
    p.runFor M n (fun _ => input) s =
      (if calls.length ≤ n then some a else none, after M input (calls.take n) s) := by
  induction hp generalizing n with
  | pure a s =>
    rw [List.take_nil, List.length_nil, if_pos (Nat.zero_le n)]
    rfl
  | call h ih =>
    cases n with
    | zero => rfl
    | succ n =>
      refine (ih n).trans (Prod.ext ?_ rfl)
      simp only [List.length_cons, Nat.add_le_add_iff_right]

end Paths

end Program

/-! # Families of procedures -/

/-- A property of procedures that composition keeps. -/
structure Family (E : Type → Type 1) where
  /-- The procedures of the family. -/
  Holds : {α : Type} → Program E α → Prop
  /-- Returning belongs to it. -/
  pure : ∀ {α : Type} (a : α), Holds (Program.pure a)
  /-- Compositions of its procedures belong to it. -/
  bind : ∀ {α β : Type} {p : Program E α} {f : α → Program E β}, Holds p →
    (∀ a, Holds (f a)) → Holds (p >>= f)
  /-- Starting one of its procedures as a task belongs to it. -/
  spawn : ∀ {task : Program E Unit}, Holds task → Holds (Program.spawn task)

namespace Family

variable {E : Type → Type 1} {ε δ α β : Type} (K : Family E)

theorem attempt_bind {x : Attempt E ε α} {f : α → Attempt E ε β} (hx : K.Holds x.run)
    (hf : ∀ a, K.Holds (f a).run) : K.Holds (x >>= f).run := by
  rw [Attempt.run_bind]
  refine K.bind hx fun result => ?_
  cases result with
  | ok a => exact hf a
  | error e => exact K.pure _

theorem attempt_ite {c : Prop} [Decidable c] {x y : Attempt E ε α} (hx : K.Holds x.run)
    (hy : K.Holds y.run) : K.Holds (if c then x else y).run := by
  split
  · exact hx
  · exact hy

theorem ofExcept_bind {result : Except δ α} {f : δ → ε} {g : α → Attempt E ε β}
    (h : ∀ a, result = .ok a → K.Holds (g a).run) :
    K.Holds ((Attempt.ofExcept result).mapError f >>= g).run := by
  cases result with
  | ok a => exact h a rfl
  | error e => exact K.pure _

theorem mapError {f : δ → ε} {act : Attempt E δ α} (h : K.Holds act.run) :
    K.Holds (act.mapError f).run :=
  K.bind h fun _ => K.pure _

theorem observe {act : Attempt E δ α} (h : K.Holds act.run) :
    K.Holds (Attempt.observe act : Attempt E ε (Except δ α)).run :=
  K.bind h fun _ => K.pure _

theorem lift {p : Program E α} (h : K.Holds p) :
    K.Holds (ExceptT.lift p : Attempt E ε α).run :=
  K.bind h fun _ => K.pure _

theorem discard {act : Attempt E ε α} (h : K.Holds act.run) : K.Holds act.discard :=
  K.bind h fun _ => K.pure _

theorem ask {call : E α} (h : K.Holds (Program.perform call)) :
    K.Holds (Attempt.ask call : Attempt E ε α).run :=
  K.lift h

/-- The procedures that meet a contract from every state with a property, and keep it. -/
def keeping {I : Type} {S : Type*} (C : Contract E I S) (M : Machine E I S) (P : S → Prop) :
    Family E where
  Holds p := ∀ s, P s → p.Meets C M (fun _ t => P t) s
  pure _ _ hs := hs
  bind hp hf s hs := (Program.meets_bind _ _ _ s).mpr ((hp s hs).mono fun a t ht => hf a t ht)
  spawn h s hs := ⟨(h s hs).mono fun _ _ _ => trivial, hs⟩

/-- The procedures that stay within their budget without credits of their own. -/
def funded (earns spends : Event E → ℕ) : Family E where
  Holds p := p.Funded earns spends (fun _ _ => True) 0
  pure _ := trivial
  bind hp hf := (Program.funded_bind _ _ _ 0).mpr
    (hp.mono fun a left _ => (hf a).more (Nat.zero_le left))
  spawn h := ⟨0, 0, Nat.le_refl _, h, trivial⟩

section Keeping

variable {I : Type} {S : Type*} {C : Contract E I S} {M : Machine E I S} {P : S → Prop}
  {x : Attempt E ε α}

/-- A fallible procedure of the family keeps the property for the next step. -/
theorem onOk_of_keeping (h : (keeping C M P).Holds x.run) {s : S} (hs : P s) :
    x.run.Meets C M (Attempt.onOk fun _ t => P t) s :=
  Attempt.meets_onOk (h s hs)

end Keeping

section Funded

variable {earns spends : Event E → ℕ} {x : Attempt E ε α}

/-- A fallible procedure within its budget belongs to the family. -/
theorem funded_of_okLeft
    (h : x.run.Funded earns spends (Attempt.okLeft fun _ _ => True) 0) :
    (funded earns spends).Holds x.run :=
  h.mono fun _ _ _ => trivial

theorem okLeft_of_funded (h : (funded earns spends).Holds x.run) (credit : ℕ) :
    x.run.Funded earns spends (Attempt.okLeft fun _ _ => True) credit :=
  (Program.Funded.more h (Nat.zero_le credit)).mono fun result left _ =>
    Attempt.okLeft_true result left

end Funded

end Family

/-! ## What follows a call -/

namespace Pool

variable {E : Type → Type 1} {I P S : Type} (Y : System E I P S)

/-- A condition on each action holds along a script. -/
def Along (condition : Pool E P S → Action I P → Prop) (c : Pool E P S) :
    List (Action I P) → Prop
  | [] => True
  | a :: script => condition c a ∧ (c.act Y a).Along condition script

instance decidableAlong (condition : Pool E P S → Action I P → Prop)
    [∀ c a, Decidable (condition c a)] (c : Pool E P S) :
    (script : List (Action I P)) → Decidable (c.Along Y condition script)
  | [] => .isTrue trivial
  | a :: script =>
    have := decidableAlong condition (c.act Y a) script
    inferInstanceAs (Decidable (condition c a ∧ (c.act Y a).Along Y condition script))

/-- A property that every action under a condition preserves holds at the end of every script
along which the condition holds. -/
theorem Along.induction {condition : Pool E P S → Action I P → Prop} {c : Pool E P S}
    (motive : Pool E P S → Prop) (hstart : motive c)
    (hact : ∀ d a, motive d → condition d a → motive (d.act Y a)) {script : List (Action I P)}
    (hscript : c.Along Y condition script) : motive (c.play Y script) := by
  induction script generalizing c with
  | nil => exact hstart
  | cons a script ih => exact ih (hact c a hstart hscript.1) hscript.2

theorem getElem?_set_cases {T : Type*} {l : List T} {i j : ℕ} {t u new : T} (hi : l[i]? = some t)
    (hj : (l.set i new)[j]? = some u) : i = j ∧ u = new ∨ i ≠ j ∧ l[j]? = some u := by
  by_cases hij : i = j
  · subst hij
    rw [List.getElem?_set_self (List.getElem?_eq_some_iff.mp hi).1] at hj
    exact .inl ⟨rfl, (Option.some.inj hj).symm⟩
  · rw [List.getElem?_set_ne hij] at hj
    exact .inr ⟨hij, hj⟩

theorem act_step_call {c : Pool E P S} {i : ℕ} {t : Thread E P} {β : Type} {request : E β}
    {next : β → Program E Unit} (hget : c.threads[i]? = some t)
    (hcode : t.code = .call request next) (input : I) :
    c.act Y (.step i input) =
      { state := (Y.machine.exec request input c.state).2
        threads := c.threads.set i
          { t with
            done := t.done ++ [⟨β, request, (Y.machine.exec request input c.state).1⟩]
            code := next (Y.machine.exec request input c.state).1 } } := by
  obtain ⟨origin, done, code⟩ := t
  subst hcode
  simp only [act, step, hget]

/-- While no thread is scheduled, each place keeps its thread, loses it or is new. -/
theorem act_getElem? {c : Pool E P S} {a : Action I P} (ha : ∀ i input, a ≠ .step i input) {j : ℕ}
    {u : Thread E P} (hj : (c.act Y a).threads[j]? = some u) :
    c.threads[j]? = some u ∨ (∃ p, u = ⟨some p, [], Y.start p⟩) ∨
      ∃ t, c.threads[j]? = some t ∧ u = { t with code := .pure () } := by
  cases a with
  | step i input => exact absurd rfl (ha i input)
  | arrive p =>
    by_cases hlt : j < c.threads.length
    · refine .inl ?_
      change (c.threads ++ _)[j]? = some u at hj
      rwa [List.getElem?_append_left hlt] at hj
    · change (c.threads ++ _)[j]? = some u at hj
      rw [List.getElem?_append_right (Nat.not_lt.mp hlt)] at hj
      exact .inr (.inl ⟨p, List.mem_singleton.mp (List.mem_of_getElem? hj)⟩)
  | kill i =>
    rcases act_kill Y c i with h | ⟨t, hi, h⟩
    · rw [h] at hj
      exact .inl hj
    · rw [h] at hj
      rcases getElem?_set_cases hi hj with ⟨rfl, hu⟩ | ⟨-, hold⟩
      · exact .inr (.inr ⟨t, hi, hu⟩)
      · exact .inl hold
  | crash =>
    change (c.threads.map _)[j]? = some u at hj
    rw [List.getElem?_map, Option.map_eq_some_iff] at hj
    obtain ⟨t, ht, hu⟩ := hj
    exact .inr (.inr ⟨t, ht, hu.symm⟩)

end Pool

/-! ## What a procedure has read -/

/-- Which calls look and which calls act, the part of the state that is looked at, and what is
to be kept. -/
structure Watch (E : Type → Type 1) (S V : Type) where
  looks : {β : Type} → E β → Bool
  /-- The calls that may change what is looked at. -/
  acts : {β : Type} → E β → Bool
  view : S → V
  /-- What every call keeps. -/
  invariant : S → Prop

namespace Watch

variable {E : Type → Type 1} {S V : Type}

/-- What a procedure knows of the view after a call. -/
def learned (W : Watch E S V) {β : Type} (request : E β) (known : Option V) (s : S) : Option V :=
  if W.looks request then some (W.view s) else known.map fun _ => W.view s

/-- A call that does not act keeps the invariant and leaves the view alone. -/
abbrev Quiet {I : Type} (W : Watch E S V) (M : Machine E I S) : Prop :=
  ∀ {β : Type} (request : E β), W.acts request = false → ∀ input s, W.invariant s →
    W.invariant (M.exec request input s).2 ∧ W.view (M.exec request input s).2 = W.view s

end Watch

namespace Program

variable {E : Type → Type 1} {I S V α : Type}

/-- Given what it knows of the view, each call of the procedure keeps the invariant, and a call
that does not act leaves the view alone. -/
def Watches (W : Watch E S V) (M : Machine E I S) {α : Type} : Program E α → Option V → Prop
  | .pure _, _ => True
  | .call request next, known =>
    ∀ s, W.invariant s → (∀ v ∈ known, W.view s = v) → ∀ input,
      W.invariant (M.exec request input s).2 ∧
        (W.acts request = false → W.view (M.exec request input s).2 = W.view s) ∧
        (next (M.exec request input s).1).Watches W M
          (W.learned request known (M.exec request input s).2)
  | .fork child next, known => child.Watches W M none ∧ next.Watches W M known

theorem Watches.of_all {W : Watch E S V} {M : Machine E I S} (hquiet : W.Quiet M)
    {p : Program E α} (hp : p.All fun request => W.acts request = false) (known : Option V) :
    p.Watches W M known := by
  induction p generalizing known with
  | pure a => trivial
  | call request next ih =>
    intro s hs _ input
    obtain ⟨hinvariant, hview⟩ := hquiet request hp.1 input s hs
    exact ⟨hinvariant, fun _ => hview, ih _ (hp.2 _) _⟩
  | fork child next ihchild ih => exact ⟨ihchild hp.1 none, ih hp.2 known⟩

/-- What follows a procedure has to be fine whatever the procedure has learned. -/
theorem Watches.bind {β : Type} {W : Watch E S V} {M : Machine E I S} {p : Program E α}
    {f : α → Program E β} {known : Option V} (hp : p.Watches W M known)
    (hf : ∀ a known, (f a).Watches W M known) : (p >>= f).Watches W M known := by
  induction p generalizing known with
  | pure a => exact hf a known
  | call request next ih =>
    intro s hs hknown input
    obtain ⟨hinvariant, hview, hnext⟩ := hp s hs hknown input
    exact ⟨hinvariant, hview, ih _ hnext hf⟩
  | fork child next _ ih => exact ⟨hp.1, ih hp.2 hf⟩

end Program

variable {E : Type → Type 1} {I P S V : Type}

def Thread.Looked (W : Watch E S V) (t : Thread E P) : Prop :=
  ∃ e ∈ t.done, W.looks e.request = true

/-- The thread has not looked yet, or will not act any more. -/
def Thread.Clear (W : Watch E S V) (t : Thread E P) : Prop :=
  ¬t.Looked W ∨ t.code.All fun request => W.acts request = false

/-- What the thread still has to do is fine, given what it knows. -/
def Thread.Watched (W : Watch E S V) (M : Machine E I S) (s : S) (t : Thread E P) : Prop :=
  ∃ known, t.code.Watches W M known ∧ (∀ v ∈ known, W.view s = v) ∧
    (known ≠ none → t.Looked W)

theorem Thread.Watched.of_none {W : Watch E S V} {M : Machine E I S} {t : Thread E P}
    (h : t.code.Watches W M none) (s : S) : t.Watched W M s := by
  refine ⟨none, h, fun v hv => ?_, fun hne => absurd rfl hne⟩
  cases hv

namespace Pool

variable (Y : System E I P S) (W : Watch E S V)

/-- Nobody acts while another thread has looked and may still act. -/
def Undisturbed (c : Pool E P S) : Action I P → Prop
  | .step i _ => ∀ call ∈ c.nextCall i, W.acts call.2 = true →
      ∀ j t, j ≠ i → c.threads[j]? = some t → t.Clear W
  | _ => True

theorem undisturbed_of_length_le_one {c : Pool E P S} (h : c.threads.length ≤ 1)
    (a : Action I P) : c.Undisturbed W a := by
  cases a with
  | arrive p => trivial
  | kill i => trivial
  | crash => trivial
  | step i input =>
    intro call hcall _ j t hne hj
    have hi : i < c.threads.length := by
      by_contra hlarge
      rw [nextCall, List.getElem?_eq_none (Nat.le_of_not_lt hlarge)] at hcall
      cases hcall
    have hj := (List.getElem?_eq_some_iff.mp hj).1
    omega

/-- The invariant holds, and every thread knows what it relies on. -/
structure Watched (c : Pool E P S) : Prop where
  invariant : W.invariant c.state
  threads : ∀ t ∈ c.threads, t.Watched W Y.machine c.state

variable {Y W} {c : Pool E P S}

/-- A thread goes on to know what it knew while nobody acts, and does not need to when somebody
does. -/
theorem Watched.waits (hc : c.Watched Y W) (hquiet : W.Quiet Y.machine)
    {i j : ℕ} {input : I} {t u : Thread E P} {β : Type} {request : E β}
    {next : β → Program E Unit} (hget : c.threads[i]? = some t)
    (hcode : t.code = .call request next)
    (ha : c.Undisturbed W (.step i input)) (hne : j ≠ i) (hu : c.threads[j]? = some u) :
    u.Watched W Y.machine (Y.machine.exec request input c.state).2 := by
  obtain ⟨known, hcodeu, hknown, hlooked⟩ := hc.threads u (List.mem_of_getElem? hu)
  cases hacts : W.acts request with
  | false =>
    refine ⟨known, hcodeu, fun v hv => ?_, hlooked⟩
    rw [(hquiet request hacts input c.state hc.invariant).2]
    exact hknown v hv
  | true =>
    rcases ha ⟨β, request⟩ (nextCall_eq hget hcode) hacts j u hne hu with hnot | hall
    · cases known with
      | none => exact .of_none hcodeu _
      | some v => exact absurd (hlooked (Option.some_ne_none v)) hnot
    · exact .of_none (.of_all hquiet hall none) _

theorem Watched.act (hc : c.Watched Y W) (hquiet : W.Quiet Y.machine)
    (hstart : ∀ p, (Y.start p).Watches W Y.machine none) {a : Action I P}
    (ha : c.Undisturbed W a) : (c.act Y a).Watched Y W := by
  have hlost (t : Thread E P) :
      ({ t with code := .pure () } : Thread E P).Watched W Y.machine c.state := by
    refine .of_none ?_ _
    trivial
  cases a with
  | arrive p =>
    refine ⟨hc.invariant, fun u hu => ?_⟩
    rcases List.mem_append.mp hu with hold | hnew
    · exact hc.threads u hold
    · rw [List.mem_singleton.mp hnew]
      exact .of_none (hstart p) _
  | kill i =>
    rcases act_kill Y c i with h | ⟨t, -, h⟩
    · rw [h]
      exact hc
    · rw [h]
      refine ⟨hc.invariant, fun u hu => ?_⟩
      rcases List.mem_or_eq_of_mem_set hu with hold | rfl
      · exact hc.threads u hold
      · exact hlost t
  | crash =>
    refine ⟨hc.invariant, fun u hu => ?_⟩
    obtain ⟨t, -, rfl⟩ := List.mem_map.mp hu
    exact hlost t
  | step i input =>
    rcases step_cases Y c i input with h | ⟨t, β, request, next, hget, hcode, h⟩ |
      ⟨t, child, next, hget, hcode, h⟩
    · rw [Pool.act, h]
      exact hc
    · obtain ⟨known, hwatches, hknown, hlooked⟩ := hc.threads t (List.mem_of_getElem? hget)
      rw [hcode] at hwatches
      obtain ⟨hinvariant, hview, hnext⟩ := hwatches c.state hc.invariant hknown input
      rw [Pool.act, h]
      refine ⟨hinvariant, fun u hu => ?_⟩
      obtain ⟨j, hj⟩ := List.mem_iff_getElem?.mp hu
      rcases getElem?_set_cases hget hj with ⟨-, rfl⟩ | ⟨hne, hold⟩
      · refine ⟨_, hnext, fun v hv => ?_, fun hne => ?_⟩
        · rw [Watch.learned] at hv
          split at hv
          · exact Option.some.inj hv
          · obtain ⟨_, _, heq⟩ := Option.map_eq_some_iff.mp hv
            exact heq
        · rw [Watch.learned] at hne
          split at hne
          next hlooks => exact ⟨_, List.mem_append_right _ List.mem_cons_self, hlooks⟩
          next =>
            have hsome : known ≠ none := fun hnone => hne (by rw [hnone]; rfl)
            obtain ⟨e, he, hlooks⟩ := hlooked hsome
            exact ⟨e, List.mem_append_left _ he, hlooks⟩
      · exact hc.waits hquiet hget hcode ha (Ne.symm hne) hold
    · obtain ⟨known, hwatches, hknown, hlooked⟩ := hc.threads t (List.mem_of_getElem? hget)
      rw [hcode] at hwatches
      rw [Pool.act, h]
      refine ⟨hc.invariant, fun u hu => ?_⟩
      rcases List.mem_append.mp hu with hold | hnew
      · rcases List.mem_or_eq_of_mem_set hold with hkept | rfl
        · exact hc.threads u hkept
        · exact ⟨known, hwatches.2, hknown, hlooked⟩
      · rw [List.mem_singleton.mp hnew]
        exact .of_none hwatches.1 _

/-- What is watched is kept along every script in which nobody is disturbed. -/
theorem Watched.play (hc : c.Watched Y W) (hquiet : W.Quiet Y.machine)
    (hstart : ∀ p, (Y.start p).Watches W Y.machine none) {script : List (Action I P)}
    (hscript : c.Along Y (Undisturbed W) script) : (c.play Y script).Watched Y W :=
  Along.induction Y (Watched Y W) hc (fun _ _ hd ha => hd.act hquiet hstart ha) hscript

end Pool

/-! # What a procedure holds -/

/-- What is held after a call, and what a call needs. -/
structure Custody (E : Type → Type 1) (K : Type) where
  /-- What is held after an event, given what was held before it. -/
  after : Option K → Event E → Option K
  /-- What has to be held to make a call. -/
  needs : {β : Type} → E β → Option K → Prop

namespace Program

variable {E : Type → Type 1} {K α β : Type}

/-- Each call of the procedure is made while it holds what the call needs, and the result
agrees with what is held at the end. Tasks end with empty hands. -/
def Warranted (C : Custody E K) {α : Type} :
    Program E α → (α → Option K → Prop) → Option K → Prop
  | .pure a, post, held => post a held
  | .call request next, post, held =>
    C.needs request held ∧
      ∀ answer, (next answer).Warranted C post (C.after held ⟨_, request, answer⟩)
  | .fork child next, post, held =>
    child.Warranted C (fun _ held => held = none) none ∧ next.Warranted C post held

variable {C : Custody E K}

/-- What follows a procedure goes on with what the procedure holds. -/
theorem warranted_bind (p : Program E α) (f : α → Program E β) (post : β → Option K → Prop)
    (held : Option K) :
    (p >>= f).Warranted C post held ↔
      p.Warranted C (fun a held => (f a).Warranted C post held) held := by
  induction p generalizing held with
  | pure a => exact Iff.rfl
  | call request next ih => exact and_congr Iff.rfl (forall_congr' fun answer => ih answer f _)
  | fork child next _ ih => exact and_congr Iff.rfl (ih f held)

theorem Warranted.mono {p : Program E α} {post post' : α → Option K → Prop} {held : Option K}
    (hp : p.Warranted C post held) (h : ∀ a held, post a held → post' a held) :
    p.Warranted C post' held := by
  induction p generalizing held with
  | pure a => exact h a held hp
  | call request next ih => exact ⟨hp.1, fun answer => ih answer (hp.2 answer) h⟩
  | fork child next _ ih => exact ⟨hp.1, ih hp.2 h⟩

end Program

variable {E : Type → Type 1} {I P S K : Type}

/-- The procedures that begin and end with empty hands. -/
def Family.emptyHanded (C : Custody E K) : Family E where
  Holds p := p.Warranted C (fun _ held => held = none) none
  pure _ := rfl
  bind hp hf := (Program.warranted_bind _ _ _ none).mpr (hp.mono fun a _ hnone => hnone ▸ hf a)
  spawn h := ⟨h, rfl⟩

theorem needs_nothing {held : Option K} : ∀ k ∈ (none : Option K), held = some k := by
  intro k hk
  cases hk

/-- What a thread holds. One that has ended or was lost holds nothing. -/
def Thread.holds (C : Custody E K) (t : Thread E P) : Option K :=
  match t.code with
  | .pure _ => none
  | _ => t.done.foldl C.after none

theorem Thread.holds_nil (C : Custody E K) (origin : Option P) (p : Program E Unit) :
    (⟨origin, [], p⟩ : Thread E P).holds C = none := by
  cases p <;> rfl

theorem Thread.holds_cases (C : Custody E K) (t : Thread E P) :
    (∃ a, t.code = .pure a) ∧ t.holds C = none ∨ t.holds C = t.done.foldl C.after none := by
  unfold Thread.holds
  cases t.code with
  | pure a => exact .inl ⟨⟨a, rfl⟩, rfl⟩
  | call request next => exact .inr rfl
  | fork child next => exact .inr rfl

/-- A thread whose next step takes it from `held` to this code holds nothing else, and goes on as
it should. -/
theorem Thread.holds_next (C : Custody E K) {t : Thread E P} {held : Option K}
    (hheld : t.done.foldl C.after none = held)
    (hcode : t.code.Warranted C (fun _ _ => True) held) :
    (∀ k ∈ t.holds C, k ∈ held) ∧ t.code.Warranted C (fun _ _ => True) (t.holds C) := by
  rcases t.holds_cases C with ⟨⟨a, ha⟩, hnone⟩ | hsame
  · rw [hnone, ha]
    exact ⟨nofun, trivial⟩
  · rw [hsame, hheld]
    exact ⟨fun _ hk => hk, hcode⟩

namespace Pool

theorem along_of_forall (Y : System E I P S) {condition : Pool E P S → Action I P → Prop}
    (h : ∀ c a, condition c a) (c : Pool E P S) (script : List (Action I P)) :
    c.Along Y condition script := by
  induction script generalizing c with
  | nil => trivial
  | cons a script ih => exact ⟨h c a, ih _⟩

/-- What is kept of a pool in which threads hold things. -/
structure Keeping (Y : System E I P S) (C : Custody E K) where
  /-- What is held fits the state. -/
  fits : K → S → Prop
  /-- Several threads may hold the thing. -/
  shared : K → Prop
  /-- What every call keeps. -/
  invariant : S → Prop
  /-- A condition on a call, its input and the state it finds. -/
  admits : {β : Type} → E β → I → S → Prop
  /-- A condition on a call and a thing that another thread holds. -/
  spares : {β : Type} → E β → I → S → K → Prop
  /-- A condition on the procedures that arrive. -/
  arrives : P → Prop := fun _ => True

variable {Y : System E I P S} {C : Custody E K} (G : Keeping Y C)

/-- A call is admitted and spares what other threads hold, and only certain procedures arrive. -/
def Orderly (c : Pool E P S) : Action I P → Prop
  | .step i input => ∀ call ∈ c.nextCall i, G.admits call.2 input c.state ∧
      ∀ j ∈ List.range c.threads.length, j ≠ i → ∀ t ∈ c.threads[j]?, ∀ k ∈ t.holds C,
        G.spares call.2 input c.state k
  | .arrive p => G.arrives p
  | _ => True

/-- A call that is made with what it needs, in a state that all of this fits. -/
structure Due {β : Type} (request : E β) (input : I) (s : S) (held : Option K) : Prop where
  invariant : G.invariant s
  admits : G.admits request input s
  fits : ∀ k ∈ held, G.fits k s
  needs : C.needs request held

/-- One call does what is asked of it. -/
structure Upholds : Prop where
  /-- The procedures that may arrive hold what they need, and nothing at the end. -/
  start : ∀ p, G.arrives p → (Family.emptyHanded C).Holds (Y.start p)
  /-- The invariant is kept. -/
  invariant : ∀ {β : Type} {request : E β} {input : I} {s : S} {held : Option K},
    Due G request input s held → G.invariant (Y.machine.exec request input s).2
  /-- What the thread holds then fits, and nobody else can have held it if it is new. -/
  holds : ∀ {β : Type} {request : E β} {input : I} {s : S} {held : Option K},
    Due G request input s held →
      ∀ k ∈ C.after held ⟨β, request, (Y.machine.exec request input s).1⟩,
        G.fits k (Y.machine.exec request input s).2 ∧
          (held = some k ∨ G.shared k ∨ ¬ G.fits k s)
  /-- What others hold goes on to fit. -/
  spares : ∀ {β : Type} {request : E β} {input : I} {s : S} {held : Option K},
    Due G request input s held → ∀ k, G.fits k s → (held = some k → G.shared k) →
      G.spares request input s k → G.fits k (Y.machine.exec request input s).2

/-- What is kept: the invariant, and that threads hold what they need and it fits. -/
structure Kept (c : Pool E P S) : Prop where
  invariant : G.invariant c.state
  code : ∀ t ∈ c.threads, t.code.Warranted C (fun _ _ => True) (t.holds C)
  fits : ∀ t ∈ c.threads, ∀ k ∈ t.holds C, G.fits k c.state
  once : ∀ (i j : ℕ) (t u : Thread E P) (k : K), i ≠ j → c.threads[i]? = some t →
    c.threads[j]? = some u → k ∈ t.holds C → k ∈ u.holds C → G.shared k

variable {G}

theorem kept_nil {s : S} (hs : G.invariant s) : (⟨s, []⟩ : Pool E P S).Kept G := by
  refine ⟨hs, (fun t ht => by cases ht), (fun t ht => by cases ht), fun i j t u k hij hi => ?_⟩
  cases hi

theorem Kept.due {c : Pool E P S} (hc : c.Kept G) {i : ℕ} {input : I} {t : Thread E P} {β : Type}
    {request : E β} {next : β → Program E Unit} (hget : c.threads[i]? = some t)
    (hcode : t.code = .call request next) (hadmits : G.admits request input c.state) :
    Due G request input c.state (t.holds C) := by
  have hwarranted := hc.code t (List.mem_of_getElem? hget)
  rw [hcode] at hwarranted
  exact ⟨hc.invariant, hadmits, hc.fits t (List.mem_of_getElem? hget), hwarranted.1⟩

theorem Kept.append {c : Pool E P S} (hc : c.Kept G) {origin : Option P} {p : Program E Unit}
    (hp : (Family.emptyHanded C).Holds p) :
    Kept G { c with threads := c.threads ++ [⟨origin, [], p⟩] } := by
  refine ⟨hc.invariant, fun t ht => ?_, fun t ht k hk => ?_, fun i j t v k hij hi hj hk hk' => ?_⟩
  · rcases List.mem_append.mp ht with ht | ht
    · exact hc.code t ht
    · rw [List.mem_singleton.mp ht, Thread.holds_nil]
      exact hp.mono fun _ _ _ => trivial
  · rcases List.mem_append.mp ht with ht | ht
    · exact hc.fits t ht k hk
    · rw [List.mem_singleton.mp ht, Thread.holds_nil] at hk
      cases hk
  · have hold {i : ℕ} {t : Thread E P} (hi : (c.threads ++ [⟨origin, [], p⟩])[i]? = some t)
        (hk : k ∈ t.holds C) : c.threads[i]? = some t := by
      rcases Nat.lt_or_ge i c.threads.length with hlt | hge
      · rwa [List.getElem?_append_left hlt] at hi
      · rw [List.getElem?_append_right hge] at hi
        rw [List.mem_singleton.mp (List.mem_of_getElem? hi), Thread.holds_nil] at hk
        cases hk
    exact hc.once i j t v k hij (hold hi hk) (hold hj hk') hk hk'

theorem Kept.call (hG : Upholds G) {c : Pool E P S} (hc : c.Kept G) {i : ℕ} {input : I}
    {t : Thread E P} {β : Type} {request : E β} {next : β → Program E Unit}
    (hget : c.threads[i]? = some t) (hcode : t.code = .call request next)
    (hadmits : G.admits request input c.state)
    (hspares : ∀ j u, j ≠ i → c.threads[j]? = some u → ∀ k ∈ u.holds C,
      G.spares request input c.state k) :
    Kept G
      { state := (Y.machine.exec request input c.state).2
        threads := c.threads.set i
          { t with
            done := t.done ++ [⟨β, request, (Y.machine.exec request input c.state).1⟩]
            code := next (Y.machine.exec request input c.state).1 } } := by
  have hdue := hc.due hget hcode hadmits
  have hnext := hc.code t (List.mem_of_getElem? hget)
  rw [hcode] at hnext
  have hheld : t.holds C = t.done.foldl C.after none := by
    rw [Thread.holds, hcode]
  obtain ⟨hnew, hgoes⟩ := Thread.holds_next C (t := { t with
      done := t.done ++ [⟨β, request, (Y.machine.exec request input c.state).1⟩]
      code := next (Y.machine.exec request input c.state).1 })
    (List.foldl_append.trans (congrArg (C.after · _) hheld.symm)) (hnext.2 _)
  refine ⟨hG.invariant hdue, fun u hu => ?_, fun u hu k hk => ?_,
    fun j l u v k hjl hj hl hk hk' => ?_⟩
  · rcases List.mem_or_eq_of_mem_set hu with hu | rfl
    · exact hc.code u hu
    · exact hgoes
  · obtain ⟨j, hj⟩ := List.mem_iff_getElem?.mp hu
    rcases getElem?_set_cases hget hj with ⟨-, rfl⟩ | ⟨hne, hold⟩
    · exact (hG.holds hdue k (hnew k hk)).1
    · refine hG.spares hdue k (hc.fits u (List.mem_of_getElem? hold) k hk) (fun heq => ?_)
        (hspares j u (Ne.symm hne) hold k hk)
      exact hc.once i j t u k hne hget hold heq hk
  · -- What the thread that made the call holds was held by it before, or by nobody else.
    have hfirst {j : ℕ} {u : Thread E P} (hij : i ≠ j) (hold : c.threads[j]? = some u)
        (hk : k ∈ C.after (t.holds C)
          ⟨β, request, (Y.machine.exec request input c.state).1⟩) (hk' : k ∈ u.holds C) :
        G.shared k := by
      rcases (hG.holds hdue k hk).2 with heq | hshared | hunfit
      · exact hc.once i j t u k hij hget hold heq hk'
      · exact hshared
      · exact absurd (hc.fits u (List.mem_of_getElem? hold) k hk') hunfit
    rcases getElem?_set_cases hget hj with ⟨rfl, rfl⟩ | ⟨hnej, holdj⟩
    · rcases getElem?_set_cases hget hl with ⟨rfl, -⟩ | ⟨hnel, holdl⟩
      · exact absurd rfl hjl
      · exact hfirst hnel holdl (hnew k hk) hk'
    · rcases getElem?_set_cases hget hl with ⟨rfl, rfl⟩ | ⟨hnel, holdl⟩
      · exact hfirst hnej holdj (hnew k hk') hk
      · exact hc.once j l u v k hjl holdj holdl hk hk'

theorem Kept.threads {c : Pool E P S} (hc : c.Kept G) {threads : List (Thread E P)}
    (h : ∀ (i : ℕ) (u : Thread E P), threads[i]? = some u → ∃ t, c.threads[i]? = some t ∧
      (∀ k ∈ u.holds C, k ∈ t.holds C) ∧ u.code.Warranted C (fun _ _ => True) (u.holds C)) :
    Kept G { c with threads := threads } := by
  refine ⟨hc.invariant, fun u hu => ?_, fun u hu k hk => ?_, fun i j u v k hij hi hj hk hk' => ?_⟩
  · obtain ⟨i, hi⟩ := List.mem_iff_getElem?.mp hu
    obtain ⟨t, -, -, hcode⟩ := h i u hi
    exact hcode
  · obtain ⟨i, hi⟩ := List.mem_iff_getElem?.mp hu
    obtain ⟨t, ht, hholds, -⟩ := h i u hi
    exact hc.fits t (List.mem_of_getElem? ht) k (hholds k hk)
  · obtain ⟨t, ht, hholds, -⟩ := h i u hi
    obtain ⟨w, hw, hholds', -⟩ := h j v hj
    exact hc.once i j t w k hij ht hw (hholds k hk) (hholds' k hk')

theorem Kept.fork {c : Pool E P S} (hc : c.Kept G) {i : ℕ} {t : Thread E P}
    {child next : Program E Unit} (hget : c.threads[i]? = some t)
    (hcode : t.code = .fork child next) :
    Kept G
      { c with threads := c.threads.set i { t with code := next } ++ [⟨none, [], child⟩] } := by
  have hwarranted := hc.code t (List.mem_of_getElem? hget)
  rw [hcode] at hwarranted
  have hset : Kept G { c with threads := c.threads.set i { t with code := next } } := by
    refine hc.threads fun j u hj => ?_
    rcases getElem?_set_cases hget hj with ⟨rfl, rfl⟩ | ⟨-, hold⟩
    · have hheld : t.holds C = t.done.foldl C.after none := by rw [Thread.holds, hcode]
      exact ⟨t, hget, Thread.holds_next C hheld.symm hwarranted.2⟩
    · exact ⟨u, hold, fun _ hk => hk, hc.code u (List.mem_of_getElem? hold)⟩
  exact hset.append hwarranted.1

theorem Kept.act (hG : Upholds G) {c : Pool E P S} (hc : c.Kept G) {a : Action I P}
    (ha : c.Orderly G a) : (c.act Y a).Kept G := by
  cases a with
  | kill i =>
    refine hc.threads fun j u hj => ?_
    rw [List.getElem?_modify] at hj
    obtain ⟨t, ht, rfl⟩ := Option.map_eq_some_iff.mp hj
    refine ⟨t, ht, ?_⟩
    split
    · exact ⟨nofun, trivial⟩
    · exact ⟨fun _ hk => hk, hc.code t (List.mem_of_getElem? ht)⟩
  | crash =>
    refine hc.threads fun j u hj => ?_
    rw [List.getElem?_map] at hj
    obtain ⟨t, ht, rfl⟩ := Option.map_eq_some_iff.mp hj
    exact ⟨t, ht, nofun, trivial⟩
  | arrive p => exact hc.append (hG.start p ha)
  | step i input =>
    rcases step_cases Y c i input with h | ⟨t, β, request, next, hget, hcode, h⟩ |
      ⟨t, child, next, hget, hcode, h⟩
    · rw [Pool.act, h]
      exact hc
    · rw [Pool.act, h]
      obtain ⟨hadmits, hspares⟩ := ha ⟨β, request⟩ (nextCall_eq hget hcode)
      refine hc.call hG hget hcode hadmits fun j u hne hj => hspares j ?_ hne u hj
      exact List.mem_range.mpr (List.getElem?_eq_some_iff.mp hj).1
    · rw [Pool.act, h]
      exact hc.fork hget hcode

instance [∀ (β : Type) (request : E β) (input : I) (s : S), Decidable (G.admits request input s)]
    [∀ (β : Type) (request : E β) (input : I) (s : S) (k : K),
      Decidable (G.spares request input s k)] [DecidablePred G.arrives] (c : Pool E P S) :
    (a : Action I P) → Decidable (c.Orderly G a)
  | .step i input =>
    inferInstanceAs (Decidable (∀ call ∈ c.nextCall i, G.admits call.2 input c.state ∧
      ∀ j ∈ List.range c.threads.length, j ≠ i → ∀ t ∈ c.threads[j]?, ∀ k ∈ t.holds C,
        G.spares call.2 input c.state k))
  | .arrive p => inferInstanceAs (Decidable (G.arrives p))
  | .kill _ => .isTrue trivial
  | .crash => .isTrue trivial

/-- An orderly script keeps all of it. -/
theorem Kept.play (hG : Upholds G) {c : Pool E P S} (hc : c.Kept G) {script : List (Action I P)}
    (hscript : c.Along Y (Orderly G) script) : (c.play Y script).Kept G :=
  Along.induction Y (Kept G) hc (fun _ _ hd ha => hd.act hG ha) hscript

end Pool

end Process

/-! ## Procedures that are not cut short -/

namespace Process

variable {E : Type → Type 1} {I P S K α : Type}

/-- The action loses the thread. -/
def Action.Loses (i : ℕ) : Action I P → Prop
  | .kill j => j = i
  | .crash => True
  | _ => False

instance (i : ℕ) : (a : Action I P) → Decidable (a.Loses i)
  | .kill j => inferInstanceAs (Decidable (j = i))
  | .crash => .isTrue trivial
  | .step _ _ | .arrive _ => .isFalse id

variable (f : {β : Type} → E β → Option α)

/-- Every path through the procedure comes to a call that sends something within so many calls. -/
def Program.Sends {γ : Type} : Program E γ → ℕ → Prop
  | .pure _, _ => False
  | .call request next, n => 0 < n ∧ ((f request).isSome ∨ ∀ answer, (next answer).Sends (n - 1))
  | .fork _ next, n => next.Sends n

def Thread.sent (t : Thread E P) : List α := t.done.filterMap fun e => f e.request

/-- The thread at this place has sent something, or it has made fewer than so many calls and has
not returned. -/
def Pool.Served (n : ℕ) (c : Pool E P S) (i : ℕ) : Prop :=
  ∃ t, c.threads[i]? = some t ∧ (t.sent f ≠ [] ∨ t.done.length < n ∧ ∀ a, t.code ≠ .pure a)

/-- The thread has sent something, or will have done so after so many calls. -/
def Thread.Sends (n : ℕ) (t : Thread E P) : Prop :=
  t.sent f ≠ [] ∨ t.code.Sends f (n - t.done.length)

variable {f}

theorem Program.Sends.mono {γ : Type} {p : Program E γ} {m n : ℕ} (hp : p.Sends f m)
    (hle : m ≤ n) : p.Sends f n := by
  induction p generalizing m n with
  | pure a => exact hp
  | call request next ih =>
    refine ⟨Nat.lt_of_lt_of_le hp.1 hle, hp.2.imp id fun hnext answer => ?_⟩
    exact ih answer (hnext answer) (Nat.sub_le_sub_right hle 1)
  | fork child next _ ih => exact ih hp hle

theorem Program.Sends.pending {γ : Type} {p : Program E γ} {n : ℕ} (h : p.Sends f n) :
    0 < n ∧ ∀ a, p ≠ .pure a := by
  induction p with
  | pure a => exact h.elim
  | call request next => exact ⟨h.1, fun a ha => by cases ha⟩
  | fork child next _ ih => exact ⟨(ih h).1, fun a ha => by cases ha⟩

namespace Pool

variable (Y : System E I P S)

/-- What an action makes of a thread: nothing, its next call, its next task, or its end. -/
theorem act_at {c : Pool E P S} {a : Action I P} {i : ℕ} {t : Thread E P}
    (ht : c.threads[i]? = some t) :
    ∃ u, (c.act Y a).threads[i]? = some u ∧ (u = t ∨
      (∃ (β : Type) (request : E β) (next : β → Program E Unit) (input : I),
        a = .step i input ∧ t.code = .call request next ∧
          (c.act Y a).state = (Y.machine.exec request input c.state).2 ∧
          u = { t with
            done := t.done ++ [⟨β, request, (Y.machine.exec request input c.state).1⟩]
            code := next (Y.machine.exec request input c.state).1 }) ∨
      (∃ child next, t.code = .fork child next ∧ u = { t with code := next } ∧
        (c.act Y a).state = c.state) ∨
      a.Loses i ∧ u = { t with code := .pure () }) := by
  have hlt := (List.getElem?_eq_some_iff.mp ht).1
  cases a with
  | crash =>
    refine ⟨{ t with code := .pure () }, ?_, .inr (.inr (.inr ⟨trivial, rfl⟩))⟩
    rw [act, List.getElem?_map, ht]
    rfl
  | arrive p => exact ⟨t, (List.getElem?_append_left hlt).trans ht, .inl rfl⟩
  | kill j =>
    by_cases hij : j = i
    · refine ⟨{ t with code := .pure () }, ?_, .inr (.inr (.inr ⟨hij, rfl⟩))⟩
      simp only [act, List.getElem?_modify, ht, if_pos hij]
      rfl
    · refine ⟨t, ?_, .inl rfl⟩
      simp only [act, List.getElem?_modify, ht, if_neg hij]
      rfl
  | step j input =>
    rcases step_cases Y c j input with h | ⟨u, β, request, next, hget, hcode, h⟩ |
      ⟨u, child, next, hget, hcode, h⟩
    · exact ⟨t, by rw [act, h, ht], .inl rfl⟩
    · rw [act, h]
      by_cases hij : j = i
      · subst hij
        obtain rfl := Option.some.inj (hget.symm.trans ht)
        exact ⟨_, List.getElem?_set_self hlt,
          .inr (.inl ⟨β, request, next, input, rfl, hcode, rfl, rfl⟩)⟩
      · exact ⟨t, (List.getElem?_set_ne hij).trans ht, .inl rfl⟩
    · have hlt' (v : Thread E P) : i < (c.threads.set j v).length := by rwa [List.length_set]
      rw [act, h]
      by_cases hij : j = i
      · subst hij
        obtain rfl := Option.some.inj (hget.symm.trans ht)
        refine ⟨_, ?_, .inr (.inr (.inl ⟨child, next, hcode, rfl, rfl⟩))⟩
        rw [List.getElem?_append_left (hlt' _), List.getElem?_set_self hlt]
      · refine ⟨t, ?_, .inl rfl⟩
        rw [List.getElem?_append_left (hlt' _), List.getElem?_set_ne hij, ht]

theorem sends_act {c : Pool E P S} {a : Action I P} {i n : ℕ} {t : Thread E P}
    (ht : c.threads[i]? = some t) (ha : ¬a.Loses i) (h : t.Sends f n) :
    ∃ u, (c.act Y a).threads[i]? = some u ∧ u.Sends f n := by
  obtain ⟨u, hu, rfl | ⟨β, request, next, input, -, hcode, -, rfl⟩ | ⟨child, next, hcode, rfl, -⟩ |
    ⟨hloses, -⟩⟩ := act_at Y ht (a := a)
  · exact ⟨u, hu, h⟩
  · generalize (Y.machine.exec request input c.state).1 = answer at hu ⊢
    refine ⟨_, hu, ?_⟩
    have hsent : ({ t with done := t.done ++ [⟨β, request, answer⟩], code := next answer } :
        Thread E P).sent f = t.sent f ++ (f request).toList := by
      rw [Thread.sent, List.filterMap_append, Thread.sent]
      cases hf : f request <;> simp [hf]
    rcases h with hbefore | h
    · refine .inl ?_
      rw [hsent]
      exact List.append_ne_nil_of_left_ne_nil hbefore _
    · rw [hcode] at h
      rcases h.2 with hsome | hnext
      · refine .inl ?_
        obtain ⟨x, hx⟩ : ∃ x, f request = some x := Option.isSome_iff_exists.mp hsome
        rw [hsent, hx]
        exact List.append_ne_nil_of_right_ne_nil _ (List.cons_ne_nil x [])
      · refine .inr ?_
        rw [List.length_append, List.length_singleton, Nat.sub_add_eq]
        exact hnext answer
  · refine ⟨_, hu, h.imp id fun hsends => ?_⟩
    rw [hcode] at hsends
    exact hsends
  · exact absurd hloses ha

/-- A thread that meets a contract from here on keeps the guarantee in every later call, whatever
the other threads do. -/
theorem guaranteed_play {C : Contract E I S}
    (hrely : ∀ {β : Type} (request : E β) (input : I) (s : S),
      C.rely s (Y.machine.exec request input s).2)
    {c : Pool E P S} {i : ℕ} {t : Thread E P} (ht : c.threads[i]? = some t)
    (hmeets : t.code.Meets C Y.machine (fun _ _ => True) c.state) {script : List (Action I P)}
    (hadmits : ∀ j input, .step j input ∈ script → ∀ {β : Type} (request : E β) (s : S),
      C.admits request input s) :
    ∃ u, (c.play Y script).threads[i]? = some u ∧ ∀ e ∈ u.done, e ∈ t.done ∨
      ∃ before after, C.guarantee e.request e.answer before after := by
  induction script generalizing c t with
  | nil => exact ⟨t, ht, fun e he => .inl he⟩
  | cons a script ih =>
    have hkept : C.rely c.state (c.act Y a).state := by
      rcases act_state Y c a with hsame | ⟨_, _, _, _, _, _, -, -, -, hexec⟩
      · rw [hsame]
        exact C.rely_refl _
      · rw [hexec]
        exact hrely _ _ _
    have hrest := fun j input (hmem : Action.step j input ∈ script) {β : Type} (request : E β)
        (s : S) => hadmits j input (List.mem_cons_of_mem a hmem) request s
    obtain ⟨u, hu, rfl | ⟨β, request, next, input, rfl, hcode, hstate, rfl⟩ |
      ⟨child, next, hcode, rfl, -⟩ | ⟨-, rfl⟩⟩ := act_at Y ht (a := a)
    · exact ih hu (hmeets.rely hkept fun _ _ _ _ _ => trivial) hrest
    · rw [hcode] at hmeets
      obtain ⟨hguarantee, hnext⟩ := hmeets c.state (C.rely_refl _) input
        (hadmits i input List.mem_cons_self request c.state)
      obtain ⟨v, hv, hdone⟩ := ih hu (hstate ▸ hnext) hrest
      refine ⟨v, hv, fun e he => (hdone e he).elim (fun hmem => ?_) .inr⟩
      rcases List.mem_append.mp hmem with hold | hnew
      · exact .inl hold
      · rw [List.mem_singleton.mp hnew]
        exact .inr ⟨_, _, hguarantee⟩
    · rw [hcode] at hmeets
      have hlater := ih hu (hmeets.2.rely hkept fun _ _ _ _ _ => trivial) hrest
      exact hlater
    · have hlater := ih hu trivial hrest
      exact hlater

/-- A procedure that arrives and is not lost sends something in time. -/
theorem served_play {c : Pool E P S} {p : P} {n : ℕ} (hp : (Y.start p).Sends f n)
    {script before after : List (Action I P)} (hscript : script = before ++ .arrive p :: after)
    (hafter : ∀ a ∈ after, ¬a.Loses (c.play Y before).threads.length) :
    (c.play Y script).Served f n (c.play Y before).threads.length := by
  have hall (d : Pool E P S) (t : Thread E P) (i : ℕ) (ht : d.threads[i]? = some t)
      (h : t.Sends f n) (script : List (Action I P)) (hscript : ∀ a ∈ script, ¬a.Loses i) :
      ∃ u, (d.play Y script).threads[i]? = some u ∧ u.Sends f n := by
    induction script generalizing d t with
    | nil => exact ⟨t, ht, h⟩
    | cons a script ih =>
      obtain ⟨u, hu, hsends⟩ := sends_act Y ht (hscript a List.mem_cons_self) h
      exact ih _ u hu hsends fun b hb => hscript b (List.mem_cons_of_mem a hb)
  obtain ⟨t, ht, h⟩ := hall ((c.play Y before).act Y (.arrive p)) ⟨some p, [], Y.start p⟩ _
    List.getElem?_concat_length (.inr hp) after hafter
  refine ⟨t, ?_, h.imp id fun hsends => ?_⟩
  · rw [hscript, Pool.play, List.foldl_append]
    exact ht
  · exact ⟨Nat.lt_of_sub_pos hsends.pending.1, hsends.pending.2⟩

variable {Y} {C : Custody E K} {G : Keeping Y C}

/-- What is true of something when it is sent, and is kept by the calls after it, is true of
everything that is sent along an orderly script. -/
theorem Kept.sent (hG : Upholds G) {ψ : α → S → Prop}
    (hmade : ∀ {β : Type} {request : E β} {input : I} {s : S} {held : Option K},
      Due G request input s held → ∀ x ∈ f request, ψ x (Y.machine.exec request input s).2)
    (hkept : ∀ {β : Type} {request : E β} {input : I} {s : S} {held : Option K} (x : α),
      Due G request input s held → ψ x s → ψ x (Y.machine.exec request input s).2)
    {s : S} (hs : G.invariant s) {script : List (Action I P)}
    (hscript : (⟨s, []⟩ : Pool E P S).Along Y (Orderly G) script) :
    ∀ t ∈ ((⟨s, []⟩ : Pool E P S).play Y script).threads, ∀ x ∈ t.sent f,
      ψ x ((⟨s, []⟩ : Pool E P S).play Y script).state := by
  refine (Along.induction Y (fun d => d.Kept G ∧ ∀ t ∈ d.threads, ∀ x ∈ t.sent f, ψ x d.state)
    ⟨kept_nil hs, fun t ht => by cases ht⟩ ?_ hscript).2
  rintro d a ⟨hd, hpast⟩ ha
  refine ⟨hd.act hG ha, fun t ht x hx => ?_⟩
  have houtcome := act_outcome Y ht
  generalize (d.act Y a).state = s at houtcome ⊢
  cases houtcome with
  | kept hbefore => exact hpast t hbefore x hx
  | lost hbefore => exact hpast _ hbefore x hx
  | arrived | started => cases hx
  | forked hbefore => exact hpast _ hbefore x hx
  | called haction hget hcode =>
    subst haction
    have hdue := hd.due hget hcode (ha ⟨_, _⟩ (nextCall_eq hget hcode)).1
    obtain ⟨e, he, hfe⟩ := List.mem_filterMap.mp hx
    rcases List.mem_append.mp he with he | he
    · refine hkept x hdue (hpast _ (List.mem_of_getElem? hget) x ?_)
      exact List.mem_filterMap.mpr ⟨e, he, hfe⟩
    · rw [List.mem_singleton.mp he] at hfe
      exact hmade hdue x hfe
  | waited hu haction hget hcode =>
    subst haction
    have hdue := hd.due hget hcode (ha ⟨_, _⟩ (nextCall_eq hget hcode)).1
    exact hkept x hdue (hpast t hu x hx)

end Pool

end Process
