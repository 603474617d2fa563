import Asterism.Process.Attempt
import Asterism.Wire.Canonical

/-!
# The numbers of enrolled Nodes

An enrollment claims its token, looks for another Node with the key, counts the Nodes, and inserts
a Node whose id is derived from the count. Each query is one step, and a row is visible to the
others from the commit on. Two enrollments that count before either of them commits derive the
same id, and the primary key refuses the second one.
-/

namespace Asterism.Numbering

open Process

/-- `EnrollRequestSchema`: an enrollment request. -/
structure Request where
  token : String
  fingerprint : String
  deriving DecidableEq

/-- A row of `nodes`. -/
structure Node where
  nodeId : String
  fingerprint : String
  revoked : Bool
  deriving DecidableEq

/-- A row of `enrollment_tokens` that enrolls a Node. -/
structure Token where
  createdBy : Option String
  consumedBy : Option String
  /-- The token is revoked or has expired. -/
  withdrawn : Bool
  deriving DecidableEq

/-- The tables `nodes` and `enrollment_tokens`. -/
structure State where
  nodes : List Node
  tokens : String → Option Token

/-- The id that `enroll` derives from a count. -/
def nodeIdFor (count : ℕ) : String := "node-" ++ Text.decimal (count + 1)

/-- `EnrollOutcome`: what a request is answered with. -/
inductive Outcome
  | enrolled (nodeId : String)
  /-- Status 401. -/
  | tokenRefused
  /-- Status 409. -/
  | alreadyEnrolled
  /-- Status 500. -/
  | failed
  deriving DecidableEq

/-- The queries of `enroll`, and sending the answer. -/
inductive Call : Type → Type 1
  | claim (request : Request) : Call (Option Token)
  | activeByFingerprint (request : Request) : Call Bool
  | countNodes : Call ℕ
  | issuer (createdBy : Option String) : Call Unit
  /-- The Node is inserted, the token is consumed, and the transaction commits. -/
  | commit (request : Request) (nodeId : String) : Call Bool
  | reply (request : Request) (outcome : Outcome) : Call Unit

/-- Another active Node has the key. -/
def State.enrolled (s : State) (fingerprint : String) : Bool :=
  s.nodes.any fun node => node.fingerprint = fingerprint && !node.revoked

/-- `claim`: the token can be claimed. -/
def State.valid (s : State) (token : String) : Bool :=
  (s.tokens token).any fun row => row.consumedBy.isNone && !row.withdrawn

/-- `create`: the Node is inserted and the token is consumed. -/
def State.enroll (s : State) (request : Request) (nodeId : String) : State where
  nodes := s.nodes ++ [⟨nodeId, request.fingerprint, false⟩]
  tokens := Function.update s.tokens request.token
    ((s.tokens request.token).map fun row => { row with consumedBy := some nodeId })

/-- What a query answers and does. The primary key and the index on active keys refuse
duplicates. -/
def Call.exec {β : Type} (call : Call β) (s : State) : β × State :=
  match call with
  | claim request => (if s.valid request.token then s.tokens request.token else none, s)
  | activeByFingerprint request => (s.enrolled request.fingerprint, s)
  | countNodes => (s.nodes.length, s)
  | issuer _ => ((), s)
  | commit request nodeId =>
    if nodeId ∈ s.nodes.map Node.nodeId ∨ s.enrolled request.fingerprint = true then (false, s)
    else (true, s.enroll request nodeId)
  | reply _ _ => ((), s)

def Call.sends {β : Type} : Call β → Option (Request × Outcome)
  | reply request outcome => some (request, outcome)
  | _ => none

/-- `enroll`: enroll a Node. -/
def enroll (request : Request) : Program Call Unit := do
  match ← .perform (.claim request) with
  | none => .perform (.reply request .tokenRefused)
  | some token =>
    if ← .perform (.activeByFingerprint request) then
      .perform (.reply request .alreadyEnrolled)
    else
      let count ← .perform .countNodes
      let _ ← .perform (.issuer token.createdBy)
      if ← .perform (.commit request (nodeIdFor count)) then
        .perform (.reply request (.enrolled (nodeIdFor count)))
      else .perform (.reply request .failed)

def system : System Call Unit Request State := ⟨⟨fun call _ s => call.exec s⟩, enroll⟩

/-- The Nodes have different ids, and the ids with a number beyond the count are free. -/
structure Numbered (s : State) : Prop where
  nodup : (s.nodes.map Node.nodeId).Nodup
  free : ∀ k, s.nodes.length ≤ k → nodeIdFor k ∉ s.nodes.map Node.nodeId

/-- The answer is the id of a Node with the key of the request. -/
def Enrolls (answer : Request × Outcome) (s : State) : Prop :=
  ∃ node ∈ s.nodes, answer.2 = .enrolled node.nodeId ∧ node.fingerprint = answer.1.fingerprint

/-- Every answer is the id of a Node with the key of the request. -/
def AllEnrolled (c : Pool Call Request State) : Prop :=
  ∀ t ∈ c.threads, ∀ answer ∈ t.sent Call.sends, Enrolls answer c.state

/-- What a request has found out and relies on. -/
inductive Grip
  /-- No active Node has the key of the request. -/
  | claimed (request : Request)
  /-- There are so many Nodes, too. -/
  | counted (request : Request) (count : ℕ)
  /-- A Node with this id has the key. -/
  | enrolled (nodeId fingerprint : String)
  | never

def Grip.Fits (s : State) : Grip → Prop
  | claimed request => s.enrolled request.fingerprint = false
  | counted request count => s.enrolled request.fingerprint = false ∧ s.nodes.length = count
  | enrolled nodeId fingerprint =>
    ∃ node ∈ s.nodes, node.nodeId = nodeId ∧ node.fingerprint = fingerprint
  | never => False

def Outcome.claims (request : Request) : Outcome → Grip
  | enrolled nodeId => .enrolled nodeId request.fingerprint
  | _ => .never

def Call.learns {β : Type} (held : Option Grip) : Call β → β → Option Grip
  | claim request, token => some (if token.isSome then .claimed request else .never)
  | activeByFingerprint _, duplicate => if duplicate then some .never else held
  | countNodes, count =>
    match held with
    | some (.claimed request) => some (.counted request count)
    | _ => some .never
  | issuer _, _ => held
  | commit request nodeId, stored =>
    some (if stored then .enrolled nodeId request.fingerprint else .never)
  | reply _ _, _ => none

def Call.Relies {β : Type} (held : Option Grip) : Call β → Prop
  | activeByFingerprint request => held = some (.claimed request)
  | countNodes => ∃ request, held = some (.claimed request)
  | commit request nodeId => ∃ count, held = some (.counted request count) ∧
      nodeId = nodeIdFor count
  | reply request outcome => held = some (outcome.claims request)
  | _ => True

/-- Nodes are inserted under an id that was derived from the count. -/
def knowledge : Custody Call Grip where
  after held event := event.request.learns held event.answer
  needs request held := request.Relies held

/-- The token of a request is valid and its key is not enrolled when it begins. -/
def Call.Admits {β : Type} (s : State) : Call β → Prop
  | claim request => s.valid request.token = true ∧ s.enrolled request.fingerprint = false
  | _ => True

/-- The requests in progress have different tokens and keys, and no Node is inserted while another
request has counted. -/
def Call.Spares {β : Type} : Call β → Grip → Prop
  | commit request _, .claimed other =>
    request.token ≠ other.token ∧ request.fingerprint ≠ other.fingerprint
  | commit _ _, .counted _ _ => False
  | _, _ => True

/-- Requests with different valid tokens and different new keys, none of which inserts its Node
while another one has counted. -/
def kept : Pool.Keeping system knowledge where
  fits grip s := grip.Fits s
  shared _ := True
  invariant := Numbered
  admits request _ s := request.Admits s
  spares request _ _ grip := request.Spares grip

instance {β : Type} (request : Call β) (s : State) : Decidable (request.Admits s) := by
  unfold Call.Admits
  split <;> infer_instance

instance {β : Type} (request : Call β) (grip : Grip) : Decidable (request.Spares grip) := by
  unfold Call.Spares
  split <;> infer_instance

instance {β : Type} (request : Call β) (input : Unit) (s : State) :
    Decidable (kept.admits request input s) := inferInstanceAs (Decidable (request.Admits s))

instance : DecidablePred kept.arrives := fun _ => .isTrue trivial

instance {β : Type} (request : Call β) (input : Unit) (s : State) (grip : Grip) :
    Decidable (kept.spares request input s grip) :=
  inferInstanceAs (Decidable (request.Spares grip))

abbrev OneByOne : Pool Call Request State → Process.Action Unit Request → Prop :=
  Pool.Orderly kept

theorem enroll_knowledge (request : Request) :
    (Family.emptyHanded knowledge).Holds (enroll request) := by
  refine ⟨trivial, fun token => ?_⟩
  cases token with
  | none => exact ⟨rfl, fun _ => rfl⟩
  | some token =>
    refine ⟨rfl, fun duplicate => ?_⟩
    cases duplicate with
    | true => exact ⟨rfl, fun _ => rfl⟩
    | false =>
      refine ⟨⟨request, rfl⟩, fun count => ⟨trivial, fun _ => ?_⟩⟩
      refine ⟨⟨count, rfl, rfl⟩, fun stored => ?_⟩
      cases stored with
      | true => exact ⟨rfl, fun _ => rfl⟩
      | false => exact ⟨rfl, fun _ => rfl⟩

theorem enroll_sends (request : Request) : (enroll request).Sends Call.sends 6 := by
  refine ⟨by decide, .inr fun token => ?_⟩
  cases token with
  | none => exact ⟨by decide, .inl rfl⟩
  | some token =>
    refine ⟨by decide, .inr fun duplicate => ?_⟩
    cases duplicate with
    | true => exact ⟨by decide, .inl rfl⟩
    | false =>
      refine ⟨by decide, .inr fun count => ⟨by decide, .inr fun _ => ?_⟩⟩
      refine ⟨by decide, .inr fun stored => ?_⟩
      cases stored with
      | true => exact ⟨by decide, .inl rfl⟩
      | false => exact ⟨by decide, .inl rfl⟩

theorem nodeIdFor_injective : Function.Injective nodeIdFor := by
  intro m n h
  have hdecimal := decimal_injective (String.append_right_inj "node-" |>.mp h)
  omega

section Steps

variable {s : State} {β : Type}

/-- Inserting a Node under the id of the count leaves the ids beyond the count free. -/
theorem Numbered.enroll (h : Numbered s) (request : Request) :
    Numbered (s.enroll request (nodeIdFor s.nodes.length)) := by
  have hids : (s.enroll request (nodeIdFor s.nodes.length)).nodes.map Node.nodeId =
      s.nodes.map Node.nodeId ++ [nodeIdFor s.nodes.length] := List.map_append
  refine ⟨?_, fun k hk => ?_⟩
  · rw [hids, List.nodup_append]
    refine ⟨h.nodup, List.nodup_singleton _, fun id hid other hother => ?_⟩
    rintro rfl
    rw [List.mem_singleton.mp hother] at hid
    exact h.free _ (Nat.le_refl _) hid
  · rw [State.enroll, List.length_append, List.length_singleton] at hk
    rw [hids, List.mem_append, List.mem_singleton]
    rintro (hold | hnew)
    · exact h.free k (Nat.le_of_succ_le hk) hold
    · have hcount := nodeIdFor_injective hnew
      omega

/-- A commit under the id of the count succeeds if no active Node has the key. -/
theorem Call.exec_commit (h : Numbered s) {request : Request}
    (hkey : s.enrolled request.fingerprint = false) :
    (Call.commit request (nodeIdFor s.nodes.length)).exec s =
      (true, s.enroll request (nodeIdFor s.nodes.length)) := by
  refine if_neg ?_
  rintro (hid | henrolled)
  · exact h.free _ (Nat.le_refl _) hid
  · rw [hkey] at henrolled
    cases henrolled

theorem State.enrolled_enroll (s : State) (request : Request) (nodeId fingerprint : String) :
    (s.enroll request nodeId).enrolled fingerprint =
      (s.enrolled fingerprint || decide (request.fingerprint = fingerprint)) := by
  simp only [State.enrolled, State.enroll, List.any_append, List.any_cons, List.any_nil,
    Bool.not_false, Bool.and_true, Bool.or_false]

/-- What a call finds and leaves behind, for a request that knows what it relies on. -/
theorem exec_cases (h : Numbered s) (call : Call β) {held : Option Grip}
    (hfits : ∀ grip ∈ held, grip.Fits s) (hrelies : call.Relies held) :
    (call.exec s).2 = s ∨ ∃ request, (call.exec s).2 =
      s.enroll request (nodeIdFor s.nodes.length) ∧
        ∀ grip, call.Spares grip → (Call.commit request "").Spares grip := by
  cases call with
  | commit request nodeId =>
    obtain ⟨count, rfl, rfl⟩ := hrelies
    obtain ⟨hkey, rfl⟩ : s.enrolled request.fingerprint = false ∧ s.nodes.length = count :=
      hfits _ rfl
    refine .inr ⟨request, ?_, fun grip hspares => ?_⟩
    · rw [Call.exec_commit h hkey]
    · cases grip <;> exact hspares
  | _ => exact .inl rfl

theorem Numbered.exec (h : Numbered s) (call : Call β) {held : Option Grip}
    (hfits : ∀ grip ∈ held, grip.Fits s) (hrelies : call.Relies held) :
    Numbered (call.exec s).2 := by
  rcases exec_cases h call hfits hrelies with heq | ⟨request, heq, -⟩
  · rwa [heq]
  · rw [heq]
    exact h.enroll request

theorem Grip.Fits.enroll {grip : Grip} (h : grip.Fits s) {request : Request} (nodeId : String)
    (hspares : (Call.commit request "").Spares grip) : grip.Fits (s.enroll request nodeId) := by
  cases grip with
  | claimed other =>
    have hkey : s.enrolled other.fingerprint = false := h
    change (s.enroll request nodeId).enrolled other.fingerprint = false
    rw [State.enrolled_enroll, hkey, decide_eq_false hspares.2, Bool.or_false]
  | counted other count => exact hspares.elim
  | enrolled id fingerprint =>
    obtain ⟨node, hnode, hrest⟩ := h
    exact ⟨node, List.mem_append_left _ hnode, hrest⟩
  | never => exact h

theorem Call.learns_fits (h : Numbered s) (call : Call β) (hadmits : call.Admits s)
    {held : Option Grip} (hfits : ∀ grip ∈ held, grip.Fits s) (hrelies : call.Relies held)
    {grip : Grip} (hgrip : grip ∈ call.learns held (call.exec s).1) :
    grip.Fits (call.exec s).2 := by
  cases call with
  | claim request =>
    have hvalid := hadmits.1
    have htoken : (s.tokens request.token).isSome = true := by
      obtain ⟨row, hrow, -⟩ := (Option.any_eq_true _ _).mp hvalid
      exact Option.isSome_of_eq_some hrow
    simp only [Call.exec, Call.learns, if_pos hvalid, if_pos htoken] at hgrip
    obtain rfl := Option.some.inj hgrip
    exact hadmits.2
  | activeByFingerprint request =>
    obtain rfl : held = some (.claimed request) := hrelies
    have hkey : s.enrolled request.fingerprint = false := hfits _ rfl
    simp only [Call.exec, Call.learns, hkey, Bool.false_eq_true, if_false] at hgrip
    obtain rfl := Option.some.inj hgrip
    exact hkey
  | countNodes =>
    obtain ⟨request, rfl⟩ := hrelies
    have hkey : s.enrolled request.fingerprint = false := hfits _ rfl
    obtain rfl := Option.some.inj hgrip
    exact ⟨hkey, rfl⟩
  | issuer createdBy => exact hfits grip hgrip
  | commit request nodeId =>
    obtain ⟨count, rfl, rfl⟩ := hrelies
    obtain ⟨hkey, rfl⟩ : s.enrolled request.fingerprint = false ∧ s.nodes.length = count :=
      hfits _ rfl
    rw [Call.exec_commit h hkey] at hgrip ⊢
    obtain rfl := Option.some.inj hgrip
    exact ⟨_, List.mem_append_right _ List.mem_cons_self, rfl, rfl⟩
  | reply request outcome => cases hgrip

end Steps

theorem kept_upholds : Pool.Upholds kept where
  start p _ := enroll_knowledge p
  invariant := fun {_ request _ _ _} hdue =>
    Numbered.exec hdue.invariant request hdue.fits hdue.needs
  holds := fun {_ request _ _ _} hdue _ hk =>
    ⟨request.learns_fits hdue.invariant hdue.admits hdue.fits hdue.needs hk, .inr (.inl trivial)⟩
  spares := fun {_ request input s held} hdue grip hfits _ hspares => by
    change grip.Fits (request.exec s).2
    rcases exec_cases hdue.invariant request hdue.fits hdue.needs with heq | ⟨other, heq, hother⟩
    · rwa [heq]
    · rw [heq]
      exact hfits.enroll _ (hother grip hspares)

/-- Requests with different valid tokens and different new keys are all answered with the id of a
Node of their own, in every run in which no request inserts its Node while another one has
counted. -/
theorem all_enrolled (s : State) (hs : Numbered s) (script : List (Process.Action Unit Request))
    (hscript : (⟨s, []⟩ : Pool Call Request State).Along system OneByOne script) :
    let c := (⟨s, []⟩ : Pool Call Request State).play system script
    AllEnrolled c ∧ (c.state.nodes.map Node.nodeId).Nodup ∧
      ∀ before request after, script = before ++ .arrive request :: after →
        let i := ((⟨s, []⟩ : Pool Call Request State).play system before).threads.length
        (∀ a ∈ after, ¬a.Loses i) → c.Served Call.sends 6 i := by
  intro c
  refine ⟨?_, ((Pool.kept_nil hs).play kept_upholds hscript).invariant.nodup,
    fun before request after heq hafter =>
      Pool.served_play system (enroll_sends request) heq hafter⟩
  refine Pool.Kept.sent (ψ := Enrolls) kept_upholds ?_ ?_ hs hscript
  · intro β request input s held hdue answer hanswer
    cases request with
    | reply request outcome =>
      obtain rfl := Option.some.inj hanswer
      have hfits := hdue.fits _ hdue.needs
      cases outcome with
      | enrolled nodeId =>
        obtain ⟨node, hnode, rfl, hkey⟩ := hfits
        exact ⟨node, hnode, rfl, hkey⟩
      | _ => exact hfits.elim
    | _ => cases hanswer
  · rintro β request input s held answer hdue ⟨node, hnode, hrest⟩
    refine ⟨node, ?_, hrest⟩
    change node ∈ (request.exec s).2.nodes
    rcases exec_cases hdue.invariant request hdue.fits hdue.needs with heq | ⟨other, heq, -⟩
    · rwa [heq]
    · rw [heq]
      exact List.mem_append_left _ hnode

/-- No Node is enrolled, and two tokens are valid. -/
def twoTokens : State where
  nodes := []
  tokens := fun token => if token = "t1" ∨ token = "t2" then some ⟨none, none, false⟩ else none

def first : Request := ⟨"t1", "k1"⟩

def second : Request := ⟨"t2", "k2"⟩

/-- Two requests that are served one after the other are both enrolled. -/
theorem all_enrolled_in_turn :
    let c := (⟨twoTokens, []⟩ : Pool Call Request State).play system
      ([.arrive first, .arrive second] ++ List.replicate 6 (.step 0 ()) ++
        List.replicate 6 (.step 1 ()))
    AllEnrolled c ∧ (c.state.nodes.map Node.nodeId).Nodup ∧ c.Served Call.sends 6 1 := by
  have hs : Numbered twoTokens := ⟨List.nodup_nil, fun k _ h => by cases h⟩
  obtain ⟨hall, hnodup, hserved⟩ := all_enrolled twoTokens hs
    ([.arrive first, .arrive second] ++ List.replicate 6 (.step 0 ()) ++
      List.replicate 6 (.step 1 ())) (by decide +kernel)
  exact ⟨hall, hnodup, hserved [.arrive first] second
    (List.replicate 6 (.step 0 ()) ++ List.replicate 6 (.step 1 ())) rfl (by decide)⟩

/-- Two requests count before either of them commits, and the second one fails. -/
theorem enrollment_fails :
    let c := (⟨twoTokens, []⟩ : Pool Call Request State).play system
      ([.arrive first, .arrive second] ++ List.replicate 3 (.step 0 ()) ++
        List.replicate 3 (.step 1 ()) ++ List.replicate 3 (.step 0 ()) ++
        List.replicate 3 (.step 1 ()))
    (c.threads.map fun t => t.sent Call.sends) =
      [[(first, .enrolled "node-1")], [(second, .failed)]] := by
  decide +kernel

end Asterism.Numbering
