import Asterism.Json
import Asterism.Process.Attempt

/-!
# Reserving endpoints

Every project has a loopback port of its own. The port is looked for outside any transaction,
because the search probes the host, and only the claim writes: one statement that sets the endpoint
if the project still has none and no project has it. Calls for any projects may run at the same
time. No endpoint is given out twice, and a project keeps the one it has.
-/

namespace Asterism.Endpoints

open Process

/-- `str::parse::<u16>`: a decimal number below `2 ^ 16`, with or without a plus sign. -/
def parseU16 (chars : List Char) : Option ℕ :=
  let digits := if chars.head? = some '+' then chars.tail else chars
  if digits = [] then none
  else
    (digits.foldl (fun value c => value.bind fun n =>
      if c.isDigit then some (10 * n + (c.toNat - '0'.toNat)) else none) (some 0)).filter
      fun n => n < 2 ^ 16

/-- `endpoint_port`: the number after the last colon, slashes at the end left out. -/
def endpointPort (endpoint : String) : Option ℕ :=
  let tail := (endpoint.toList.reverse.takeWhile fun c => c ≠ ':').reverse
  parseU16 (tail.rdropWhile fun c => c = '/')

/-- The text that `reserve_endpoint` stores for a port. -/
def endpointAt (port : ℕ) : String := "http://127.0.0.1:" ++ Text.decimal port

/-- The arguments of one call of `reserve_endpoint`. -/
structure Request where
  projectId : String
  first : ℕ
  last : ℕ
  /-- Ports the Node never hands out. -/
  reserved : List ℕ
  deriving DecidableEq

/-- The ports of the inclusive range that a call may search. -/
def Request.range (request : Request) : List ℕ :=
  List.range' request.first (request.last + 1 - request.first)

/-- The rows of `projects` with their `runtime_endpoint`, and what the calls have done so far. -/
structure State where
  projects : List String
  endpoint : String → Option String
  free : List (Request × ℕ) := []
  assigned : List (Request × ℕ) := []

/-- The queries and probes of `reserve_endpoint`. -/
inductive Call : Type → Type 1
  | existing (projectId : String) : Call (Except String (Option (Option String)))
  | endpoints : Call (Except String (List String))
  /-- Whether something listens on the port. -/
  | occupied (request : Request) (port : ℕ) : Call Bool
  /-- `UPDATE projects SET runtime_endpoint = …`, and whether it changed the row. -/
  | claim (request : Request) (port : ℕ) : Call (Except String Bool)
  /-- The call returns to its caller. -/
  | returns (request : Request) (result : Except String String) : Call Unit

/-- What the host decides about a query: that the storage fails, or that something listens. -/
structure Input where
  error : Option String := none
  busy : Bool := false

/-- The claim gives the project its endpoint. -/
def State.assign (s : State) (request : Request) (port : ℕ) : State :=
  { s with
    endpoint := Function.update s.endpoint request.projectId (some (endpointAt port))
    assigned := s.assigned ++ [(request, port)] }

/-- The condition of the claim: the project has no endpoint, and no project has this one. -/
def State.Claimable (s : State) (request : Request) (port : ℕ) : Prop :=
  request.projectId ∈ s.projects ∧ s.endpoint request.projectId = none ∧
    ∀ other ∈ s.projects, s.endpoint other ≠ some (endpointAt port)

instance (s : State) (request : Request) (port : ℕ) : Decidable (s.Claimable request port) :=
  inferInstanceAs (Decidable (_ ∧ _ ∧ _))

/-- An operation that fails with this error, if there is one, and then does nothing. -/
def fallible {σ α : Type} (error : Option String) (s : σ) (result : Except String α × σ) :
    Except String α × σ :=
  match error with
  | some error => (.error error, s)
  | none => result

def Call.exec {β : Type} (call : Call β) (input : Input) (s : State) : β × State :=
  match call with
  | existing projectId =>
    fallible input.error s
      (.ok (if projectId ∈ s.projects then some (s.endpoint projectId) else none), s)
  | endpoints => fallible input.error s (.ok (s.projects.filterMap s.endpoint), s)
  | occupied request port =>
    (input.busy, if input.busy then s else { s with free := s.free ++ [(request, port)] })
  | claim request port =>
    fallible input.error s
      (if s.Claimable request port then (.ok true, s.assign request port) else (.ok false, s))
  | returns _ _ => ((), s)

section Procedures

open Attempt

/-- The inner loop of `reserve_endpoint`: the first port of the range that is not taken and on which
nothing listens. -/
def search (request : Request) (taken : List ℕ) : List ℕ → Program Call (Option ℕ)
  | [] => pure none
  | port :: ports =>
    if port ∈ taken then search request taken ports
    else do
      if ← .perform (.occupied request port) then search request taken ports
      else return some port

/-- The loop of `reserve_endpoint`, with so many attempts left. -/
def reserveWithin (request : Request) : ℕ → Attempt Call String String
  | 0 => throw ("could not reserve a loopback port for project " ++ request.projectId ++
      ": the range kept changing")
  | attempts + 1 => do
    match ← attempt (.existing request.projectId) with
    | none => throw ("project " ++ request.projectId ++ " is not registered")
    | some (some endpoint) => return endpoint
    | some none =>
      let endpoints ← attempt .endpoints
      match ← ExceptT.lift (search request
        (request.reserved ++ endpoints.filterMap endpointPort) request.range) with
      | none => throw ("no free loopback port between " ++ Text.decimal request.first ++ " and " ++
          Text.decimal request.last ++ " for project " ++ request.projectId)
      | some port =>
        if ← attempt (.claim request port) then return endpointAt port
        else reserveWithin request attempts

/-- `reserve_endpoint`. Each attempt can lose at most one port to another project, so the range
bounds the loop. -/
def reserveEndpoint (request : Request) : Attempt Call String String :=
  reserveWithin request (max request.range.length 1)

/-- A caller of `reserve_endpoint`: it makes the call and has its result. -/
def serve (request : Request) : Program Call Unit := do
  let result ← (reserveEndpoint request).run
  .perform (.returns request result)

end Procedures

def machine : Machine Call Input State := ⟨Call.exec⟩

/-- The Node as a system of callers. -/
def system : System Call Input Request State := ⟨machine, serve⟩

def idle (projects : List String) (endpoint : String → Option String) :
    Pool Call Request State :=
  ⟨⟨projects, endpoint, [], []⟩, []⟩

/-- What a call has returned to its caller. -/
def Call.answers {β : Type} : Call β → Option (Request × Except String String)
  | returns request result => some (request, result)
  | _ => none

/-! ## What a call knows -/

/-- What a call has found out and relies on. -/
inductive Grip
  /-- The project has this endpoint. -/
  | settled (projectId endpoint : String)
  /-- The port may be claimed. -/
  | free (request : Request) (port : ℕ)

def Call.learns {β : Type} (held : Option Grip) : Call β → β → Option Grip
  | existing projectId, found => (found.toOption.bind Option.join).map (.settled projectId)
  | endpoints, _ => held
  | occupied request port, busy => if busy then held else some (.free request port)
  | claim request port, claimed => claimed.toOption.bind fun claimed =>
    if claimed then some (.settled request.projectId (endpointAt port)) else none
  | returns _ _, _ => none

/-- The port is one the call may hand out. -/
def Request.Admits (request : Request) (port : ℕ) : Prop :=
  port ∈ request.range ∧ port ∉ request.reserved

/-- An endpoint that is returned was found or settled. -/
def Backed (request : Request) (result : Except String String) (held : Option Grip) : Prop :=
  ∀ endpoint, result = .ok endpoint → held = some (.settled request.projectId endpoint)

def Call.Relies {β : Type} (held : Option Grip) : Call β → Prop
  | occupied request port => request.Admits port
  | claim request port => held = some (.free request port)
  | returns request result => Backed request result held
  | _ => True

/-- Ports are claimed after they were found free, and endpoints returned after they were set. -/
def knowledge : Custody Call Grip where
  after held event := event.request.learns held event.answer
  needs request held := request.Relies held

/-- The search finds a port that the call may hand out and that was reported free. -/
theorem search_warranted (request : Request) (taken : List ℕ)
    (htaken : request.reserved ⊆ taken) {ports : List ℕ} (hports : ports ⊆ request.range) :
    (search request taken ports).Warranted knowledge
      (fun found held => held = found.map (.free request)) none := by
  induction ports with
  | nil => exact rfl
  | cons port ports ih =>
    obtain ⟨hport, hports⟩ := List.cons_subset.mp hports
    unfold search
    split
    · exact ih hports
    · rename_i hfree
      refine ⟨⟨hport, fun hreserved => hfree (htaken hreserved)⟩, fun busy => ?_⟩
      cases busy with
      | true => exact ih hports
      | false => exact rfl

/-- Every attempt knows what it relies on, and the endpoint it ends with is the project's. -/
theorem reserveWithin_warranted (request : Request) (attempts : ℕ) :
    (reserveWithin request attempts).run.Warranted knowledge (Backed request) none := by
  induction attempts with
  | zero => exact nofun
  | succ attempts ih =>
    refine ⟨trivial, fun found => ?_⟩
    match found with
    | .error error => exact nofun
    | .ok none => exact nofun
    | .ok (some (some endpoint)) => exact fun _ h => by cases h; rfl
    | .ok (some none) =>
      refine ⟨trivial, fun endpoints => ?_⟩
      cases endpoints with
      | error error => exact nofun
      | ok endpoints =>
        have hsearch := search_warranted request
          (request.reserved ++ endpoints.filterMap endpointPort) (List.subset_append_left _ _)
          (List.Subset.refl _)
        refine Eq.mpr (congrArg (fun p => Program.Warranted knowledge p _ _)
          (Attempt.run_lift_bind _ _)) ((Program.warranted_bind _ _ _ _).mpr
            (hsearch.mono fun port held hheld => ?_))
        subst hheld
        cases port with
        | none => exact nofun
        | some port =>
          refine ⟨rfl, fun claimed => ?_⟩
          match claimed with
          | .error error => exact nofun
          | .ok true => exact fun _ h => by cases h; rfl
          | .ok false => exact ih

theorem serve_warranted (request : Request) :
    (Family.emptyHanded knowledge).Holds (serve request) :=
  (Program.warranted_bind _ _ _ _).mpr
    ((reserveWithin_warranted request _).mono fun _ _ hresult => ⟨hresult, fun _ => rfl⟩)

/-! ## What every query keeps -/

def Grip.Fits (s : State) : Grip → Prop
  | settled projectId endpoint => s.endpoint projectId = some endpoint
  | free request port => request.Admits port ∧ (request, port) ∈ s.free

/-- What is kept of the registry, compared with the registry before any call. -/
structure Sound (projects : List String) (endpoint : String → Option String) (s : State) :
    Prop where
  registered : s.projects = projects
  /-- A project keeps its endpoint. -/
  kept : ∀ projectId text, endpoint projectId = some text → s.endpoint projectId = some text
  /-- An endpoint was there before or was assigned. -/
  origin : ∀ projectId text, s.endpoint projectId = some text → endpoint projectId = some text ∨
    ∃ request port, (request, port) ∈ s.assigned ∧ request.projectId = projectId ∧
      endpointAt port = text
  /-- Two projects have one endpoint only if they had it before. -/
  exclusive : ∀ projectId ∈ projects, ∀ other ∈ projects, projectId ≠ other → ∀ text,
    s.endpoint projectId = some text → s.endpoint other = some text →
      endpoint projectId = some text ∧ endpoint other = some text
  /-- An assigned port is one the call may hand out, was reported free, and is the project's. -/
  assigned : ∀ request port, (request, port) ∈ s.assigned → request.Admits port ∧
    (request, port) ∈ s.free ∧ s.endpoint request.projectId = some (endpointAt port)

/-- An operation that may fail does what it does, or answers an error and does nothing. -/
theorem fallible_cases {σ α : Type} (error : Option String) (s : σ)
    (result : Except String α × σ) :
    fallible error s result = result ∨ ∃ text, fallible error s result = (.error text, s) := by
  cases error with
  | none => exact .inl rfl
  | some text => exact .inr ⟨text, rfl⟩

theorem fallible_same {σ α : Type} (error : Option String) (s : σ) (answer : Except String α) :
    (fallible error s (answer, s)).2 = s := by
  cases error <;> rfl

/-- What a claim does: it assigns the port, or it answers something else and does nothing. -/
theorem Call.exec_claim (request : Request) (port : ℕ) (input : Input) (s : State) :
    (s.Claimable request port ∧
        (claim request port).exec input s = (.ok true, s.assign request port)) ∨
      ∃ answer, answer ≠ .ok true ∧ (claim request port).exec input s = (answer, s) := by
  rcases fallible_cases input.error s (if s.Claimable request port then
    (.ok true, s.assign request port) else (.ok false, s)) with h | ⟨text, h⟩
  · by_cases hclaim : s.Claimable request port
    · exact .inl ⟨hclaim, h.trans (if_pos hclaim)⟩
    · exact .inr ⟨.ok false, nofun, h.trans (if_neg hclaim)⟩
  · exact .inr ⟨.error text, nofun, h⟩

theorem State.Claimable.endpoint_assign {s : State} {request : Request} {port : ℕ}
    (hclaim : s.Claimable request port) {projectId text : String}
    (h : s.endpoint projectId = some text) :
    (s.assign request port).endpoint projectId = some text := by
  refine (Function.update_of_ne ?_ _ _).trans h
  rintro rfl
  rw [hclaim.2.1] at h
  cases h

/-- A property that noting a free port and assigning a port keep is kept by every query. -/
theorem Call.exec_spec {β : Type} (call : Call β) (input : Input) {s : State} {Q : State → Prop}
    (hsame : Q s) (hfree : ∀ request port, Q { s with free := s.free ++ [(request, port)] })
    (hassign : ∀ request port, s.Claimable request port → Q (s.assign request port)) :
    Q (call.exec input s).2 := by
  cases call with
  | existing | endpoints =>
    rw [Call.exec, fallible_same]
    exact hsame
  | occupied request port =>
    rw [Call.exec]
    split
    · exact hsame
    · exact hfree request port
  | claim request port =>
    rcases Call.exec_claim request port input s with ⟨hclaim, h⟩ | ⟨_, -, h⟩
    · rw [h]
      exact hassign request port hclaim
    · rw [h]
      exact hsame
  | returns => exact hsame

theorem Call.endpoint_exec {β : Type} (call : Call β) (input : Input) {s : State}
    {projectId text : String} (h : s.endpoint projectId = some text) :
    (call.exec input s).2.endpoint projectId = some text :=
  call.exec_spec input (Q := fun t => t.endpoint projectId = some text) h (fun _ _ => h)
    fun _ _ hclaim => hclaim.endpoint_assign h

theorem Call.projects_exec {β : Type} (call : Call β) (input : Input) (s : State) :
    (call.exec input s).2.projects = s.projects :=
  call.exec_spec input (Q := fun t => t.projects = s.projects) rfl (fun _ _ => rfl)
    fun _ _ _ => rfl

theorem Grip.Fits.exec {β : Type} {grip : Grip} {s : State} (h : grip.Fits s) (call : Call β)
    (input : Input) : grip.Fits (call.exec input s).2 := by
  cases grip with
  | settled projectId endpoint => exact call.endpoint_exec input h
  | free request port =>
    exact ⟨h.1, call.exec_spec input (Q := fun t => (request, port) ∈ t.free) h.2
      (fun _ _ => List.mem_append_left _ h.2) fun _ _ _ => h.2⟩

theorem Call.learns_fits {β : Type} (call : Call β) (input : Input) {s : State}
    {held : Option Grip} (hfits : ∀ grip ∈ held, grip.Fits s) (hrelies : call.Relies held)
    {grip : Grip} (h : grip ∈ call.learns held (call.exec input s).1) :
    grip.Fits (call.exec input s).2 := by
  cases call with
  | existing projectId =>
    rw [Call.exec] at h ⊢
    rw [fallible_same]
    rcases fallible_cases input.error s (.ok (if projectId ∈ s.projects then
      some (s.endpoint projectId) else none), s) with hread | ⟨text, hread⟩
    · rw [hread] at h
      obtain ⟨endpoint, hfound, rfl⟩ := Option.map_eq_some_iff.mp h
      split at hfound
      · exact hfound
      · cases hfound
    · rw [hread] at h
      cases h
  | endpoints =>
    rw [Call.exec, fallible_same]
    exact hfits grip h
  | occupied request port =>
    rw [Call.exec] at h ⊢
    rw [Call.learns] at h
    split at h
    case isTrue hbusy =>
      rw [if_pos hbusy]
      exact hfits grip h
    case isFalse hbusy =>
      rw [if_neg hbusy]
      obtain rfl := Option.some.inj h
      exact ⟨hrelies, List.mem_append_right _ List.mem_cons_self⟩
  | claim request port =>
    rcases Call.exec_claim request port input s with ⟨-, hexec⟩ | ⟨answer, hanswer, hexec⟩
    · rw [hexec] at h ⊢
      obtain rfl := Option.some.inj h
      exact Function.update_self _ _ _
    · rw [hexec] at h
      match answer with
      | .ok true => exact absurd rfl hanswer
      | .ok false => cases h
      | .error error => cases h
  | returns => cases h

section Steps

variable {projects : List String} {endpoint : String → Option String} {s : State}

theorem Sound.assign (h : Sound projects endpoint s) {request : Request} {port : ℕ}
    (hfree : (Grip.free request port).Fits s) (hclaim : s.Claimable request port) :
    Sound projects endpoint (s.assign request port) := by
  have hothers : ∀ other ∈ projects, s.endpoint other ≠ some (endpointAt port) :=
    h.registered ▸ hclaim.2.2
  have hcases : ∀ projectId text, (s.assign request port).endpoint projectId = some text →
      (projectId = request.projectId ∧ text = endpointAt port) ∨
        s.endpoint projectId = some text := by
    intro projectId text htext
    change Function.update s.endpoint request.projectId _ projectId = some text at htext
    by_cases hsame : projectId = request.projectId
    · rw [hsame, Function.update_self] at htext
      exact .inl ⟨hsame, (Option.some.inj htext).symm⟩
    · rw [Function.update_of_ne hsame] at htext
      exact .inr htext
  refine ⟨h.registered, fun _ _ htext => hclaim.endpoint_assign (h.kept _ _ htext), ?_, ?_, ?_⟩
  · intro projectId text htext
    rcases hcases projectId text htext with ⟨rfl, rfl⟩ | hold
    · exact .inr ⟨request, port, List.mem_append_right _ List.mem_cons_self, rfl, rfl⟩
    · rcases h.origin projectId text hold with hbefore | ⟨other, taken, hassigned, hproject⟩
      · exact .inl hbefore
      · exact .inr ⟨other, taken, List.mem_append_left _ hassigned, hproject⟩
  · intro projectId hproject other hother hne text htext htext'
    rcases hcases projectId text htext with ⟨rfl, rfl⟩ | hold
    · rcases hcases other _ htext' with ⟨rfl, -⟩ | hold'
      · exact absurd rfl hne
      · exact absurd hold' (hothers other hother)
    · rcases hcases other text htext' with ⟨rfl, rfl⟩ | hold'
      · exact absurd hold (hothers projectId hproject)
      · exact h.exclusive projectId hproject other hother hne text hold hold'
  · intro other taken hassigned
    rcases List.mem_append.mp hassigned with hold | hnew
    · obtain ⟨hadmits, hreported, hset⟩ := h.assigned other taken hold
      exact ⟨hadmits, hreported, hclaim.endpoint_assign hset⟩
    · obtain ⟨rfl, rfl⟩ := Prod.mk.inj (List.mem_singleton.mp hnew)
      exact ⟨hfree.1, hfree.2, Function.update_self _ _ _⟩

theorem Sound.exec {β : Type} (h : Sound projects endpoint s) (call : Call β) (input : Input)
    {held : Option Grip} (hfits : ∀ grip ∈ held, grip.Fits s) (hrelies : call.Relies held) :
    Sound projects endpoint (call.exec input s).2 := by
  have hnoted (request : Request) (port : ℕ) :
      Sound projects endpoint { s with free := s.free ++ [(request, port)] } := by
    refine ⟨h.registered, h.kept, h.origin, h.exclusive, fun other taken hassigned => ?_⟩
    obtain ⟨hadmits, hreported, hset⟩ := h.assigned other taken hassigned
    exact ⟨hadmits, List.mem_append_left _ hreported, hset⟩
  cases call with
  | claim request port =>
    rcases Call.exec_claim request port input s with ⟨hclaim, hexec⟩ | ⟨_, -, hexec⟩
    · rw [hexec]
      exact h.assign (hfits _ hrelies) hclaim
    · rwa [hexec]
  | existing | endpoints =>
    rwa [Call.exec, fallible_same]
  | occupied request port =>
    rw [Call.exec]
    split
    · exact h
    · exact hnoted request port
  | returns => exact h

end Steps

/-- Nothing is asked of the order of the queries. -/
def kept (projects : List String) (endpoint : String → Option String) :
    Pool.Keeping system knowledge where
  fits grip s := grip.Fits s
  shared _ := True
  invariant := Sound projects endpoint
  admits _ _ _ := True
  spares _ _ _ _ := True

theorem kept_upholds (projects : List String) (endpoint : String → Option String) :
    Pool.Upholds (kept projects endpoint) where
  start request _ := serve_warranted request
  invariant := fun {_ request input _ _} hdue =>
    Sound.exec hdue.invariant request input hdue.fits hdue.needs
  holds := fun {_ request input _ _} hdue _ hk =>
    ⟨request.learns_fits input hdue.fits hdue.needs hk, .inr (.inl trivial)⟩
  spares := fun {_ request input _ _} _ _ hfits _ _ => hfits.exec request input

theorem idle_sound (projects : List String) (endpoint : String → Option String) :
    Sound projects endpoint (idle projects endpoint).state :=
  ⟨rfl, fun _ _ h => h, fun _ _ h => .inl h, fun _ _ _ _ _ _ h h' => ⟨h, h'⟩, nofun⟩

theorem idle_orderly (projects : List String) (endpoint : String → Option String)
    (script : List (Process.Action Input Request)) :
    (idle projects endpoint).Along system (Pool.Orderly (kept projects endpoint)) script := by
  refine Pool.along_of_forall system (fun c a => ?_) _ _
  cases a with
  | step i input => exact fun _ _ => ⟨trivial, fun _ _ _ _ _ _ _ => trivial⟩
  | arrive | kill | crash => trivial

/-! ## What a caller is told -/

/-- The most queries that a call makes, its return included: each attempt looks at the project, at
the endpoints and at every port of the range, and claims one. -/
def Request.queries (request : Request) : ℕ :=
  max request.range.length 1 * (request.range.length + 3) + 1

section Served

variable {request : Request} {next : Option ℕ → Program Call Unit}
  {finish : Except String String → Program Call Unit} {n : ℕ}

/-- The search makes at most one probe for each port before the call goes on. -/
theorem search_sends (taken : List ℕ) (hnext : ∀ found, (next found).Sends Call.answers n)
    (ports : List ℕ) :
    (search request taken ports >>= next).Sends Call.answers (ports.length + n) := by
  induction ports with
  | nil => exact (hnext none).mono (by omega)
  | cons port ports ih =>
    unfold search
    rw [List.length_cons]
    split
    · exact ih.mono (by omega)
    · refine ⟨by omega, .inr fun busy => ?_⟩
      cases busy with
      | true => exact ih.mono (by omega)
      | false => exact (hnext (some port)).mono (by omega)

theorem reserveWithin_sends (hfinish : ∀ result, (finish result).Sends Call.answers n)
    (attempts : ℕ) : ((reserveWithin request attempts).run >>= finish).Sends Call.answers
      (attempts * (request.range.length + 3) + n) := by
  induction attempts with
  | zero => exact (hfinish _).mono (by omega)
  | succ attempts ih =>
    have hpositive : n ≤ attempts * (request.range.length + 3) + n := by omega
    rw [Nat.succ_mul]
    refine ⟨by omega, .inr fun found => ?_⟩
    match found with
    | .error error => exact (hfinish _).mono (by omega)
    | .ok none => exact (hfinish _).mono (by omega)
    | .ok (some (some endpoint)) => exact (hfinish _).mono (by omega)
    | .ok (some none) =>
      refine ⟨by omega, .inr fun endpoints => ?_⟩
      cases endpoints with
      | error error => exact (hfinish _).mono (by omega)
      | ok endpoints =>
        change ((ExceptT.lift (search request _ request.range) >>= _).run >>= finish).Sends _ _
        rw [Attempt.run_lift_bind, Program.bind_assoc_eq]
        refine (search_sends _ (n := attempts * (request.range.length + 3) + n + 1)
          (fun port => ?_) _).mono (by omega)
        cases port with
        | none => exact (hfinish _).mono (by omega)
        | some port =>
          refine ⟨by omega, .inr fun claimed => ?_⟩
          match claimed with
          | .error error => exact (hfinish _).mono (by omega)
          | .ok true => exact (hfinish _).mono (by omega)
          | .ok false => exact ih.mono (by omega)

theorem serve_sends (request : Request) : (serve request).Sends Call.answers request.queries := by
  refine reserveWithin_sends (n := 1) (fun result => ?_) _
  exact ⟨Nat.one_pos, .inl rfl⟩

end Served

def Has (projectId text : String) (s : State) : Prop :=
  projectId ∈ s.projects ∧ s.endpoint projectId = some text

/-- The contract of a call for a project that has an endpoint: it returns that one, if the storage
does not fail. -/
def returning (projectId text : String) : Contract Call Input State where
  admits _ input _ := input.error = none
  rely s t := Has projectId text s → Has projectId text t
  rely_refl _ := id
  rely_trans hst htu := htu ∘ hst
  guarantee request _ _ _ := ∀ answer ∈ request.answers, answer.2 = .ok text

theorem serve_meets {request : Request} {text : String} {s : State}
    (hs : Has request.projectId text s) :
    (serve request).Meets (returning request.projectId text) machine (fun _ _ => True) s := by
  obtain ⟨attempts, hattempts⟩ : ∃ n, max request.range.length 1 = n + 1 :=
    Nat.exists_eq_succ_of_ne_zero (by omega)
  rw [serve, reserveEndpoint, hattempts]
  intro t hrely input hadmits
  obtain ⟨hproject, htext⟩ := hrely hs
  have hread : machine.exec (Call.existing request.projectId) input t =
      (.ok (some (some text)), t) := by
    change (Call.existing request.projectId).exec input t = _
    rw [Call.exec, show input.error = none from hadmits, if_pos hproject, htext]
    rfl
  rw [hread]
  refine ⟨nofun, fun _ _ _ _ => ⟨fun answer hanswer => ?_, trivial⟩⟩
  obtain rfl := Option.some.inj hanswer
  rfl

/-- An endpoint that a call has returned is the project's from then on. -/
theorem sent_endpoint (projects : List String) (endpoint : String → Option String)
    (script : List (Process.Action Input Request)) :
    let c := (idle projects endpoint).play system script
    ∀ t ∈ c.threads, ∀ answer ∈ t.sent Call.answers, ∀ text, answer.2 = .ok text →
      c.state.endpoint answer.1.projectId = some text := by
  refine Pool.Kept.sent (f := Call.answers) (kept_upholds projects endpoint)
    (ψ := fun (answer : Request × Except String String) s => ∀ text, answer.2 = .ok text →
      s.endpoint answer.1.projectId = some text)
    (fun {_ request _ _ _} hdue answer hanswer text htext => ?_)
    (fun {_ request input _ _} answer _ h text htext => request.endpoint_exec input (h text htext))
    (idle_sound projects endpoint) (idle_orderly projects endpoint script)
  cases request with
  | returns request result =>
    obtain rfl := Option.some.inj hanswer
    exact hdue.fits _ (hdue.needs text htext)
  | existing | endpoints | occupied | claim => cases hanswer

/-- A call for a project that has an endpoint returns no other result while the storage answers. -/
theorem sent_of_has {c : Pool Call Request State} {request : Request} {text : String}
    (hhas : Has request.projectId text c.state) {after : List (Process.Action Input Request)}
    (hstorage : ∀ i input, .step i input ∈ after → input.error = none) :
    ∀ t ∈ ((c.act system (.arrive request)).play system after).threads[c.threads.length]?,
      ∀ answer ∈ t.sent Call.answers, answer.2 = .ok text := by
  intro t ht answer hanswer
  obtain ⟨u, hu, hdone⟩ := Pool.guaranteed_play system (C := returning request.projectId text)
    (fun call input s h =>
      ⟨(call.projects_exec input s).symm ▸ h.1, call.endpoint_exec input h.2⟩)
    (c := c.act system (.arrive request)) List.getElem?_concat_length (serve_meets hhas)
    (fun i input hstep {_} _ _ => hstorage i input hstep)
  rw [hu] at ht
  obtain rfl := Option.some.inj ht
  obtain ⟨e, he, hsent⟩ := List.mem_filterMap.mp hanswer
  rcases hdone e he with hnil | ⟨_, _, hguarantee⟩
  · cases hnil
  · exact hguarantee answer hsent

/-- However calls of `reserve_endpoint` interleave: two projects have one endpoint only if they had
it before; an assigned port lies in the range of its call, is not reserved, was reported free and is
the project's; a project keeps the endpoint it has; an endpoint that a call returns is the
project's; a call that is not lost returns after finitely many queries; and a call for a project
that has an endpoint when the call arrives returns that one, if the storage does not fail. -/
theorem reserveEndpoint_sound (projects : List String) (endpoint : String → Option String)
    (script : List (Process.Action Input Request)) :
    let c := (idle projects endpoint).play system script
    Sound projects endpoint c.state ∧
    (∀ t ∈ c.threads, ∀ answer ∈ t.sent Call.answers, ∀ text, answer.2 = .ok text →
      c.state.endpoint answer.1.projectId = some text) ∧
    ∀ before request after, script = before ++ .arrive request :: after →
      let d := (idle projects endpoint).play system before
      ((∀ a ∈ after, ¬a.Loses d.threads.length) →
        c.Served Call.answers request.queries d.threads.length) ∧
      ∀ text, Has request.projectId text d.state →
        (∀ i input, .step i input ∈ after → input.error = none) →
        ∀ t ∈ c.threads[d.threads.length]?, ∀ answer ∈ t.sent Call.answers,
          answer.2 = .ok text := by
  have hstart : (idle projects endpoint).Kept (kept projects endpoint) :=
    Pool.kept_nil (idle_sound projects endpoint)
  refine ⟨(hstart.play (kept_upholds projects endpoint)
      (idle_orderly projects endpoint script)).invariant, sent_endpoint projects endpoint script,
    fun before request after hcut => ⟨fun hafter => ?_, fun text hhas hstorage => ?_⟩⟩
  · exact Pool.served_play system (serve_sends request) hcut hafter
  · rw [hcut, Pool.play, List.foldl_append]
    exact sent_of_has hhas hstorage

/-- A call that claims the first port of its range, and a second call for the same project. -/
def claimedTwice : List (Process.Action Input Request) :=
  let request : Request := ⟨"a", 18700, 18702, []⟩
  .arrive request :: List.replicate 5 (.step 0 {}) ++ .arrive request :: [.step 1 {}, .step 1 {}]

/-- The second call is answered with the endpoint that the first has claimed. -/
theorem claimedTwice_sound :
    let c := (idle ["a"] fun _ => none).play system claimedTwice
    c.state.endpoint "a" = some (endpointAt 18700) ∧
      c.threads.map (·.sent Call.answers) =
        List.replicate 2 [(⟨"a", 18700, 18702, []⟩, .ok (endpointAt 18700))] ∧
      c.Served Call.answers 19 1 := by
  refine ⟨by decide +kernel, by decide +kernel, ?_⟩
  have hserved := ((reserveEndpoint_sound ["a"] (fun _ => none) claimedTwice).2.2
    (claimedTwice.take 6) ⟨"a", 18700, 18702, []⟩ [.step 1 {}, .step 1 {}] rfl).1
  exact hserved (by decide)

end Asterism.Endpoints
