import Asterism.ControlPlane.Effects
import Asterism.Registry.Calls

/-!
# The delivery of journalled events

`pump_subscriptions` sends each event of a subscribed run as it stands in the journal. The Control
Plane reads the frame with `JSON.parse`, checks it against `EventDeliverySchema`, and stores and
acknowledges the event in `handleEvent`. This file determines which journalled events come through.
-/

namespace Asterism.Js

/-- The integer that JavaScript has for one in a text: the nearest double, printed in as few digits
as tell it from its neighbours. -/
def kept (n : ℤ) : ℤ := n.sign * shortest (toDouble n.natAbs)

theorem kept_natCast (n : ℕ) : kept n = shortest (toDouble n) := by
  cases n with
  | zero => exact (zero_mul _).trans (congrArg Nat.cast (exact_of_lt (n := 0) (by decide))).symm
  | succ n =>
    rw [kept, Int.sign_eq_one_of_pos (by omega), one_mul]
    rfl

theorem kept_of_lt {n : ℤ} (h : n.natAbs < gapStart) : kept n = n := by
  rw [kept, show shortest (toDouble n.natAbs) = n.natAbs from exact_of_lt h, Int.sign_mul_natAbs]

mutual

/-- A value as `JSON.parse` reads it. What it makes of a number that is not written as an integer
is a parameter. -/
def parse (floats : String → Number) : Value → Value
  | .null => .null
  | .bool b => .bool b
  | .number (.int n) => .number (.int (kept n))
  | .number (.float text) => .number (floats text)
  | .string text => .string text
  | .array items => .array (parseItems floats items)
  | .object fields => .object (parseFields floats fields)

def parseItems (floats : String → Number) : List Value → List Value
  | [] => []
  | item :: items => parse floats item :: parseItems floats items

def parseFields (floats : String → Number) : List (String × Value) → List (String × Value)
  | [] => []
  | (key, value) :: fields => (key, parse floats value) :: parseFields floats fields

end

mutual

theorem texts_parse (floats : String → Number) : ∀ value, (parse floats value).texts = value.texts
  | .null | .bool _ | .number (.int _) | .number (.float _) | .string _ => by
    simp only [parse, Value.texts]
  | .array items => by simp only [parse, Value.texts, textsOfItems_parse floats items]
  | .object fields => by simp only [parse, Value.texts, textsOfFields_parse floats fields]

theorem textsOfItems_parse (floats : String → Number) :
    ∀ items, Value.textsOfItems (parseItems floats items) = Value.textsOfItems items
  | [] => rfl
  | item :: items => by
    simp only [parseItems, Value.textsOfItems, texts_parse floats item,
      textsOfItems_parse floats items]

theorem textsOfFields_parse (floats : String → Number) :
    ∀ fields, Value.textsOfFields (parseFields floats fields) = Value.textsOfFields fields
  | [] => rfl
  | (key, value) :: fields => by
    simp only [parseFields, Value.textsOfFields, texts_parse floats value,
      textsOfFields_parse floats fields]

end

end Asterism.Js

namespace Asterism

open ControlPlane

/-- `decodeEnvelope` of the Control Plane, on a message that was encoded. -/
def Envelope.received (floats : String → Number) (envelope : Envelope) : Envelope :=
  { envelope with payload := Js.parse floats envelope.payload }

/-- The `EventDelivery` that `pump_subscriptions` sends for an event of the journal. -/
def eventDelivery (projectId : String) (event : StoredEvent) : Envelope :=
  ⟨"client.event", none,
    Value.obj [("project_id", .string projectId), ("run_id", .string event.runId),
      ("seq", .number (.int event.seq)), ("event_type", .string event.eventType),
      ("recorded_at", .number (.int event.recordedAt)), ("payload", event.payload)]⟩

theorem payload_eventDelivery (projectId : String) (event : StoredEvent) :
    (eventDelivery projectId event).payload = .object
      [("event_type", .string event.eventType), ("payload", event.payload),
        ("project_id", .string projectId), ("recorded_at", .number (.int event.recordedAt)),
        ("run_id", .string event.runId), ("seq", .number (.int event.seq))] := by
  simp only [eventDelivery, Value.obj, Value.insertField, List.foldl_cons, List.foldl_nil,
    String.reduceLT, String.reduceEq, ↓reduceIte]

/-- The bytes of the frame that delivers an event. -/
def deliveryBytes (stamp : Stamp) (projectId : String) (event : StoredEvent) : ℕ :=
  192 + (Value.number (.int stamp.timestamp.toInt)).bytes + (Value.string event.eventType).bytes +
    event.payload.bytes + (Value.string projectId).bytes +
    (Value.number (.int event.recordedAt)).bytes + (Value.string event.runId).bytes +
    (Value.number (.int event.seq)).bytes

theorem len_eventDelivery (stamp : Stamp) (projectId : String) (event : StoredEvent) :
    Text.len ((eventDelivery projectId event).stamped stamp).text =
      deliveryBytes stamp projectId event := by
  have hmessage : (Value.string "client.event").bytes = 14 := by decide
  have htype : Text.byteCount (Value.encodeText "event_type") = 12 := by decide
  have hpayload : Text.byteCount (Value.encodeText "payload") = 9 := by decide
  have hproject : Text.byteCount (Value.encodeText "project_id") = 12 := by decide
  have hrecorded : Text.byteCount (Value.encodeText "recorded_at") = 13 := by decide
  have hrun : Text.byteCount (Value.encodeText "run_id") = 8 := by decide
  have hseq : Text.byteCount (Value.encodeText "seq") = 5 := by decide
  rw [Envelope.len_stamped, payload_eventDelivery, Value.bytes_object]
  change 106 + (Value.string "client.event").bytes + _ + 0 + _ = _
  simp only [List.map_cons, List.map_nil, List.sum_cons, List.sum_nil, Value.fieldBytes, htype,
    hpayload, hproject, hrecorded, hrun, hseq, hmessage, deliveryBytes]
  omega

/-- A text the schema of an event accepts. -/
def IsLabel (text : String) : Prop := 1 ≤ Schema.units text ∧ Schema.units text ≤ 128

instance (text : String) : Decidable (IsLabel text) := inferInstanceAs (Decidable (_ ∧ _))

/-- The event that the Control Plane reads from a delivery. -/
def StoredEvent.read (floats : String → Number) (projectId : String) (event : StoredEvent) :
    EventDelivery :=
  ⟨projectId, event.runId, Js.kept event.seq, event.eventType, some (Js.kept event.recordedAt),
    Js.parse floats event.payload⟩

/-- `EventDeliverySchema` accepts a delivery whose identifiers and type are short texts. -/
theorem schema_received (floats : String → Number) (projectId : String) (event : StoredEvent) :
    EventDelivery.schema ((eventDelivery projectId event).received floats).payload =
      if IsLabel projectId ∧ IsLabel event.runId ∧ IsLabel event.eventType then
        some (event.read floats projectId)
      else none := by
  rw [Envelope.received, payload_eventDelivery]
  generalize hpayload : Js.parse floats _ = payload
  have hproject : payload.get "project_id" = some (.string projectId) := by rw [← hpayload]; rfl
  have hrun : payload.get "run_id" = some (.string event.runId) := by rw [← hpayload]; rfl
  have hseq : payload.get "seq" = some (.number (.int (Js.kept event.seq))) := by
    rw [← hpayload]; rfl
  have htype : payload.get "event_type" = some (.string event.eventType) := by
    rw [← hpayload]; rfl
  have hrecorded : payload.get "recorded_at" =
      some (.number (.int (Js.kept event.recordedAt))) := by
    rw [← hpayload]; rfl
  have hbody : payload.get "payload" = some (Js.parse floats event.payload) := by
    rw [← hpayload]; rfl
  have hnumber : (some (Js.kept event.seq)).filter (fun n => 0 ≤ n) = some (Js.kept event.seq) :=
    Option.filter_some_pos (decide_eq_true (by rw [Js.kept_natCast]; exact Int.natCast_nonneg _))
  simp only [EventDelivery.schema, Schema.field, Schema.optional, hproject, hrun, hseq, htype,
    hrecorded, hbody, Option.bind_eq_bind, Option.bind_some, Schema.string, Schema.nonnegative,
    Schema.int, hnumber, Option.map_some, Option.pure_def, Option.getD_some, ← IsLabel.eq_def]
  by_cases hfirst : IsLabel projectId
  · by_cases hsecond : IsLabel event.runId
    · simp only [if_pos hfirst, if_pos hsecond, Option.bind_some, and_iff_right hfirst,
        and_iff_right hsecond]
      split <;> rfl
    · simp only [if_pos hfirst, Option.bind_some, Option.bind_none, hsecond, false_and, and_false,
        if_false]
  · simp only [Option.bind_none, hfirst, false_and, if_false]

/-! ## Storing and acknowledging -/

/-- The Control Plane takes a delivery in as the event with this number: whenever it knows the run,
`handleEvent` commits, the event is stored, and the position that is sent back covers it if
everything before it was acknowledged. -/
def TakesIn (delivery : EventDelivery) (seq : ℕ) : Prop :=
  ∀ (store : Store) (nodeId : String) (input : SqlInput),
    ∀ run ∈ store.contents.byNodeRunId nodeId delivery.runId,
      ∃ acked db, evalSql input (handleEvent nodeId delivery) store.contents =
          some (some acked, db) ∧
        (∃ row ∈ db.events, row.nodeId = nodeId ∧ row.runId = run.runId ∧ row.seq = seq) ∧
        (run.ackedEventSeq + 1 = seq → seq ≤ acked)

theorem le_advance (cursor : ℤ) (seqs : List ℤ) : cursor ≤ Database.advance cursor seqs := by
  induction seqs generalizing cursor with
  | nil => exact le_rfl
  | cons seq seqs ih =>
    unfold Database.advance
    split
    · have := ih seq
      omega
    · exact le_rfl

theorem le_highestContiguous {db : Database} {row : EventRecord} {start : ℤ}
    (hrow : row ∈ db.events) (hnext : start + 1 = row.seq) :
    row.seq ≤ db.highestContiguous row.runId start := by
  unfold Database.highestContiguous
  have hmem : row.seq ∈
      ((db.seqs row.runId).filter fun seq => start < seq).insertionSort (· ≤ ·) := by
    rw [List.mem_insertionSort, List.mem_filter]
    refine ⟨List.mem_map_of_mem (List.mem_filter.mpr ⟨hrow, decide_eq_true rfl⟩), ?_⟩
    exact decide_eq_true (by omega)
  have hsorted := List.pairwise_insertionSort (· ≤ ·)
    ((db.seqs row.runId).filter fun seq => start < seq)
  cases hseqs : ((db.seqs row.runId).filter fun seq => start < seq).insertionSort (· ≤ ·) with
  | nil =>
    rw [hseqs] at hmem
    cases hmem
  | cons first rest =>
    rw [hseqs] at hmem hsorted
    have hlow : start < first := by
      have hfirst : first ∈ ((db.seqs row.runId).filter fun seq => start < seq).insertionSort
          (· ≤ ·) := hseqs ▸ List.mem_cons_self
      rw [List.mem_insertionSort, List.mem_filter] at hfirst
      exact of_decide_eq_true hfirst.2
    have hleast : first ≤ row.seq := by
      rcases List.mem_cons.mp hmem with heq | hrest
      · exact heq.ge
      · exact List.rel_of_pairwise_cons hsorted hrest
    rw [Database.advance, if_pos (by omega)]
    have := le_advance first rest
    omega

theorem takesIn_of_fits {delivery : EventDelivery} {seq : ℕ} (hseq : delivery.seq = seq)
    (hfits : ∀ nodeId run, (delivery.row nodeId run).Fits) : TakesIn delivery seq := by
  intro store nodeId input run hrun
  have hvalid : store.contents.Valid := store.valid
  have hstored : ∃ row ∈ (store.contents.insertEvent (delivery.row nodeId run)).events,
      Database.eventKey row = Database.eventKey (delivery.row nodeId run) := by
    unfold Database.insertEvent
    split
    · rename_i hold
      obtain ⟨row, hrow, hkey⟩ := List.any_eq_true.mp hold
      exact ⟨row, hrow, of_decide_eq_true hkey⟩
    · exact ⟨_, List.mem_append_right _ (List.mem_singleton_self _), rfl⟩
  obtain ⟨row, hrow, hkey⟩ := hstored
  obtain ⟨hnode, hid, hnumber⟩ : row.nodeId = nodeId ∧ row.runId = run.runId ∧
      row.seq = delivery.seq := by
    simpa only [Database.eventKey, Prod.mk.injEq, EventDelivery.row] using hkey
  have hcommits := @eval_handleEvent input _ hvalid nodeId delivery
  rw [Option.mem_def.mp hrun] at hcommits
  refine ⟨_, _, hcommits.trans (if_pos (hfits nodeId run)),
    ⟨row, hrow, hnode, hid, hnumber.trans hseq⟩, fun hnext => ?_⟩
  · have hcovered := le_highestContiguous hrow (hnext.trans (hseq.symm.trans hnumber.symm))
    rwa [hid, hnumber, hseq] at hcovered

/-- A run of the Control Plane that a Node knows under this name. -/
def knownRun (nodeRunId : String) : ControlPlane.RunRecord :=
  ⟨"r1", "n1", "p1", some nodeRunId, "running", none, none, none, none, none, 0, 0, none, true,
    none⟩

/-- The Control Plane has no more than this run. -/
def knowingStore (nodeRunId : String) : Store :=
  ⟨⟨[], [knownRun nodeRunId], [], {}⟩, by
    refine ⟨?_, ?_, ?_, ?_, ?_, ?_, ?_⟩ <;>
      simp [Table.Unique, Database.nodeRunIndex, knownRun]⟩

/-- A delivery that is taken in fits into a row, and has the number of the event. -/
theorem TakesIn.fits {delivery : EventDelivery} {seq : ℕ} (h : TakesIn delivery seq) :
    delivery.seq = seq ∧ (delivery.row "n1" (knownRun delivery.runId)).Fits := by
  have hfound : (knowingStore delivery.runId).contents.byNodeRunId "n1" delivery.runId =
      some (knownRun delivery.runId) := by
    simp [Database.byNodeRunId, knowingStore, knownRun]
  obtain ⟨acked, db, heval, ⟨row, hrow, -, -, hseq⟩, -⟩ :=
    h (knowingStore delivery.runId) "n1" ⟨0, none⟩ _ hfound
  rw [eval_handleEvent (knowingStore delivery.runId).valid, hfound] at heval
  obtain ⟨hfits, hresult⟩ := Option.ite_none_right_eq_some.mp heval
  obtain ⟨-, rfl⟩ := Prod.mk.inj (Option.some.inj hresult)
  obtain rfl := List.mem_singleton.mp hrow
  exact ⟨hseq, hfits⟩

/-! ## Which events are delivered -/

/-- The frame of a journalled event can be sent, the schema reads it, and the Control Plane takes
it in. -/
def Delivered (floats : String → Number) (stamp : Stamp) (projectId : String)
    (event : StoredEvent) : Prop :=
  (∃ text, ((eventDelivery projectId event).stamped stamp).encode = .ok text) ∧
    ∃ delivery, EventDelivery.schema ((eventDelivery projectId event).received floats).payload =
      some delivery ∧ delivery.runId = event.runId ∧ TakesIn delivery event.seq

/-- What an event needs for that: a small frame, short labels, a number and a time that JavaScript
and the database can hold, and no `U+0000`. -/
structure Deliverable (stamp : Stamp) (projectId : String) (event : StoredEvent) : Prop where
  size : deliveryBytes stamp projectId event ≤ maxFrameBytes
  project : IsLabel projectId
  run : IsLabel event.runId
  eventType : IsLabel event.eventType ∧ Storable event.eventType
  seq : Js.Exact event.seq ∧ event.seq < 2 ^ 63
  recordedAt : -2 ^ 63 ≤ Js.kept event.recordedAt ∧ Js.kept event.recordedAt < 2 ^ 63
  payload : ∀ text ∈ event.payload.texts, Storable text

instance (stamp : Stamp) (projectId : String) (event : StoredEvent) :
    Decidable (Deliverable stamp projectId event) :=
  decidable_of_iff
    (deliveryBytes stamp projectId event ≤ maxFrameBytes ∧ IsLabel projectId ∧
      IsLabel event.runId ∧ (IsLabel event.eventType ∧ Storable event.eventType) ∧
      (Js.shortest (Js.toDouble event.seq) = event.seq ∧ event.seq < 2 ^ 63) ∧
      (-2 ^ 63 ≤ Js.kept event.recordedAt ∧ Js.kept event.recordedAt < 2 ^ 63) ∧
      ∀ text ∈ event.payload.texts, Storable text)
    ⟨fun ⟨h1, h2, h3, h4, h5, h6, h7⟩ => ⟨h1, h2, h3, h4, h5, h6, h7⟩,
      fun ⟨h1, h2, h3, h4, h5, h6, h7⟩ => ⟨h1, h2, h3, h4, h5, h6, h7⟩⟩

theorem texts_row (delivery : EventDelivery) (nodeId : String) (run : ControlPlane.RunRecord) :
    (delivery.row nodeId run).payload.texts = delivery.payload.texts := by
  rw [EventDelivery.row]
  dsimp only
  split
  · rename_i hnull
    rw [hnull]
    rfl
  · rfl

theorem fits_row_iff (floats : String → Number) (projectId : String) (event : StoredEvent)
    (nodeId : String) (run : ControlPlane.RunRecord) :
    ((event.read floats projectId).row nodeId run).Fits ↔
      Js.kept event.seq < 2 ^ 63 ∧ Storable event.eventType ∧
        (-2 ^ 63 ≤ Js.kept event.recordedAt ∧ Js.kept event.recordedAt < 2 ^ 63) ∧
        ∀ text ∈ event.payload.texts, Storable text := by
  have htexts : ((event.read floats projectId).row nodeId run).payload.texts =
      event.payload.texts :=
    (texts_row _ nodeId run).trans (Js.texts_parse floats event.payload)
  rw [← htexts]
  exact ⟨fun h => ⟨h.seq, h.eventType, h.recordedAt _ rfl, h.payload⟩, fun h =>
    ⟨h.1, h.2.1, fun _ htime => Option.some.inj htime ▸ h.2.2.1, h.2.2.2⟩⟩

theorem delivered_iff (floats : String → Number) (stamp : Stamp) (projectId : String)
    (event : StoredEvent) :
    Delivered floats stamp projectId event ↔ Deliverable stamp projectId event := by
  rw [Delivered, Envelope.encode_isOk_iff, Envelope.Fits, len_eventDelivery, schema_received]
  have hexact : Js.kept event.seq = event.seq ↔ Js.Exact event.seq := by
    rw [Js.kept_natCast, Nat.cast_inj]
    rfl
  constructor
  · rintro ⟨hsize, delivery, hread, -, htaken⟩
    obtain ⟨⟨hproject, hrun, htype⟩, hread⟩ := Option.ite_none_right_eq_some.mp hread
    obtain rfl := Option.some.inj hread
    obtain ⟨hseq, hfits⟩ := htaken.fits
    obtain ⟨hnumber, hstorable, hrecorded, hpayload⟩ := (fits_row_iff _ _ _ _ _).mp hfits
    have hbound : event.seq < 2 ^ 63 := by
      have : Js.kept event.seq = event.seq := hseq
      omega
    exact ⟨hsize, hproject, hrun, ⟨htype, hstorable⟩, ⟨hexact.mp hseq, hbound⟩, hrecorded, hpayload⟩
  · rintro ⟨hsize, hproject, hrun, ⟨htype, hstorable⟩, ⟨hseq, hbound⟩, hrecorded, hpayload⟩
    have hnumber := hexact.mpr hseq
    refine ⟨hsize, _, if_pos ⟨hproject, hrun, htype⟩, rfl, takesIn_of_fits hnumber
      fun nodeId run => (fits_row_iff _ _ _ _ _).mpr ⟨?_, hstorable, hrecorded, hpayload⟩⟩
    rw [hnumber]
    exact_mod_cast hbound

theorem appendEvent_mem {input : RegistryInput} {runId : String} {event : JournalEvent}
    {update : Option RunUpdate} {seq : ℕ} {r r' : Registry}
    (h : appendEvent input runId event update r = .ok (.appended seq, r')) :
    event.row runId seq (input.clock 0) ∈ r'.contents.runEvents := by
  obtain ⟨row, hrow, ⟨_, _, hdup, _⟩ | ⟨_, hseq, hrest⟩⟩ := appendEvent_ok h
  · cases hdup
  · cases hseq
    cases Tables.findRun_runId hrow
    have hmem : event.row row.runId (row.lastEventSeq + 1) (input.clock 0) ∈
        (r.contents.appended input row event).runEvents :=
      List.mem_append_right _ (List.mem_singleton.mpr rfl)
    rcases hrest with ⟨_, hcontents⟩ | ⟨u, _, _, hcontents⟩
    · rw [hcontents]
      exact hmem
    · rw [hcontents]
      exact hmem

/-- An event that `append_event` journals is delivered exactly if what was journalled can be
delivered. -/
theorem journalled_delivered_iff (floats : String → Number) (stamp : Stamp) (projectId : String)
    {input : RegistryInput} {runId : String} {event : JournalEvent} {update : Option RunUpdate}
    {seq : ℕ} {r r' : Registry}
    (h : (RegistryCall.appendEvent runId event update).exec input r = (.ok (.appended seq), r')) :
    let stored := event.row runId seq (input.clock 0)
    stored ∈ r'.contents.runEvents ∧
      (Delivered floats stamp projectId stored.toStoredEvent ↔
        Deliverable stamp projectId stored.toStoredEvent) :=
  ⟨appendEvent_mem (RegistryCall.exec_ok h), delivered_iff floats stamp projectId _⟩

def runningRegistry : Registry :=
  let row := (NewRun.mk "p1" none none "hermes" none none .null none).row "arun_1" 0
  ⟨{ Tables.empty with runs := [row] },
    (by decide : Tables.Valid { Tables.empty with runs := [row] })⟩

def someStamp : Stamp where
  messageId := "00000000-0000-4000-8000-000000000000"
  timestamp := 0
  uuid := by
    have hall : ("00000000-0000-4000-8000-000000000000".toList.all fun c =>
        c.isAlphanum || c == '-') = true := by
      decide
    refine ⟨by decide, fun c hc => ?_⟩
    simpa using List.all_eq_true.mp hall c hc

def backendEvent (eventType : String) (payload : Value) : JournalEvent :=
  ⟨eventType, .hermes, payload, none, none⟩

def storedBackendEvent (eventType : String) (payload : Value) : StoredEvent :=
  ((backendEvent eventType payload).row "arun_1" 1 0).toStoredEvent

theorem runningRegistry_exec (eventType : String) (payload : Value) :
    let input : RegistryInput := ⟨fun _ => 0, "", true⟩
    ∃ r, (RegistryCall.appendEvent "arun_1" (backendEvent eventType payload) none).exec input
      runningRegistry = (.ok (.appended 1), r) :=
  ⟨_, rfl⟩

theorem payload_storedBackendEvent (eventType : String) (payload : Value) :
    (storedBackendEvent eventType payload).payload = (Redact.redact payload).value := rfl

/-- Three events that are journalled and not delivered: the frame of the first is too large to be
sent, the schema rejects the second, and the database refuses the `U+0000` of the third, so that it
is neither stored nor acknowledged. -/
theorem largeEvent_undelivered :
    let input : RegistryInput := ⟨fun _ => 0, "", true⟩
    let large := Value.zeros 524288
    let zero := Value.string (String.ofList [Char.ofNat 0])
    (∃ r, (RegistryCall.appendEvent "arun_1" (backendEvent "tool.output" large) none).exec input
        runningRegistry = (.ok (.appended 1), r)) ∧
      (¬∃ text, ((eventDelivery "p1" (storedBackendEvent "tool.output" large)).stamped
        someStamp).encode = .ok text) ∧
      (∃ r, (RegistryCall.appendEvent "arun_1" (backendEvent "" .null) none).exec input
        runningRegistry = (.ok (.appended 1), r)) ∧
      EventDelivery.schema ((eventDelivery "p1" (storedBackendEvent "" .null)).received
        Number.float).payload = none ∧
      (∃ r, (RegistryCall.appendEvent "arun_1" (backendEvent "tool.output" zero) none).exec input
        runningRegistry = (.ok (.appended 1), r)) ∧
      evalSql ⟨0, none⟩ (handleEvent "n1" ((storedBackendEvent "tool.output" zero).read Number.float
        "p1")) (knowingStore "arun_1").contents = none := by
  refine ⟨runningRegistry_exec _ _, ?_, runningRegistry_exec _ _, ?_, runningRegistry_exec _ _, ?_⟩
  · have hsame : (Redact.redact (Value.zeros 524288)).value = Value.zeros 524288 :=
      Value.walk_zeros (by decide) 524288
    have hpayload := payload_storedBackendEvent "tool.output" (Value.zeros 524288)
    rw [hsame] at hpayload
    have hbytes : (Value.zeros 524288).bytes = 1048577 := Value.bytes_zeros 524287
    rw [Envelope.encode_isOk_iff, Envelope.Fits, len_eventDelivery, deliveryBytes, hpayload,
      maxFrameBytes]
    omega
  · rw [schema_received]
    exact if_neg (by decide)
  · rw [eval_handleEvent (knowingStore "arun_1").valid]
    decide +kernel

/-- A small event is delivered. -/
theorem smallEvent_delivered :
    let input : RegistryInput := ⟨fun _ => 0, "", true⟩
    ∃ r, (RegistryCall.appendEvent "arun_1" (backendEvent "tool.output" (.string "ok")) none).exec
        input runningRegistry = (.ok (.appended 1), r) ∧
      Delivered Number.float someStamp "p1" (storedBackendEvent "tool.output" (.string "ok")) := by
  obtain ⟨r, hstored⟩ := runningRegistry_exec "tool.output" (.string "ok")
  have hdelivered := (journalled_delivered_iff Number.float someStamp "p1" hstored).2
  exact ⟨r, hstored, hdelivered.mpr (by decide +kernel)⟩

end Asterism
