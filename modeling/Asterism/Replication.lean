import Asterism.ControlPlane.Redelivery
import Asterism.Node.EventStream

/-!
# The journals of a Node and their replica

However the procedures of a Node are interleaved, and wherever they are lost, its registry
changes only as transactions do. The Control Plane stores the events that arrive and
acknowledges what it has without a gap. The network may deliver an event late, again or
never. Still only what the Node has journalled is stored, as JavaScript reads it, and all that is
acknowledged.
-/

namespace Asterism

open Process

/-- The Node changes its registry only as transactions do. -/
theorem node_changes (config : NodeConfig) (c : Pool NodeCall NodeTask World)
    (script : List (Action NodeInput NodeTask)) :
    Changes c.state.registry (c.play (node config) script).state.registry := by
  refine Pool.play_related (node config) (fun w w' => Changes w.registry w'.registry)
    (fun _ => .refl) .trans (fun request input w => ?_) c script
  change Changes w.registry (request.exec input w).2.registry
  rcases NodeCall.exec_registry request input w with hsame | ⟨_, op, hop⟩
  · rw [hsame]
  · rw [hop]
    exact (op.exec_effect _ _).changes

/-- What can become of a run: only these columns change, the status moves along edges of the
state machine, and what is known of the times and of the backend is not lost. -/
structure RunRow.Advances (row row' : RunRow) : Prop where
  kept : row' = { row with
    status := row'.status
    startedAt := row'.startedAt
    updatedAt := row'.updatedAt
    finishedAt := row'.finishedAt
    lastEventSeq := row'.lastEventSeq
    terminalReason := row'.terminalReason
    errorCode := row'.errorCode
    errorMessage := row'.errorMessage
    hermesRunId := row'.hermesRunId
    resultPayload := row'.resultPayload
    recoveryNote := row'.recoveryNote
    approvalPolicy := row'.approvalPolicy }
  status : Relation.ReflTransGen (fun s t => RunStatus.allowed s t = true) row.status row'.status
  startedAt : ∀ time ∈ row.startedAt, row'.startedAt = some time
  finishedAt : ∀ time ∈ row.finishedAt, row'.finishedAt = some time
  hermesRunId : row.hermesRunId ≠ none → row'.hermesRunId ≠ none
  /-- The end of a run stays recorded exactly if the run has ended. -/
  ended : row.finishedAt.isSome = row.status.isTerminal →
    row'.finishedAt.isSome = row'.status.isTerminal

namespace RunRow.Advances

variable {row row' row'' : RunRow}

theorem of_sameRun (h : row.SameRun row') : row.Advances row' := by
  unfold SameRun at h
  rw [h]
  exact ⟨rfl, .refl, fun _ => id, fun _ => id, id, id⟩

theorem apply {update : RunUpdate}
    (hvalid : validateTransition row.status (update.target row) = .ok ()) (now : ℤ) :
    row.Advances (update.apply now (update.target row) row) where
  kept := rfl
  status := by
    rcases validateTransition_ok_iff.mp hvalid with hsame | ⟨_, hedge⟩
    · exact hsame ▸ .refl
    · exact .single hedge
  startedAt := fun time htime => by simp [RunUpdate.apply, Option.mem_def.mp htime]
  finishedAt := fun time htime => by simp [RunUpdate.apply, Option.mem_def.mp htime]
  hermesRunId := fun hknown => by
    simp only [RunUpdate.apply]
    cases update.hermesRunId with
    | none => exact hknown
    | some id => exact Option.some_ne_none id
  ended := fun hended => by
    simp only [RunUpdate.apply]
    cases hterminal : (update.target row).isTerminal with
    | true => cases row.finishedAt <;> rfl
    | false =>
      cases hlive : row.status.isTerminal with
      | false => simpa [hlive] using hended
      | true => rw [eq_of_validateTransition hlive hvalid, hlive] at hterminal; cases hterminal

theorem trans (h : row.Advances row') (h' : row'.Advances row'') : row.Advances row'' where
  kept := h'.kept.trans (by rw [h.kept])
  status := h.status.trans h'.status
  startedAt := fun time htime => h'.startedAt time (h.startedAt time htime)
  finishedAt := fun time htime => h'.finishedAt time (h.finishedAt time htime)
  hermesRunId := fun hknown => h'.hermesRunId (h.hermesRunId hknown)
  ended := fun hended => h'.ended (h.ended hended)

end RunRow.Advances

/-- Every stored run stays stored and advances. -/
def RunsAdvance (r r' : Registry) : Prop :=
  ∀ runId, ∀ row ∈ r.contents.findRun runId,
    ∃ row' ∈ r'.contents.findRun runId, row.Advances row'

theorem Change.advances {t t' : Tables} {label : Option (String × RunUpdate)}
    (hchange : Change t label t') {runId : String} {row : RunRow}
    (hrow : t.findRun runId = some row) :
    ∃ row' ∈ t'.findRun runId, row.Advances row' := by
  cases label with
  | none =>
    obtain ⟨row', hrow', hsame⟩ := hchange.findRun_quiet hrow
    exact ⟨row', hrow', .of_sameRun hsame⟩
  | some change =>
    obtain ⟨row', hrow', ⟨_, rfl⟩ | ⟨_, hvalid, now, rfl⟩⟩ := hchange.findRun_update hrow
    · exact ⟨_, hrow', .of_sameRun (.refl _)⟩
    · exact ⟨_, hrow', .apply hvalid now⟩

/-- Whatever a Node does, and wherever it is cut off, its runs advance. -/
theorem node_runs_advance (config : NodeConfig) (c : Pool NodeCall NodeTask World)
    (script : List (Action NodeInput NodeTask)) :
    RunsAdvance c.state.registry (c.play (node config) script).state.registry := by
  intro runId row hrow
  refine (node_changes config c script).induction
    (motive := fun r => ∃ row' ∈ r.contents.findRun runId, row.Advances row')
    ⟨row, hrow, .of_sameRun (.refl row)⟩ ?_
  rintro _ _ _ hchange ⟨middle, hmiddle, hfirst⟩
  obtain ⟨row', hrow', hlast⟩ := hchange.advances hmiddle
  exact ⟨row', hrow', hfirst.trans hlast⟩

end Asterism

/-! # The replica of the Control Plane -/

namespace Asterism.ControlPlane

open Process Transaction

/-- A step stores this row: an event that a Node sent about one of its runs. -/
def Arrives (step : Step) (db : Database) (row : EventRecord) : Prop :=
  ∃ nodeId envelope event run, step = .frame nodeId envelope ∧
    envelope.messageType = "client.event" ∧ EventDelivery.schema envelope.payload = some event ∧
    db.byNodeRunId nodeId event.runId = some run ∧ row = event.row nodeId run

/-- What a step does to the stored events: none is lost, one may arrive, and a position
advances only over what is stored. -/
structure Feeds (step : Step) (db db' : Database) : Prop where
  kept : db.events <+: db'.events
  added : ∀ row ∈ db'.events, row ∈ db.events ∨ Arrives step db row
  runs : ∀ run' ∈ db'.runs, ∃ run ∈ db.runs, run.runId = run'.runId ∧ run.nodeId = run'.nodeId ∧
    ∀ seq, run.ackedEventSeq < seq → seq ≤ run'.ackedEventSeq →
      ∃ row ∈ db'.events, row.runId = run'.runId ∧ row.seq = seq

section Feeds

variable {step : Step} {db db' : Database}

theorem Feeds.of_positions (hevents : db'.events = db.events)
    (hruns : db'.runs.map (fun run => (run.runId, run.nodeId, run.ackedEventSeq)) =
      db.runs.map fun run => (run.runId, run.nodeId, run.ackedEventSeq)) :
    Feeds step db db' where
  kept := hevents ▸ List.prefix_refl _
  added := fun _ hrow => Or.inl (hevents ▸ hrow)
  runs := fun run' hrun' => by
    obtain ⟨run, hrun, hsame⟩ := List.mem_map.mp (hruns ▸ List.mem_map_of_mem hrun')
    simp only [Prod.mk.injEq] at hsame
    exact ⟨run, hrun, hsame.1, hsame.2.1, fun seq hlow hhigh => by omega⟩

theorem feeds_applied (row : CommandRecord) (result : CommandResult) (input : SqlInput) :
    Feeds step db ((db.complete result.commandId result.outcome input.now).applied row result
      input) := by
  refine .of_positions rfl ?_
  unfold Database.applied Database.outcome changedRuns
  cases hchange : runChange _ row result input.now with
  | none => rfl
  | some change =>
    refine Table.map_updateWhere _ (fun run => ?_) _
    unfold runChange at hchange
    split_ifs at hchange
    all_goals simp only [Option.map_eq_some_iff, Option.bind_eq_some_iff] at hchange
    · obtain ⟨_, _, rfl⟩ := hchange
      rfl
    · obtain ⟨_, _, _, _, rfl⟩ := hchange
      rfl
    · obtain ⟨_, _, _, _, rfl⟩ := hchange
      rfl

theorem feeds_expired (command : CommandRecord) (now : ℕ) :
    Feeds step db (db.expired command now) := by
  unfold Database.expired
  dsimp only
  split
  · split
    · exact .of_positions rfl rfl
    · refine .of_positions rfl (Table.map_updateWhere _ (fun run => ?_) _)
      rfl
  · exact .of_positions rfl rfl

theorem mem_of_le_advance {seqs : List ℤ} {start seq : ℤ} (hlow : start < seq)
    (hhigh : seq ≤ Database.advance start seqs) : seq ∈ seqs := by
  induction seqs generalizing start with
  | nil => exact absurd hhigh (not_le.mpr hlow)
  | cons next seqs ih =>
    unfold Database.advance at hhigh
    split at hhigh
    · rcases eq_or_lt_of_le (show next ≤ seq by omega) with rfl | hless
      · exact List.mem_cons_self
      · exact List.mem_cons_of_mem _ (ih hless hhigh)
    · exact absurd hhigh (not_le.mpr hlow)

theorem RunRecord.afterEvent_position (run read : RunRecord) (event : EventDelivery)
    (inserted : Bool) (now : ℕ) :
    (run.afterEvent read event inserted now).nodeId = run.nodeId ∧
      (run.afterEvent read event inserted now).ackedEventSeq = run.ackedEventSeq := by
  unfold RunRecord.afterEvent RunRecord.failed
  split
  · exact ⟨rfl, rfl⟩
  · split <;> split <;> exact ⟨rfl, rfl⟩

/-- An event is stored once, and its run is acknowledged as far as there is no gap. -/
theorem feeds_afterEvent (hvalid : db.Valid) {nodeId : String} {envelope : Envelope}
    {event : EventDelivery} {run : RunRecord} (htype : envelope.messageType = "client.event")
    (hread : EventDelivery.schema envelope.payload = some event)
    (hfound : db.byNodeRunId nodeId event.runId = some run) (now : ℕ) :
    Feeds (.frame nodeId envelope) db (db.afterEvent nodeId run event now) := by
  have hinsert : (db.insertEvent (event.row nodeId run)).runs = db.runs ∧
      ((db.insertEvent (event.row nodeId run)).events = db.events ∨
        (db.insertEvent (event.row nodeId run)).events = db.events ++ [event.row nodeId run]) := by
    unfold Database.insertEvent
    split
    · exact ⟨rfl, Or.inl rfl⟩
    · exact ⟨rfl, Or.inr rfl⟩
  refine ⟨?_, fun row hrow => ?_, fun run' hrun' => ?_⟩
  · rcases hinsert.2 with h | h
    · exact h ▸ List.prefix_refl _
    · exact h ▸ List.prefix_append _ _
  · rcases hinsert.2 with h | h
    · exact Or.inl (h ▸ hrow)
    · exact (List.mem_append.mp (h ▸ hrow)).imp_right fun hnew =>
        ⟨nodeId, envelope, event, run, rfl, htype, hread, hfound, List.mem_singleton.mp hnew⟩
  · obtain ⟨row, hrow, rfl⟩ := Table.mem_updateWhere.mp hrun'
    rw [hinsert.1] at hrow
    refine ⟨row, hrow, ?_⟩
    split
    · rename_i hid
      obtain rfl := hvalid.run_eq hrow (Database.byNodeRunId_spec hfound).1 (of_decide_eq_true hid)
      rw [RunRecord.afterEvent_runId, RunRecord.acknowledged_runId,
        (RunRecord.afterEvent_position _ _ _ _ _).1, (RunRecord.afterEvent_position _ _ _ _ _).2]
      unfold RunRecord.acknowledged
      refine ⟨rfl, by split <;> rfl, fun seq hlow hhigh => ?_⟩
      split at hhigh
      · have hmem := mem_of_le_advance hlow
          ((le_max_iff.mp hhigh).resolve_left (not_le.mpr hlow))
        rw [List.mem_insertionSort, List.mem_filter] at hmem
        obtain ⟨stored, hstored, hseq⟩ := List.mem_map.mp hmem.1
        obtain ⟨hstored, hrun⟩ := List.mem_filter.mp hstored
        exact ⟨stored, hstored, of_decide_eq_true hrun, hseq⟩
      · exact absurd hhigh (not_le.mpr hlow)
    · exact ⟨rfl, rfl, fun seq hlow hhigh => absurd hhigh (not_le.mpr hlow)⟩

theorem Channel.feeds_act (config : ChannelConfig) (c : Channel) (op : ChannelOp) :
    Feeds op.step c.store.contents (c.act config op).store.contents := by
  have hvalid : c.store.contents.Valid := c.store.valid
  have hsame (step : Step) : Feeds step c.store.contents c.store.contents :=
    .of_positions rfl rfl
  rw [Channel.act_contents]
  split
  · cases op.step with
    | sweep => exact hsame _
    | expire index =>
      simp only [Channel.transaction]
      cases c.stale[index]? with
      | none => exact hsame _
      | some command =>
        dsimp only
        rw [eval_expireCommand hvalid]
        exact feeds_expired command op.input.now
    | frame nodeId envelope =>
      simp only [Channel.transaction, handleFrame]
      split
      · cases acceptedCommand config envelope.payload with
        | none => exact hsame _
        | some commandId =>
          rw [show evalSql op.input (Program.perform (.markAccepted commandId)) c.store.contents =
            some ((), c.store.contents.markAccepted commandId op.input.now) from
            eval_safe hvalid _ rfl]
          exact .of_positions rfl rfl
      split
      · cases CommandResult.schema envelope.payload with
        | none => exact hsame _
        | some result =>
          dsimp only
          rw [eval_handleCommandResult hvalid]
          cases c.store.contents.commandById result.commandId with
          | none => exact hsame _
          | some row =>
            dsimp only
            split
            · exact hsame _
            · exact feeds_applied row result op.input
      split
      · rename_i htype
        cases hread : EventDelivery.schema envelope.payload with
        | none => exact hsame _
        | some event =>
          rw [evalSql, Dialect.eval_bind, show dialect.eval databaseSchema op.input
            (handleEvent nodeId event) _ = _ from eval_handleEvent hvalid nodeId event]
          cases hfound : c.store.contents.byNodeRunId nodeId event.runId with
          | none => exact hsame _
          | some run =>
            dsimp only
            split
            · exact feeds_afterEvent hvalid htype hread hfound op.input.now
            · exact hsame _
      · exact hsame _
  · exact hsame _

end Feeds

/-- The events of a run come from the Node of the run. -/
def OwnEvents (db : Database) : Prop :=
  ∀ row ∈ db.events, ∀ run ∈ db.runs, run.runId = row.runId → run.nodeId = row.nodeId

instance : DecidablePred OwnEvents := fun db => inferInstanceAs (Decidable (∀ row ∈ db.events, _))

/-- No Node can write into the events of a run of another Node. -/
theorem Channel.play_ownEvents (config : ChannelConfig) (c : Channel) (ops : List ChannelOp)
    (h : OwnEvents c.store.contents) : OwnEvents (c.play config ops).store.contents := by
  induction ops generalizing c with
  | nil => exact h
  | cons op ops ih =>
    refine ih _ fun row hrow run' hrun' hid => ?_
    have hfeeds := c.feeds_act config op
    obtain ⟨run, hrun, hrunId, hnode, -⟩ := hfeeds.runs run' hrun'
    rcases hfeeds.added row hrow with hrow | ⟨_, _, _, found, -, -, -, hfound, rfl⟩
    · exact hnode ▸ h row hrow run hrun (hrunId.trans hid)
    · obtain ⟨hmem, hsender, -⟩ := Database.byNodeRunId_spec hfound
      rw [← hnode, c.store.valid.run_eq hrun hmem (hrunId.trans hid)]
      exact hsender

/-- Two Nodes have a run under the same name, and an event of the first is stored. -/
def namesakeChannel : Channel where
  store :=
    let runs := [knownRun "arun_1", { knownRun "arun_1" with runId := "r2", nodeId := "n2" }]
    let event := ⟨"n1", "r1", 1, "p1", "run.started", none, .object [], some "node"⟩
    ⟨⟨[], runs, [event], {}⟩, (by decide : Database.Valid ⟨[], runs, [event], {}⟩)⟩
  stale := []

/-- An event of the second Node is stored for its own run. -/
theorem namesakeChannel_ownEvents :
    let c := namesakeChannel.play ⟨50, fun _ => ""⟩ [⟨.frame "n2" (eventDelivery "p1"
      (storedBackendEvent "run.started" .null)), ⟨100, none⟩, true⟩]
    c.store.contents.events.map (fun row => (row.nodeId, row.runId)) =
        [("n1", "r1"), ("n2", "r2")] ∧
      OwnEvents c.store.contents :=
  ⟨by decide +kernel, Channel.play_ownEvents _ _ _ (by decide)⟩

/-! ## Both sides together -/

/-- The deliveries of `pump_subscriptions` for one subscription, as it was read. -/
def pumpSubscription (t : Tables) (subscription : SubscriptionRow) : List Envelope :=
  (EventStream.eventsSince t subscription.runId subscription.ackedSeq 128).map
    (eventDelivery subscription.projectId)

/-- A Node, the channel of the Control Plane, and every event frame the Node has sent. The
network may deliver one late, again or never. -/
structure Link where
  node : Pool NodeCall NodeTask World
  channel : Channel
  sent : List Envelope

/-- The row holds what the Node journalled, as `JSON.parse` reads it: integers below `2 ^ 53` are
kept, larger ones are rounded to doubles. -/
structure EventRecord.Carries (floats : String → Number) (row : EventRecord)
    (event : StoredEvent) : Prop where
  seq : row.seq = Js.kept event.seq
  eventType : row.eventType = event.eventType
  recordedAt : row.recordedAt = some (Js.kept event.recordedAt)
  payload : row.payload = if Js.parse floats event.payload = .null then .object []
    else Js.parse floats event.payload

namespace Link

abbrev journalOf (l : Link) (runId : String) : List StoredEvent :=
  l.node.state.registry.contents.journalOf runId

abbrev tables (l : Link) : Database := l.channel.store.contents

/-- One step of either side. A run may be submitted, an event of the Node arrives only if the Node
has sent it, and a run that has a name on the Node keeps it. -/
inductive Step (config : NodeConfig) (settings : ChannelConfig) (floats : String → Number)
    (nodeId : String) (l : Link) : Link → Prop
  | node (action : Action NodeInput NodeTask) :
      Step config settings floats nodeId l
        { l with node := l.node.act (Asterism.node config) action }
  | pump (subscription : SubscriptionRow) :
      Step config settings floats nodeId l
        { l with sent := l.sent ++ pumpSubscription l.node.state.registry.contents subscription }
  | channel (op : ChannelOp)
      (hsent : ∀ envelope, op.step = .frame nodeId envelope →
        envelope.messageType = "client.event" → ∃ sent ∈ l.sent, envelope = sent.received floats)
      (hnames : ∀ run ∈ l.tables.runs, ∀ name ∈ run.nodeRunId,
        ∃ run' ∈ (l.channel.act settings op).store.contents.runs,
          run'.runId = run.runId ∧ run'.nodeRunId = some name) :
      Step config settings floats nodeId l { l with channel := l.channel.act settings op }
  | submitted (store : Store) (command : CommandRecord) (run : RunRecord)
      (hstore : store.contents = { l.tables with
        commands := l.tables.commands ++ [command], runs := l.tables.runs ++ [run] })
      (hnew : run.ackedEventSeq = 0) :
      Step config settings floats nodeId l { l with channel := { l.channel with store } }

/-- The Control Plane replicates the journals of a Node: what is on its way and what is stored
for a run is in the journal of this run, and every acknowledged event is stored. -/
structure Replicates (floats : String → Number) (nodeId : String) (l : Link) : Prop where
  sent : ∀ envelope ∈ l.sent, ∃ projectId event,
    envelope = eventDelivery projectId event ∧ event ∈ l.journalOf event.runId
  stored : ∀ row ∈ l.tables.events, ∀ run ∈ l.tables.runs, run.runId = row.runId →
    run.nodeId = nodeId → ∃ name ∈ run.nodeRunId, ∃ event ∈ l.journalOf name,
      row.Carries floats event
  acknowledged : ∀ run ∈ l.tables.runs, ∀ seq, 0 < seq → seq ≤ run.ackedEventSeq →
    ∃ row ∈ l.tables.events, row.runId = run.runId ∧ row.seq = seq

variable {config : NodeConfig} {settings : ChannelConfig} {floats : String → Number}
  {nodeId : String} {l l' : Link}

theorem Replicates.step (h : l.Replicates floats nodeId)
    (hstep : Step config settings floats nodeId l l') :
    l'.Replicates floats nodeId := by
  cases hstep with
  | node action =>
    have hgrows (runId : String) :=
      (EventStream.journalOf_prefix_of_changes (node_changes config l.node [action]) runId).subset
    refine ⟨fun envelope henvelope => ?_, fun row hrow run hrun hid hnode => ?_, h.acknowledged⟩
    · obtain ⟨projectId, event, rfl, hevent⟩ := h.sent envelope henvelope
      exact ⟨projectId, event, rfl, hgrows _ hevent⟩
    · obtain ⟨name, hname, event, hevent, hcarries⟩ := h.stored row hrow run hrun hid hnode
      exact ⟨name, hname, event, hgrows _ hevent, hcarries⟩
  | pump subscription =>
    refine ⟨fun envelope henvelope => ?_, h.stored, h.acknowledged⟩
    rcases List.mem_append.mp henvelope with henvelope | henvelope
    · exact h.sent envelope henvelope
    · obtain ⟨event, hevent, rfl⟩ := List.mem_map.mp henvelope
      have hmem := (EventStream.limited_spec _ _).1.subset hevent
      rw [List.mem_insertionSort] at hmem
      have hjournal := (List.mem_filter.mp hmem).1
      obtain ⟨row, hrow, rfl⟩ := List.mem_map.mp hjournal
      refine ⟨subscription.projectId, _, rfl, ?_⟩
      rwa [show row.runId = subscription.runId from of_decide_eq_true (List.mem_filter.mp hrow).2]
  | channel op hsent hnames =>
    have hvalid' : (l.channel.act settings op).store.contents.Valid :=
      (l.channel.act settings op).store.valid
    have hfeeds := l.channel.feeds_act settings op
    have hkeep {run run' : RunRecord} {name : String} (hrun : run ∈ l.tables.runs)
        (hname : name ∈ run.nodeRunId)
        (hrun' : run' ∈ (l.channel.act settings op).store.contents.runs)
        (hid : run.runId = run'.runId) : name ∈ run'.nodeRunId := by
      obtain ⟨found, hfound, hfoundId, hfoundName⟩ := hnames run hrun name hname
      rwa [← hvalid'.run_eq hfound hrun' (hfoundId.trans hid)]
    refine ⟨h.sent, fun row hrow run' hrun' hid hnode => ?_, fun run' hrun' seq hlow hhigh => ?_⟩
    · obtain ⟨run, hrun, hrunId, hrunNode, -⟩ := hfeeds.runs run' hrun'
      rcases hfeeds.added row hrow with hrow |
        ⟨sender, envelope, event, found, hop, htype, hread, hfound, rfl⟩
      · obtain ⟨name, hname, hevent⟩ :=
          h.stored row hrow run hrun (hrunId.trans hid) (hrunNode.trans hnode)
        exact ⟨name, hkeep hrun hname hrun' hrunId, hevent⟩
      · obtain ⟨hmem, hsender, hname⟩ := Database.byNodeRunId_spec hfound
        obtain rfl := l.channel.store.valid.run_eq hrun hmem (hrunId.trans hid)
        obtain rfl : sender = nodeId := hsender.symm.trans (hrunNode.trans hnode)
        obtain ⟨sent, hmem, rfl⟩ := hsent envelope hop htype
        obtain ⟨projectId, journalled, rfl, hevent⟩ := h.sent sent hmem
        rw [schema_received] at hread
        obtain ⟨-, hread⟩ := Option.ite_none_right_eq_some.mp hread
        obtain rfl := Option.some.inj hread
        exact ⟨journalled.runId, hkeep hrun hname hrun' hrunId, journalled, hevent, rfl, rfl, rfl,
          rfl⟩
    · obtain ⟨run, hrun, hrunId, -, hmoved⟩ := hfeeds.runs run' hrun'
      by_cases hold : seq ≤ run.ackedEventSeq
      · obtain ⟨row, hrow, hfound⟩ := h.acknowledged run hrun seq hlow hold
        exact ⟨row, hfeeds.kept.subset hrow, hrunId ▸ hfound⟩
      · exact hmoved seq (not_le.mp hold) hhigh
  | submitted store command new hstore hnew =>
    refine ⟨h.sent, fun row hrow run hrun hid hnode => ?_, fun run hrun seq hlow hhigh => ?_⟩
    · rw [tables, hstore] at hrow
      -- The run of a stored event was there before.
      obtain ⟨old, hold, holdId⟩ := List.mem_map.mp (l.channel.store.valid.events_run row hrow)
      have hmem : old ∈ store.contents.runs := hstore ▸ List.mem_append_left _ hold
      obtain rfl := store.valid.run_eq hmem hrun (holdId.trans hid.symm)
      exact h.stored row hrow old hold hid hnode
    · rw [tables, hstore] at hrun ⊢
      rcases List.mem_append.mp hrun with hrun | hrun
      · exact h.acknowledged run hrun seq hlow hhigh
      · obtain rfl := List.mem_singleton.mp hrun
        omega

/-- However the two sides and the network go on, the Control Plane keeps a replica. -/
theorem replicates_of_run (h : l.Replicates floats nodeId)
    (hrun : Relation.ReflTransGen (Step config settings floats nodeId) l l') :
    l'.Replicates floats nodeId := by
  induction hrun with
  | refl => exact h
  | tail _ hstep ih => exact ih.step hstep

end Link

/-- A Node with one journalled event, and the Control Plane that knows its run. -/
def attachedLink : Link where
  node := idleNode { World.initial with
    registry := ((RegistryCall.appendEvent "arun_1" (backendEvent "run.started" .null) none).exec
      ⟨fun _ => 0, "", true⟩ runningRegistry).2 }
  channel := ⟨knowingStore "arun_1", []⟩
  sent := []

/-- The event is sent and stored. -/
theorem attachedLink_replicates : ∃ l : Link, l.tables.events.length = 1 ∧
    l.Replicates Number.float "n1" := by
  have hstart : attachedLink.Replicates Number.float "n1" := by
    refine ⟨nofun, nofun, fun run hrun seq hlow hhigh => ?_⟩
    obtain rfl := List.mem_singleton.mp hrun
    exact absurd hhigh (not_le.mpr hlow)
  have hpump : Link.Step ⟨⟨0, 0⟩, 0, fun _ => ""⟩ ⟨50, fun _ => ""⟩ Number.float "n1"
      attachedLink _ := .pump ⟨"arun_1", "p1", 0, 0, 0⟩
  refine ⟨_, ?_, Link.replicates_of_run hstart ((Relation.ReflTransGen.single hpump).tail
    (.channel ⟨.frame "n1" ((eventDelivery "p1" (storedBackendEvent "run.started" .null)).received
      Number.float), ⟨100, none⟩, true⟩ ?_ ?_))⟩
  · decide +kernel
  · rintro envelope ⟨⟩ -
    exact ⟨_, List.mem_singleton_self _, rfl⟩
  · decide +kernel

end Asterism.ControlPlane
