import Asterism.ChatHistory.Order
import Asterism.Node.Control

/-!
# Where a sent message comes from

Every turn that is sent was opened by a first attempt, and its answer was given by one of the
attempts, redacted when it was stored and trimmed when it is read back. The run that is
submitted is left out by its identifier, and retries open no turn of their own.
-/

namespace Asterism

namespace ChatHistory

/-- The answered turns, oldest first, with the first attempts that opened them. -/
def openedTurns (runs : List RunRecord) (sessionId currentRunId : String) :
    List (RunRecord × Turn) :=
  (runs.filterMap fun run => (turn runs sessionId currentRunId run).map (Prod.mk run)).insertionSort
    fun a b => a.2.createdAt ≤ b.2.createdAt

/-- The turns that are sent, with the first attempts that opened them. -/
def sentTurns (runs : List RunRecord) (sessionId currentRunId : String) (limits : HistoryLimits) :
    List (RunRecord × Turn) :=
  (openedTurns runs sessionId currentRunId).drop
    (build runs sessionId currentRunId limits).omittedTurns

section Sent

variable {runs : List RunRecord} {sessionId currentRunId : String}

theorem map_snd_openedTurns :
    (openedTurns runs sessionId currentRunId).map Prod.snd =
      eligibleTurns runs sessionId currentRunId := by
  rw [openedTurns, List.map_insertionSort _ (fun a b : Turn => a.createdAt ≤ b.createdAt) _ _
    fun _ _ _ _ => Iff.rfl, List.map_filterMap]
  refine congrArg _ (List.filterMap_congr fun run _ => ?_)
  rw [Option.map_map]
  exact Option.map_id'

/-- The messages of the history are those of the turns that are sent. -/
theorem build_messages_eq (limits : HistoryLimits) :
    (build runs sessionId currentRunId limits).messages =
      messages ((sentTurns runs sessionId currentRunId limits).map Prod.snd) := by
  obtain ⟨kept, hkept⟩ := exists_fits runs sessionId currentRunId limits
  have hcount := hkept.counted
  rw [hkept.sent, sentTurns, List.map_drop, map_snd_openedTurns,
    List.suffix_iff_eq_drop.mp hkept.newest, ← hcount, Nat.add_sub_cancel_left]

theorem mem_openedTurns {root : RunRecord} {found : Turn} :
    (root, found) ∈ openedTurns runs sessionId currentRunId ↔
      root ∈ runs ∧ turn runs sessionId currentRunId root = some found := by
  rw [openedTurns, List.mem_insertionSort, List.mem_filterMap]
  constructor
  · rintro ⟨run, hrun, hmap⟩
    obtain ⟨found, hfound, heq⟩ := Option.map_eq_some_iff.mp hmap
    cases heq
    exact ⟨hrun, hfound⟩
  · rintro ⟨hroot, hfound⟩
    exact ⟨root, hroot, by rw [hfound, Option.map_some]⟩

theorem mem_openedTurns_of_sent {limits : HistoryLimits} {sent : RunRecord × Turn}
    (h : sent ∈ sentTurns runs sessionId currentRunId limits) :
    sent ∈ openedTurns runs sessionId currentRunId :=
  List.mem_of_mem_drop h

theorem exists_sentTurns_eq (runs : List RunRecord) (sessionId currentRunId : String) :
    ∃ limits, sentTurns runs sessionId currentRunId limits =
      openedTurns runs sessionId currentRunId := by
  let turns := eligibleTurns runs sessionId currentRunId
  obtain ⟨limits, hturns, hbytes⟩ : ∃ limits : HistoryLimits,
      limits.maxTurns = turns.length ∧ limits.maxBytes = serializedBytes turns :=
    ⟨⟨_, _⟩, rfl, rfl⟩
  obtain ⟨kept, hkept⟩ := exists_fits runs sessionId currentRunId limits
  have hall := (hkept.longest turns (List.suffix_refl _) hturns.ge hbytes.ge).length_le
  have hcount : kept.length + (build runs sessionId currentRunId limits).omittedTurns =
      turns.length := hkept.counted
  have homitted : (build runs sessionId currentRunId limits).omittedTurns = 0 := by omega
  exact ⟨limits, by rw [sentTurns, homitted, List.drop_zero]⟩

end Sent

/-- The attempt whose answer is sent for a message. -/
def answering (runs : List RunRecord) (root : RunRecord) : Option RunRecord :=
  (attemptChain runs root.runId).reverse.find? fun run => (answer run).isSome

theorem finalAnswer_eq_bind (runs : List RunRecord) (root : RunRecord) :
    finalAnswer runs root = (answering runs root).bind answer := by
  rw [finalAnswer, latestCompletedAnswer_eq, answering]
  induction (attemptChain runs root.runId).reverse with
  | nil => rfl
  | cons run rest ih =>
    rw [List.findSome?_cons, List.find?_cons]
    cases hanswer : answer run with
    | none => exact ih
    | some text => exact hanswer.symm

end ChatHistory

/-! ## The way of an answer -/

theorem RunRow.SameRun.resultPayload_eq {row row' : RunRow} (h : row.SameRun row') :
    row'.resultPayload = row.resultPayload := by
  unfold SameRun at h
  rw [h]

/-- A run that an operation completed with a result has the redacted result. -/
theorem RegistryCall.resultPayload_completed {α : Type} {call : RegistryCall α}
    {input : RegistryInput} {r : Registry} {runId : String} {update : RunUpdate} {payload : Value}
    {row row' : RunRow} (hupdate : call.carriedUpdate = some (runId, update))
    (hresult : update.resultPayload = some payload)
    (hbefore : r.contents.findRun runId = some row) (hlive : row.status ≠ .completed)
    (hafter : (call.exec input r).2.contents.findRun runId = some row')
    (hcompleted : row'.status = .completed) :
    row'.resultPayload = some (Redact.redact payload).value := by
  obtain ⟨found, hfound, hcases⟩ := call.exec_findRun input hbefore
  obtain rfl := Option.some.inj (hafter.symm.trans hfound)
  rcases hcases with hsame | ⟨update', now, hcarried, -, hsame⟩
  · exact absurd (hsame.status_eq.symm.trans hcompleted) hlive
  · obtain rfl : update = update' := by
      rw [hupdate] at hcarried
      exact (Prod.mk.inj (Option.some.inj hcarried)).2
    rw [hsame.resultPayload_eq]
    change (update.resultPayload.map _).or _ = _
    rw [hresult]
    rfl

namespace Redact

theorem trim_cut_of_trimmed {text : String} (htrim : Text.trim text = text) {kept : List Char}
    (hkept : kept <+: text.toList) :
    Text.trim (String.ofList (kept ++ truncationMark.toList)) =
      String.ofList (kept ++ truncationMark.toList) := by
  rw [trim_cut]
  cases kept with
  | nil => rfl
  | cons c rest =>
    obtain ⟨more, hmore⟩ := hkept
    have hfirst : Text.isWhitespace c = false := by
      by_contra hspace
      have hlist := congrArg String.toList htrim
      rw [Text.trim, String.toList_ofList, Text.trimChars, Text.trimMatches, ← hmore,
        List.cons_append, List.dropWhile_cons_of_pos (Bool.eq_true_of_not_eq_false hspace)] at hlist
      have hshort := congrArg List.length hlist
      have hcut := (List.rdropWhile_prefix Text.isWhitespace
        ((rest ++ more).dropWhile Text.isWhitespace)).length_le
      have hdrop := (List.dropWhile_suffix (l := rest ++ more) Text.isWhitespace).length_le
      rw [List.length_cons] at hshort
      omega
    rw [List.dropWhile_cons_of_neg (by rw [hfirst]; exact Bool.false_ne_true)]

/-- Storing a text and trimming it gives it back exactly if it is trimmed and kept. -/
theorem trim_storedText_eq_iff (text : String) :
    Text.trim (storedText text) = text ↔ Text.trim text = text ∧ KeptVerbatim text := by
  constructor
  · intro h
    have htrim : Text.trim text = text := by
      rw [← h, Text.trim_trim]
    refine ⟨htrim, (storedText_eq_iff text).mp ?_⟩
    cases hsecret : looksLikeSecret text with
    | true =>
      have hgone : storedText text = redactedText := if_pos hsecret
      rw [hgone] at h ⊢
      rw [← h]
      decide
    | false =>
      have hbound : storedText text = (boundString text).1 := by
        rw [storedText, hsecret, if_neg Bool.false_ne_true]
      by_cases hshort : Text.len text ≤ maxStringBytes
      · rw [hbound, boundString, if_pos hshort]
      · have hcut : storedText text =
            String.ofList (Text.takeBytes maxStringBytes text.toList ++ truncationMark.toList) := by
          rw [hbound, boundString, if_neg hshort, String.ofList_append, String.ofList_toList]
        rw [hcut, trim_cut_of_trimmed htrim (Text.takeBytes_isPrefix _ _), ← hcut] at h
        exact h
  · rintro ⟨htrim, hkept⟩
    rw [(storedText_eq_iff text).mpr hkept, htrim]

end Redact

namespace ChatHistory

theorem textField_redact_output {payload : Value} {text : String}
    (h : payload.get "output" = some (.string text)) :
    textField (Redact.redact payload).value "output" =
      (some (Text.trim (Redact.storedText text))).filter fun text => text ≠ "" := by
  have hget : (Redact.redact payload).value.get "output" =
      some (.string (Redact.storedText text)) := by
    rw [Redact.get_redact (by decide), h, Option.map_some, Redact.walk_string 1 (by decide)]
  rw [textField, hget]
  rfl

/-- A run is completed with an output the backend reported, and later answers a turn of a history:
the answer that is sent is the output exactly if the output has no white space around it, does not
look like a credential and is not too long for the registry. -/
theorem assistant_eq_output_iff {α : Type} {call : RegistryCall α} {input : RegistryInput}
    {r : Registry} {runId : String} {update : RunUpdate} {payload : Value} {output : String}
    {row row' : RunRow} (hupdate : call.carriedUpdate = some (runId, update))
    (hresult : update.resultPayload = some payload)
    (houtput : payload.get "output" = some (.string output))
    (hbefore : r.contents.findRun runId = some row) (hlive : row.status ≠ .completed)
    (hafter : (call.exec input r).2.contents.findRun runId = some row')
    (hcompleted : row'.status = .completed)
    {runs : List RunRecord} {sessionId currentRunId : String} {limits : HistoryLimits}
    {root run : RunRecord} {sent : Turn}
    (hsent : (root, sent) ∈ sentTurns runs sessionId currentRunId limits)
    (hanswering : answering runs root = some run) (hrun : run.resultPayload = row'.resultPayload) :
    sent.assistant = output ↔ Text.trim output = output ∧ Redact.KeptVerbatim output := by
  have hstored := RegistryCall.resultPayload_completed hupdate hresult hbefore hlive hafter
    hcompleted
  obtain ⟨-, hturn⟩ := mem_openedTurns.mp (mem_openedTurns_of_sent hsent)
  obtain ⟨-, -, -, -, hfinal⟩ := turn_some hturn
  rw [finalAnswer_eq_bind, hanswering, Option.bind_some, answer] at hfinal
  split at hfinal
  · rw [hrun, hstored, Option.bind_some, textField_redact_output houtput] at hfinal
    have hassistant := Option.some.inj (Option.filter_eq_some_iff.mp hfinal).1
    rw [← hassistant]
    exact Redact.trim_storedText_eq_iff output
  · cases hfinal

def operation {α : Type} (now : ℤ) (runId : String) (call : RegistryCall α) : RegistryOp :=
  ⟨call, ⟨fun _ => now, runId, true⟩⟩

def message (input : String) : NewRun :=
  { projectId := "p1", sessionId := some "s1", idempotencyKey := none,
    runtimeKind := "hermes-loop", provider := none, model := none,
    requestPayload := .object [("input", .string input)], retryOfRunId := none }

def question (now : ℤ) (runId input : String) : RegistryOp :=
  operation now runId (.createRun (message input))

def progress (now : ℤ) (runId : String) (status : RunStatus) : RegistryOp :=
  operation now runId (.updateRun runId (.ofStatus status))

def completion (output : String) : RunUpdate :=
  (RunUpdate.ofStatus .completed).withResult (.object [("output", .string output)])

def asked : Registry :=
  Registry.empty.play [question 1 "r1" "hi", progress 2 "r1" .starting, progress 3 "r1" .running]

/-- The message was answered, and another one was asked. -/
def conversation (output : String) : Registry :=
  asked.play [operation 4 "r1" (.updateRun "r1" (completion output)), question 5 "r2" "and now"]

def listed (output : String) : List RunRecord := (conversation output).contents.listRuns "p1" 200

def firstTurn : RunRecord × Turn :=
  (sentTurns (listed "use a list") "s1" "r2" {}).head
    (List.ne_nil_of_length_pos (by decide +kernel))

/-- An ordinary answer is sent as it was given. -/
theorem ordinary_answer_sent :
    firstTurn.2.assistant = "use a list" ↔
      Text.trim "use a list" = "use a list" ∧ Redact.KeptVerbatim "use a list" := by
  have hbefore : (asked.contents.findRun "r1").map (fun row => row.status) = some .running := by
    decide +kernel
  have hafter : (((RegistryCall.updateRun "r1" (completion "use a list")).exec
      ⟨fun _ => 4, "r1", true⟩ asked).2.contents.findRun "r1").map
        (fun row => (row.status, row.resultPayload)) =
      some (.completed, some (.object [("output", .string "use a list")])) := by decide +kernel
  have hanswering : (answering (listed "use a list") firstTurn.1).map (fun run =>
      run.resultPayload) = some (some (.object [("output", .string "use a list")])) := by
    decide +kernel
  obtain ⟨row, hrow, hrunning⟩ := Option.map_eq_some_iff.mp hbefore
  obtain ⟨row', hrow', hdone⟩ := Option.map_eq_some_iff.mp hafter
  obtain ⟨hcompleted, hresult⟩ := Prod.mk.inj hdone
  obtain ⟨run, hrun, hanswer⟩ := Option.map_eq_some_iff.mp hanswering
  have hcarried : (RegistryCall.updateRun "r1" (completion "use a list")).carriedUpdate =
      some ("r1", completion "use a list") := rfl
  have hsent : firstTurn ∈ sentTurns (listed "use a list") "s1" "r2" {} := List.head_mem _
  exact assistant_eq_output_iff hcarried rfl rfl hrow (by rw [hrunning]; decide) hrow' hcompleted
    hsent hrun (hanswer.trans hresult.symm)

/-- An answer that begins like a credential is sent as something the backend never said. -/
theorem answer_destroyed :
    (build (listed "sk-learn is what I would use here") "s1" "r2" {}).messages =
      [⟨"user", "hi"⟩, ⟨"assistant", "[redacted]"⟩] := by
  decide +kernel

end ChatHistory

/-! # The turn that is being asked -/

namespace Registry

/-- `retry_run`, on the registry alone: it is locked from reading the run until the new run is
stored. -/
def retryRun (r : Registry) (runId : String) (input : RegistryInput) : Registry :=
  match r.contents.run runId with
  | none => r
  | some original =>
    if original.status.isRetryable then
      r.step ⟨.createRun (NodeService.retryRequest original.projectId original), input⟩
    else r

end Registry

/-- The registries that come about when runs are created, retried any number of times and changed in
any other way. -/
inductive Conversed : Registry → Prop
  | new : Conversed .empty
  | created {r : Registry} (h : Conversed r) (input : RegistryInput) (request : NewRun)
      (hfirst : request.retryOfRunId = none) : Conversed (r.step ⟨.createRun request, input⟩)
  | retried {r : Registry} (h : Conversed r) (runId : String) (input : RegistryInput) :
      Conversed (r.retryRun runId input)
  | changed {r r' : Registry} (h : Conversed r) {label : Option (String × RunUpdate)}
      (hchange : Change r.contents label r'.contents)
      (hids : r'.contents.runIds = r.contents.runIds) : Conversed r'

/-- What identifies a run and never changes: its name, its session and the run it retries. -/
def RunRow.origin (row : RunRow) : String × Option String × Option String :=
  (row.runId, row.sessionId, row.retryOfRunId)

/-- Every retry is one of a run of the same session. -/
def Inherited (origins : List (String × Option String × Option String)) : Prop :=
  ∀ origin ∈ origins, ∀ original, origin.2.2 = some original →
    ∃ first ∈ origins, first.1 = original ∧ first.2.1 = origin.2.1

theorem Tables.map_origin_updateRun (t : Tables) (runId : String) {f : RunRow → RunRow}
    (hf : ∀ row, (f row).origin = row.origin) :
    (t.updateRun runId f).runs.map RunRow.origin = t.runs.map RunRow.origin :=
  Table.map_updateWhere _ hf _

theorem Change.origins {t t' : Tables} {label : Option (String × RunUpdate)}
    (h : Change t label t') :
    t'.runs.map RunRow.origin = t.runs.map RunRow.origin ∨
      ∃ row : RunRow, t'.runs = t.runs ++ [row] := by
  cases h with
  | runInserted request runId now => exact .inr ⟨_, rfl⟩
  | runUpdated => exact .inl (t.map_origin_updateRun _ fun _ => rfl)
  | eventAppended => exact .inl (Tables.map_origin_updateRun _ _ fun _ => rfl)
  | policySet => exact .inl (t.map_origin_updateRun _ fun _ => rfl)
  | approvalRequested | approvalDecided | approvalResolved | subscriptionsChanged
  | commandAdmitted | commandUpdated | outboxChanged => exact .inl rfl

theorem Registry.step_createRun (r : Registry) (request : NewRun) (input : RegistryInput) :
    r.step ⟨.createRun request, input⟩ = r ∨
      (r.step ⟨.createRun request, input⟩).contents.runs =
        r.contents.runs ++ [request.row input.runId (input.clock 0)] := by
  unfold step RegistryCall.exec
  split
  · refine Transaction.commit_induction (motive := fun r' => r' = r ∨ r'.contents.runs =
      r.contents.runs ++ [request.row input.runId (input.clock 0)]) (.inl rfl) fun _ r' h => ?_
    rcases createRun_ok h with ⟨_, _, _, _, _, _, rfl⟩ | ⟨_, _, hcontents⟩
    · exact .inl rfl
    · exact .inr (by rw [hcontents]; rfl)
  · exact .inl rfl

theorem Inherited.append {origins : List (String × Option String × Option String)}
    (h : Inherited origins) {origin : String × Option String × Option String}
    (hnew : ∀ original, origin.2.2 = some original →
      ∃ first ∈ origins, first.1 = original ∧ first.2.1 = origin.2.1) :
    Inherited (origins ++ [origin]) := by
  intro other hother original horiginal
  have hfirst : ∃ first ∈ origins, first.1 = original ∧ first.2.1 = other.2.1 := by
    rcases List.mem_append.mp hother with hold | hlast
    · exact h other hold original horiginal
    · rw [List.mem_singleton.mp hlast] at horiginal ⊢
      exact hnew original horiginal
  obtain ⟨first, hmem, hsame⟩ := hfirst
  exact ⟨first, List.mem_append_left _ hmem, hsame⟩

/-- Every retry is one of a run of the same session, in every registry that comes about. -/
theorem Conversed.inherited {r : Registry} (h : Conversed r) :
    Inherited (r.contents.runs.map RunRow.origin) := by
  induction h with
  | new => exact List.forall_mem_nil _
  | @created r h input request hfirst ih =>
    rcases r.step_createRun request input with hsame | hadded
    · rwa [hsame]
    · rw [hadded, List.map_append]
      refine ih.append fun original horiginal => ?_
      rw [show (request.row input.runId (input.clock 0)).origin.2.2 = none from hfirst] at horiginal
      cases horiginal
  | @retried r h runId input ih =>
    unfold Registry.retryRun
    split
    · exact ih
    · rename_i original hfound
      split
      · rcases r.step_createRun (NodeService.retryRequest original.projectId original) input with
          hsame | hadded
        · rwa [hsame]
        · rw [hadded, List.map_append]
          refine ih.append fun retried hretried => ?_
          obtain ⟨row, hrow, rfl⟩ := Option.map_eq_some_iff.mp hfound
          exact ⟨row.origin, List.mem_map_of_mem (Tables.findRun_mem hrow),
            Option.some.inj hretried, rfl⟩
      · exact ih
  | @changed r r' h label hchange hids ih =>
    rcases hchange.origins with hsame | ⟨row, hadded⟩
    · rwa [hsame]
    · have hlength := congrArg List.length hids
      unfold Tables.runIds at hlength
      rw [hadded, List.length_map, List.length_map, List.length_append] at hlength
      exact absurd hlength (by simp)

namespace ChatHistory

/-- Two runs are attempts of one message. -/
def SameTurn (runs : List RunRecord) (run other : RunRecord) : Prop :=
  ∃ root ∈ runs, root.retryOfRunId = none ∧ run ∈ attempts runs root ∧ other ∈ attempts runs root

end ChatHistory

def Tables.records (t : Tables) : List RunRecord := t.runs.map RunRow.toRunRecord

namespace Tables.Valid

variable {t : Tables}

theorem records_nodup (h : t.Valid) : (t.records.map RunRecord.runId).Nodup := by
  have hids := h.runs_primary
  unfold Table.Unique at hids
  rw [List.filterMap_eq_map'] at hids
  rw [records, List.map_map]
  exact hids

theorem listRuns_nodup (h : t.Valid) (projectId : String) (limit : ℕ) :
    ((t.listRuns projectId limit).map RunRecord.runId).Nodup := by
  have hids := h.records_nodup
  rw [records, List.map_map] at hids
  rw [listRuns, List.map_map]
  have hlisted : ((t.newestFirst projectId).map (RunRecord.runId ∘ RunRow.toRunRecord)).Nodup :=
    ((t.newestFirst_perm projectId).map _).nodup_iff.mpr ((List.filter_sublist.map _).nodup hids)
  exact ((List.take_sublist _ _).map _).nodup hlisted

end Tables.Valid

theorem Tables.listRuns_subset (t : Tables) (projectId : String) (limit : ℕ) :
    t.listRuns projectId limit ⊆ t.records := by
  intro run hrun
  obtain ⟨row, hrow, rfl⟩ := List.mem_map.mp hrun
  have hmem := (List.mem_insertionSort _).mp (List.mem_of_mem_take hrow)
  exact List.mem_map_of_mem (List.mem_of_mem_filter (List.mem_reverse.mp hmem))

namespace ChatHistory

/-- The runs of one lineage are of one session. -/
theorem exists_sessionId {r : Registry} (hr : Conversed r) {line : List RunRecord}
    (h : Lineage r.contents.records line) :
    ∃ sessionId, ∀ run ∈ line, run.sessionId = sessionId := by
  induction h with
  | @root node hnode hroot => exact ⟨node.sessionId, List.forall_mem_singleton.mpr rfl⟩
  | @child node up line hnode hparent h ih =>
    obtain ⟨sessionId, hsession⟩ := ih
    refine ⟨sessionId, List.forall_mem_cons.mpr ⟨?_, hsession⟩⟩
    obtain ⟨row, hrow, rfl⟩ := List.mem_map.mp hnode
    obtain ⟨first, hfirst, hid, hinherited⟩ :=
      hr.inherited row.origin (List.mem_map_of_mem hrow) up.runId hparent
    obtain ⟨row', hrow', rfl⟩ := List.mem_map.mp hfirst
    have hsame : row'.toRunRecord = up := List.inj_on_of_nodup_map r.valid.records_nodup
      (List.mem_map_of_mem hrow') h.mem hid
    rw [← hsession up List.mem_cons_self, ← hsame]
    exact hinherited.symm

theorem sessionId_of_attempt {r : Registry} (hr : Conversed r) {root attempt : RunRecord}
    (hroot : Lineage r.contents.records [root]) (h : attempt ∈ attempts r.contents.records root) :
    root.sessionId = attempt.sessionId := by
  rcases exists_lineage r.valid.records_nodup hroot h with rfl | ⟨between, hline⟩
  · rfl
  · obtain ⟨sessionId, hsession⟩ := exists_sessionId hr hline
    rw [hsession attempt List.mem_cons_self]
    exact hsession root (List.mem_cons_of_mem _ (List.mem_append_right _ List.mem_cons_self))

/-- The first attempt is the only one that retries nothing. -/
theorem eq_root_of_attempt {runs : List RunRecord} (hids : (runs.map RunRecord.runId).Nodup)
    {root attempt : RunRecord} (hroot : Lineage runs [root]) (h : attempt ∈ attempts runs root)
    (hnone : attempt.retryOfRunId = none) : attempt = root := by
  rcases exists_lineage hids hroot h with rfl | ⟨between, hline⟩
  · rfl
  · exact absurd hnone (retryOfRunId_ne_none hline)

/-- The history of a run contains no message of the turn the run belongs to, whatever the limits,
exactly if every listed first attempt of that turn is the run itself, has no message to send, or has
no listed attempt with an answer. -/
theorem omits_own_turn_iff {r : Registry} (hr : Conversed r) {current : RunRecord}
    (hcurrent : current ∈ r.contents.records) {sessionId : String}
    (hsession : current.sessionId = some sessionId) :
    (∀ limits, ∀ sent ∈ sentTurns (r.contents.listRuns current.projectId historyScanLimit)
        sessionId current.runId limits, ¬ SameTurn r.contents.records current sent.1) ↔
      ∀ root ∈ r.contents.listRuns current.projectId historyScanLimit,
        root.retryOfRunId = none → current ∈ attempts r.contents.records root →
        root = current ∨ prompt root = none ∨
          ∀ attempt ∈ attempts (r.contents.listRuns current.projectId historyScanLimit) root,
            answer attempt = none := by
  generalize hpage : r.contents.listRuns current.projectId historyScanLimit = page
  have hpageIds : (page.map RunRecord.runId).Nodup := hpage ▸ r.valid.listRuns_nodup _ _
  have hstored : page ⊆ r.contents.records := hpage ▸ r.contents.listRuns_subset _ _
  have hids := r.valid.records_nodup
  constructor
  · intro h root hroot hfirst hattempt
    by_contra hcondition
    push Not at hcondition
    obtain ⟨hother, hprompt, attempt, hmem, hanswer⟩ := hcondition
    obtain ⟨user, huser⟩ := Option.ne_none_iff_exists'.mp hprompt
    have hline : Lineage r.contents.records [root] := .root (hstored hroot) hfirst
    have hname : root.runId ≠ current.runId := fun heq =>
      hother (List.inj_on_of_nodup_map hids (hstored hroot) hcurrent heq)
    have hfinal : ∃ assistant, finalAnswer page root = some assistant := by
      obtain ⟨last, hlast, hequal⟩ := exists_stands hpageIds (.root hroot hfirst)
        ⟨attempt, hmem, Option.isSome_iff_ne_none.mpr hanswer⟩
      obtain ⟨assistant, hassistant⟩ := Option.isSome_iff_exists.mp hlast.answered
      exact ⟨assistant, hequal.trans hassistant⟩
    obtain ⟨assistant, hassistant⟩ := hfinal
    have hturn : turn page sessionId current.runId root =
        some ⟨root.createdAt, user, assistant⟩ := by
      rw [turn_eq hname ((sessionId_of_attempt hr hline hattempt).trans hsession) hfirst, huser,
        hassistant]
      rfl
    obtain ⟨limits, hlimits⟩ := exists_sentTurns_eq page sessionId current.runId
    refine h limits (root, ⟨root.createdAt, user, assistant⟩) ?_ ?_
    · rw [hlimits]
      exact mem_openedTurns.mpr ⟨hroot, hturn⟩
    · exact ⟨root, hstored hroot, hfirst, hattempt, List.mem_cons_self⟩
  · rintro h limits ⟨source, sent⟩ hsent ⟨root, hroot, hfirst, hattempt, hsource⟩
    obtain ⟨hlisted, hturn⟩ := mem_openedTurns.mp (mem_openedTurns_of_sent hsent)
    obtain ⟨hname, -, hnone⟩ := turn_isSome (Option.isSome_of_eq_some hturn)
    obtain ⟨-, -, -, huser, hfinal⟩ := turn_some hturn
    obtain rfl := eq_root_of_attempt hids (.root hroot hfirst) hsource hnone
    rcases h source hlisted hnone hattempt with rfl | hprompt | hanswers
    · exact hname rfl
    · rw [hprompt] at huser
      cases huser
    · rw [finalAnswer_eq_none hpageIds (.root hlisted hnone)] at hfinal
      · cases hfinal
      · rintro ⟨attempt, hmem, hanswer⟩
        rw [hanswers attempt hmem] at hanswer
        cases hanswer

end ChatHistory

theorem Conversed.updated {r : Registry} (h : Conversed r) (runId : String) (update : RunUpdate)
    (input : RegistryInput) : Conversed (r.step ⟨.updateRun runId update, input⟩) := by
  unfold Registry.step RegistryCall.exec
  split
  · refine Transaction.commit_induction h fun _ r' hr' => ?_
    have happly := (updateRun_ok hr').1
    obtain ⟨row, -, -, hcontents⟩ := applyUpdate_ok_iff.mp happly
    refine .changed h (applyUpdate_change happly) ?_
    have hkeep (old : RunRow) : (update.apply (input.clock 0) (update.target row) old).runId =
        old.runId := rfl
    rw [hcontents]
    exact Table.map_updateWhere _ hkeep _
  · exact h

namespace ChatHistory

/-- A message is asked, its run is interrupted, and a retry answers it. Then the run that was
interrupted is retried once more. -/
def retriedTwice : Registry :=
  let interrupted := Registry.empty.play [question 1 "r0" "hi", progress 2 "r0" .starting,
    progress 3 "r0" .interrupted]
  let answered := (interrupted.retryRun "r0" ⟨fun _ => 4, "r1", true⟩).play
    [progress 5 "r1" .starting, operation 6 "r1" (.updateRun "r1" (completion "hello"))]
  answered.retryRun "r0" ⟨fun _ => 7, "r2", true⟩

theorem conversed_retriedTwice : Conversed retriedTwice := by
  have hasked := Conversed.new.created ⟨fun _ => 1, "r0", true⟩ (message "hi") rfl
  have hinterrupted := (hasked.updated "r0" (.ofStatus .starting)
    ⟨fun _ => 2, "r0", true⟩).updated "r0" (.ofStatus .interrupted) ⟨fun _ => 3, "r0", true⟩
  have hanswered := ((hinterrupted.retried "r0" ⟨fun _ => 4, "r1", true⟩).updated "r1"
    (.ofStatus .starting) ⟨fun _ => 5, "r1", true⟩).updated "r1" (completion "hello")
      ⟨fun _ => 6, "r1", true⟩
  exact hanswered.retried "r0" ⟨fun _ => 7, "r2", true⟩

def secondRetry : RunRecord :=
  retriedTwice.contents.records.getLast (List.ne_nil_of_length_pos (by decide +kernel))

/-- Whether the history of the second retry leaves its message out is decided by the stored runs. -/
theorem secondRetry_omits_iff :
    (∀ limits, ∀ sent ∈ sentTurns (retriedTwice.contents.listRuns secondRetry.projectId
        historyScanLimit) "s1" secondRetry.runId limits,
        ¬ SameTurn retriedTwice.contents.records secondRetry sent.1) ↔
      ∀ root ∈ retriedTwice.contents.listRuns secondRetry.projectId historyScanLimit,
        root.retryOfRunId = none → secondRetry ∈ attempts retriedTwice.contents.records root →
        root = secondRetry ∨ prompt root = none ∨
          ∀ attempt ∈ attempts (retriedTwice.contents.listRuns secondRetry.projectId
            historyScanLimit) root, answer attempt = none :=
  omits_own_turn_iff conversed_retriedTwice (List.getLast_mem _) (by decide +kernel)

/-- The second retry of a message is sent with the message as a past turn. -/
theorem secondRetry_repeats_turn :
    Conversed retriedTwice ∧
      retriedTwice.contents.records.map (fun run => (run.runId, run.retryOfRunId)) =
        [("r0", none), ("r1", some "r0"), ("r2", some "r0")] ∧
      (sentTurns (retriedTwice.contents.listRuns "p1" historyScanLimit) "s1" "r2" {}).map
        (fun sent => (sent.1.runId, sent.2.user, sent.2.assistant)) = [("r0", "hi", "hello")] ∧
      (build (retriedTwice.contents.listRuns "p1" historyScanLimit) "s1" "r2" {}).messages =
        [⟨"user", "hi"⟩, ⟨"assistant", "hello"⟩] := by
  refine ⟨conversed_retriedTwice, ?_, ?_, ?_⟩
  · decide +kernel
  · decide +kernel
  · decide +kernel

end ChatHistory

end Asterism
