import Asterism.Registry.Runs

/-!
# The backend as the Node sees it

An attachment is a link to an image, validated when a run is created and read back when it is
submitted. A continued run carries the earlier turns of its session; whole turns are dropped,
oldest first, when the history would be too long.
-/

namespace Asterism

/-- `Attachment`: one image attached to a turn. -/
structure Attachment where
  url : String
  alt : Option String
  deriving DecidableEq

namespace Attachments

/-- The number of attachments one turn may carry. -/
def maxAttachments : ℕ := 4

/-- The longest link, in bytes. -/
def maxUrlBytes : ℕ := 2048

/-- The longest label, in bytes. -/
def maxAltBytes : ℕ := 200

/-- `AttachmentKind::as_str`, for the one kind there is. -/
def imageUrl : String := "image_url"

/-- Check a link: an absolute `http` or `https` link with a host and without credentials. -/
def validateUrl (url : String) : Except String Unit :=
  if maxUrlBytes < Text.len url then
    .error ("attachment url is longer than " ++ Text.decimal maxUrlBytes ++ " bytes")
  else
    match Text.splitOnce "://".toList url.toList with
    | none => .error "attachment url must be an absolute http or https url"
    | some (scheme, rest) =>
      if scheme ≠ "http".toList ∧ scheme ≠ "https".toList then
        .error ("attachment url must use http or https, got " ++
          String.ofList (Value.encodeText (String.ofList scheme)))
      else
        let authority := rest.takeWhile fun c => c ≠ '/' ∧ c ≠ '?' ∧ c ≠ '#'
        if authority = [] then .error "attachment url has no host"
        else if '@' ∈ authority then .error "attachment url must not embed credentials"
        else if url.toList.any Text.isWhitespace then
          .error "attachment url must not contain whitespace"
        else .ok ()

/-- A text field without surrounding white space, unless nothing is left of it. -/
def trimmedField (item : Value) (key : String) : Option String :=
  (((item.get key).bind Value.asStr).map Text.trim).filter fun text => text ≠ ""

/-- `parse_one`: read one attachment. -/
def parseOne (item : Value) : Except String Attachment :=
  let kind := ((item.get "type").bind Value.asStr).getD ""
  if kind ≠ imageUrl then
    .error ("unsupported attachment type " ++ String.ofList (Value.encodeText kind) ++
      "; only \"image_url\" is supported")
  else
    match trimmedField item "url" with
    | none => .error "an image_url attachment requires a url"
    | some url =>
      match validateUrl url with
      | .error e => .error e
      | .ok _ =>
        let alt := trimmedField item "alt"
        if alt.any fun alt => maxAltBytes < Text.len alt then
          .error ("attachment label is longer than " ++ Text.decimal maxAltBytes ++ " bytes")
        else .ok ⟨url, alt⟩

/-- The loop of `parse`, up to the first item that is refused. -/
def parseItems : List Value → Except String (List Attachment)
  | [] => .ok []
  | item :: items =>
    match parseOne item with
    | .error e => .error e
    | .ok attachment =>
      match parseItems items with
      | .error e => .error e
      | .ok attachments => .ok (attachment :: attachments)

/-- `parse`: read the attachments of one turn. -/
def parse : Option Value → Except String (List Attachment)
  | none => .ok []
  | some .null => .ok []
  | some (.array items) =>
    if maxAttachments < items.length then
      .error ("at most " ++ Text.decimal maxAttachments ++
        " attachments are allowed on one message, got " ++ Text.decimal items.length)
    else parseItems items
  | some _ => .error "attachments must be an array"

def toValue (attachment : Attachment) : Value :=
  .object ((match attachment.alt with
    | some alt => [("alt", .string alt)]
    | none => []) ++ [("type", .string imageUrl), ("url", .string attachment.url)])

/-- `hermes_input`: the structured input of a submission. A turn without attachments is submitted as
text. -/
def hermesInput (text : String) : List Attachment → Value
  | [] => .string text
  | attachments =>
    .array [Value.obj [("role", .string "user"),
      ("content", .array (Value.obj [("type", .string "text"), ("text", .string text)] ::
        attachments.map fun attachment =>
          Value.obj [("type", .string imageUrl),
            ("image_url", Value.obj [("url", .string attachment.url)])]))]]

/-- `history_suffix`: how the attachments of a past turn are named in the conversation history. -/
def historySuffix : List Attachment → String
  | [] => ""
  | attachments =>
    "\n[attached images: " ++
      ", ".intercalate (attachments.map fun attachment =>
        match attachment.alt with
        | some alt => alt ++ " <" ++ attachment.url ++ ">"
        | none => "<" ++ attachment.url ++ ">") ++ "]"

end Attachments

end Asterism

/-! ## Stored attachments -/

namespace Asterism.Attachments

/-- What reading an attachment guarantees. -/
structure WellFormed (attachment : Attachment) : Prop where
  url_trimmed : Text.trim attachment.url = attachment.url
  url_nonempty : attachment.url ≠ ""
  url_valid : validateUrl attachment.url = .ok ()
  alt_trimmed : ∀ alt, attachment.alt = some alt → Text.trim alt = alt
  alt_nonempty : ∀ alt, attachment.alt = some alt → alt ≠ ""
  alt_short : ∀ alt, attachment.alt = some alt → Text.len alt ≤ maxAltBytes

theorem trimmedField_some {item : Value} {key text : String}
    (h : trimmedField item key = some text) : Text.trim text = text ∧ text ≠ "" := by
  obtain ⟨hmap, hne⟩ := Option.filter_eq_some_iff.mp h
  obtain ⟨original, -, rfl⟩ := Option.map_eq_some_iff.mp hmap
  exact ⟨Text.trim_trim original, of_decide_eq_true hne⟩

variable {attachment : Attachment}

theorem parseOne_wellFormed {item : Value}
    (h : parseOne item = .ok attachment) : WellFormed attachment := by
  unfold parseOne at h
  dsimp only at h
  split at h
  · cases h
  · cases hurl : trimmedField item "url" with
    | none =>
      rw [hurl] at h
      cases h
    | some url =>
      simp only [hurl] at h
      cases hvalid : validateUrl url with
      | error e =>
        rw [hvalid] at h
        cases h
      | ok _ =>
        simp only [hvalid] at h
        split at h
        · cases h
        · rename_i hshort
          cases h
          obtain ⟨htrim, hne⟩ := trimmedField_some hurl
          refine ⟨htrim, hne, hvalid, fun alt halt => (trimmedField_some halt).1,
            fun alt halt => (trimmedField_some halt).2, fun alt halt => ?_⟩
          have halt : trimmedField item "alt" = some alt := halt
          rw [halt, Option.any_some, decide_eq_true_eq, not_lt] at hshort
          exact hshort

variable {attachments : List Attachment}

theorem parseItems_wellFormed {items : List Value} (h : parseItems items = .ok attachments) :
    attachments.length = items.length ∧ ∀ attachment ∈ attachments, WellFormed attachment := by
  induction items generalizing attachments with
  | nil =>
    cases h
    exact ⟨rfl, List.forall_mem_nil _⟩
  | cons item items ih =>
    unfold parseItems at h
    cases hone : parseOne item with
    | error e =>
      rw [hone] at h
      cases h
    | ok first =>
      simp only [hone] at h
      cases hrest : parseItems items with
      | error e =>
        rw [hrest] at h
        cases h
      | ok rest =>
        rw [hrest] at h
        cases h
        obtain ⟨hlength, hwell⟩ := ih hrest
        refine ⟨congrArg Nat.succ hlength, List.forall_mem_cons.mpr ⟨?_, hwell⟩⟩
        exact parseOne_wellFormed hone

theorem parse_wellFormed {value : Option Value} (h : parse value = .ok attachments) :
    attachments.length ≤ maxAttachments ∧ ∀ attachment ∈ attachments, WellFormed attachment := by
  cases value with
  | none =>
    cases h
    exact ⟨Nat.zero_le _, List.forall_mem_nil _⟩
  | some value =>
    cases value with
    | null =>
      cases h
      exact ⟨Nat.zero_le _, List.forall_mem_nil _⟩
    | array items =>
      simp only [parse] at h
      split at h
      · cases h
      · rename_i hfew
        obtain ⟨hlength, hwell⟩ := parseItems_wellFormed h
        exact ⟨by omega, hwell⟩
    | bool | number | string | object => cases h

theorem trimmedField_of_get {item : Value} {key text : String}
    (hget : item.get key = some (.string text)) (htrim : Text.trim text = text) (hne : text ≠ "") :
    trimmedField item key = some text := by
  rw [trimmedField, hget]
  change (some (Text.trim text)).filter _ = _
  rw [htrim]
  exact Option.filter_eq_some_iff.mpr ⟨rfl, decide_eq_true hne⟩

theorem parseOne_toValue (h : WellFormed attachment) :
    parseOne (toValue attachment) = .ok attachment := by
  obtain ⟨url, alt⟩ := attachment
  have hkind : ((toValue ⟨url, alt⟩).get "type").bind Value.asStr = some imageUrl := by
    cases alt <;> rfl
  have hurl : trimmedField (toValue ⟨url, alt⟩) "url" = some url :=
    trimmedField_of_get (by cases alt <;> rfl) h.url_trimmed h.url_nonempty
  have hvalid : validateUrl url = .ok () := h.url_valid
  have halt : trimmedField (toValue ⟨url, alt⟩) "alt" = alt := by
    cases alt with
    | none => rfl
    | some text => exact trimmedField_of_get rfl (h.alt_trimmed text rfl) (h.alt_nonempty text rfl)
  have hshort : (alt.any fun alt => decide (maxAltBytes < Text.len alt)) = false := by
    cases alt with
    | none => rfl
    | some text => exact decide_eq_false (Nat.not_lt.mpr (h.alt_short text rfl))
  unfold parseOne
  simp only [hkind, hurl, hvalid, halt, hshort, Option.getD_some, ne_eq, not_true, if_false,
    Bool.false_eq_true]

theorem parse_toValue (hfew : attachments.length ≤ maxAttachments)
    (h : ∀ attachment ∈ attachments, WellFormed attachment) :
    parse (some (.array (attachments.map toValue))) = .ok attachments := by
  have hitems : parseItems (attachments.map toValue) = .ok attachments := by
    clear hfew
    induction attachments with
    | nil => rfl
    | cons first rest ih =>
      obtain ⟨hfirst, hrest⟩ := List.forall_mem_cons.mp h
      rw [List.map_cons, parseItems, parseOne_toValue hfirst, ih hrest]
  rw [parse, List.length_map, if_neg (Nat.not_lt.mpr hfew), hitems]

theorem validateUrl_head {url : String} (h : validateUrl url = .ok ()) :
    ∃ rest, url.toList = 'h' :: rest := by
  unfold validateUrl at h
  split at h
  · cases h
  · split at h
    · cases h
    · rename_i scheme rest hsplit
      split at h
      · cases h
      · rename_i hscheme
        have hurl := Text.splitOnce_append hsplit
        rcases Decidable.em (scheme = "http".toList) with rfl | hother
        · exact ⟨_, hurl.symm⟩
        · obtain rfl : scheme = "https".toList := by
            by_contra hne
            exact hscheme ⟨hother, hne⟩
          exact ⟨_, hurl.symm⟩

def redacted (attachment : Attachment) : Attachment :=
  { attachment with alt := attachment.alt.map Redact.storedText }

theorem storedText_short {text : String} (hshort : Text.len text ≤ Redact.maxStringBytes) :
    Redact.storedText text =
      if Redact.looksLikeSecret text then Redact.redactedText else text := by
  rw [Redact.storedText, Redact.boundString, if_pos hshort]

/-- A valid link is short and does not look like a credential, so it stays as it is. -/
theorem storedText_url (h : WellFormed attachment) :
    Redact.storedText attachment.url = attachment.url := by
  obtain ⟨rest, hhead⟩ := validateUrl_head h.url_valid
  have hlower : (Text.toAsciiLowercase attachment.url).toList =
      'h' :: rest.map Text.toAsciiLower := by
    rw [Text.toAsciiLowercase, String.toList_ofList, hhead]
    rfl
  have hsecret : Redact.looksLikeSecret attachment.url = false := by
    simp only [Redact.looksLikeSecret, h.url_trimmed, Text.startsWith, hhead, hlower]
    rfl
  have hshort : Text.len attachment.url ≤ Redact.maxStringBytes := by
    have hvalid := h.url_valid
    unfold validateUrl at hvalid
    split at hvalid
    · cases hvalid
    · rename_i hlength
      exact (Nat.le_of_not_lt hlength).trans (by decide)
  rw [storedText_short hshort, hsecret, if_neg Bool.false_ne_true]

/-- The label of an attachment that was read stays as it is or is destroyed. -/
theorem storedText_alt (h : WellFormed attachment) {alt : String}
    (halt : attachment.alt = some alt) :
    Redact.storedText alt = alt ∨ Redact.storedText alt = Redact.redactedText := by
  have hshort : Text.len alt ≤ Redact.maxStringBytes := (h.alt_short alt halt).trans (by decide)
  rw [storedText_short hshort]
  split
  · exact Or.inr rfl
  · exact Or.inl rfl

/-- A stored attachment after redaction is the redacted attachment, stored. -/
theorem walk_toValue {depth : ℕ} (hdepth : depth + 1 < Redact.maxDepth)
    (h : WellFormed attachment) :
    (Redact.walk depth (toValue attachment)).value = toValue (redacted attachment) := by
  have hkind : Redact.storedText imageUrl = imageUrl := by decide
  have hfield : ∀ text, (Redact.walk (depth + 1) (.string text)).value =
      .string (Redact.storedText text) := Redact.walk_string _ (Nat.not_le.mpr hdepth)
  have hlink : (Redact.walkFields depth [("type", .string imageUrl),
      ("url", .string attachment.url)]).1 =
        [("type", .string imageUrl), ("url", .string attachment.url)] := by
    rw [Redact.walkFields_cons (by decide), Redact.walkFields_cons (by decide),
      Redact.walkFields_nil, hfield, hfield, hkind, storedText_url h]
  obtain ⟨url, alt⟩ := attachment
  rw [toValue, Redact.walk, if_neg (by omega)]
  cases alt with
  | none => exact congrArg Value.object hlink
  | some text =>
    refine congrArg Value.object ?_
    change (Redact.walkFields depth (("alt", Value.string text) :: _)).1 = _
    rw [Redact.walkFields_cons (by decide), hfield]
    exact congrArg (List.cons _) hlink

theorem WellFormed.redacted (h : WellFormed attachment) :
    WellFormed (redacted attachment) := by
  have hlabel : ∀ text, (Attachments.redacted attachment).alt = some text →
      attachment.alt = some text ∨ text = Redact.redactedText := by
    intro text htext
    obtain ⟨original, horiginal, rfl⟩ := Option.map_eq_some_iff.mp htext
    rcases storedText_alt h horiginal with hsame | hgone
    · exact Or.inl (horiginal.trans (congrArg some hsame.symm))
    · exact Or.inr hgone
  refine ⟨h.url_trimmed, h.url_nonempty, h.url_valid, ?_, ?_, ?_⟩
  · intro text htext
    rcases hlabel text htext with horiginal | rfl
    · exact h.alt_trimmed text horiginal
    · decide
  · intro text htext
    rcases hlabel text htext with horiginal | rfl
    · exact h.alt_nonempty text horiginal
    · decide
  · intro text htext
    rcases hlabel text htext with horiginal | rfl
    · exact h.alt_short text horiginal
    · decide

/-- Stored attachments after redaction are the redacted attachments, stored. -/
theorem walk_toValue_array {depth : ℕ} (hdepth : depth + 2 < Redact.maxDepth)
    (h : ∀ attachment ∈ attachments, WellFormed attachment) :
    (Redact.walk depth (.array (attachments.map toValue))).value =
      .array ((attachments.map redacted).map toValue) := by
  have hitems : (Redact.walkItems depth (attachments.map toValue)).1 =
      (attachments.map redacted).map toValue := by
    induction attachments with
    | nil => simp only [List.map_nil, Redact.walkItems]
    | cons first rest ih =>
      obtain ⟨hfirst, hrest⟩ := List.forall_mem_cons.mp h
      simp only [List.map_cons, Redact.walkItems, ih hrest, walk_toValue hdepth hfirst]
  rw [Redact.walk, if_neg (by omega)]
  exact congrArg Value.array hitems

/-- Attachments that were accepted are accepted again after they have been stored and redacted,
wherever in a payload they are not too deep: with the same links in the same order, and every label
as it was or destroyed. -/
theorem parse_walk_toValue {depth : ℕ} (hdepth : depth + 2 < Redact.maxDepth)
    {value : Option Value} {attachments : List Attachment} (h : parse value = .ok attachments) :
    ∃ again,
      parse (some (Redact.walk depth (.array (attachments.map toValue))).value) = .ok again ∧
      again.map Attachment.url = attachments.map Attachment.url ∧
      List.Forall₂ (fun before after : Attachment => after.alt = before.alt ∨
        before.alt.isSome ∧ after.alt = some Redact.redactedText) attachments again := by
  obtain ⟨hfew, hwell⟩ := parse_wellFormed h
  refine ⟨attachments.map redacted, ?_, ?_, ?_⟩
  · rw [walk_toValue_array hdepth hwell]
    refine parse_toValue (by rwa [List.length_map]) fun attachment hmem => ?_
    obtain ⟨original, horiginal, rfl⟩ := List.mem_map.mp hmem
    exact (hwell original horiginal).redacted
  · rw [List.map_map]
    rfl
  · rw [List.forall₂_map_right_iff]
    refine List.forall₂_same.mpr fun attachment hmem => ?_
    cases halt : attachment.alt with
    | none => exact Or.inl (congrArg (Option.map Redact.storedText) halt)
    | some alt =>
      have hstored : (redacted attachment).alt = some (Redact.storedText alt) :=
        congrArg (Option.map Redact.storedText) halt
      rcases storedText_alt (hwell attachment hmem) halt with hsame | hgone
      · exact Or.inl (hstored.trans (congrArg some hsame))
      · exact Or.inr ⟨rfl, hstored.trans (congrArg some hgone)⟩

def labelledImage : Value :=
  .array [Value.obj [("type", .string imageUrl), ("url", .string "https://example.com/a.png"),
    ("alt", .string "a cat")]]

/-- A labelled image is accepted again in the payload of its run. -/
theorem labelledImage_again :
    ∃ again,
      parse (some (Redact.walk 1 (.array ([⟨"https://example.com/a.png", some "a cat"⟩].map
        toValue))).value) = .ok again ∧
      again.map Attachment.url = ["https://example.com/a.png"] ∧
      List.Forall₂ (fun before after : Attachment => after.alt = before.alt ∨
        before.alt.isSome ∧ after.alt = some Redact.redactedText)
        [⟨"https://example.com/a.png", some "a cat"⟩] again := by
  have hread : parse (some labelledImage) = .ok [⟨"https://example.com/a.png", some "a cat"⟩] := by
    decide +kernel
  exact parse_walk_toValue (by decide) hread

end Asterism.Attachments

/-! # The history of a continued run -/

namespace Asterism

/-- `HistoryLimits`: how much history a continued run may carry. -/
structure HistoryLimits where
  maxTurns : ℕ := 20
  maxBytes : ℕ := 64 * 1024
  deriving DecidableEq

/-- `HistoryMessage`: one message of the transcript. -/
structure HistoryMessage where
  role : String
  content : String
  deriving DecidableEq

/-- `BuiltHistory`: the history that fits, and what had to be left out. -/
structure BuiltHistory where
  messages : List HistoryMessage
  omittedTurns : ℕ
  bytes : ℕ

/-- `truncated`: something was left out. -/
def BuiltHistory.truncated (built : BuiltHistory) : Bool := 0 < built.omittedTurns

namespace ChatHistory

/-- `Turn`: one turn: when it was asked, the message and the answer that stood. -/
structure Turn where
  createdAt : ℤ
  user : String
  assistant : String

/-- `text_field`: a text field that is present and not blank, without surrounding white space. -/
def textField (value : Value) (key : String) : Option String :=
  (((value.get key).bind Value.asStr).map Text.trim).filter fun text => text ≠ ""

/-- The loop of `attempt_chain`: add the retries of the runs in the frontier, and their retries. A
run has one parent, so it enters the frontier once and the bound on the number of rounds is never
reached. -/
def descend (runs : List RunRecord) : ℕ → List String → List RunRecord → List RunRecord
  | 0, _, chain => chain
  | _ + 1, [], chain => chain
  | rounds + 1, parent :: frontier, chain =>
    let retries := runs.filter fun run => run.retryOfRunId = some parent
    descend runs rounds ((retries.map fun run => run.runId).reverse ++ frontier) (chain ++ retries)

/-- `attempt_chain`: a first attempt and every retry descending from it, oldest first. -/
def attemptChain (runs : List RunRecord) (rootId : String) : List RunRecord :=
  (descend runs (runs.length + 1) [rootId]
    (runs.filter fun run => run.runId = rootId)).insertionSort
    fun a b => a.createdAt ≤ b.createdAt

/-- `latest_completed_answer`: the answer of the newest attempt that completed with output. -/
def latestCompletedAnswer (attempts : List RunRecord) : Option String :=
  (attempts.reverse.filter fun run => run.status = .completed).findSome? fun run =>
    run.resultPayload.bind fun payload => textField payload "output"

/-- The body of the loop of `collect_turns`: the turn a first attempt of the session opens, if it
was answered. -/
def turn (runs : List RunRecord) (sessionId currentRunId : String) (run : RunRecord) :
    Option Turn :=
  if run.runId = currentRunId then none
  else if run.sessionId ≠ some sessionId then none
  else if run.retryOfRunId.isSome then none
  else
    match textField run.requestPayload "input" with
    | none => none
    | some user =>
      let attachments := match Attachments.parse (run.requestPayload.get "attachments") with
        | .ok attachments => attachments
        | .error _ => []
      (latestCompletedAnswer (attemptChain runs run.runId)).map fun assistant =>
        ⟨run.createdAt, user ++ Attachments.historySuffix attachments, assistant⟩

/-- `collect_turns`: the answered turns of a session, other than the current one. -/
def collectTurns (runs : List RunRecord) (sessionId currentRunId : String) : List Turn :=
  runs.filterMap (turn runs sessionId currentRunId)

def messages (turns : List Turn) : List HistoryMessage :=
  turns.flatMap fun turn => [⟨"user", turn.user⟩, ⟨"assistant", turn.assistant⟩]

/-- `serialized_bytes`: the size of some turns as they are sent. -/
def serializedBytes (turns : List Turn) : ℕ :=
  Text.len (Value.array ((messages turns).map fun message =>
    .object [("role", .string message.role), ("content", .string message.content)])).encode

/-- The loop of `build`: drop the oldest turns until the rest fits. -/
def fit (maxBytes : ℕ) : List Turn → List Turn
  | [] => []
  | turn :: turns =>
    if maxBytes < serializedBytes (turn :: turns) then fit maxBytes turns else turn :: turns

/-- `build`: the history to send with a run. -/
def build (runs : List RunRecord) (sessionId currentRunId : String) (limits : HistoryLimits) :
    BuiltHistory :=
  let turns := (collectTurns runs sessionId currentRunId).insertionSort
    fun a b => a.createdAt ≤ b.createdAt
  let recent := turns.drop (turns.length - limits.maxTurns)
  let kept := fit limits.maxBytes recent
  ⟨messages kept, turns.length - kept.length, serializedBytes kept⟩

end ChatHistory

/-! # The Hermes API -/

/-- `HermesClient`: where a project's worker listens, and the key that opens it. -/
structure HermesClient where
  baseUrl : String
  apiKey : String
  deriving DecidableEq

/-- `new`: address a worker. Only a loopback address and a key of some length are accepted. -/
def HermesClient.new (baseUrl apiKey : String) : Except String HermesClient :=
  let baseUrl := String.ofList (baseUrl.toList.rdropWhile (· = '/'))
  if !Text.startsWith baseUrl "http://127.0.0.1:" && !Text.startsWith baseUrl "http://localhost:"
  then .error "Phase A only permits a loopback Hermes API URL"
  else if Text.len apiKey < 16 then .error "Hermes API key must be at least 16 characters"
  else .ok ⟨baseUrl, apiKey⟩

/-- `StartRunRequest`: a submission. -/
structure StartRunRequest where
  input : Value
  sessionId : Option String
  instructions : Option String
  conversationHistory : List HistoryMessage

/-- `StartRunResponse`: the answer to a submission. -/
structure StartRunResponse where
  runId : String
  status : String

/-- `json_data`: one event of a run's stream. -/
structure SseEvent where
  event : Option String
  data : String
  /-- The body read as JSON, if it is JSON. -/
  jsonData : Option Value

/-- One connection to a run's stream: the events it delivered, and why it broke if it did not
simply end. -/
structure EventStream where
  events : List SseEvent
  failure : Option String

/-- `is_terminal_status`: the backend's terminal statuses. -/
def isTerminalStatus (status : String) : Bool :=
  status = "completed" || status = "failed" || status = "cancelled"

/-- `NormalizedEvent`: a backend event in the journal's shape. -/
structure NormalizedEvent where
  eventType : String
  payload : Value
  raw : Value
  dedupeKey : String

/-- `normalize_event`: normalize one event. A body that is not JSON is kept as text. The backend
assigns no identifiers, so the identity is derived from the name, the timestamp and the body. -/
def normalizeEvent (event : SseEvent) : NormalizedEvent :=
  let payload := event.jsonData.getD (Value.obj [("text", .string event.data)])
  let eventType := (event.event.or ((payload.get "event").bind Value.asStr)).getD "unknown"
  let timestamp := ((payload.get "timestamp").map Value.encode).getD ""
  { eventType
    payload
    raw := event.jsonData.getD (.string event.data)
    dedupeKey := eventType ++ ":" ++ timestamp ++ ":" ++ Value.fingerprintValue payload }

/-- The `JournalEvent` of a normalized event. -/
def NormalizedEvent.journal (event : NormalizedEvent) : JournalEvent :=
  ⟨event.eventType, .hermes, event.payload, some event.raw, some event.dedupeKey⟩

/-- `status_of`: the status an answer reports. -/
def statusOf (value : Value) : Option String := (value.get "status").bind Value.asStr

/-- `status_update_for`: the status an event implies, if any. Any traffic other than approval events
means that the backend resumed work after a decision. -/
def statusUpdateFor (eventType : String) (current : RunStatus) : Option RunStatus :=
  if eventType = "approval.request" then some .waitingForApproval
  else if current = .waitingForApproval && !Text.startsWith eventType "approval." then some .running
  else none

/-- `failure_reason`: why a run failed: what the status answer says, and otherwise what its last
event said. -/
def failureReason (statusValue : Value) (fromEvent : Option String) : Option String :=
  (((statusValue.get "error").bind Value.asStr).filter fun message => Text.trim message ≠ "").or
    ((fromEvent.map Text.trim).filter fun message => message ≠ "")

/-- The choices of an approval request, without the persistent grant. -/
def supportedChoices : Option Value → Option Value
  | some (.array choices) =>
    some (.array (choices.filter fun choice => choice.asStr ≠ some "always"))
  | _ => none

/-- `reconcile_decision`: what a non-terminal run becomes, given what the backend reports. -/
def reconcileDecision (current : RunStatus) (backendStatus : Option String)
    (journalledEvents : ℕ) : RunStatus × String :=
  match backendStatus with
  | some status =>
    (fromHermesStatus status,
      "Hermes still reports this run as " ++ String.ofList (Value.encodeText status) ++
        "; adopted its status")
  | none =>
    if current = .created then
      (.lost, "run was never submitted to Hermes and no worker claimed it")
    else if 0 < journalledEvents then
      (.interrupted, "Hermes no longer knows this run; events were journalled but no terminal " ++
        "status was observed")
    else (.lost, "Hermes no longer knows this run and no events were ever journalled")

/-! ## Single-flight admission -/

/-- `ActiveRun`: the backend run a project's slot records. -/
structure ActiveRun where
  runId : String
  sessionId : Option String
  startedAtUnix : ℤ
  deriving DecidableEq

/-- `ConflictReason`: why a run was not admitted. -/
inductive ConflictReason
  /-- Another worker holds the project's lock. -/
  | lockHeld
  /-- The recorded run is still live. -/
  | activeRun (runId status : String)
  deriving DecidableEq

/-- `RunConflict`: a refused admission. -/
structure RunConflict where
  projectId : String
  reason : ConflictReason
  deriving DecidableEq

/-- `Display::fmt`: the text of a refused admission. -/
def RunConflict.message (conflict : RunConflict) : String :=
  match conflict.reason with
  | .lockHeld =>
    "project " ++ conflict.projectId ++ " already has an active run: the run lock is held by " ++
      "another Asterism Node process"
  | .activeRun runId status =>
    "project " ++ conflict.projectId ++ " already has an active run: " ++ runId ++ " is " ++ status

/-- `AdmissionDecision`: whether a recorded run blocks admission. -/
inductive AdmissionDecision
  | admitted
  | reject (runId status : String)
  deriving DecidableEq

/-- `classify_recorded_run`: classify a recorded run by what the backend reports about it. -/
def classifyRecordedRun : Option ActiveRun → Option String → AdmissionDecision
  | none, _ => .admitted
  | some _, none => .admitted
  | some run, some status => if isTerminalStatus status then .admitted else .reject run.runId status

/-- `conflict_from_decision`: the refusal a decision stands for. -/
def conflictFromDecision (projectId : String) : AdmissionDecision → Option RunConflict
  | .admitted => none
  | .reject runId status => some ⟨projectId, .activeRun runId status⟩

end Asterism
