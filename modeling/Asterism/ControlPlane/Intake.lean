import Asterism.Hermes
import Asterism.ControlPlane.Channel

/-!
# The images of a submitted message

The Control Plane reads the links and the uploaded images of a message, refuses what it
cannot send, and sends the rest as one attachment list. The Node reads that list with rules
of its own. Both sides have their own idea of surrounding white space, of the length of a
text and of a link.
-/

namespace Asterism.ControlPlane.Intake

/-- `MAX_ATTACHMENTS`: the number of images on one message. -/
def maxAttachments : ℕ := 4

/-- `MAX_URL_LENGTH`: the longest link, in code units. -/
def maxUrlLength : ℕ := 2048

/-- `MAX_ALT_LENGTH`: the longest label of a link, in code units. -/
def maxAltLength : ℕ := 200

/-- The longest name of an uploaded file, in code units. -/
def maxFilenameLength : ℕ := 255

/-- What the Control Plane looks at in a parsed link. -/
structure Url where
  protocol : String
  hostname : String
  username : String
  password : String

/-- `MultipartError`: why a message is refused: a code and a text. -/
structure Refusal where
  code : String
  message : String
  deriving DecidableEq

section Links

variable (parseUrl : String → Option Url)

/-- `urlProblem`: what is wrong with a link. The parser of the platform decides what a link is. -/
def urlProblem (url : String) : Option String :=
  if url = "" then some "a url is required"
  else if maxUrlLength < Schema.units url then
    some ("url is longer than " ++ Text.decimal maxUrlLength ++ " characters")
  else
    match parseUrl url with
    | none => some "url must be an absolute http or https url"
    | some parsed =>
      if parsed.protocol ≠ "http:" ∧ parsed.protocol ≠ "https:" then
        some "url must use http or https"
      else if parsed.hostname = "" then some "url has no host"
      else if parsed.username ≠ "" ∨ parsed.password ≠ "" then
        some "url must not embed credentials"
      else none

/-- The text of a field, and no text at all when the field holds something else. -/
def textField (item : Value) (key : String) : String := ((item.get key).bind Value.asStr).getD ""

/-- A label, unless it is empty. -/
def label (text : String) : Option String := if text = "" then none else some text

/-- A value that is an object to JavaScript: an array is one. -/
def isObject : Value → Bool
  | .object _ => true
  | .array _ => true
  | _ => false

def validateItem (index : ℕ) (item : Value) : Except String Attachment :=
  if isObject item = false then
    .error ("attachment " ++ Text.decimal index ++ " must be an object")
  else if (item.get "type").bind Value.asStr ≠ some "image_url" then
    .error ("unsupported attachment type at " ++ Text.decimal index ++
      "; only \"image_url\" is supported")
  else
    let url := Js.trim (textField item "url")
    match urlProblem parseUrl url with
    | some problem => .error ("attachment " ++ Text.decimal index ++ ": " ++ problem)
    | none =>
      let alt := Js.trim (textField item "alt")
      if maxAltLength < Schema.units alt then
        .error ("attachment " ++ Text.decimal index ++ ": label is longer than " ++
          Text.decimal maxAltLength ++ " characters")
      else .ok ⟨url, label alt⟩

/-- The loop of `validateAttachments`, up to the first link that is refused. -/
def validateItems (index : ℕ) : List Value → Except String (List Attachment)
  | [] => .ok []
  | item :: items =>
    match validateItem parseUrl index item with
    | .error e => .error e
    | .ok attachment =>
      match validateItems (index + 1) items with
      | .error e => .error e
      | .ok attachments => .ok (attachment :: attachments)

/-- `validateAttachments`: check the links of a message. -/
def validateAttachments : Option Value → Except String (List Attachment)
  | none => .ok []
  | some .null => .ok []
  | some (.array items) =>
    if maxAttachments < items.length then
      .error ("at most " ++ Text.decimal maxAttachments ++
        " attachments are allowed on one message")
    else validateItems parseUrl 0 items
  | some _ => .error "attachments must be an array"

end Links

/-- One part of the multipart body that `readMultipartRunRequest` reads. -/
inductive Part
  | file (field : String)
  /-- The JSON request, or a text that is not JSON. -/
  | request (body : Option Value)
  /-- The label of the file at this index. -/
  | alt (index : ℕ) (text : String)
  /-- A field that is not looked at. -/
  | other

/-- `MultipartRunRequest`: what has been read of a submission. -/
structure Reading where
  body : Option Value
  files : ℕ
  alts : ℕ → Option String

namespace Reading

def empty : Reading := ⟨none, 0, fun _ => none⟩

/-- The loop of `readMultipartRunRequest`, on one part. A later request or label takes the place of
an earlier one. -/
def add (reading : Reading) : Part → Reading
  | .file _ => { reading with files := reading.files + 1 }
  | .request body => { reading with body := body }
  | .alt index text =>
    if index < maxAttachments then
      { reading with alts := Function.update reading.alts index (some text) }
    else reading
  | .other => reading

/-- Why a part is refused. -/
def refusal (reading : Reading) : Part → Option Refusal
  | .file field =>
    if field ≠ "images" then
      some ⟨"invalid_request", "unexpected file field \"" ++ field ++ "\""⟩
    else if maxAttachments ≤ reading.files then
      some ⟨"too_many_attachments",
        "at most " ++ Text.decimal maxAttachments ++ " images are allowed on one message"⟩
    else none
  | .request none => some ⟨"invalid_request", "the request part is not valid JSON"⟩
  | _ => none

/-- Read the parts in order, up to the first that is refused. -/
def read (reading : Reading) : List Part → Except Refusal Reading
  | [] => .ok reading
  | part :: parts =>
    match reading.refusal part with
    | some refusal => .error refusal
    | none => (reading.add part).read parts

theorem read_eq {reading result : Reading} {parts : List Part}
    (h : reading.read parts = .ok result) : result = parts.foldl add reading := by
  induction parts generalizing reading with
  | nil => exact (Except.ok.inj h).symm
  | cons part parts ih =>
    unfold read at h
    cases hrefusal : reading.refusal part with
    | some refusal => simp [hrefusal] at h
    | none =>
      simp only [hrefusal] at h
      exact ih h

end Reading

/-- A submitted message: a JSON request, or one with uploaded images. -/
inductive Request
  | json (body : Value)
  | multipart (parts : List Part)

namespace Request

/-- What a submission holds, before any of it is checked. -/
def reading : Request → Reading
  | .json body => ⟨some body, 0, fun _ => none⟩
  | .multipart parts => parts.foldl Reading.add Reading.empty

def links (request : Request) : List Value :=
  match request.reading.body.bind fun body => body.get "attachments" with
  | some (.array items) => items
  | _ => []

def altText (request : Request) (index : ℕ) : String := (request.reading.alts index).getD ""

end Request

/-- The labels of uploaded images. The source goes through the labels and not through the
images; each label has its own image and every refusal is the same. -/
def fileLabels (reading : Reading) : Except Refusal (List (Option String)) :=
  let texts := (List.range reading.files).map fun index =>
    Js.trim ((reading.alts index).getD "")
  if texts.any fun text => maxFilenameLength < Schema.units text then
    .error ⟨"invalid_request", "an image label is too long"⟩
  else .ok (texts.map label)

/-- `readMultipartRunRequest`: read a submission: its JSON request and the labels of its images. -/
def readRequest : Request → Except Refusal (Value × List (Option String))
  | .json body => .ok (body, [])
  | .multipart parts =>
    match Reading.empty.read parts with
    | .error refusal => .error refusal
    | .ok reading =>
      match reading.body with
      | none => .error ⟨"invalid_request", "a \"request\" JSON part is required"⟩
      | some body =>
        match fileLabels reading with
        | .error refusal => .error refusal
        | .ok labels => .ok (body, labels)

/-- The letters of an identifier or an encoded signature. -/
def isWord (c : Char) : Bool := Text.isAsciiAlphanumeric c || c == '-' || c == '_'

/-- A text of a fixed length in the letters of identifiers and signatures. -/
structure Word (length : ℕ) where
  chars : List Char
  length_eq : chars.length = length
  isWord_of_mem : ∀ c ∈ chars, isWord c = true

/-- The route under which stored images are served. -/
def mediaRoutePrefix : String := "/_asterism/media/v1"

/-- What the links of uploaded images are made from. An identifier is `att_` and 32
hexadecimal digits. A signature is the base64url text of 32 bytes. -/
structure Deployment where
  publicBaseUrl : String
  mediaSigningKey : String
  signAttachment : List Char → String → Word 43

namespace Deployment

/-- The base of every link, without slashes at its end. -/
def base (deployment : Deployment) : List Char :=
  deployment.publicBaseUrl.toList.rdropWhile fun c => c == '/'

/-- What follows the base in the link of an image. -/
def tail (deployment : Deployment) (attachmentId : Word 36) : List Char :=
  mediaRoutePrefix.toList ++ '/' :: attachmentId.chars ++
    '/' :: (deployment.signAttachment attachmentId.chars deployment.mediaSigningKey).chars

/-- `attachmentCapabilityUrl`: the link under which the provider fetches an uploaded image. -/
def attachmentCapabilityUrl (deployment : Deployment) (attachmentId : Word 36) : String :=
  String.ofList (deployment.base ++ deployment.tail attachmentId)

end Deployment

/-- What the Node receives: the links, then the uploaded images. -/
def nodeAttachments (deployment : Deployment) (attachmentIds : ℕ → Word 36)
    (links : List Attachment) (labels : List (Option String)) : List Attachment :=
  links ++ labels.mapIdx fun index alt =>
    ⟨deployment.attachmentCapabilityUrl (attachmentIds index), alt⟩

/-- The schema of the request admits an array of at most one link too many. -/
def wellShaped : Option Value → Bool
  | none => true
  | some (.array items) => items.length ≤ maxAttachments + 1
  | some _ => false

/-- The route `POST /api/v1/projects/:projectId/runs`, as far as images go: accept a submission, and
compose what the Node receives. -/
def accept (parseUrl : String → Option Url) (deployment : Deployment)
    (attachmentIds : ℕ → Word 36) (request : Request) : Except Refusal (List Attachment) :=
  match readRequest request with
  | .error refusal => .error refusal
  | .ok (body, labels) =>
    if wellShaped (body.get "attachments") = false then .error ⟨"invalid_request", ""⟩
    else
      match validateAttachments parseUrl (body.get "attachments") with
      | .error message => .error ⟨"invalid_attachment", message⟩
      | .ok links =>
        if maxAttachments < links.length + labels.length then
          .error ⟨"too_many_attachments",
            "at most " ++ Text.decimal maxAttachments ++ " images are allowed on one message"⟩
        else .ok (nodeAttachments deployment attachmentIds links labels)

/-- The `attachments` field of the command. It is left out of a command without images. -/
def attachmentsField : List Attachment → Option Value
  | [] => none
  | attachments => some (.array (attachments.map Attachments.toValue))

section Links

variable {parseUrl : String → Option Url}

def sentLink (item : Value) : Attachment :=
  ⟨Js.trim (textField item "url"), label (Js.trim (textField item "alt"))⟩

theorem validateItem_eq {index : ℕ} {item : Value} {attachment : Attachment}
    (h : validateItem parseUrl index item = .ok attachment) :
    attachment = sentLink item := by
  unfold validateItem at h
  split at h
  · cases h
  · split at h
    · cases h
    · dsimp only at h
      split at h
      · cases h
      · split at h
        · cases h
        · exact (Except.ok.inj h).symm

theorem validateItems_eq {index : ℕ} {items : List Value} {attachments : List Attachment}
    (h : validateItems parseUrl index items = .ok attachments) :
    attachments = items.map sentLink := by
  induction items generalizing index attachments with
  | nil => exact (Except.ok.inj h).symm
  | cons item items ih =>
    unfold validateItems at h
    cases hfirst : validateItem parseUrl index item with
    | error e => simp [hfirst] at h
    | ok first =>
      cases hrest : validateItems parseUrl (index + 1) items with
      | error e => simp [hfirst, hrest] at h
      | ok rest =>
        simp only [hfirst, hrest] at h
        rw [← Except.ok.inj h, validateItem_eq hfirst, ih hrest, List.map_cons]

theorem getD_label (text : String) : (label text).getD "" = text := by
  unfold label
  split
  · rename_i hempty
    rw [hempty, Option.getD_none]
  · rfl

end Links

theorem readRequest_eq {request : Request} {body : Value} {labels : List (Option String)}
    (h : readRequest request = .ok (body, labels)) :
    request.reading.body = some body ∧ labels = (List.range request.reading.files).map fun index =>
      label (Js.trim (request.altText index)) := by
  cases request with
  | json document =>
    obtain ⟨rfl, rfl⟩ := Prod.mk.inj (Except.ok.inj h)
    exact ⟨rfl, rfl⟩
  | multipart parts =>
    unfold readRequest at h
    cases hread : Reading.empty.read parts with
    | error refusal => simp [hread] at h
    | ok reading =>
      obtain rfl := Reading.read_eq hread
      simp only [hread] at h
      cases hbody : (parts.foldl Reading.add Reading.empty).body with
      | none => simp [hbody] at h
      | some document =>
        simp only [hbody, fileLabels] at h
        split at h
        · cases h
        · rename_i labels' hlabels
          split at hlabels
          · cases hlabels
          · cases hlabels
            obtain ⟨rfl, rfl⟩ := Prod.mk.inj (Except.ok.inj h)
            refine ⟨hbody, ?_⟩
            rw [List.map_map]
            simp only [Function.comp_def, Request.altText, Request.reading]

theorem validateAttachments_eq {parseUrl : String → Option Url} {request : Request}
    {body : Value} {links : List Attachment} (hbody : request.reading.body = some body)
    (h : validateAttachments parseUrl (body.get "attachments") = .ok links) :
    links = request.links.map sentLink := by
  unfold Request.links
  rw [hbody, Option.bind_some]
  cases hfield : body.get "attachments" with
  | none =>
    rw [hfield] at h
    exact (Except.ok.inj h).symm
  | some field =>
    rw [hfield] at h
    cases field with
    | array items =>
      simp only [validateAttachments] at h
      split at h
      · cases h
      · exact validateItems_eq h
    | null => exact (Except.ok.inj h).symm
    | bool | number | string | object => cases h

theorem accept_eq {parseUrl : String → Option Url} {deployment : Deployment}
    {attachmentIds : ℕ → Word 36} {request : Request} {sent : List Attachment}
    (h : accept parseUrl deployment attachmentIds request = .ok sent) :
    sent.length ≤ Attachments.maxAttachments ∧
      sent = nodeAttachments deployment attachmentIds
        (request.links.map sentLink)
        ((List.range request.reading.files).map fun index =>
          label (Js.trim (request.altText index))) := by
  unfold accept at h
  cases hread : readRequest request with
  | error refusal => simp [hread] at h
  | ok result =>
    obtain ⟨body, labels⟩ := result
    obtain ⟨hbody, hlabels⟩ := readRequest_eq hread
    simp only [hread] at h
    split at h
    · cases h
    · cases hlinks : validateAttachments parseUrl (body.get "attachments") with
      | error message => simp [hlinks] at h
      | ok links =>
        simp only [hlinks] at h
        split at h
        · cases h
        · rename_i hfew
          obtain rfl := Except.ok.inj h
          rw [← validateAttachments_eq hbody hlinks, ← hlabels]
          refine ⟨?_, rfl⟩
          rw [nodeAttachments, List.length_append, List.length_mapIdx]
          exact Nat.le_of_not_lt hfew

end Asterism.ControlPlane.Intake

/-! ## What the Node reads of it -/

namespace Asterism.ControlPlane.Intake

/-- A link that the Node reads: short, without white space, with a scheme in lower case and
a host that holds no credentials. -/
structure PlainLink (limit : ℕ) (chars : List Char) : Prop where
  short : Text.byteCount chars ≤ limit
  unspaced : ∀ c ∈ chars, Text.isWhitespace c = false
  parts : ∃ scheme authority rest, chars = scheme ++ ("://".toList ++ (authority ++ rest)) ∧
    (scheme = "http".toList ∨ scheme = "https".toList) ∧ authority ≠ [] ∧
    (∀ c ∈ authority, c ≠ '/' ∧ c ≠ '?' ∧ c ≠ '#' ∧ c ≠ '@') ∧
    ∀ c ∈ rest.head?, c = '/' ∨ c = '?' ∨ c = '#'

/-- The submission can be carried to the Node: every link is plain and every label is short
once the Node has trimmed it, and the links of uploaded images have a plain base that
leaves room for what is appended. -/
structure Carried (deployment : Deployment) (request : Request) : Prop where
  links : ∀ item ∈ request.links,
    PlainLink Attachments.maxUrlBytes (Text.trim (Js.trim (textField item "url"))).toList ∧
    Text.len (Text.trim (Js.trim (textField item "alt"))) ≤ Attachments.maxAltBytes
  labels : ∀ index < request.reading.files,
    Text.len (Text.trim (Js.trim (request.altText index))) ≤ Attachments.maxAltBytes
  base : 0 < request.reading.files →
    PlainLink (Attachments.maxUrlBytes - 100) (deployment.base.dropWhile Text.isWhitespace)

theorem splitOnce_scheme {scheme : List Char}
    (h : scheme = "http".toList ∨ scheme = "https".toList) (rest : List Char) :
    Text.splitOnce "://".toList (scheme ++ ("://".toList ++ rest)) = some (scheme, rest) := by
  rcases h with rfl | rfl
  · rfl
  · rfl

/-- The authority of a link is what comes before its path, query or fragment. -/
theorem takeWhile_authority {authority rest : List Char}
    (hauthority : ∀ c ∈ authority, c ≠ '/' ∧ c ≠ '?' ∧ c ≠ '#' ∧ c ≠ '@')
    (hrest : ∀ c ∈ rest.head?, c = '/' ∨ c = '?' ∨ c = '#') :
    (authority ++ rest).takeWhile (fun c => c ≠ '/' ∧ c ≠ '?' ∧ c ≠ '#') = authority := by
  rw [List.takeWhile_append_of_pos]
  · cases rest with
    | nil => rw [List.takeWhile_nil, List.append_nil]
    | cons c rest =>
      have hends := hrest c rfl
      rw [List.takeWhile_cons_of_neg, List.append_nil]
      rcases hends with rfl | rfl | rfl <;> decide
  · intro c hc
    obtain ⟨hslash, hquery, hfragment, _⟩ := hauthority c hc
    exact decide_eq_true ⟨hslash, hquery, hfragment⟩

theorem head?_dropWhile_authority {rest : List Char} {c : Char}
    (h : c ∈ (rest.dropWhile fun c => c ≠ '/' ∧ c ≠ '?' ∧ c ≠ '#').head?) :
    c = '/' ∨ c = '?' ∨ c = '#' := by
  have hends := List.head?_dropWhile_not
    (fun c : Char => decide (c ≠ '/' ∧ c ≠ '?' ∧ c ≠ '#')) rest
  rw [Option.mem_def.mp h] at hends
  have hstops := of_decide_eq_false hends
  by_contra hother
  obtain ⟨hslash, hother⟩ := not_or.mp hother
  exact hstops ⟨hslash, not_or.mp hother⟩

theorem plainLink_of_validateUrl {url : String} (h : Attachments.validateUrl url = .ok ()) :
    PlainLink Attachments.maxUrlBytes url.toList := by
  unfold Attachments.validateUrl at h
  obtain ⟨scheme, rest, hsplit⟩ : ∃ scheme rest,
      Text.splitOnce "://".toList url.toList = some (scheme, rest) := by
    cases hsplit : Text.splitOnce "://".toList url.toList with
    | none =>
      rw [hsplit] at h
      dsimp only at h
      split_ifs at h
    | some parts => exact ⟨parts.1, parts.2, rfl⟩
  rw [hsplit] at h
  dsimp only at h
  split_ifs at h with hlong hscheme hhost hcredentials hspaces
  refine ⟨Nat.le_of_not_lt hlong, ?_, scheme,
    rest.takeWhile (fun c => c ≠ '/' ∧ c ≠ '?' ∧ c ≠ '#'),
    rest.dropWhile (fun c => c ≠ '/' ∧ c ≠ '?' ∧ c ≠ '#'), ?_, ?_, hhost, ?_, ?_⟩
  · intro c hc
    rw [Bool.not_eq_true, List.any_eq_false] at hspaces
    exact Bool.eq_false_of_not_eq_true (hspaces c hc)
  · rw [List.takeWhile_append_dropWhile]
    exact (Text.splitOnce_append hsplit).symm
  · by_contra hother
    exact hscheme (not_or.mp hother)
  · intro c hc
    have hkept := List.mem_takeWhile_imp hc
    obtain ⟨hslash, hquery, hfragment⟩ := of_decide_eq_true hkept
    exact ⟨hslash, hquery, hfragment, fun hat => hcredentials (hat ▸ hc)⟩
  · exact fun c hc => head?_dropWhile_authority hc

theorem validateUrl_of_plainLink {url : String}
    (h : PlainLink Attachments.maxUrlBytes url.toList) :
    Attachments.validateUrl url = .ok () := by
  obtain ⟨hshort, hspaces, scheme, authority, rest, hparts, hscheme, hhost, hauthority,
    hrest⟩ := h
  have hknown : ¬(scheme ≠ "http".toList ∧ scheme ≠ "https".toList) := by
    rintro ⟨hplain, hsecure⟩
    exact hscheme.elim hplain hsecure
  have hcredentials : '@' ∉ authority := fun hat => (hauthority '@' hat).2.2.2 rfl
  have hunspaced : ¬url.toList.any Text.isWhitespace = true := by
    rw [Bool.not_eq_true, List.any_eq_false]
    exact fun c hc => (Bool.not_eq_true _).mpr (hspaces c hc)
  have hsplit : Text.splitOnce "://".toList url.toList = some (scheme, authority ++ rest) := by
    rw [hparts]
    exact splitOnce_scheme hscheme _
  have hfits : ¬Attachments.maxUrlBytes < Text.len url := Nat.not_lt.mpr hshort
  unfold Attachments.validateUrl
  rw [if_neg hfits, hsplit]
  dsimp only
  rw [if_neg hknown, takeWhile_authority hauthority hrest, if_neg hhost, if_neg hcredentials,
    if_neg hunspaced]

theorem PlainLink.ne_nil {limit : ℕ} {chars : List Char} (h : PlainLink limit chars) :
    chars ≠ [] := by
  obtain ⟨scheme, authority, rest, rfl, _, hhost, _⟩ := h.parts
  intro hempty
  obtain ⟨_, hrest⟩ := List.append_eq_nil_iff.mp hempty
  cases hrest

theorem trimmedField_eq {item : Value} {key text : String}
    (h : (item.get key).bind Value.asStr = some text) :
    Attachments.trimmedField item key = label (Text.trim text) := by
  unfold Attachments.trimmedField label
  rw [h, Option.map_some, Option.filter_some]
  by_cases hempty : Text.trim text = ""
  · rw [if_pos hempty, if_neg (by simpa using hempty)]
  · rw [if_neg hempty, if_pos (by simpa using hempty)]

theorem trimmedField_url (attachment : Attachment) :
    Attachments.trimmedField (Attachments.toValue attachment) "url" =
      label (Text.trim attachment.url) := by
  refine trimmedField_eq ?_
  obtain ⟨url, alt⟩ := attachment
  cases alt <;> rfl

theorem trimmedField_alt (attachment : Attachment) :
    Attachments.trimmedField (Attachments.toValue attachment) "alt" =
      attachment.alt.bind fun alt => label (Text.trim alt) := by
  obtain ⟨url, alt⟩ := attachment
  cases alt with
  | none => rfl
  | some alt =>
    rw [Option.bind_some]
    exact trimmedField_eq rfl

structure Readable (attachment : Attachment) : Prop where
  url : PlainLink Attachments.maxUrlBytes (Text.trim attachment.url).toList
  alt : Text.len (Text.trim (attachment.alt.getD "")) ≤ Attachments.maxAltBytes

theorem any_long_alt (attachment : Attachment) :
    ((Attachments.trimmedField (Attachments.toValue attachment) "alt").any
        fun alt => Attachments.maxAltBytes < Text.len alt) = true ↔
      Attachments.maxAltBytes < Text.len (Text.trim (attachment.alt.getD "")) := by
  rw [trimmedField_alt]
  cases attachment.alt with
  | none => decide
  | some alt =>
    rw [Option.bind_some, Option.getD_some, label]
    split
    · rename_i hempty
      rw [hempty]
      decide
    · rw [Option.any_some, decide_eq_true_eq]

theorem parseOne_iff (attachment : Attachment) :
    (∃ read, Attachments.parseOne (Attachments.toValue attachment) = .ok read) ↔
      Readable attachment := by
  have hkind : ((Attachments.toValue attachment).get "type").bind Value.asStr =
      some Attachments.imageUrl := by
    obtain ⟨url, alt⟩ := attachment
    cases alt <;> rfl
  have hlong := any_long_alt attachment
  unfold Attachments.parseOne
  simp only [hkind, Option.getD_some, ne_eq, not_true, if_false, trimmedField_url, label]
  by_cases hempty : Text.trim attachment.url = ""
  · rw [if_pos hempty]
    refine ⟨fun ⟨_, h⟩ => (by cases h), fun h => absurd ?_ h.url.ne_nil⟩
    rw [hempty]
    rfl
  · rw [if_neg hempty]
    dsimp only
    cases hvalid : Attachments.validateUrl (Text.trim attachment.url) with
    | error e =>
      refine ⟨fun ⟨_, h⟩ => (by cases h), fun h => ?_⟩
      rw [validateUrl_of_plainLink h.url] at hvalid
      cases hvalid
    | ok _ =>
      dsimp only
      split
      · rename_i hany
        exact ⟨fun ⟨_, h⟩ => (by cases h), fun h => absurd (hlong.mp hany) (Nat.not_lt.mpr h.alt)⟩
      · rename_i hany
        exact ⟨fun _ => ⟨plainLink_of_validateUrl hvalid, Nat.le_of_not_lt (mt hlong.mpr hany)⟩,
          fun _ => ⟨_, rfl⟩⟩

theorem parseItems_iff (items : List Value) :
    (∃ read, Attachments.parseItems items = .ok read) ↔
      ∀ item ∈ items, ∃ read, Attachments.parseOne item = .ok read := by
  induction items with
  | nil => exact ⟨fun _ item hitem => (by cases hitem), fun _ => ⟨[], rfl⟩⟩
  | cons item items ih =>
    rw [List.forall_mem_cons, ← ih, Attachments.parseItems]
    cases Attachments.parseOne item with
    | error e => exact ⟨by rintro ⟨_, ⟨⟩⟩, by rintro ⟨⟨_, ⟨⟩⟩, _⟩⟩
    | ok first =>
      cases Attachments.parseItems items with
      | error e => exact ⟨by rintro ⟨_, ⟨⟩⟩, by rintro ⟨_, _, ⟨⟩⟩⟩
      | ok rest => exact ⟨fun _ => ⟨⟨_, rfl⟩, _, rfl⟩, fun _ => ⟨_, rfl⟩⟩

/-- A short attachment list is read exactly when every attachment is readable. -/
theorem parse_attachmentsField_iff {attachments : List Attachment}
    (hfew : attachments.length ≤ Attachments.maxAttachments) :
    (∃ read, Attachments.parse (attachmentsField attachments) = .ok read) ↔
      ∀ attachment ∈ attachments, Readable attachment := by
  cases attachments with
  | nil => exact ⟨fun _ attachment hmem => (by cases hmem), fun _ => ⟨[], rfl⟩⟩
  | cons first rest =>
    have hlength : ¬Attachments.maxAttachments <
        ((first :: rest).map Attachments.toValue).length := by
      rw [List.length_map]
      exact Nat.not_lt.mpr hfew
    simp only [attachmentsField, Attachments.parse, if_neg hlength]
    rw [parseItems_iff, List.forall_mem_map]
    exact forall₂_congr fun attachment _ => parseOne_iff attachment

theorem isWord_plain {c : Char} (h : isWord c = true) :
    c.utf8Size = 1 ∧ Text.isWhitespace c = false := by
  have hcode : 45 ≤ c.toNat ∧ c.toNat ≤ 122 := by
    simp only [isWord, Text.isAsciiAlphanumeric, Bool.or_eq_true, Bool.and_eq_true,
      decide_eq_true_eq, beq_iff_eq] at h
    have hrange {least most : Char} (hlow : least ≤ c) (hhigh : c ≤ most) :
        least.toNat ≤ c.toNat ∧ c.toNat ≤ most.toNat := ⟨hlow, hhigh⟩
    rcases h with (((⟨hlow, hhigh⟩ | ⟨hlow, hhigh⟩) | ⟨hlow, hhigh⟩) | rfl) | rfl
    · exact (hrange hlow hhigh).imp (Nat.le_trans (by decide)) fun h => h.trans (by decide)
    · exact (hrange hlow hhigh).imp (Nat.le_trans (by decide)) fun h => h.trans (by decide)
    · exact (hrange hlow hhigh).imp (Nat.le_trans (by decide)) fun h => h.trans (by decide)
    · decide
    · decide
  refine ⟨Char.utf8Size_eq_one_iff.mpr ?_, ?_⟩
  · rw [UInt32.le_iff_toNat_le]
    exact hcode.2.trans (by decide)
  · simp only [Text.isWhitespace, Bool.or_eq_false_iff, Bool.and_eq_false_iff,
      decide_eq_false_iff_not, beq_eq_false_iff_ne]
    omega

namespace Deployment

/-- What follows the base of a link is one byte a character and has no white space. -/
theorem tail_plain (deployment : Deployment) (attachmentId : Word 36) :
    ∀ c ∈ deployment.tail attachmentId, c.utf8Size = 1 ∧ Text.isWhitespace c = false := by
  intro c hc
  have hroute : ∀ c ∈ mediaRoutePrefix.toList ++ ['/'],
      c.utf8Size = 1 ∧ Text.isWhitespace c = false := by
    have hall : (mediaRoutePrefix.toList ++ ['/']).all fun c =>
        decide (c.utf8Size = 1 ∧ Text.isWhitespace c = false) := by decide
    exact fun c hc => of_decide_eq_true (List.all_eq_true.mp hall c hc)
  simp only [tail, List.mem_append, List.mem_cons] at hc
  rcases hc with (hc | rfl | hc) | rfl | hc
  · exact hroute c (List.mem_append_left _ hc)
  · exact hroute _ (List.mem_append_right _ (List.mem_singleton_self _))
  · exact isWord_plain (attachmentId.isWord_of_mem c hc)
  · exact hroute _ (List.mem_append_right _ (List.mem_singleton_self _))
  · exact isWord_plain (Word.isWord_of_mem _ c hc)

theorem byteCount_tail (deployment : Deployment) (attachmentId : Word 36) :
    Text.byteCount (deployment.tail attachmentId) = 100 := by
  rw [Text.byteCount_of_single fun c hc => (tail_plain deployment attachmentId c hc).1]
  simp only [tail, List.length_append, List.length_cons, Word.length_eq]
  rfl

theorem getLast?_base (deployment : Deployment) :
    (deployment.base.dropWhile Text.isWhitespace).getLast? ≠ some '/' := by
  intro hlast
  obtain ⟨spaces, hspaces⟩ := List.dropWhile_suffix (l := deployment.base) Text.isWhitespace
  have hbase : deployment.base.getLast? = some '/' := by
    rw [← hspaces, List.getLast?_append, hlast, Option.some_or]
  have hne : deployment.base ≠ [] := by
    rintro hempty
    rw [hempty] at hbase
    cases hbase
  rw [List.getLast?_eq_some_getLast hne] at hbase
  exact List.rdropWhile_last_not (fun c => c == '/') _ hne
    (beq_iff_eq.mpr (Option.some.inj hbase))

end Deployment

/-- A slash that follows a base and begins no separator comes after the host. -/
theorem exists_path {base scheme authority path rest : List Char}
    (hbase : base.getLast? ≠ some '/')
    (hscheme : scheme = "http".toList ∨ scheme = "https".toList)
    (hauthority : ∀ c ∈ authority, c ≠ '/' ∧ c ≠ '?' ∧ c ≠ '#' ∧ c ≠ '@')
    (h : base ++ '/' :: '_' :: rest = scheme ++ ("://".toList ++ (authority ++ path))) :
    ∃ kept, base = scheme ++ ("://".toList ++ (authority ++ kept)) ∧
      path = kept ++ '/' :: '_' :: rest := by
  have hcolon : '/' ∉ scheme ++ [':'] := by rcases hscheme with rfl | rfl <;> decide
  have hseparated : base ++ '/' :: '_' :: rest =
      (scheme ++ [':']) ++ '/' :: '/' :: (authority ++ path) := by
    rw [h, List.append_assoc]
    rfl
  rcases List.append_eq_append_iff.mp hseparated with ⟨more, hmore, htail⟩ | ⟨more, hmore, htail⟩
  · cases more with
    | nil => cases htail
    | cons c more =>
      obtain ⟨rfl, _⟩ := List.cons.inj htail
      exact absurd (hmore ▸ List.mem_append_right _ List.mem_cons_self) hcolon
  · -- The base holds the scheme and its colon. It holds both slashes, since it ends with none.
    rcases more with _ | ⟨c, _ | ⟨d, more⟩⟩
    · cases htail
    · obtain ⟨rfl, _⟩ := List.cons.inj htail
      rw [hmore] at hbase
      exact absurd List.getLast?_concat hbase
    · obtain ⟨hfirst, hlonger⟩ := List.cons.inj htail
      obtain ⟨hsecond, hhosted⟩ := List.cons.inj hlonger
      subst hfirst hsecond
      rcases List.append_eq_append_iff.mp hhosted with ⟨kept, hkept, hpath⟩ | ⟨cut, hcut, hslash⟩
      · refine ⟨kept, ?_, hpath⟩
        rw [hmore, hkept, List.append_assoc]
        rfl
      · cases cut with
        | nil =>
          refine ⟨[], ?_, hslash.symm⟩
          rw [hmore, hcut, List.append_assoc]
          simp only [List.append_nil]
          rfl
        | cons e cut =>
          obtain ⟨rfl, _⟩ := List.cons.inj hslash
          have hmem : '/' ∈ authority := hcut ▸ List.mem_append_right _ List.mem_cons_self
          exact absurd rfl (hauthority '/' hmem).1

theorem plainLink_append_iff (limit : ℕ) (tail : List Char) {base rest : List Char}
    (hbase : base.getLast? ≠ some '/') (htail : tail = '/' :: '_' :: rest)
    (hunspaced : ∀ c ∈ tail, Text.isWhitespace c = false) :
    PlainLink (limit + Text.byteCount tail) (base ++ tail) ↔ PlainLink limit base := by
  constructor
  · rintro ⟨hshort, hspaces, scheme, authority, path, hparts, hscheme, hhost, hauthority, hpath⟩
    rw [Text.byteCount_append] at hshort
    rw [htail] at hparts
    obtain ⟨kept, hkept, rfl⟩ := exists_path hbase hscheme hauthority hparts
    refine ⟨by omega, fun c hc => hspaces c (List.mem_append_left _ hc), scheme, authority, kept,
      hkept, hscheme, hhost, hauthority, ?_⟩
    intro c hc
    refine hpath c ?_
    rw [List.head?_append, Option.mem_def.mp hc, Option.some_or]
    rfl
  · rintro ⟨hshort, hspaces, scheme, authority, path, rfl, hscheme, hhost, hauthority, hpath⟩
    refine ⟨?_, ?_, scheme, authority, path ++ tail, ?_, hscheme, hhost, hauthority, ?_⟩
    · rw [Text.byteCount_append]
      omega
    · intro c hc
      exact (List.mem_append.mp hc).elim (hspaces c) (hunspaced c)
    · simp only [List.append_assoc]
    · intro c hc
      cases path with
      | nil =>
        rw [htail] at hc
        exact Or.inl (Option.some.inj hc).symm
      | cons d path => exact hpath c hc

namespace Deployment

/-- The Node trims the start of the link of an uploaded image, and nothing at its end. -/
theorem trim_attachmentCapabilityUrl (deployment : Deployment) (attachmentId : Word 36) :
    (Text.trim (deployment.attachmentCapabilityUrl attachmentId)).toList =
      deployment.base.dropWhile Text.isWhitespace ++ deployment.tail attachmentId := by
  have hplain := deployment.tail_plain attachmentId
  have hne : deployment.tail attachmentId ≠ [] := by
    unfold tail
    exact List.append_ne_nil_of_right_ne_nil _ (List.cons_ne_nil _ _)
  have hstart : (deployment.base ++ deployment.tail attachmentId).dropWhile Text.isWhitespace =
      deployment.base.dropWhile Text.isWhitespace ++ deployment.tail attachmentId := by
    rw [List.dropWhile_append]
    split
    · rename_i hempty
      rw [List.isEmpty_iff.mp hempty, List.nil_append]
      rfl
    · rfl
  rw [Text.trim, attachmentCapabilityUrl, String.toList_ofList, String.toList_ofList,
    Text.trimChars, Text.trimMatches, hstart]
  refine List.rdropWhile_eq_self_iff.mpr fun hjoined => ?_
  rw [List.getLast_append_of_ne_nil _ hne]
  rw [(hplain _ (List.getLast_mem hne)).2]
  exact Bool.false_ne_true

/-- The Node reads the link of an uploaded image exactly when its base is plain and leaves
room for the rest. -/
theorem plainLink_attachmentCapabilityUrl_iff (deployment : Deployment)
    (attachmentId : Word 36) :
    PlainLink Attachments.maxUrlBytes
        (Text.trim (deployment.attachmentCapabilityUrl attachmentId)).toList ↔
      PlainLink (Attachments.maxUrlBytes - 100)
        (deployment.base.dropWhile Text.isWhitespace) := by
  have hplain := deployment.tail_plain attachmentId
  have happend := plainLink_append_iff (Attachments.maxUrlBytes - 100)
    (deployment.tail attachmentId) (getLast?_base deployment) rfl
    fun c hc => (hplain c hc).2
  rw [trim_attachmentCapabilityUrl, ← happend, byteCount_tail]
  rfl

end Deployment

/-- An accepted submission is read by the Node exactly when it can be carried. -/
theorem parse_sent_iff {parseUrl : String → Option Url} {deployment : Deployment}
    {attachmentIds : ℕ → Word 36} {request : Request} {sent : List Attachment}
    (h : accept parseUrl deployment attachmentIds request = .ok sent) :
    (∃ read, Attachments.parse (attachmentsField sent) = .ok read) ↔
      Carried deployment request := by
  obtain ⟨hfew, rfl⟩ := accept_eq h
  rw [parse_attachmentsField_iff hfew, nodeAttachments, List.forall_mem_append,
    List.forall_mem_map]
  have hcapability := deployment.plainLink_attachmentCapabilityUrl_iff
  constructor
  · rintro ⟨hlinks, hfiles⟩
    have hfile {index : ℕ} (hindex : index < request.reading.files) :
        Readable ⟨deployment.attachmentCapabilityUrl (attachmentIds index),
          label (Js.trim (request.altText index))⟩ := by
      refine hfiles _ (List.mem_mapIdx.mpr ⟨index, ?_, ?_⟩)
      · rwa [List.length_map, List.length_range]
      · rw [List.getElem_map, List.getElem_range]
    refine ⟨fun item hitem => ?_, fun index hindex => ?_, fun hsome => ?_⟩
    · obtain ⟨hurl, halt⟩ := hlinks item hitem
      simp only [sentLink, getD_label] at hurl halt
      exact ⟨hurl, halt⟩
    · have halt := (hfile hindex).alt
      simp only [getD_label] at halt
      exact halt
    · exact (hcapability _).mp (hfile hsome).url
  · intro hcarried
    refine ⟨fun item hitem => ?_, fun attachment hmem => ?_⟩
    · obtain ⟨hurl, halt⟩ := hcarried.links item hitem
      refine ⟨hurl, ?_⟩
      rwa [sentLink, getD_label]
    · obtain ⟨index, hindex, rfl⟩ := List.mem_mapIdx.mp hmem
      rw [List.length_map, List.length_range] at hindex
      refine ⟨(hcapability _).mpr (hcarried.base (Nat.zero_lt_of_lt hindex)), ?_⟩
      rw [List.getElem_map, List.getElem_range, getD_label]
      exact hcarried.labels index hindex

/-- A deployment with a public address. Its signature is that of the one image below. -/
def publicDeployment : Deployment where
  publicBaseUrl := "https://asterism.example/"
  mediaSigningKey := "a-signing-key-for-uploaded-images"
  signAttachment := fun _ _ =>
    ⟨"QonGskCe45ftP6g_1QVrskR9m9mkCUaGDd2Q2fFxdEI".toList, by decide,
      List.all_eq_true.mp (by decide)⟩

def uploadedId : Word 36 :=
  ⟨"att_0123456789abcdef0123456789abcdef".toList, by decide,
    List.all_eq_true.mp (by decide)⟩

/-- What the platform reads in the link `https://example.com/photo.png`. -/
def photoUrl : Url := ⟨"https:", "example.com", "", ""⟩

def photoRequest (alt : String) : Value :=
  Value.obj [("attachments", .array [Value.obj [("type", .string "image_url"),
    ("url", .string "https://example.com/photo.png"), ("alt", .string alt)]])]

/-- A photo and an uploaded image with short labels are read by the Node. -/
theorem labelled_images_read :
    ∃ read, Attachments.parse (attachmentsField [⟨"https://example.com/photo.png", some "café"⟩,
      ⟨publicDeployment.attachmentCapabilityUrl uploadedId, some "plan"⟩]) = .ok read := by
  have haccept : accept (fun _ => some photoUrl) publicDeployment (fun _ => uploadedId)
      (.multipart [.request (some (photoRequest "café")), .file "images", .alt 0 " plan "]) =
        .ok [⟨"https://example.com/photo.png", some "café"⟩,
          ⟨publicDeployment.attachmentCapabilityUrl uploadedId, some "plan"⟩] := by
    decide +kernel
  refine (parse_sent_iff haccept).mpr ⟨?_, ?_, fun _ => ?_⟩
  · intro item hitem
    obtain rfl := List.mem_singleton.mp hitem
    exact ⟨plainLink_of_validateUrl (by decide +kernel), by decide +kernel⟩
  · intro index hindex
    obtain rfl : index = 0 := Nat.lt_one_iff.mp hindex
    decide +kernel
  · refine ⟨by decide +kernel, ?_, "https".toList, "asterism.example".toList, [],
      by decide +kernel, Or.inr rfl, by decide, ?_, fun c hc => (by cases hc)⟩
    · have hall : (publicDeployment.base.dropWhile Text.isWhitespace).all fun c =>
          !Text.isWhitespace c := by decide +kernel
      exact fun c hc => Bool.not_eq_true' _ ▸ List.all_eq_true.mp hall c hc
    · have hall : "asterism.example".toList.all fun c =>
          decide (c ≠ '/' ∧ c ≠ '?' ∧ c ≠ '#' ∧ c ≠ '@') := by decide
      exact fun c hc => of_decide_eq_true (List.all_eq_true.mp hall c hc)

/-- A label of 101 accented letters is 101 code units and 202 bytes. The Control Plane
accepts the message and the Node refuses it. -/
theorem accented_label_refused :
    accept (fun _ => some photoUrl) publicDeployment (fun _ => uploadedId)
        (.json (photoRequest (String.ofList (List.replicate 101 'é')))) =
      .ok [⟨"https://example.com/photo.png", some (String.ofList (List.replicate 101 'é'))⟩] ∧
    Attachments.parse (attachmentsField
        [⟨"https://example.com/photo.png", some (String.ofList (List.replicate 101 'é'))⟩]) =
      .error "attachment label is longer than 200 bytes" := by
  refine ⟨?_, ?_⟩
  · decide +kernel
  · decide +kernel

end Asterism.ControlPlane.Intake
