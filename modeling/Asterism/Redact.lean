import Asterism.Json

/-!
# Redaction before storage

Nothing reaches the durable journal unredacted. Values under telling key names are
destroyed, values that look like a credential are destroyed wherever they stand,
long strings are cut, and a structure is followed only to a fixed depth.
-/

namespace Asterism.Redact

/-- `REDACTED`, the replacement for a redacted value. -/
def redactedText : String := "[redacted]"

/-- The replacement for a captured process environment. -/
def redactedEnvironment : String := "[redacted-environment]"

/-- `MAX_STRING_BYTES`: the longest string kept verbatim. -/
def maxStringBytes : ℕ := 8 * 1024

/-- `MAX_RAW_PAYLOAD_BYTES`: the longest raw payload kept, as it is encoded. -/
def maxRawPayloadBytes : ℕ := 64 * 1024

/-- `MAX_DEPTH`: the deepest structure that is followed. -/
def maxDepth : ℕ := 32

/-- What is written where a long string was cut. -/
def truncationMark : String := "…[truncated]"

/-- `SECRET_KEY_FRAGMENTS`: parts of keys whose values are destroyed. -/
def secretKeyFragments : List String :=
  ["accesstoken", "refreshtoken", "idtoken", "apikey", "apisecret", "authorization",
    "clientsecret", "cookie", "credential", "password", "passwd", "privatekey", "secret",
    "sessionkey", "setcookie", "token"]

/-- `ENVIRONMENT_KEY_FRAGMENTS`: parts of keys that hold a whole process environment. -/
def environmentKeyFragments : List String := ["environ", "environment", "envvars"]

/-- `SAFE_METADATA_KEY`: the key under which a producer may declare identifiers safe to keep. -/
def safeMetadataKey : String := "safe_metadata"

/-- `SafeIdentifier`: identifiers the Node generates and that carry nothing secret. -/
inductive SafeIdentifier
  | credentialId
  deriving DecidableEq

namespace SafeIdentifier

/-- `from_key`: the identifier a key names. -/
def fromKey (key : String) : Option SafeIdentifier :=
  if key = "credential_id" then some credentialId else none

/-- `accepts`: the value has exactly the shape of this identifier. -/
def accepts : SafeIdentifier → String → Bool
  | credentialId, value =>
    Text.startsWith value "cred-" &&
      (let digits := value.toList.drop 5
       digits.length == 16 &&
        digits.all fun c => ('0' ≤ c && c ≤ '9') || ('a' ≤ c && c ≤ 'f'))

end SafeIdentifier

/-- `Redacted`: a redacted payload. -/
structure Redacted where
  value : Value
  /-- At least one part was destroyed or cut. -/
  modified : Bool

def destroyed : Redacted := ⟨.string redactedText, true⟩

/-- One entry of a `safe_metadata` object survives only as a known identifier of
the right shape. -/
def safeEntryValid (key : String) (child : Value) : Bool :=
  match SafeIdentifier.fromKey key, child.asStr with
  | some identifier, some text => identifier.accepts text
  | _, _ => false

/-- What survives of a `safe_metadata` value. -/
def walkSafeMetadata : Value → Redacted
  | .object fields =>
    { value := .object (fields.map fun field =>
        if safeEntryValid field.1 field.2 then field else (field.1, .string redactedText))
      modified := fields.any fun field => !safeEntryValid field.1 field.2 }
  | _ => destroyed

/-- `normalize_key`: the letters and digits of a key, in lower case. -/
def normalizeKey (key : String) : String :=
  String.ofList ((key.toList.filter Text.isAsciiAlphanumeric).map Text.toAsciiLower)

/-- `is_secret_key`: the key names a secret. -/
def isSecretKey (key : String) : Bool :=
  secretKeyFragments.any fun fragment => Text.contains (normalizeKey key) fragment

/-- `is_environment_key`: the key names a process environment. -/
def isEnvironmentKey (key : String) : Bool :=
  environmentKeyFragments.any fun fragment => normalizeKey key == fragment

/-- `is_listing_of_credentials`: a list of credentials is not itself a credential. -/
def isListingOfCredentials (key : String) (value : Value) : Bool :=
  normalizeKey key == "credentials" && value.isArray

/-- `can_carry_secret`: numbers and truth values carry no credential. -/
def canCarrySecret : Value → Bool
  | .number _ | .bool _ => false
  | _ => true

/-- `looks_like_secret`: the text has the shape of a credential. -/
def looksLikeSecret (text : String) : Bool :=
  let trimmed := Text.trim text
  (Text.startsWith trimmed "eyJ" && 32 ≤ Text.len trimmed) ||
    (Text.startsWith trimmed "sk-" && 24 ≤ Text.len trimmed) ||
    (Text.startsWith (Text.toAsciiLowercase trimmed) "bearer " && 16 < Text.len trimmed)

/-- `bound_string`: cut a long string on a character boundary and mark the cut. -/
def boundString (text : String) : String × Bool :=
  if Text.len text ≤ maxStringBytes then (text, false)
  else (String.ofList (Text.takeBytes maxStringBytes text.toList) ++ truncationMark, true)

/-- `walk`, on a string. -/
def walkString (text : String) : Redacted :=
  if looksLikeSecret text then destroyed
  else ⟨.string (boundString text).1, (boundString text).2⟩

mutual

/-- `walk`: redact a value found at this depth. -/
def walk (depth : ℕ) (value : Value) : Redacted :=
  if maxDepth ≤ depth then destroyed
  else
    match value with
    | .object fields =>
      ⟨.object (walkFields depth fields).1, (walkFields depth fields).2⟩
    | .array items => ⟨.array (walkItems depth items).1, (walkItems depth items).2⟩
    | .string text => walkString text
    | .null => ⟨.null, false⟩
    | .bool b => ⟨.bool b, false⟩
    | .number n => ⟨.number n, false⟩

def walkItems (depth : ℕ) : List Value → List Value × Bool
  | [] => ([], false)
  | item :: items =>
    let first := walk (depth + 1) item
    let rest := walkItems depth items
    (first.value :: rest.1, first.modified || rest.2)

def walkFields (depth : ℕ) : List (String × Value) → List (String × Value) × Bool
  | [] => ([], false)
  | (key, child) :: fields =>
    let first :=
      if key = safeMetadataKey then walkSafeMetadata child
      else if isEnvironmentKey key then ⟨.string redactedEnvironment, true⟩
      else if isSecretKey key && canCarrySecret child && !isListingOfCredentials key child then
        destroyed
      else walk (depth + 1) child
    let rest := walkFields depth fields
    ((key, first.value) :: rest.1, first.modified || rest.2)

end

/-- `redact`, from the top. -/
def redact (value : Value) : Redacted := walk 0 value

/-- `bounded_raw`: the raw payload to keep, unless it is too large even after redaction. -/
def boundedRaw (value : Value) : Option Value :=
  let redacted := (redact value).value
  if maxRawPayloadBytes < Text.len redacted.encode then none else some redacted

/-- A key whose value is redacted as an ordinary value. -/
def OrdinaryKey (key : String) : Prop :=
  key ≠ safeMetadataKey ∧ isEnvironmentKey key = false ∧ isSecretKey key = false

instance (key : String) : Decidable (OrdinaryKey key) :=
  inferInstanceAs (Decidable (_ ∧ _ ∧ _))

@[simp] theorem walkFields_nil (depth : ℕ) : (walkFields depth []).1 = [] := by
  rw [walkFields]

theorem walkFields_cons {key : String} (hkey : OrdinaryKey key) (depth : ℕ) (child : Value)
    (fields : List (String × Value)) :
    (walkFields depth ((key, child) :: fields)).1 =
      (key, (walk (depth + 1) child).value) :: (walkFields depth fields).1 := by
  obtain ⟨hsafe, henvironment, hsecret⟩ := hkey
  simp only [walkFields, hsafe, henvironment, hsecret, if_false, Bool.false_and,
    Bool.false_eq_true]

/-- Redacting fields keeps their keys, and an ordinary key keeps its redacted value. -/
theorem find?_walkFields {key : String} (hkey : OrdinaryKey key) (depth : ℕ)
    (fields : List (String × Value)) :
    ((walkFields depth fields).1.find? fun field => field.1 = key).map Prod.snd =
      ((fields.find? fun field => field.1 = key).map Prod.snd).map
        fun child => (walk (depth + 1) child).value := by
  induction fields with
  | nil => simp only [walkFields, List.find?_nil, Option.map_none]
  | cons field fields ih =>
    obtain ⟨name, child⟩ := field
    by_cases hname : name = key
    · subst hname
      rw [walkFields_cons hkey]
      simp only [List.find?_cons, decide_true, Option.map_some]
    · simp only [walkFields, List.find?_cons, hname, decide_false]
      exact ih

/-- Reading an ordinary field of a redacted payload gives the redacted field. -/
theorem get_redact {key : String} (hkey : OrdinaryKey key) (payload : Value) :
    (redact payload).value.get key = (payload.get key).map fun child => (walk 1 child).value := by
  cases payload with
  | object fields => exact find?_walkFields hkey 0 fields
  | string text =>
    have hdepth : ¬maxDepth ≤ 0 := by decide
    simp only [redact, walk, if_neg hdepth, walkString, destroyed]
    split <;> rfl
  | null | bool | number | array => rfl

/-- A string a caller may rely on finding again: it does not look like a credential, and
it is short or is itself a cut string. -/
def KeptVerbatim (text : String) : Prop :=
  looksLikeSecret text = false ∧
    (Text.len text ≤ maxStringBytes ∨
      text.toList = Text.takeBytes maxStringBytes text.toList ++ truncationMark.toList)

/-- A text after redaction. -/
def storedText (text : String) : String :=
  if looksLikeSecret text then redactedText else (boundString text).1

theorem walkString_value (text : String) : (walkString text).value = .string (storedText text) := by
  unfold walkString storedText
  split <;> rfl

theorem walk_string (depth : ℕ) (hdepth : ¬maxDepth ≤ depth) (text : String) :
    (walk depth (.string text)).value = .string (storedText text) := by
  rw [walk, if_neg hdepth]
  exact walkString_value text

/-- The texts a caller may rely on are exactly the texts redaction leaves alone. -/
theorem storedText_eq_iff (text : String) : storedText text = text ↔ KeptVerbatim text := by
  cases hsecret : looksLikeSecret text with
  | true =>
    have hclean : looksLikeSecret redactedText = false := by decide
    have hne : redactedText ≠ text := by
      rintro rfl
      rw [hclean] at hsecret
      cases hsecret
    simp only [storedText, hsecret, if_true, hne, KeptVerbatim, Bool.true_eq_false, false_and]
  | false =>
    by_cases hshort : Text.len text ≤ maxStringBytes
    · simp only [storedText, hsecret, boundString, hshort, if_true, Bool.false_eq_true, if_false,
        KeptVerbatim, true_or, and_self]
    · simp only [storedText, hsecret, boundString, hshort, Bool.false_eq_true, if_false,
        KeptVerbatim, false_or, true_and]
      rw [← String.toList_inj, String.toList_append, String.toList_ofList, eq_comm]

theorem storedText_redactedText : storedText redactedText = redactedText := by decide

end Asterism.Redact

/-! # What redaction hides -/

namespace Asterism.Redact

/-- `walk`, on one field of an object. -/
def walkField (depth : ℕ) (key : String) (child : Value) : Redacted :=
  if key = safeMetadataKey then walkSafeMetadata child
  else if isEnvironmentKey key then ⟨.string redactedEnvironment, true⟩
  else if isSecretKey key && canCarrySecret child && !isListingOfCredentials key child then
    destroyed
  else walk (depth + 1) child

theorem walkFields_step (depth : ℕ) (key : String) (child : Value)
    (fields : List (String × Value)) :
    walkFields depth ((key, child) :: fields) =
      ((key, (walkField depth key child).value) :: (walkFields depth fields).1,
        (walkField depth key child).modified || (walkFields depth fields).2) := by
  rw [walkFields]
  rfl

/-! ## Values that are told apart by nothing that is kept -/

/-- The value is destroyed under a key that names a secret. -/
def HeldSecret (key : String) (child : Value) : Prop :=
  canCarrySecret child = true ∧ isListingOfCredentials key child = false

instance (key : String) (child : Value) : Decidable (HeldSecret key child) :=
  inferInstanceAs (Decidable (_ ∧ _))

/-- Two `safe_metadata` objects that differ only in entries that are rejected. -/
inductive SameEntries : List (String × Value) → List (String × Value) → Prop
  | nil : SameEntries [] []
  | same (entry : String × Value) {left right : List (String × Value)}
      (h : SameEntries left right) : SameEntries (entry :: left) (entry :: right)
  | rejected {key : String} {x y : Value} {left right : List (String × Value)}
      (hx : safeEntryValid key x = false) (hy : safeEntryValid key y = false)
      (h : SameEntries left right) : SameEntries ((key, x) :: left) ((key, y) :: right)

mutual

/-- Two values that differ only in what is stored under keys that name a secret or an
environment, or in rejected entries of `safe_metadata`. -/
inductive Alike : Value → Value → Prop
  | same (value : Value) : Alike value value
  | array {left right : List Value} (h : AlikeItems left right) :
      Alike (.array left) (.array right)
  | object {left right : List (String × Value)} (h : AlikeFields left right) :
      Alike (.object left) (.object right)

inductive AlikeItems : List Value → List Value → Prop
  | nil : AlikeItems [] []
  | cons {x y : Value} {left right : List Value} (hfirst : Alike x y)
      (hrest : AlikeItems left right) : AlikeItems (x :: left) (y :: right)

inductive AlikeFields : List (String × Value) → List (String × Value) → Prop
  | nil : AlikeFields [] []
  | cons {key : String} {x y : Value} {left right : List (String × Value)}
      (hfirst : AlikeField key x y) (hrest : AlikeFields left right) :
      AlikeFields ((key, x) :: left) ((key, y) :: right)

inductive AlikeField : String → Value → Value → Prop
  | same (key : String) (value : Value) : AlikeField key value value
  /-- They differ further inside. -/
  | inside {key : String} {x y : Value} (hkey : key ≠ safeMetadataKey) (h : Alike x y) :
      AlikeField key x y
  | secret {key : String} {x y : Value} (hkey : key ≠ safeMetadataKey)
      (hsecret : isSecretKey key = true) (hx : HeldSecret key x) (hy : HeldSecret key y) :
      AlikeField key x y
  | environment {key : String} {x y : Value} (hkey : isEnvironmentKey key = true) :
      AlikeField key x y
  /-- Entries of `safe_metadata` that are rejected. -/
  | entries {left right : List (String × Value)} (h : SameEntries left right) :
      AlikeField safeMetadataKey (.object left) (.object right)
  /-- A `safe_metadata` value that is no object is rejected as a whole. -/
  | noObject {x y : Value} (hx : ∀ fields, x ≠ .object fields) (hy : ∀ fields, y ≠ .object fields) :
      AlikeField safeMetadataKey x y

end

theorem Alike.canCarrySecret_eq {x y : Value} (h : Alike x y) :
    canCarrySecret x = canCarrySecret y := by
  cases h with
  | same | array | object => rfl

theorem Alike.isArray_eq {x y : Value} (h : Alike x y) : x.isArray = y.isArray := by
  cases h with
  | same | array | object => rfl

theorem walkSafeMetadata_of_sameEntries {left right : List (String × Value)}
    (h : SameEntries left right) :
    walkSafeMetadata (.object left) = walkSafeMetadata (.object right) := by
  have hparts : (left.map fun field =>
        if safeEntryValid field.1 field.2 then field else (field.1, .string redactedText)) =
      (right.map fun field =>
        if safeEntryValid field.1 field.2 then field else (field.1, .string redactedText)) ∧
      (left.any fun field => !safeEntryValid field.1 field.2) =
        right.any fun field => !safeEntryValid field.1 field.2 := by
    induction h with
    | nil => exact ⟨rfl, rfl⟩
    | same entry h ih =>
      obtain ⟨hvalues, hflags⟩ := ih
      exact ⟨congrArg₂ List.cons rfl hvalues, congrArg₂ or rfl hflags⟩
    | rejected hx hy h ih =>
      obtain ⟨hvalues, hflags⟩ := ih
      simp only [List.map_cons, List.any_cons, hx, hy, hvalues, hflags, Bool.false_eq_true,
        if_false, Bool.not_false, Bool.true_or, and_self]
  rw [walkSafeMetadata, walkSafeMetadata, hparts.1, hparts.2]

/-- A `safe_metadata` value that is no object is destroyed. -/
theorem walkSafeMetadata_of_noObject {value : Value} (h : ∀ fields, value ≠ .object fields) :
    walkSafeMetadata value = destroyed := by
  cases value with
  | object fields => exact absurd rfl (h fields)
  | null | bool | number | string | array => rfl

theorem walkField_environment {key : String} (hkey : isEnvironmentKey key = true) (depth : ℕ)
    (child : Value) : walkField depth key child = ⟨.string redactedEnvironment, true⟩ := by
  have hne : key ≠ safeMetadataKey := by
    rintro rfl
    exact absurd hkey (by decide)
  rw [walkField, if_neg hne, if_pos hkey]

theorem walkField_secret {key : String} (hkey : key ≠ safeMetadataKey)
    (henvironment : isEnvironmentKey key = false) (hsecret : isSecretKey key = true)
    {child : Value} (hchild : HeldSecret key child) (depth : ℕ) :
    walkField depth key child = destroyed := by
  rw [walkField, if_neg hkey, henvironment, hsecret, hchild.1, hchild.2]
  rfl

/-- Values that differ further inside are redacted alike if what is inside is. -/
theorem walkField_inside {key : String} {x y : Value} (h : Alike x y) (depth : ℕ)
    (hinside : walk (depth + 1) x = walk (depth + 1) y) (hkey : key ≠ safeMetadataKey) :
    walkField depth key x = walkField depth key y := by
  have hcarry := h.canCarrySecret_eq
  have harray := h.isArray_eq
  unfold walkField isListingOfCredentials
  rw [hcarry, harray, hinside, if_neg hkey, if_neg hkey]

mutual

/-- Such values are redacted alike, at every depth. -/
theorem walk_of_alike : ∀ {x y : Value}, Alike x y → ∀ depth, walk depth x = walk depth y
  | _, _, .same _, _ => rfl
  | _, _, .array h, depth => by simp only [walk, walkItems_of_alike h depth]
  | _, _, .object h, depth => by simp only [walk, walkFields_of_alike h depth]

theorem walkItems_of_alike : ∀ {left right : List Value}, AlikeItems left right →
    ∀ depth, walkItems depth left = walkItems depth right
  | _, _, .nil, _ => rfl
  | _, _, .cons hfirst hrest, depth => by
    rw [walkItems, walkItems, walk_of_alike hfirst (depth + 1), walkItems_of_alike hrest depth]

theorem walkFields_of_alike : ∀ {left right : List (String × Value)}, AlikeFields left right →
    ∀ depth, walkFields depth left = walkFields depth right
  | _, _, .nil, _ => rfl
  | _, _, .cons hfirst hrest, depth => by
    rw [walkFields_step, walkFields_step, walkField_of_alike hfirst depth,
      walkFields_of_alike hrest depth]

theorem walkField_of_alike : ∀ {key : String} {x y : Value}, AlikeField key x y →
    ∀ depth, walkField depth key x = walkField depth key y
  | _, _, _, .same _ _, _ => rfl
  | _, _, _, .inside hkey h, depth =>
    walkField_inside h depth (walk_of_alike h (depth + 1)) hkey
  | key, _, _, .secret hkey hsecret hx hy, depth => by
    cases henvironment : isEnvironmentKey key with
    | true =>
      rw [walkField_environment henvironment, walkField_environment henvironment]
    | false =>
      rw [walkField_secret hkey henvironment hsecret hx,
        walkField_secret hkey henvironment hsecret hy]
  | _, _, _, .environment hkey, depth => by
    rw [walkField_environment hkey, walkField_environment hkey]
  | _, _, _, .entries h, depth => by
    rw [walkField, walkField, if_pos rfl, if_pos rfl]
    exact walkSafeMetadata_of_sameEntries h
  | _, _, _, .noObject hx hy, depth => by
    rw [walkField, walkField, if_pos rfl, if_pos rfl, walkSafeMetadata_of_noObject hx,
      walkSafeMetadata_of_noObject hy]

end

/-! ## What is left -/

/-- The value occurs in another one, outside `safe_metadata`. -/
inductive Part : Value → Value → Prop
  | self (value : Value) : Part value value
  | item {items : List Value} {item value : Value} (hitem : item ∈ items) (h : Part item value) :
      Part (.array items) value
  | field {fields : List (String × Value)} {key : String} {child value : Value}
      (hfield : (key, child) ∈ fields) (hkey : key ≠ safeMetadataKey) (h : Part child value) :
      Part (.object fields) value

/-- What may stand under a key that names a secret. -/
def Harmless (key : String) (child : Value) : Prop :=
  (∃ n, child = .number n) ∨ (∃ b, child = .bool b) ∨ child = .string redactedText ∨
    (normalizeKey key = "credentials" ∧ ∃ depth items, child = .array (walkItems depth items).1)

/-- What may stand under the key of `safe_metadata`. -/
def SafeMetadata (child : Value) : Prop :=
  child = .string redactedText ∨ ∃ entries, child = .object entries ∧
    ∀ entry ∈ entries, entry.2 = .string redactedText ∨
      ∃ text, entry.2 = .string text ∧ SafeIdentifier.credentialId.accepts text = true

/-- An entry of a redacted object. -/
def Redacted.Entry (key : String) (child : Value) : Prop :=
  (key = safeMetadataKey → SafeMetadata child) ∧ (isSecretKey key = true → Harmless key child)

/-- Every entry of the value is one of a redacted object. -/
def Clean (value : Value) : Prop :=
  ∀ fields, Part value (.object fields) → ∀ key child, (key, child) ∈ fields →
    Redacted.Entry key child

theorem clean_string (text : String) : Clean (.string text) := by
  intro fields hpart
  cases hpart

theorem clean_array {items : List Value} (h : ∀ item ∈ items, Clean item) :
    Clean (.array items) := by
  intro fields hpart
  cases hpart with
  | item hitem hpart => exact h _ hitem fields hpart

theorem clean_object {fields : List (String × Value)}
    (hentries : ∀ key child, (key, child) ∈ fields → Redacted.Entry key child)
    (hinside : ∀ key child, (key, child) ∈ fields → key ≠ safeMetadataKey → Clean child) :
    Clean (.object fields) := by
  intro found hpart
  cases hpart with
  | self => exact hentries
  | field hfield hkey hpart => exact hinside _ _ hfield hkey found hpart

theorem safeEntryValid_accepts {key : String} {child : Value}
    (h : safeEntryValid key child = true) :
    ∃ text, child = .string text ∧ SafeIdentifier.credentialId.accepts text = true := by
  unfold safeEntryValid at h
  split at h
  · next identifier text _ htext =>
    cases identifier
    cases child with
    | string found =>
      cases htext
      exact ⟨_, rfl, h⟩
    | null | bool | number | array | object => cases htext
  · cases h

/-- Only identifiers survive in `safe_metadata`. -/
theorem safeMetadata_walk (child : Value) : SafeMetadata (walkSafeMetadata child).value := by
  cases child with
  | object fields =>
    refine .inr ⟨_, rfl, fun entry hentry => ?_⟩
    obtain ⟨field, -, rfl⟩ := List.mem_map.mp hentry
    split
    · next hvalid => exact .inr (safeEntryValid_accepts hvalid)
    · exact .inl rfl
  | null | bool | number | string | array => exact .inl rfl

/-- What is not destroyed under a key that names a secret is harmless. -/
theorem harmless_walk {key : String} {child : Value}
    (h : (canCarrySecret child && !isListingOfCredentials key child) = false) (depth : ℕ) :
    Harmless key (walk depth child).value := by
  unfold walk
  split
  · exact .inr (.inr (.inl rfl))
  · cases child with
    | number n => exact .inl ⟨n, rfl⟩
    | bool b => exact .inr (.inl ⟨b, rfl⟩)
    | array items =>
      have hlisting : isListingOfCredentials key (.array items) = true := by
        simpa [canCarrySecret] using h
      obtain ⟨hkey, -⟩ := Bool.and_eq_true_iff.mp hlisting
      exact .inr (.inr (.inr ⟨eq_of_beq hkey, depth, items, rfl⟩))
    | null | string | object =>
      simp [canCarrySecret, isListingOfCredentials, Value.isArray] at h

theorem isSecretKey_of_environment {key : String} (h : isEnvironmentKey key = true) :
    isSecretKey key = false := by
  obtain ⟨fragment, hfragment, heq⟩ := List.any_eq_true.mp h
  have hnormal : normalizeKey key = fragment := eq_of_beq heq
  have hclean : ∀ fragment ∈ environmentKeyFragments,
      (secretKeyFragments.any fun secret => Text.contains fragment secret) = false := by decide
  rw [isSecretKey, hnormal]
  exact hclean fragment hfragment

theorem entry_walkField (depth : ℕ) (key : String) (child : Value) :
    Redacted.Entry key (walkField depth key child).value := by
  unfold walkField
  split
  · next hkey =>
    subst hkey
    exact ⟨fun _ => safeMetadata_walk child, fun hsecret => absurd hsecret (by decide)⟩
  · next hkey =>
    refine ⟨fun hsafe => absurd hsafe hkey, fun hsecret => ?_⟩
    split
    · next henvironment =>
      rw [isSecretKey_of_environment henvironment] at hsecret
      cases hsecret
    · split
      · exact .inr (.inr (.inl rfl))
      · next hkept =>
        rw [hsecret, Bool.true_and, Bool.not_eq_true] at hkept
        exact harmless_walk hkept (depth + 1)

mutual

/-- What redaction leaves is clean, at every depth. -/
theorem clean_walk (depth : ℕ) (value : Value) : Clean (walk depth value).value := by
  unfold walk
  split
  · exact clean_string redactedText
  · cases value with
    | object fields =>
      exact clean_object (fun key child h => (clean_walkFields depth fields key child h).1)
        fun key child h => (clean_walkFields depth fields key child h).2
    | array items => exact clean_array (clean_walkItems depth items)
    | string text =>
      dsimp only
      rw [walkString_value]
      exact clean_string _
    | null | bool | number =>
      intro fields hpart
      cases hpart

theorem clean_walkItems (depth : ℕ) (items : List Value) :
    ∀ item ∈ (walkItems depth items).1, Clean item := by
  cases items with
  | nil =>
    intro item hitem
    rw [walkItems] at hitem
    cases hitem
  | cons first rest =>
    intro item hitem
    rw [walkItems] at hitem
    rcases List.mem_cons.mp hitem with rfl | hitem
    · exact clean_walk (depth + 1) first
    · exact clean_walkItems depth rest item hitem

theorem clean_walkFields (depth : ℕ) (fields : List (String × Value)) :
    ∀ key child, (key, child) ∈ (walkFields depth fields).1 →
      Redacted.Entry key child ∧ (key ≠ safeMetadataKey → Clean child) := by
  cases fields with
  | nil =>
    intro key child hfield
    rw [walkFields] at hfield
    cases hfield
  | cons first rest =>
    obtain ⟨name, value⟩ := first
    intro key child hfield
    rw [walkFields_step] at hfield
    rcases List.mem_cons.mp hfield with heq | hfield
    · cases heq
      refine ⟨entry_walkField depth name value, fun hkey => ?_⟩
      have hwalk := clean_walk (depth + 1) value
      unfold walkField
      rw [if_neg hkey]
      split
      · exact clean_string redactedEnvironment
      · split
        · exact clean_string redactedText
        · exact hwalk
    · exact clean_walkFields depth rest key child hfield

end

/-- Payloads that differ only in what redaction destroys are redacted to the same payload, and
what redaction leaves under a telling name or in `safe_metadata` is harmless. -/
theorem redact_hides_secrets :
    (∀ a b, Alike a b → redact a = redact b) ∧ ∀ value, Clean (redact value).value :=
  ⟨fun _ _ h => walk_of_alike h 0, clean_walk 0⟩

/-- A password deep in a payload and another value in its place are redacted alike. -/
theorem passwords_redacted_alike :
    redact (.object [("log", .array [.object [("password", .string "hunter2")]])]) =
      redact (.object [("log", .array [.object [("password", .object [])]])]) := by
  have hpassword : AlikeField "password" (.string "hunter2") (.object []) :=
    .secret (by decide) (by decide) (by decide) (by decide)
  have hlog : Alike (.array [.object [("password", .string "hunter2")]])
      (.array [.object [("password", .object [])]]) :=
    .array (.cons (.object (.cons hpassword .nil)) .nil)
  exact redact_hides_secrets.1 _ _ (.object (.cons (.inside (by decide) hlog) .nil))

end Asterism.Redact

/-! ## Redacting again -/

namespace Asterism.Text

/-- Leading characters that fit are taken, and then as much as fits of the rest. -/
theorem takeBytes_append {limit : ℕ} {first : List Char} (hfits : byteCount first ≤ limit)
    (second : List Char) :
    takeBytes limit (first ++ second) = first ++ takeBytes (limit - byteCount first) second := by
  induction first generalizing limit with
  | nil => rfl
  | cons c chars ih =>
    rw [byteCount_cons] at hfits ⊢
    rw [List.cons_append, takeBytes, if_pos (by omega), ih (by omega), List.cons_append,
      Nat.sub_sub]

theorem lt_byteCount_takeBytes {limit : ℕ} {chars : List Char} (hlong : limit < byteCount chars) :
    limit < byteCount (takeBytes limit chars) + 4 := by
  induction chars generalizing limit with
  | nil => exact absurd hlong (Nat.not_lt_zero limit)
  | cons c chars ih =>
    rw [byteCount_cons] at hlong
    by_cases hfits : c.utf8Size ≤ limit
    · have hrest : limit - c.utf8Size < byteCount (takeBytes (limit - c.utf8Size) chars) + 4 :=
        ih (by omega)
      rw [takeBytes, if_pos hfits, byteCount_cons]
      omega
    · have hsize := Char.utf8Size_le_four c
      rw [takeBytes, if_neg hfits, byteCount_nil]
      omega

theorem prefix_append_iff {pattern first rest : List Char} {c : Char} (hc : c ∉ pattern) :
    pattern <+: first ++ c :: rest ↔ pattern <+: first := by
  induction first generalizing pattern with
  | nil =>
    cases pattern with
    | nil => exact ⟨fun _ => List.nil_prefix, fun _ => List.nil_prefix⟩
    | cons d pattern =>
      refine ⟨fun h => ?_, fun h => absurd (List.prefix_nil.mp h) (List.cons_ne_nil _ _)⟩
      obtain ⟨rfl, -⟩ := List.cons_prefix_cons.mp h
      exact absurd List.mem_cons_self hc
  | cons d first ih =>
    cases pattern with
    | nil => exact ⟨fun _ => List.nil_prefix, fun _ => List.nil_prefix⟩
    | cons e pattern =>
      rw [List.cons_append, List.cons_prefix_cons, List.cons_prefix_cons,
        ih fun hmem => hc (List.mem_cons_of_mem _ hmem)]

theorem exists_trim_cons {c : Char} (hc : isWhitespace c = false) (chars : List Char) :
    ∃ kept, (trim (String.ofList (c :: chars))).toList = c :: kept := by
  have hstart : (c :: chars).dropWhile isWhitespace = c :: chars :=
    List.dropWhile_cons_of_neg (by rw [hc]; exact Bool.false_ne_true)
  unfold trim trimChars trimMatches
  rw [String.toList_ofList, String.toList_ofList, hstart]
  obtain ⟨cut, hcut⟩ := List.rdropWhile_prefix isWhitespace (c :: chars)
  cases hkept : (c :: chars).rdropWhile isWhitespace with
  | nil =>
    have hspace := List.rdropWhile_eq_nil_iff.mp hkept c List.mem_cons_self
    rw [hc] at hspace
    cases hspace
  | cons d kept =>
    rw [hkept] at hcut
    exact ⟨kept, congrArg (· :: kept) (List.cons.inj hcut).1⟩

end Asterism.Text

namespace Asterism.Redact

/-! ## Texts -/

/-- What is kept of a long text. -/
def keptChars (text : String) : List Char := Text.takeBytes maxStringBytes text.toList

/-- The text keeps enough of a telling beginning to look like a credential once it is cut. -/
def TellingStart (text : String) : Prop :=
  let kept := String.ofList ((keptChars text).dropWhile Text.isWhitespace)
  let size := Text.len kept + Text.len truncationMark
  (Text.startsWith kept "eyJ" = true ∧ 32 ≤ size) ∨
    (Text.startsWith kept "sk-" = true ∧ 24 ≤ size) ∨
    (Text.startsWith (Text.toAsciiLowercase kept) "bearer " = true ∧ 16 < size)

/-- Redacting the text again changes nothing: it is destroyed or kept as a whole, or it is cut
neither before a character of four bytes that begins three bytes before the bound, nor with a
telling beginning. -/
def Settles (text : String) : Prop :=
  looksLikeSecret text = true ∨ Text.len text ≤ maxStringBytes ∨
    (Text.byteCount (keptChars text) + 3 ≠ maxStringBytes ∧ ¬ TellingStart text)

/-- The mark begins with a character of three bytes and does not end with white space. -/
theorem truncationMark_toList :
    truncationMark.toList = '…' :: "[truncated".toList ++ [']'] := by decide

/-- White space before a cut text is trimmed, and the mark stays. -/
theorem trim_cut (kept : List Char) :
    Text.trim (String.ofList (kept ++ truncationMark.toList)) =
      String.ofList (kept.dropWhile Text.isWhitespace ++ truncationMark.toList) := by
  have hstart : (kept ++ truncationMark.toList).dropWhile Text.isWhitespace =
      kept.dropWhile Text.isWhitespace ++ truncationMark.toList := by
    rw [List.dropWhile_append]
    split
    · next hempty =>
      rw [List.isEmpty_iff.mp hempty]
      decide
    · rfl
  unfold Text.trim Text.trimChars Text.trimMatches
  rw [String.toList_ofList, hstart, truncationMark_toList, ← List.append_assoc,
    List.rdropWhile_concat_neg _ _ _ (by decide)]

/-- Whether a text begins with a pattern is decided before the mark. -/
theorem startsWith_marked {pattern : String} (hpattern : '…' ∉ pattern.toList)
    (chars rest : List Char) :
    Text.startsWith (String.ofList (chars ++ '…' :: rest)) pattern =
      Text.startsWith (String.ofList chars) pattern := by
  unfold Text.startsWith
  rw [String.toList_ofList, String.toList_ofList, Bool.eq_iff_iff, List.isPrefixOf_iff_prefix,
    List.isPrefixOf_iff_prefix]
  exact Text.prefix_append_iff hpattern

theorem len_cut (chars : List Char) :
    Text.len (String.ofList (chars ++ truncationMark.toList)) =
      Text.len (String.ofList chars) + Text.len truncationMark := by
  rw [Text.len, Text.len, Text.len, String.toList_ofList, String.toList_ofList,
    Text.byteCount_append]

theorem looksLikeSecret_cut (text : String) :
    looksLikeSecret (String.ofList (keptChars text ++ truncationMark.toList)) = true ↔
      TellingStart text := by
  have hlower (chars : List Char) :
      Text.toAsciiLowercase (String.ofList (chars ++ truncationMark.toList)) =
        String.ofList ((Text.toAsciiLowercase (String.ofList chars)).toList ++
          '…' :: "[truncated]".toList) := by
    have hmark : truncationMark.toList.map Text.toAsciiLower = '…' :: "[truncated]".toList := by
      decide
    rw [Text.toAsciiLowercase, Text.toAsciiLowercase, String.toList_ofList, String.toList_ofList,
      String.toList_ofList, List.map_append, hmark]
  have hmark : truncationMark.toList = '…' :: "[truncated]".toList := by decide
  unfold looksLikeSecret TellingStart
  dsimp only
  rw [trim_cut, len_cut, hlower, hmark, startsWith_marked (by decide),
    startsWith_marked (by decide), startsWith_marked (by decide), String.ofList_toList]
  simp only [Bool.or_eq_true, Bool.and_eq_true, decide_eq_true_eq, or_assoc]

/-- Cutting a cut text again falls where the first cut fell, unless the mark's first character
fits. -/
theorem takeBytes_cut {kept : List Char} (hfits : Text.byteCount kept ≤ maxStringBytes)
    (hlong : maxStringBytes < Text.byteCount kept + 4) :
    Text.takeBytes maxStringBytes (kept ++ truncationMark.toList) = kept ↔
      Text.byteCount kept + 3 ≠ maxStringBytes := by
  have hmark : truncationMark.toList = '…' :: "[truncated]".toList := by decide
  have hsize : Char.utf8Size '…' = 3 := by decide
  rw [Text.takeBytes_append hfits, hmark, Text.takeBytes, hsize]
  constructor
  · intro hsame hequal
    rw [if_pos (by omega)] at hsame
    have hlength := congrArg List.length hsame
    rw [List.length_append, List.length_cons] at hlength
    omega
  · intro hne
    rw [if_neg (by omega), List.append_nil]

theorem byteCount_keptChars {text : String} (hlong : ¬ Text.len text ≤ maxStringBytes) :
    Text.byteCount (keptChars text) ≤ maxStringBytes ∧
      maxStringBytes < Text.byteCount (keptChars text) + 4 :=
  ⟨Text.byteCount_takeBytes_le _ _, Text.lt_byteCount_takeBytes (Nat.lt_of_not_le hlong)⟩

/-- Redacting a text again changes nothing exactly if it settles. -/
theorem storedText_again_iff (text : String) :
    storedText (storedText text) = storedText text ↔ Settles text := by
  rw [storedText_eq_iff]
  cases hsecret : looksLikeSecret text with
  | true =>
    have hstored : storedText text = redactedText := by rw [storedText, hsecret, if_pos rfl]
    rw [hstored]
    exact ⟨fun _ => .inl hsecret, fun _ => (storedText_eq_iff _).mp storedText_redactedText⟩
  | false =>
    by_cases hshort : Text.len text ≤ maxStringBytes
    · have hstored : storedText text = text := (storedText_eq_iff text).mpr ⟨hsecret, .inl hshort⟩
      rw [hstored]
      exact ⟨fun _ => .inr (.inl hshort), fun _ => ⟨hsecret, .inl hshort⟩⟩
    · have hstored : storedText text =
          String.ofList (keptChars text ++ truncationMark.toList) := by
        rw [storedText, hsecret, if_neg Bool.false_ne_true, boundString, if_neg hshort,
          String.ofList_append, String.ofList_toList]
        rfl
      obtain ⟨hfits, hlong⟩ := byteCount_keptChars hshort
      have hmark : Text.len truncationMark = 14 := by decide
      have hover : ¬ Text.len (storedText text) ≤ maxStringBytes := by
        rw [hstored, len_cut, hmark, Text.len, String.toList_ofList]
        omega
      have hcut := takeBytes_cut hfits hlong
      rw [KeptVerbatim, or_iff_right hover, hstored, String.toList_ofList, List.append_left_inj,
        @eq_comm _ (keptChars text), hcut, ← Bool.not_eq_true, looksLikeSecret_cut, Settles,
        hsecret, or_iff_right Bool.false_ne_true, or_iff_right hshort, and_comm]

/-! ## Payloads -/

mutual

/-- The texts of a value that redaction looks into. -/
def walkedTexts (depth : ℕ) (value : Value) : List String :=
  if maxDepth ≤ depth then []
  else
    match value with
    | .object fields => walkedFieldTexts depth fields
    | .array items => walkedItemTexts depth items
    | .string text => [text]
    | .null | .bool _ | .number _ => []

def walkedItemTexts (depth : ℕ) : List Value → List String
  | [] => []
  | item :: items => walkedTexts (depth + 1) item ++ walkedItemTexts depth items

def walkedFieldTexts (depth : ℕ) : List (String × Value) → List String
  | [] => []
  | (key, child) :: fields =>
    (if key = safeMetadataKey ∨ isEnvironmentKey key ∨
        (isSecretKey key ∧ HeldSecret key child) then []
      else walkedTexts (depth + 1) child) ++ walkedFieldTexts depth fields

end

/-- Redacting `safe_metadata` again changes nothing. -/
theorem walkSafeMetadata_again (child : Value) :
    (walkSafeMetadata (walkSafeMetadata child).value).value = (walkSafeMetadata child).value := by
  cases child with
  | object fields =>
    simp only [walkSafeMetadata, List.map_map]
    refine congrArg Value.object (List.map_congr_left fun field _ => ?_)
    rw [Function.comp_apply]
    by_cases hvalid : safeEntryValid field.1 field.2 = true
    · rw [if_pos hvalid, if_pos hvalid]
    · rw [if_neg hvalid]
      split <;> rfl
  | null | bool | number | string | array => rfl

theorem walkField_again_of_destroyed {key : String} {child : Value}
    (h : key = safeMetadataKey ∨ isEnvironmentKey key = true ∨
      (isSecretKey key = true ∧ HeldSecret key child)) (depth : ℕ) :
    (walkField depth key (walkField depth key child).value).value =
      (walkField depth key child).value := by
  by_cases hsafe : key = safeMetadataKey
  · simp only [walkField, if_pos hsafe]
    exact walkSafeMetadata_again child
  cases henvironment : isEnvironmentKey key with
  | true => rw [walkField_environment henvironment, walkField_environment henvironment]
  | false =>
    rw [henvironment] at h
    obtain ⟨hsecret, hheld⟩ := (h.resolve_left hsafe).resolve_left Bool.false_ne_true
    have hmark : HeldSecret key (.string redactedText) := ⟨rfl, Bool.and_false _⟩
    rw [walkField_secret hsafe henvironment hsecret hheld]
    exact congrArg Redacted.value (walkField_secret hsafe henvironment hsecret hmark depth)

theorem walkField_kept {key : String} (hsafe : key ≠ safeMetadataKey)
    (henvironment : ¬ isEnvironmentKey key = true) {child : Value}
    (hheld : ¬ (isSecretKey key = true ∧ HeldSecret key child)) (depth : ℕ) :
    walkField depth key child = walk (depth + 1) child := by
  have hkept : ¬ (isSecretKey key && canCarrySecret child &&
      !isListingOfCredentials key child) = true := by
    intro hdestroyed
    simp only [Bool.and_eq_true, Bool.not_eq_true'] at hdestroyed
    exact hheld ⟨hdestroyed.1.1, hdestroyed.1.2, hdestroyed.2⟩
  rw [walkField, if_neg hsafe, if_neg henvironment, if_neg hkept]

/-- What is not destroyed under a key that names a secret is not destroyed the next time, unless
it was too deep. -/
theorem not_heldSecret_walk {key : String} {child : Value} (hchild : ¬ HeldSecret key child)
    {depth : ℕ} (hdepth : ¬ maxDepth ≤ depth) : ¬ HeldSecret key (walk depth child).value := by
  rintro ⟨hcarries, hlisting⟩
  cases child with
  | number | bool =>
    simp only [walk, if_neg hdepth] at hcarries
    cases hcarries
  | array items =>
    simp only [walk, if_neg hdepth] at hlisting
    exact hchild ⟨rfl, hlisting⟩
  | null | string | object => exact hchild ⟨rfl, Bool.and_false _⟩

/-- A field that is not destroyed is redacted as a value, also the next time. -/
theorem walkField_again_of_kept {key : String} {child : Value}
    (h : ¬ (key = safeMetadataKey ∨ isEnvironmentKey key = true ∨
      (isSecretKey key = true ∧ HeldSecret key child))) (depth : ℕ) :
    (walkField depth key child).value = (walk (depth + 1) child).value ∧
      (walkField depth key (walk (depth + 1) child).value).value =
        (walk (depth + 1) (walk (depth + 1) child).value).value := by
  obtain ⟨hsafe, hrest⟩ := not_or.mp h
  obtain ⟨henvironment, hheld⟩ := not_or.mp hrest
  refine ⟨by rw [walkField_kept hsafe henvironment hheld], ?_⟩
  by_cases hdepth : maxDepth ≤ depth + 1
  · -- Both are the mark of a value that is too deep.
    have hdeep (value : Value) : walk (depth + 1) value = destroyed := by
      unfold walk
      rw [if_pos hdepth]
    rw [hdeep child, hdeep destroyed.value]
    by_cases hmark : isSecretKey key = true ∧ HeldSecret key destroyed.value
    · rw [walkField_secret hsafe (Bool.eq_false_iff.mpr henvironment) hmark.1 hmark.2]
    · rw [walkField_kept hsafe henvironment hmark, hdeep]
  · refine congrArg Redacted.value (walkField_kept hsafe henvironment (fun hnew => ?_) depth)
    exact not_heldSecret_walk (fun hchild => hheld ⟨hnew.1, hchild⟩) hdepth hnew.2

mutual

/-- Redacting a value again changes nothing exactly if all its texts settle. -/
theorem walk_again_iff (depth : ℕ) (value : Value) :
    (walk depth (walk depth value).value).value = (walk depth value).value ↔
      ∀ text ∈ walkedTexts depth value, Settles text := by
  by_cases hdepth : maxDepth ≤ depth
  · have hdeep (value : Value) : walk depth value = destroyed := by
      unfold walk
      rw [if_pos hdepth]
    unfold walkedTexts
    rw [hdeep, hdeep, if_pos hdepth]
    exact ⟨(fun _ text htext => by cases htext), fun _ => rfl⟩
  · cases value with
    | object fields =>
      have hfields := walkFields_again_iff depth fields
      simp only [walk, walkedTexts, if_neg hdepth, Value.object.injEq]
      exact hfields
    | array items =>
      have hitems := walkItems_again_iff depth items
      simp only [walk, walkedTexts, if_neg hdepth, Value.array.injEq]
      exact hitems
    | string text =>
      rw [walk_string depth hdepth, walk_string depth hdepth, Value.string.injEq,
        storedText_again_iff, walkedTexts, if_neg hdepth, List.forall_mem_singleton]
    | null | bool | number =>
      simp only [walk, walkedTexts, if_neg hdepth, true_iff]
      exact fun text htext => by cases htext

theorem walkItems_again_iff (depth : ℕ) (items : List Value) :
    (walkItems depth (walkItems depth items).1).1 = (walkItems depth items).1 ↔
      ∀ text ∈ walkedItemTexts depth items, Settles text := by
  cases items with
  | nil =>
    simp only [walkItems, walkedItemTexts, true_iff]
    exact fun text htext => by cases htext
  | cons item items =>
    have hitem := walk_again_iff (depth + 1) item
    have hitems := walkItems_again_iff depth items
    rw [walkItems, walkItems, walkedItemTexts, List.forall_mem_append, List.cons.injEq, hitem,
      hitems]

theorem walkFields_again_iff (depth : ℕ) (fields : List (String × Value)) :
    (walkFields depth (walkFields depth fields).1).1 = (walkFields depth fields).1 ↔
      ∀ text ∈ walkedFieldTexts depth fields, Settles text := by
  cases fields with
  | nil =>
    simp only [walkFields, walkedFieldTexts, true_iff]
    exact fun text htext => by cases htext
  | cons field fields =>
    obtain ⟨key, child⟩ := field
    have hchild := walk_again_iff (depth + 1) child
    have hfields := walkFields_again_iff depth fields
    rw [walkFields_step, walkFields_step, walkedFieldTexts, List.forall_mem_append,
      List.cons.injEq, Prod.mk.injEq, hfields, eq_self_iff_true, true_and]
    refine and_congr_left fun _ => ?_
    split
    · next hdestroyed =>
      rw [walkField_again_of_destroyed hdestroyed, eq_self_iff_true, true_iff]
      exact fun text htext => by cases htext
    · next hkept =>
      obtain ⟨hfirst, hsecond⟩ := walkField_again_of_kept hkept depth
      rw [hfirst, hsecond, hchild]

end

/-- Redacting a payload again changes nothing exactly if all texts that are looked into settle. -/
theorem redact_again_iff (value : Value) :
    (redact (redact value).value).value = (redact value).value ↔
      ∀ text ∈ walkedTexts 0 value, Settles text :=
  walk_again_iff 0 value

theorem looksLikeSecret_a (chars : List Char) :
    looksLikeSecret (String.ofList ('a' :: chars)) = false := by
  obtain ⟨kept, hkept⟩ := Text.exists_trim_cons (c := 'a') (by decide) chars
  simp only [looksLikeSecret, Text.startsWith, Text.toAsciiLowercase, hkept, String.toList_ofList,
    List.map_cons]
  rfl

/-- An output that ends with a character of four bytes. -/
def smilingOutput (letters : ℕ) : String := String.ofList (List.replicate letters 'a' ++ ['😀'])

theorem not_settles_smilingOutput {letters : ℕ} (h : letters + 3 = maxStringBytes) :
    ¬ Settles (smilingOutput letters) := by
  have hsmile : Char.utf8Size '😀' = 4 := by decide
  have hletters : Text.byteCount (List.replicate letters 'a') = letters := by
    rw [Text.byteCount_of_single, List.length_replicate]
    intro c hc
    rw [List.eq_of_mem_replicate hc]
    decide
  have hkept : keptChars (smilingOutput letters) = List.replicate letters 'a' := by
    rw [keptChars, smilingOutput, String.toList_ofList, Text.takeBytes_append (by omega), hletters,
      Text.takeBytes, if_neg (by omega), List.append_nil]
  rintro (hsecret | hshort | ⟨hcut, -⟩)
  · cases letters with
    | zero => exact absurd h (by decide)
    | succ letters =>
      rw [smilingOutput, List.replicate_succ, List.cons_append, looksLikeSecret_a] at hsecret
      cases hsecret
  · rw [smilingOutput, Text.len, String.toList_ofList, Text.byteCount_append, hletters,
      Text.byteCount_cons, hsmile, Text.byteCount_nil] at hshort
    omega
  · rw [hkept, hletters] at hcut
    exact hcut h

/-- The output of a tool is altered further when it is redacted again. -/
theorem redact_again_alters :
    (redact (redact (.object [("output", .string (smilingOutput 8189))])).value).value ≠
      (redact (.object [("output", .string (smilingOutput 8189))])).value := by
  intro hsame
  have htexts (text : String) : text ∈ walkedTexts 0 (.object [("output", .string text)]) := by
    have hsafe : "output" ≠ safeMetadataKey := by decide
    have henvironment : isEnvironmentKey "output" = false := by decide
    have hsecret : isSecretKey "output" = false := by decide
    have hdepth : ¬ maxDepth ≤ 0 := by decide
    have hdeeper : ¬ maxDepth ≤ 0 + 1 := by decide
    simp only [walkedTexts, walkedFieldTexts, if_neg hdepth, if_neg hdeeper, hsafe, henvironment,
      hsecret, Bool.false_eq_true, false_and, or_self, if_false, List.append_nil,
      List.mem_singleton]
  exact not_settles_smilingOutput (by decide) ((walk_again_iff 0 _).mp hsame _ (htexts _))

end Asterism.Redact
