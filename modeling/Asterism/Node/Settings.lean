import Asterism.Node.Allowlist

/-!
# Settings in a configuration file

A Node pins the model of a project by writing one setting into the agent's configuration, line by
line, and reads settings back with a scanner of the same narrowness. Both see the same lines, so
what is written is read, and no other setting is disturbed. The lines themselves are not kept: what
ended them is replaced by a line feed, and a carriage return that was left at the end of a line is
then taken for a part of the ending by the next pass.
-/

namespace Asterism.Settings

open Text (lines trimMatches trimChars splitInclusive chomp dropReturn ended)

/-- A line of a configuration, without what ends it. -/
abbrev Line := List Char

/-- `trim_end`. -/
def trimEnd (chars : List Char) : List Char := chars.rdropWhile Text.isWhitespace

/-- The loop of `strip_comment`, inside or outside of quotes. -/
def stripFrom : Bool → Bool → Line → Line
  | _, _, [] => []
  | single, double, c :: chars =>
    if c = '\x27' ∧ double = false then c :: stripFrom (!single) double chars
    else if c = '"' ∧ single = false then c :: stripFrom single (!double) chars
    else if c = '#' ∧ single = false ∧ double = false then []
    else c :: stripFrom single double chars

/-- `strip_comment`: the line up to a number sign outside of quotes. -/
def stripComment (line : Line) : Line := stripFrom false false line

def isBlank (line : Line) : Bool := trimChars (stripComment line) = []

/-- A character that indents. -/
def isIndent (c : Char) : Bool := c = ' ' || c = '\t'

/-- The line begins with a character that indents. -/
def isIndented (line : Line) : Bool := (stripComment line).head?.any isIndent

/-- `lookup` takes the line to open this section. -/
def opens (section_ : List Char) (line : Line) : Bool :=
  (trimEnd (stripComment line)).getLast? = some ':' &&
    (trimEnd (stripComment line)).rdropWhile (· = ':') = section_

/-- `lookup` takes the line to begin with this key. -/
def isSetting (key : List Char) (line : Line) : Bool :=
  (key ++ [':']).isPrefixOf (trimChars (stripComment line))

/-- What stands behind the key. -/
def behind (key : List Char) (line : Line) : List Char :=
  (trimChars (stripComment line)).drop (key.length + 1)

def isQuote (c : Char) : Bool := c = '"' || c = '\x27'

/-- The value that `lookup` reads from what stands behind a key. -/
def valueOf (rest : List Char) : Option (List Char) :=
  let value := trimMatches isQuote (trimChars rest)
  if value = [] then none else some value

/-- The loop of `lookup`. -/
def lookupFrom (section_ key : List Char) : Bool → List Line → Option (List Char)
  | _, [] => none
  | inSection, line :: later =>
    if isBlank line then lookupFrom section_ key inSection later
    else if !isIndented line then lookupFrom section_ key (opens section_ line) later
    else if !inSection then lookupFrom section_ key inSection later
    else if isSetting key line then valueOf (behind key line)
    else lookupFrom section_ key inSection later

/-- `lookup`: the first value of a key in an indented line of its section. -/
def lookup (body section_ key : List Char) : Option (List Char) :=
  lookupFrom section_ key false (lines body)

/-- The variables of the loop of `set_setting`. -/
structure Progress where
  inSection : Bool := false
  wrote : Bool := false
  sectionSeen : Bool := false
  sectionIndent : List Char := [' ', ' ']

def settingLine (indent key value : List Char) : Line := indent ++ (key ++ ([':', ' '] ++ value))

def sectionLine (section_ : List Char) : Line := section_ ++ [':']

/-- The loop of `set_setting`, and what it leaves to write after it. -/
def setFrom (section_ key value : List Char) : Progress → List Line → List Line
  | s, [] =>
    if s.wrote then []
    else
      (if s.sectionSeen then [] else [sectionLine section_]) ++
        [settingLine s.sectionIndent key value]
  | s, line :: later =>
    if !isBlank line && !isIndented line then
      let rest := setFrom section_ key value
        { s with
          inSection := opens section_ line
          wrote := s.wrote || s.inSection
          sectionSeen := s.sectionSeen || opens section_ line } later
      -- The section is left without the key.
      if s.inSection && !s.wrote then settingLine s.sectionIndent key value :: line :: rest
      else line :: rest
    else if s.inSection && !s.wrote then
      let indent :=
        if isBlank line then s.sectionIndent else (stripComment line).takeWhile isIndent
      if isSetting key line then
        settingLine indent key value ::
          setFrom section_ key value { s with wrote := true, sectionIndent := indent } later
      else line :: setFrom section_ key value { s with sectionIndent := indent } later
    else line :: setFrom section_ key value s later

/-- The text that `set_setting` returns: the lines joined, with a line feed at the end. -/
def rendered (out : List Line) : List Char := List.intercalate ['\n'] out ++ ['\n']

/-- `set_setting`: write the setting where `lookup` finds it, or at the end of its section. -/
def setSetting (body section_ key value : List Char) : List Char :=
  rendered (setFrom section_ key value {} (lines body))

/-- Why a model identifier is refused. -/
inductive ModelIdError
  | length (id : List Char)
  | characters (id : List Char)
  deriving DecidableEq

/-- `MAX_ID_LENGTH`. -/
def maxIdLength : ℕ := 64

/-- The characters that `validate_model_id` accepts. -/
def isModelChar (c : Char) : Bool :=
  Text.isAsciiAlphanumeric c || c = '.' || c = '-' || c = '_' || c = ':'

/-- `validate_model_id`: 1 to 64 bytes of the characters above. -/
def validateModelId (id : List Char) : Except ModelIdError Unit :=
  if id = [] ∨ maxIdLength < Text.byteCount id then .error (.length id)
  else if !id.all isModelChar then .error (.characters id)
  else .ok ()

/-- A name has no white space, colon, quote or number sign. Names of letters, digits, low lines and
hyphens are such names. -/
def IsName (name : List Char) : Prop :=
  ∀ c ∈ name, Text.isWhitespace c = false ∧ c ≠ ':' ∧ c ≠ '#' ∧ isQuote c = false

/-- What is said of every character of a text is decided by going through the text. -/
instance decidableForallMem {p : Char → Prop} [DecidablePred p] (chars : List Char) :
    Decidable (∀ c ∈ chars, p c) :=
  List.decidableBAll p chars

instance IsName.decidable (name : List Char) : Decidable (IsName name) :=
  inferInstanceAs (Decidable (∀ c ∈ name, _))

/-! ## Lines that are written -/

section Characters

theorem takeWhile_of_isPrefix {key chars : List Char} (hkey : ':' ∉ key)
    (h : key ++ [':'] <+: chars) : chars.takeWhile (· ≠ ':') = key := by
  obtain ⟨rest, rfl⟩ := h
  have hname : ∀ c ∈ key, decide (c ≠ ':') = true := by
    intro c hc
    exact decide_eq_true fun heq => hkey (heq ▸ hc)
  rw [List.append_assoc, List.takeWhile_append_of_pos hname]
  exact List.append_nil key

theorem stripFrom_append_of_plain (single double : Bool) {front : Line} (rest : Line)
    (h : ∀ c ∈ front, c ≠ '#' ∧ isQuote c = false) :
    stripFrom single double (front ++ rest) = front ++ stripFrom single double rest := by
  induction front with
  | nil => rfl
  | cons c front ih =>
    obtain ⟨⟨hmark, hquote⟩, hfront⟩ := List.forall_mem_cons.mp h
    simp only [isQuote, Bool.or_eq_false_iff, decide_eq_false_iff_not] at hquote
    simp only [List.cons_append, stripFrom, hquote.1, hquote.2, hmark, false_and, if_false,
      ih hfront]

theorem stripComment_eq_self {line : Line} (h : ∀ c ∈ line, c ≠ '#' ∧ isQuote c = false) :
    stripComment line = line := by
  have happend := stripFrom_append_of_plain false false [] h
  rwa [List.append_nil, stripFrom, List.append_nil] at happend

theorem trim_eq_of_ends (front body back : List Char) {c d : Char}
    (hfront : ∀ c ∈ front, Text.isWhitespace c = true)
    (hback : ∀ c ∈ back, Text.isWhitespace c = true) (hc : Text.isWhitespace c = false)
    (hd : Text.isWhitespace d = false) (hhead : body.head? = some c)
    (hlast : body.getLast? = some d) : trimChars (front ++ (body ++ back)) = body := by
  have hdrop : (front ++ (body ++ back)).dropWhile Text.isWhitespace = body ++ back := by
    rw [List.dropWhile_append_of_pos hfront]
    obtain ⟨rest, rfl⟩ := List.head?_eq_some_iff.mp hhead
    rw [List.cons_append, List.dropWhile_cons_of_neg (by rw [hc]; exact Bool.false_ne_true)]
  unfold trimChars trimMatches
  rw [hdrop, List.rdropWhile, List.reverse_append, List.dropWhile_append_of_pos
    fun c hc => hback c (List.mem_reverse.mp hc)]
  obtain ⟨start, rfl⟩ := List.getLast?_eq_some_iff.mp hlast
  rw [List.reverse_append, List.reverse_singleton, List.singleton_append,
    List.dropWhile_cons_of_neg (by rw [hd]; exact Bool.false_ne_true), List.reverse_cons,
    List.reverse_reverse]

theorem trimMatches_eq_self {kind : Char → Bool} {chars : List Char}
    (h : ∀ c ∈ chars, kind c = false) : trimMatches kind chars = chars := by
  have hdrop : chars.dropWhile kind = chars := by
    cases chars with
    | nil => rfl
    | cons c chars =>
      rw [List.dropWhile_cons_of_neg (by rw [h c List.mem_cons_self]; exact Bool.false_ne_true)]
  rw [trimMatches, hdrop, List.rdropWhile_eq_self_iff]
  intro hne
  rw [h _ (List.getLast_mem hne)]
  exact Bool.false_ne_true

end Characters

/-- What indents the line of a setting. -/
structure Indents (indent : List Char) : Prop where
  ne_nil : indent ≠ []
  isIndent : ∀ c ∈ indent, isIndent c = true

/-- A value that is read as it is written: it has neither white space nor quotes. -/
structure IsValue (value : List Char) : Prop where
  ne_nil : value ≠ []
  plain : ∀ c ∈ value, Text.isWhitespace c = false ∧ c ≠ '#' ∧ isQuote c = false

theorem isAsciiAlphanumeric_range {c : Char} (h : Text.isAsciiAlphanumeric c = true) :
    48 ≤ c.toNat ∧ c.toNat ≤ 122 := by
  have hrange {least most : Char} (hlow : least ≤ c) (hhigh : c ≤ most) :
      least.toNat ≤ c.toNat ∧ c.toNat ≤ most.toNat := ⟨hlow, hhigh⟩
  simp only [Text.isAsciiAlphanumeric, Bool.or_eq_true, Bool.and_eq_true, decide_eq_true_eq] at h
  rcases h with (⟨hlow, hhigh⟩ | ⟨hlow, hhigh⟩) | ⟨hlow, hhigh⟩ <;>
    exact (hrange hlow hhigh).imp (Nat.le_trans (by decide)) fun h => Nat.le_trans h (by decide)

theorem isModelChar_plain {c : Char} (h : isModelChar c = true) :
    Text.isWhitespace c = false ∧ c ≠ '#' ∧ isQuote c = false := by
  have hcode : 45 ≤ c.toNat ∧ c.toNat ≤ 122 := by
    simp only [isModelChar, Bool.or_eq_true, decide_eq_true_eq] at h
    rcases h with (((h | rfl) | rfl) | rfl) | rfl
    · exact (isAsciiAlphanumeric_range h).imp (Nat.le_trans (by decide)) id
    all_goals decide
  refine ⟨?_, ?_, ?_⟩
  · simp only [Text.isWhitespace, Bool.or_eq_false_iff, Bool.and_eq_false_iff,
      decide_eq_false_iff_not, beq_eq_false_iff_ne]
    omega
  · rintro rfl
    exact absurd hcode.1 (by decide)
  · simp only [isQuote, Bool.or_eq_false_iff, decide_eq_false_iff_not]
    refine ⟨?_, ?_⟩ <;> rintro rfl <;> exact absurd hcode.1 (by decide)

theorem isValue_of_validateModelId {id : List Char} (h : validateModelId id = .ok ()) :
    IsValue id := by
  unfold validateModelId at h
  split at h
  · cases h
  case isFalse hlength =>
    split at h
    · cases h
    case isFalse hall =>
      rw [Bool.not_eq_true', Bool.not_eq_false] at hall
      exact ⟨fun hid => hlength (.inl hid),
        fun c hc => isModelChar_plain (List.all_eq_true.mp hall c hc)⟩

theorem IsName.colon_not_mem {name : List Char} (h : IsName name) : ':' ∉ name :=
  fun hmem => (h ':' hmem).2.1 rfl

theorem isWhitespace_of_isIndent {c : Char} (h : isIndent c = true) :
    Text.isWhitespace c = true := by
  simp only [isIndent, Bool.or_eq_true, decide_eq_true_eq] at h
  rcases h with rfl | rfl <;> decide

theorem isIndent_plain {c : Char} (h : isIndent c = true) : c ≠ '#' ∧ isQuote c = false := by
  simp only [isIndent, Bool.or_eq_true, decide_eq_true_eq] at h
  rcases h with rfl | rfl <;> decide

theorem ends_setting {key value : List Char} (hkey : IsName key) (hvalue : IsValue value) :
    (∃ c, (key ++ ([':', ' '] ++ value)).head? = some c ∧ Text.isWhitespace c = false) ∧
      ∃ d, (key ++ ([':', ' '] ++ value)).getLast? = some d ∧ Text.isWhitespace d = false := by
  constructor
  · cases key with
    | nil => exact ⟨':', rfl, by decide⟩
    | cons c key => exact ⟨c, rfl, (hkey c List.mem_cons_self).1⟩
  · refine ⟨value.getLast hvalue.ne_nil, ?_, (hvalue.plain _ (List.getLast_mem _)).1⟩
    rw [List.getLast?_append_of_ne_nil _ (by simp), List.getLast?_append_of_ne_nil _ hvalue.ne_nil]
    exact List.getLast?_eq_some_getLast hvalue.ne_nil

section Written

variable {section_ section' key key' value indent : List Char} {line : Line} {later : List Line}

section SettingLine

variable (hindent : Indents indent) (hkey : IsName key) (hvalue : IsValue value)

include hindent hkey hvalue

theorem stripComment_settingLine :
    stripComment (settingLine indent key value) = settingLine indent key value := by
  refine stripComment_eq_self fun c hc => ?_
  simp only [settingLine, List.mem_append] at hc
  rcases hc with hc | hc | hc | hc
  · exact isIndent_plain (hindent.isIndent c hc)
  · exact (hkey c hc).2.2
  · rw [List.mem_pair] at hc
    rcases hc with rfl | rfl <;> decide
  · exact (hvalue.plain c hc).2

theorem trim_settingLine :
    trimChars (stripComment (settingLine indent key value)) = key ++ ([':', ' '] ++ value) := by
  obtain ⟨⟨c, hhead, hc⟩, d, hlast, hd⟩ := ends_setting hkey hvalue
  have htrim := trim_eq_of_ends indent _ []
    (fun c hc => isWhitespace_of_isIndent (hindent.isIndent c hc)) (fun c hc => by cases hc)
    hc hd hhead hlast
  rw [List.append_nil] at htrim
  rw [stripComment_settingLine hindent hkey hvalue]
  exact htrim

theorem settingLine_indented :
    isBlank (settingLine indent key value) = false ∧
      isIndented (settingLine indent key value) = true := by
  constructor
  · unfold isBlank
    rw [trim_settingLine hindent hkey hvalue]
    simp
  · unfold isIndented
    rw [stripComment_settingLine hindent hkey hvalue]
    obtain ⟨c, rest, rfl⟩ := List.exists_cons_of_ne_nil hindent.ne_nil
    exact hindent.isIndent c List.mem_cons_self

theorem isSetting_settingLine : isSetting key (settingLine indent key value) = true := by
  unfold isSetting
  rw [trim_settingLine hindent hkey hvalue, List.isPrefixOf_iff_prefix]
  exact ⟨' ' :: value, by simp⟩

theorem valueOf_behind :
    valueOf (behind key (settingLine indent key value)) = some value := by
  have hbehind : behind key (settingLine indent key value) = [' '] ++ value := by
    unfold behind
    rw [trim_settingLine hindent hkey hvalue]
    exact (congrArg (List.drop _) (List.append_assoc key [':'] ([' '] ++ value)).symm).trans
      (List.drop_left' (by simp))
  have htrim : trimChars ([' '] ++ value) = value := by
    have h := trim_eq_of_ends [' '] value [] (by decide)
      (fun c hc => by cases hc) (hvalue.plain _ (List.head_mem hvalue.ne_nil)).1
      (hvalue.plain _ (List.getLast_mem hvalue.ne_nil)).1 (List.head?_eq_some_head hvalue.ne_nil)
      (List.getLast?_eq_some_getLast hvalue.ne_nil)
    rwa [List.append_nil] at h
  have hquotes : trimMatches isQuote value = value :=
    trimMatches_eq_self fun c hc => (hvalue.plain c hc).2.2
  simp only [valueOf, hbehind, htrim, hquotes, if_neg hvalue.ne_nil]

end SettingLine

theorem eq_of_isSetting (hkey : IsName key) (hkey' : IsName key') (h : isSetting key line = true)
    (h' : isSetting key' line = true) : key' = key := by
  unfold isSetting at h h'
  rw [List.isPrefixOf_iff_prefix] at h h'
  rw [← takeWhile_of_isPrefix hkey'.colon_not_mem h', takeWhile_of_isPrefix hkey.colon_not_mem h]

theorem sectionLine_spec (hsection : IsName section_) (section' : List Char) :
    isBlank (sectionLine section_) = false ∧ isIndented (sectionLine section_) = false ∧
      opens section' (sectionLine section_) = decide (section' = section_) := by
  have hstrip : stripComment (sectionLine section_) = section_ ++ [':'] := by
    refine stripComment_eq_self fun c hc => ?_
    rcases List.mem_append.mp hc with hc | hc
    · exact (hsection c hc).2.2
    · rw [List.mem_singleton.mp hc]
      decide
  have hend : trimEnd (section_ ++ [':']) = section_ ++ [':'] :=
    List.rdropWhile_concat_neg _ _ _ (by decide)
  have hcolons : (section_ ++ [':']).rdropWhile (· = ':') = section_ := by
    rw [List.rdropWhile_concat_pos _ _ _ (by decide), List.rdropWhile_eq_self_iff]
    intro hne hlast
    exact (hsection _ (List.getLast_mem hne)).2.1 (of_decide_eq_true hlast)
  refine ⟨?_, ?_, ?_⟩
  · have htrim : trimChars (section_ ++ [':']) = section_ ++ [':'] := by
      refine trimMatches_eq_self fun c hc => ?_
      rcases List.mem_append.mp hc with hc | hc
      · exact (hsection c hc).1
      · rw [List.mem_singleton.mp hc]
        decide
    simp [isBlank, hstrip, htrim]
  · rw [isIndented, hstrip]
    cases section_ with
    | nil => rfl
    | cons c rest =>
      have hc := (hsection c List.mem_cons_self).1
      refine Bool.eq_false_iff.mpr fun h => ?_
      rw [isWhitespace_of_isIndent h] at hc
      cases hc
  · rw [opens, hstrip, hend, hcolons, List.getLast?_concat]
    simp [eq_comm]

/-! ## One line at a time -/

/-- A blank line and an indented line of another section are passed over, and so is an indented line
that begins with another key. -/
theorem lookupFrom_skip {inSection : Bool}
    (hindented : isBlank line = true ∨ isIndented line = true)
    (h : isBlank line = true ∨ inSection = false ∨ isSetting key line = false) :
    lookupFrom section_ key inSection (line :: later) =
      lookupFrom section_ key inSection later := by
  rw [lookupFrom]
  by_cases hblank : isBlank line = true
  · rw [if_pos hblank]
  · rw [if_neg hblank, hindented.resolve_left hblank, if_neg (by decide)]
    rcases h.resolve_left hblank with rfl | hkey
    · exact if_pos rfl
    · rw [hkey, if_neg Bool.false_ne_true, ite_id]

/-- A line that is not the first of a part is read the same, whatever comes after it. -/
theorem lookupFrom_congr {inSection : Bool} {later' : List Line}
    (hindented : isBlank line = true ∨ isIndented line = true)
    (h : lookupFrom section_ key inSection later = lookupFrom section_ key inSection later') :
    lookupFrom section_ key inSection (line :: later) =
      lookupFrom section_ key inSection (line :: later') := by
  rw [lookupFrom, lookupFrom, h]
  by_cases hblank : isBlank line = true
  · rw [if_pos hblank, if_pos hblank]
  · rw [if_neg hblank, if_neg hblank, hindented.resolve_left hblank, Bool.not_true,
      if_neg Bool.false_ne_true, if_neg Bool.false_ne_true]

theorem lookupFrom_header {inSection : Bool} (hblank : isBlank line = false)
    (hindented : isIndented line = false) :
    lookupFrom section_ key inSection (line :: later) =
      lookupFrom section_ key (opens section_ line) later := by
  rw [lookupFrom, hblank, if_neg Bool.false_ne_true, hindented, if_pos (by decide)]

theorem lookupFrom_setting (hindented : isBlank line = true ∨ isIndented line = true)
    (hsetting : isSetting key line = true) :
    lookupFrom section_ key true (line :: later) = valueOf (behind key line) := by
  have hblank : ¬ isBlank line = true := by
    intro hblank
    rw [isSetting, of_decide_eq_true hblank, List.isPrefixOf_iff_prefix] at hsetting
    exact List.append_ne_nil_of_right_ne_nil key (List.cons_ne_nil _ _)
      (List.prefix_nil.mp hsetting)
  rw [lookupFrom, if_neg hblank, hindented.resolve_left hblank, if_neg (by decide),
    if_neg (by decide), if_pos hsetting]

theorem lookupFrom_settingLine (hindent : Indents indent) (hkey : IsName key)
    (hvalue : IsValue value) :
    lookupFrom section_ key true (settingLine indent key value :: later) = some value :=
  (lookupFrom_setting (.inr (settingLine_indented hindent hkey hvalue).2)
    (isSetting_settingLine hindent hkey hvalue)).trans (valueOf_behind hindent hkey hvalue)

theorem lookupFrom_settingLine_other {inSection : Bool} (hindent : Indents indent)
    (hkey : IsName key) (hkey' : IsName key') (hvalue : IsValue value)
    (h : inSection = false ∨ key' ≠ key) :
    lookupFrom section' key' inSection (settingLine indent key value :: later) =
      lookupFrom section' key' inSection later := by
  refine lookupFrom_skip (.inr (settingLine_indented hindent hkey hvalue).2)
    (.inr (h.imp_right fun hne => ?_))
  rw [← Bool.not_eq_true]
  exact fun hsetting => hne (eq_of_isSetting hkey hkey'
    (isSetting_settingLine hindent hkey hvalue) hsetting)

theorem setFrom_wrote {s : Progress} (hwrote : s.wrote = true) (text : List Line) :
    setFrom section_ key value s text = text := by
  induction text generalizing s with
  | nil => rw [setFrom, if_pos hwrote]
  | cons line later ih =>
    have hnot : ¬ (s.inSection && !s.wrote) = true := by simp [hwrote]
    rw [setFrom, if_neg hnot, if_neg hnot, ih hwrote]
    split
    · exact congrArg (line :: ·) (ih (by rw [hwrote]; rfl))
    · rfl

/-- The variables of the loop before the setting is written. -/
def searching (inSection : Bool) (indent : List Char) : Progress :=
  ⟨inSection, false, inSection, indent⟩

theorem setFrom_header {inSection : Bool} (hblank : isBlank line = false)
    (hindented : isIndented line = false) :
    setFrom section_ key value (searching inSection indent) (line :: later) =
      if inSection then settingLine indent key value :: line :: later
      else line :: setFrom section_ key value (searching (opens section_ line) indent) later := by
  rw [setFrom, hblank, hindented, if_pos (by decide)]
  cases inSection with
  | false => rfl
  | true => exact congrArg (_ :: _ :: ·) (setFrom_wrote rfl later)

/-- The indentation that a line of the section tells. -/
def indentAfter (line : Line) (indent : List Char) : List Char :=
  if isBlank line then indent else (stripComment line).takeWhile isIndent

/-- Any other line is copied, unless it is the one of the setting. -/
theorem setFrom_indented {inSection : Bool} (h : isBlank line = true ∨ isIndented line = true) :
    setFrom section_ key value (searching inSection indent) (line :: later) =
      if inSection then
        if isSetting key line then settingLine (indentAfter line indent) key value :: later
        else line :: setFrom section_ key value (searching true (indentAfter line indent)) later
      else line :: setFrom section_ key value (searching false indent) later := by
  have hnot : ¬ (!isBlank line && !isIndented line) = true := by
    rcases h with h | h <;> simp [h]
  rw [setFrom, if_neg hnot]
  cases inSection with
  | false => rfl
  | true =>
    by_cases hkey : isSetting key line = true
    · dsimp only [searching]
      rw [if_pos hkey, if_pos hkey, setFrom_wrote rfl]
      rfl
    · dsimp only [searching]
      rw [if_neg hkey, if_neg hkey]
      rfl

theorem Indents.after (hindent : Indents indent)
    (h : isBlank line = true ∨ isIndented line = true) :
    Indents (indentAfter line indent) := by
  unfold indentAfter
  split
  · exact hindent
  case isFalse hblank =>
    have hindented := h.resolve_left hblank
    refine ⟨?_, fun c hc => List.mem_takeWhile_imp hc⟩
    unfold isIndented at hindented
    cases hstrip : stripComment line with
    | nil =>
      rw [hstrip] at hindented
      cases hindented
    | cons c rest =>
      rw [hstrip] at hindented
      have hc : Settings.isIndent c = true := hindented
      rw [List.takeWhile_cons_of_pos hc]
      exact List.cons_ne_nil _ _

theorem setFrom_settingLine {indent' : List Char} (hindent : Indents indent) (hkey : IsName key)
    (hvalue : IsValue value) :
    setFrom section_ key value (searching true indent') (settingLine indent key value :: later) =
      settingLine indent key value :: later := by
  obtain ⟨hblank, hindented⟩ := settingLine_indented hindent hkey hvalue
  have hafter : indentAfter (settingLine indent key value) indent' = indent := by
    obtain ⟨⟨c, hhead, hc⟩, -⟩ := ends_setting hkey hvalue
    obtain ⟨rest, hrest⟩ := List.head?_eq_some_iff.mp hhead
    have hstop : ¬ Settings.isIndent c = true := fun h => by
      rw [isWhitespace_of_isIndent h] at hc
      cases hc
    rw [indentAfter, hblank, if_neg Bool.false_ne_true,
      stripComment_settingLine hindent hkey hvalue, settingLine, hrest,
      List.takeWhile_append_of_pos hindent.isIndent, List.takeWhile_cons_of_neg hstop,
      List.append_nil]
  rw [setFrom_indented (.inr hindented), if_pos rfl, isSetting_settingLine hindent hkey hvalue,
    if_pos rfl, hafter]

theorem line_cases (line : Line) : (isBlank line = false ∧ isIndented line = false) ∨
    (isBlank line = true ∨ isIndented line = true) := by
  cases isBlank line <;> cases isIndented line <;> simp

/-! ## Whole texts -/

/-- The setting is read back. -/
theorem lookupFrom_setFrom (hsection : IsName section_) (hkey : IsName key)
    (hvalue : IsValue value) (text : List Line) (inSection : Bool) (hindent : Indents indent) :
    lookupFrom section_ key inSection
      (setFrom section_ key value (searching inSection indent) text) = some value := by
  induction text generalizing inSection indent with
  | nil =>
    cases inSection with
    | true => exact lookupFrom_settingLine hindent hkey hvalue
    | false =>
      obtain ⟨hblank, hindented, hopens⟩ := sectionLine_spec hsection section_
      change lookupFrom section_ key false
        [sectionLine section_, settingLine indent key value] = some value
      rw [lookupFrom_header hblank hindented, hopens, decide_eq_true rfl]
      exact lookupFrom_settingLine hindent hkey hvalue
  | cons line later ih =>
    rcases line_cases line with ⟨hblank, hindented⟩ | hindented
    · rw [setFrom_header hblank hindented]
      cases inSection with
      | true => exact lookupFrom_settingLine hindent hkey hvalue
      | false =>
        rw [if_neg Bool.false_ne_true, lookupFrom_header hblank hindented]
        exact ih _ hindent
    · rw [setFrom_indented hindented]
      cases inSection with
      | true =>
        rw [if_pos rfl]
        split
        · exact lookupFrom_settingLine (hindent.after hindented) hkey hvalue
        case isFalse hother =>
          rw [lookupFrom_skip hindented (.inr (.inr (Bool.eq_false_iff.mpr hother)))]
          exact ih _ (hindent.after hindented)
      | false =>
        rw [if_neg Bool.false_ne_true, lookupFrom_skip hindented (.inr (.inl rfl))]
        exact ih _ hindent

theorem opens_other (hne : (section', key') ≠ (section_, key)) (h : opens section_ line = true) :
    opens section' line = false ∨ key' ≠ key := by
  by_cases hkey : key' = key
  · refine .inl (Bool.eq_false_iff.mpr fun h' => hne ?_)
    simp only [opens, Bool.and_eq_true, decide_eq_true_eq] at h h'
    rw [← h.2, ← h'.2, hkey]
  · exact .inr hkey

/-- Every other setting is read as before. While the loop is in the section of the setting, the
reader of the other one is not in its section, or looks for another key. -/
theorem lookupFrom_setFrom_other (hsection : IsName section_) (hkey : IsName key)
    (hkey' : IsName key') (hvalue : IsValue value) (hne : (section', key') ≠ (section_, key))
    (text : List Line) (inSection inSection' : Bool) (hindent : Indents indent)
    (hstate : inSection = true → inSection' = false ∨ key' ≠ key) :
    lookupFrom section' key' inSection'
        (setFrom section_ key value (searching inSection indent) text) =
      lookupFrom section' key' inSection' text := by
  induction text generalizing inSection inSection' indent with
  | nil =>
    cases inSection with
    | true => exact lookupFrom_settingLine_other hindent hkey hkey' hvalue (hstate rfl)
    | false =>
      obtain ⟨hblank, hindented, hopens⟩ := sectionLine_spec hsection section_
      change lookupFrom section' key' inSection'
        [sectionLine section_, settingLine indent key value] = none
      rw [lookupFrom_header hblank hindented, lookupFrom_settingLine_other hindent hkey hkey' hvalue
        (opens_other hne (hopens.trans (decide_eq_true rfl)))]
      rfl
  | cons line later ih =>
    rcases line_cases line with ⟨hblank, hindented⟩ | hindented
    · rw [setFrom_header hblank hindented]
      cases inSection with
      | true => exact lookupFrom_settingLine_other hindent hkey hkey' hvalue (hstate rfl)
      | false =>
        rw [if_neg Bool.false_ne_true, lookupFrom_header hblank hindented,
          lookupFrom_header hblank hindented]
        exact ih _ _ hindent (opens_other hne)
    · rw [setFrom_indented hindented]
      cases inSection with
      | true =>
        rw [if_pos rfl]
        split
        case isTrue hsetting =>
          rw [lookupFrom_settingLine_other (hindent.after hindented) hkey hkey' hvalue
            (hstate rfl)]
          refine (lookupFrom_skip hindented (.inr ((hstate rfl).imp_right fun hdiffers => ?_))).symm
          exact Bool.eq_false_iff.mpr fun h => hdiffers (eq_of_isSetting hkey hkey' hsetting h)
        · exact lookupFrom_congr hindented (ih _ _ (hindent.after hindented) hstate)
      | false => exact lookupFrom_congr hindented (ih _ _ hindent hstate)

/-- A second pass finds the setting where the first one wrote it. -/
theorem setFrom_setFrom (hsection : IsName section_) (hkey : IsName key) (hvalue : IsValue value)
    (text : List Line) (inSection : Bool) (hindent : Indents indent) (indent' : List Char) :
    setFrom section_ key value (searching inSection indent')
        (setFrom section_ key value (searching inSection indent) text) =
      setFrom section_ key value (searching inSection indent) text := by
  induction text generalizing inSection indent indent' with
  | nil =>
    cases inSection with
    | true => exact setFrom_settingLine hindent hkey hvalue
    | false =>
      obtain ⟨hblank, hindented, hopens⟩ := sectionLine_spec hsection section_
      change setFrom section_ key value (searching false indent')
        [sectionLine section_, settingLine indent key value] =
          [sectionLine section_, settingLine indent key value]
      rw [setFrom_header hblank hindented, hopens, decide_eq_true rfl, if_neg Bool.false_ne_true,
        setFrom_settingLine hindent hkey hvalue]
  | cons line later ih =>
    rcases line_cases line with ⟨hblank, hindented⟩ | hindented
    · rw [setFrom_header hblank hindented]
      cases inSection with
      | true => exact setFrom_settingLine hindent hkey hvalue
      | false =>
        rw [if_neg Bool.false_ne_true, setFrom_header hblank hindented, if_neg Bool.false_ne_true,
          ih _ hindent]
    · rw [setFrom_indented hindented]
      cases inSection with
      | true =>
        rw [if_pos rfl]
        split
        · exact setFrom_settingLine (hindent.after hindented) hkey hvalue
        case isFalse hother =>
          rw [setFrom_indented hindented, if_pos rfl, if_neg hother,
            ih _ (hindent.after hindented)]
      | false =>
        rw [if_neg Bool.false_ne_true, setFrom_indented hindented, if_neg Bool.false_ne_true,
          ih _ hindent]

end Written

/-! ## Carriage returns -/

theorem stripFrom_append (single double : Bool) (line : Line) :
    stripFrom single double (line ++ ['\r']) = stripFrom single double line ∨
      stripFrom single double (line ++ ['\r']) = stripFrom single double line ++ ['\r'] := by
  induction line generalizing single double with
  | nil => exact .inr (by simp [stripFrom])
  | cons c line ih =>
    rw [List.cons_append, stripFrom, stripFrom]
    split
    · exact (ih _ _).imp (congrArg (c :: ·)) (congrArg (c :: ·))
    · split
      · exact (ih _ _).imp (congrArg (c :: ·)) (congrArg (c :: ·))
      · split
        · exact .inl rfl
        · exact (ih _ _).imp (congrArg (c :: ·)) (congrArg (c :: ·))

theorem stripComment_dropReturn (line : Line) :
    stripComment line = stripComment (dropReturn line) ∨
      stripComment line = stripComment (dropReturn line) ++ ['\r'] := by
  unfold dropReturn
  split
  case isTrue hreturn =>
    obtain ⟨start, rfl⟩ := List.getLast?_eq_some_iff.mp hreturn
    rw [List.dropLast_concat]
    exact stripFrom_append false false start
  · exact .inl rfl

theorem trimEnd_concat_return (chars : List Char) : trimEnd (chars ++ ['\r']) = trimEnd chars :=
  List.rdropWhile_concat_pos _ _ _ (by decide)

/-- A carriage return at the end is white space, also where nothing else is. -/
theorem trim_concat_return (chars : List Char) : trimChars (chars ++ ['\r']) = trimChars chars := by
  unfold trimChars trimMatches
  rw [List.dropWhile_append]
  cases hdrop : chars.dropWhile Text.isWhitespace with
  | nil => rfl
  | cons c rest => exact List.rdropWhile_concat_pos _ _ _ (by decide)

section Returns

variable {section_ key value indent : List Char} (line : Line)

/-- The text of a line that the reader looks at is the same without the carriage return. -/
theorem trim_dropReturn :
    trimChars (stripComment (dropReturn line)) = trimChars (stripComment line) := by
  rcases stripComment_dropReturn line with h | h
  · rw [h]
  · rw [h, trim_concat_return]

theorem isBlank_dropReturn : isBlank (dropReturn line) = isBlank line := by
  rw [isBlank, isBlank, trim_dropReturn]

theorem isSetting_dropReturn : isSetting key (dropReturn line) = isSetting key line := by
  rw [isSetting, isSetting, trim_dropReturn]

theorem behind_dropReturn : behind key (dropReturn line) = behind key line := by
  rw [behind, behind, trim_dropReturn]

theorem opens_dropReturn : opens section_ (dropReturn line) = opens section_ line := by
  rcases stripComment_dropReturn line with h | h
  · rw [opens, opens, h]
  · rw [opens, opens, h, trimEnd_concat_return]

theorem isIndented_dropReturn : isIndented (dropReturn line) = isIndented line := by
  rcases stripComment_dropReturn line with h | h
  · rw [isIndented, isIndented, h]
  · rw [isIndented, isIndented, h]
    cases stripComment (dropReturn line) <;> rfl

theorem takeWhile_dropReturn :
    (stripComment (dropReturn line)).takeWhile isIndent =
      (stripComment line).takeWhile isIndent := by
  rcases stripComment_dropReturn line with h | h
  · rw [h]
  · rw [h, List.takeWhile_append]
    split
    case isTrue hall =>
      exact ((List.takeWhile_prefix _).eq_of_length hall).trans (List.append_nil _).symm
    · rfl

/-- A line that ends in a carriage return is kept as it is, or there is none. -/
theorem dropReturn_eq_self_iff : dropReturn line = line ↔ line.getLast? ≠ some '\r' := by
  unfold dropReturn
  split
  case isTrue hreturn =>
    refine iff_of_false (fun h => ?_) fun h => h hreturn
    obtain ⟨start, rfl⟩ := List.getLast?_eq_some_iff.mp hreturn
    have hlength := congrArg List.length h
    rw [List.length_dropLast, List.length_append, List.length_singleton] at hlength
    omega
  case isFalse hreturn => exact iff_of_true rfl hreturn

theorem getLast?_settingLine (hvalue : IsValue value) :
    (settingLine indent key value).getLast? ≠ some '\r' := by
  unfold settingLine
  rw [List.getLast?_append_of_ne_nil _ (by simp), List.getLast?_append_of_ne_nil _ (by simp),
    List.getLast?_append_of_ne_nil _ hvalue.ne_nil]
  intro hlast
  have hspace := (hvalue.plain '\r' (List.mem_of_getLast? hlast)).1
  exact absurd hspace (by decide)

variable {line}

theorem lookupFrom_map_dropReturn (inSection : Bool) (text : List Line) :
    lookupFrom section_ key inSection (text.map dropReturn) =
      lookupFrom section_ key inSection text := by
  induction text generalizing inSection with
  | nil => rfl
  | cons line later ih =>
    rw [List.map_cons, lookupFrom, lookupFrom, isBlank_dropReturn, isIndented_dropReturn,
      opens_dropReturn, isSetting_dropReturn, behind_dropReturn, ih, ih]

theorem setFrom_map_dropReturn (hvalue : IsValue value) (inSection : Bool) (text : List Line) :
    setFrom section_ key value (searching inSection indent) (text.map dropReturn) =
      (setFrom section_ key value (searching inSection indent) text).map dropReturn := by
  have hwritten (indent : List Char) :
      dropReturn (settingLine indent key value) = settingLine indent key value :=
    (dropReturn_eq_self_iff _).mpr (getLast?_settingLine hvalue)
  have hsection : dropReturn (sectionLine section_) = sectionLine section_ :=
    (dropReturn_eq_self_iff _).mpr (by simp [sectionLine])
  induction text generalizing inSection indent with
  | nil =>
    cases inSection with
    | true => exact congrArg (fun line => [line]) (hwritten indent).symm
    | false =>
      change [sectionLine section_, settingLine indent key value] =
        [dropReturn (sectionLine section_), dropReturn (settingLine indent key value)]
      rw [hsection, hwritten]
  | cons line later ih =>
    rw [List.map_cons]
    rcases line_cases line with ⟨hblank, hindented⟩ | hindented
    · rw [setFrom_header ((isBlank_dropReturn line).trans hblank)
        ((isIndented_dropReturn line).trans hindented), setFrom_header hblank hindented,
        opens_dropReturn, ih]
      split
      · rw [List.map_cons, List.map_cons, hwritten]
      · rfl
    · have hafter : indentAfter (dropReturn line) indent = indentAfter line indent := by
        rw [indentAfter, indentAfter, isBlank_dropReturn, takeWhile_dropReturn]
      have hindented' : isBlank (dropReturn line) = true ∨ isIndented (dropReturn line) = true := by
        rwa [isBlank_dropReturn, isIndented_dropReturn]
      rw [setFrom_indented hindented', setFrom_indented hindented, isSetting_dropReturn, hafter, ih,
        ih]
      split
      · split
        · rw [List.map_cons, hwritten]
        · rfl
      · rfl

end Returns

/-! ## The laws of the editor -/

/-- The lines that `set_setting` writes back: all but the one the setting is rewritten in. -/
def keptFrom (section_ key : List Char) : Bool → List Line → List Line
  | _, [] => []
  | inSection, line :: later =>
    if !isBlank line && !isIndented line then
      if inSection then line :: later else line :: keptFrom section_ key (opens section_ line) later
    else if inSection && isSetting key line then later
    else line :: keptFrom section_ key inSection later

section Laws

variable {section_ key value : List Char}

theorem keptFrom_sublist (inSection : Bool) (text : List Line) :
    (keptFrom section_ key inSection text).Sublist text := by
  induction text generalizing inSection with
  | nil => exact List.Sublist.refl _
  | cons line later ih =>
    rw [keptFrom]
    split
    · split
      · exact List.Sublist.refl _
      · exact (ih _).cons_cons line
    · split
      · exact List.sublist_cons_self line later
      · exact (ih _).cons_cons line

/-- What is true of the lines of the setting and the section is true of every line that is written
exactly if it is true of those that are kept. -/
theorem forall_setFrom_iff {p : Line → Prop} (hsection : p (sectionLine section_))
    (hsetting : ∀ indent, Indents indent → p (settingLine indent key value)) (inSection : Bool)
    {indent : List Char} (hindent : Indents indent) (text : List Line) :
    (∀ line ∈ setFrom section_ key value (searching inSection indent) text, p line) ↔
      ∀ line ∈ keptFrom section_ key inSection text, p line := by
  induction text generalizing inSection indent with
  | nil =>
    refine iff_of_true (fun line hline => ?_) fun line hline => by cases hline
    cases inSection with
    | true =>
      rw [List.mem_singleton.mp hline]
      exact hsetting indent hindent
    | false =>
      rcases List.mem_pair.mp hline with rfl | rfl
      · exact hsection
      · exact hsetting indent hindent
  | cons line later ih =>
    rcases line_cases line with ⟨hblank, hindented⟩ | hindented
    · rw [setFrom_header hblank hindented, keptFrom, hblank, hindented]
      cases inSection with
      | true => exact List.forall_mem_cons.trans (and_iff_right (hsetting indent hindent))
      | false =>
        exact List.forall_mem_cons.trans
          ((and_congr_right fun _ => ih _ hindent).trans List.forall_mem_cons.symm)
    · have hnot : ¬ (!isBlank line && !isIndented line) = true := by
        rcases hindented with h | h <;> simp [h]
      have hafter := hindent.after hindented
      rw [setFrom_indented hindented, keptFrom, if_neg hnot]
      cases inSection with
      | true =>
        rw [if_pos rfl, Bool.true_and]
        split
        · exact List.forall_mem_cons.trans (and_iff_right (hsetting _ hafter))
        · exact List.forall_mem_cons.trans
            ((and_congr_right fun _ => ih _ hafter).trans List.forall_mem_cons.symm)
      | false =>
        exact List.forall_mem_cons.trans
          ((and_congr_right fun _ => ih _ hindent).trans List.forall_mem_cons.symm)

theorem rendered_eq_flatten {out : List Line} (hout : out ≠ []) :
    rendered out = (out.map ended).flatten := by
  unfold rendered
  induction out with
  | nil => exact absurd rfl hout
  | cons line later ih =>
    cases later with
    | nil => simp [ended]
    | cons next later =>
      rw [List.intercalate_cons_cons, List.append_assoc, List.append_assoc,
        ih (List.cons_ne_nil _ _)]
      exact (List.append_assoc line ['\n'] _).symm

/-- The lines of what was written are the lines that were written, but for carriage returns. -/
theorem lines_flatten {out : List Line} (hlines : ∀ line ∈ out, '\n' ∉ line) :
    lines (out.map ended).flatten = out.map dropReturn := by
  unfold lines
  rw [Text.splitInclusive_flatten hlines, List.map_map]
  exact List.map_congr_left fun line _ => Text.chomp_ended line

theorem length_map_dropReturn (out : List Line) :
    ((out.map dropReturn).map ended).flatten.length ≤ (out.map ended).flatten.length ∧
      (((out.map dropReturn).map ended).flatten.length = (out.map ended).flatten.length →
        ∀ line ∈ out, line.getLast? ≠ some '\r') := by
  induction out with
  | nil => exact ⟨Nat.le_refl _, fun _ line hline => by cases hline⟩
  | cons line later ih =>
    simp only [List.map_cons, List.flatten_cons, ended, List.length_append, List.length_singleton]
    by_cases hreturn : line.getLast? = some '\r'
    · have hshorter : (dropReturn line).length < line.length := by
        rw [dropReturn, if_pos hreturn, List.length_dropLast]
        exact Nat.sub_one_lt (List.length_eq_zero_iff.not.mpr fun hnil => by simp [hnil] at hreturn)
      exact ⟨by omega, fun h => by omega⟩
    · rw [(dropReturn_eq_self_iff line).mpr hreturn]
      refine ⟨by omega, fun h => List.forall_mem_cons.mpr ⟨hreturn, ih.2 (by omega)⟩⟩

/-- A text is the same without the carriage returns exactly if there is none. -/
theorem rendered_map_dropReturn_iff {out : List Line} (hout : out ≠ []) :
    rendered (out.map dropReturn) = rendered out ↔ ∀ line ∈ out, line.getLast? ≠ some '\r' := by
  constructor
  · intro h
    rw [rendered_eq_flatten hout, rendered_eq_flatten (List.map_eq_nil_iff.not.mpr hout)] at h
    exact (length_map_dropReturn out).2 (congrArg List.length h)
  · intro h
    have hsame : out.map dropReturn = out.map id :=
      List.map_congr_left fun line hline => (dropReturn_eq_self_iff line).mpr (h line hline)
    rw [hsame, List.map_id]

end Laws

/-- The setting that is written is read back, every other one is read as before, and writing it
again changes nothing. -/
def LensLaws (body section_ key value : List Char) : Prop :=
  lookup (setSetting body section_ key value) section_ key = some value ∧
    (∀ section' key', IsName section' → IsName key' → (section', key') ≠ (section_, key) →
      lookup (setSetting body section_ key value) section' key' = lookup body section' key') ∧
    setSetting (setSetting body section_ key value) section_ key value =
      setSetting body section_ key value

theorem indents_default : Indents [' ', ' '] := ⟨by decide, by decide⟩

theorem setFrom_ne_nil {section_ key value : List Char} (hsection : IsName section_)
    (hkey : IsName key) (hvalue : IsValue value) (text : List Line) :
    setFrom section_ key value {} text ≠ [] := by
  intro hnil
  have hread := lookupFrom_setFrom hsection hkey hvalue text false indents_default
  change lookupFrom section_ key false (setFrom section_ key value {} text) = some value at hread
  rw [hnil] at hread
  cases hread

theorem lines_setSetting {section_ key value : List Char} (hsection : IsName section_)
    (hkey : IsName key) (hvalue : IsValue value) (body : List Char) :
    lines (setSetting body section_ key value) =
      (setFrom section_ key value {} (lines body)).map dropReturn := by
  have hname {name : List Char} (hname : IsName name) : '\n' ∉ name := fun hmem =>
    absurd (hname '\n' hmem).1 (by decide)
  have hnewlines : ∀ line ∈ setFrom section_ key value {} (lines body), '\n' ∉ line := by
    refine (forall_setFrom_iff ?_ (fun indent hindent => ?_) false indents_default _).mpr ?_
    · rw [sectionLine, List.mem_append, not_or]
      exact ⟨hname hsection, by decide⟩
    · simp only [settingLine, List.mem_append, not_or]
      exact ⟨fun hmem => absurd (hindent.isIndent _ hmem) (by decide), hname hkey, by decide,
        fun hmem => absurd (hvalue.plain _ hmem).1 (by decide)⟩
    · intro line hline
      obtain ⟨raw, hraw, rfl⟩ := List.mem_map.mp ((keptFrom_sublist _ _).mem hline)
      exact Allowlist.newline_not_mem_chomp hraw
  rw [setSetting, rendered_eq_flatten (setFrom_ne_nil hsection hkey hvalue _)]
  exact lines_flatten hnewlines

/-- A setting is written as it should be exactly if no line of the text that is kept ends in a
carriage return beside the end of the line. Reading is right whatever the text. -/
theorem lensLaws_iff (body section_ key model : List Char) (hsection : IsName section_)
    (hkey : IsName key) (hmodel : validateModelId model = .ok ()) :
    LensLaws body section_ key model ↔
      ∀ line ∈ keptFrom section_ key false (lines body), line.getLast? ≠ some '\r' := by
  have hvalue := isValue_of_validateModelId hmodel
  have hlines := lines_setSetting hsection hkey hvalue body
  have hread : lookup (setSetting body section_ key model) section_ key = some model := by
    rw [lookup, hlines, lookupFrom_map_dropReturn]
    exact lookupFrom_setFrom hsection hkey hvalue _ false indents_default
  have hother (section' key' : List Char) (hkey' : IsName key')
      (hne : (section', key') ≠ (section_, key)) :
      lookup (setSetting body section_ key model) section' key' = lookup body section' key' := by
    rw [lookup, hlines, lookupFrom_map_dropReturn]
    exact lookupFrom_setFrom_other hsection hkey hkey' hvalue hne _ false false indents_default
      fun h => by cases h
  have hagain : setSetting (setSetting body section_ key model) section_ key model =
      rendered ((setFrom section_ key model {} (lines body)).map dropReturn) := by
    rw [setSetting, hlines]
    refine congrArg rendered ((setFrom_map_dropReturn hvalue false _).trans ?_)
    exact congrArg (List.map dropReturn)
      (setFrom_setFrom hsection hkey hvalue _ false indents_default _)
  have hkept : (∀ line ∈ setFrom section_ key model {} (lines body), line.getLast? ≠ some '\r') ↔
      ∀ line ∈ keptFrom section_ key false (lines body), line.getLast? ≠ some '\r' :=
    forall_setFrom_iff (by simp [sectionLine]) (fun _ _ => getLast?_settingLine hvalue) false
      indents_default (lines body)
  rw [← hkept, ← rendered_map_dropReturn_iff (setFrom_ne_nil hsection hkey hvalue _), ← hagain]
  exact ⟨fun h => h.2.2, fun h =>
    ⟨hread, fun section' key' _ hkey' => hother section' key' hkey', h⟩⟩

/-- The line `a` ends in a carriage return and nothing else. The first time the setting is written
it gets a line feed, the second time it loses the carriage return. -/
theorem lone_return_not_lensLaws :
    ¬ LensLaws "a\r".toList "model".toList "default".toList "m".toList :=
  fun h => absurd h.2.2 (by decide)

/-- A setting that stands on a line of its own is rewritten there. -/
theorem rewritten_lensLaws :
    LensLaws "model:\n  default: a\n".toList "model".toList "default".toList "m".toList :=
  (lensLaws_iff _ _ _ _ (by decide) (by decide) (by decide)).mpr (by decide)

end Asterism.Settings
