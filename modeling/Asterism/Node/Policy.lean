import Asterism.Node.Settings

/-!
# The runtime policy

A project does not start with the native Codex runtime and approvals bypassed, unless an operator
asks for it. The two settings are read from the agent's configuration by a scanner of lines. Where a
setting stands is said here by the layout of the text, line by line, so that it can be compared with
what the scanner finds: an entry of a nested mapping that comes first is taken for the setting of
the section.
-/

namespace Asterism.Policy

open Settings Text

/-- `RuntimeConfiguration`: the settings that decide whether a configuration is safe to run. -/
structure RuntimeConfiguration where
  openaiRuntime : Option (List Char)
  approvalsMode : Option (List Char)
  deriving DecidableEq

def codexAppServer : List Char := "codex_app_server".toList

def off : List Char := "off".toList

/-- `uses_native_codex`. -/
def RuntimeConfiguration.usesNativeCodex (config : RuntimeConfiguration) : Bool :=
  config.openaiRuntime = some codexAppServer

/-- `approvals_bypassed`. -/
def RuntimeConfiguration.approvalsBypassed (config : RuntimeConfiguration) : Bool :=
  config.approvalsMode = some off

/-- `PolicyDecision`: what was decided about a configuration. -/
inductive PolicyDecision
  | allow
  | allowWithOverride (warning : String)
  | deny (reason : String)
  deriving DecidableEq

/-- `evaluate`: native Codex without approvals is denied unless it is overridden. -/
def evaluate (config : RuntimeConfiguration) (override : Bool) : PolicyDecision :=
  if !(config.usesNativeCodex && config.approvalsBypassed) then .allow
  else if override then
    .allowWithOverride
      ("UNSAFE RUNTIME: native codex_app_server is running with approvals.mode=off. " ++
      "Every Codex permission request is auto-approved and no approval.request event " ++
      "reaches the Asterism API. This mode is for controlled testing only; stop the " ++
      "project as soon as the test completes.")
  else
    .deny ("model.openai_runtime=codex_app_server requires approvals.mode=off to execute, " ++
      "which auto-approves every Codex request and emits no approval.request events. " ++
      "Use the default Hermes agent loop (model.openai_runtime=auto), or pass " ++
      "--unsafe-allow-codex-approval-bypass for a controlled, supervised test.")

/-- `parse_runtime_configuration`. -/
def parseRuntimeConfiguration (body : List Char) : RuntimeConfiguration where
  openaiRuntime := lookup body "model".toList "openai_runtime".toList
  approvalsMode := lookup body "approvals".toList "mode".toList

/-- The check denies a configuration unless the override is given. -/
def Denied (body : List Char) : Prop :=
  ∃ reason, evaluate (parseRuntimeConfiguration body) false = .deny reason

/-! ## Settings in block style -/

/-- White space, and perhaps a comment behind it. -/
def IsRemark (chars : List Char) : Prop :=
  ∃ space comment, chars = space ++ comment ∧ (∀ c ∈ space, Text.isWhitespace c = true) ∧
    ∀ c ∈ comment.head?, c = '#'

/-- What may follow on a line: a comment is set off by white space. -/
def IsTrailing (chars : List Char) : Prop := IsRemark chars ∧ chars.head? ≠ some '#'

/-- The value is written in this way, with quotes or without. -/
def IsWritten (value scalar : List Char) : Prop :=
  scalar = value ∨ ∃ quote, isQuote quote = true ∧ scalar = quote :: (value ++ [quote])

/-- The line of a setting that is indented so far. -/
def entryLine (indent : ℕ) (key : List Char) (gap : ℕ) (scalar trailing : List Char) : Line :=
  List.replicate indent ' ' ++ (key ++ [':'] ++ (List.replicate gap ' ' ++ (scalar ++ trailing)))

def textOf (text : List Line) : List Char := (text.map ended).flatten

/-- A setting that is a direct child of its section, each written on one line with a colon right
behind its name. Up to the setting, the lines of the section are remarks or are indented at least as
far. Which mappings, sequences and texts they belong to is open, as are the other sections. -/
structure Direct (body section_ key value : List Char) where
  before : List Line
  sectionTrailing : List Char
  above : List Line
  indent : ℕ
  gap : ℕ
  scalar : List Char
  trailing : List Char
  below : List Line
  body_eq : body = textOf (before ++ (section_ ++ [':'] ++ sectionTrailing) ::
    (above ++ entryLine (indent + 1) key (gap + 1) scalar trailing :: below))
  newline : ∀ line ∈ before ++ (section_ ++ [':'] ++ sectionTrailing) ::
    (above ++ entryLine (indent + 1) key (gap + 1) scalar trailing :: below), '\n' ∉ line
  /-- The section has not occurred before. -/
  first : ∀ line ∈ before, ¬section_ ++ [':'] <+: line
  inner : ∀ line ∈ above, IsRemark line ∨ List.replicate (indent + 1) ' ' <+: line
  sectionTrailing_spec : IsTrailing sectionTrailing
  scalar_spec : IsWritten value scalar
  trailing_spec : IsTrailing trailing

/-- The setting is hidden: the first line of its section above it, at whatever depth, that begins
with its name gives another value. -/
def Direct.Hidden {body section_ key value : List Char}
    (setting : Direct body section_ key value) : Prop :=
  ∃ line ∈ setting.above.find? (isSetting key), valueOf (behind key line) ≠ some value

/-! ## What the scanner makes of a line -/

theorem plain_of_isWhitespace {c : Char} (h : Text.isWhitespace c = true) :
    c ≠ '#' ∧ isQuote c = false := by
  constructor
  · rintro rfl
    exact absurd h (by decide)
  · simp only [isQuote, Bool.or_eq_false_iff, decide_eq_false_iff_not]
    refine ⟨?_, ?_⟩ <;> rintro rfl <;> exact absurd h (by decide)

theorem IsRemark.stripComment {chars : List Char} (h : IsRemark chars) :
    ∀ c ∈ stripComment chars, Text.isWhitespace c = true := by
  obtain ⟨space, comment, rfl, hspace, hcomment⟩ := h
  have hnone : stripFrom false false comment = [] := by
    cases comment with
    | nil => rfl
    | cons c rest =>
      obtain rfl := hcomment c rfl
      rfl
  rw [Settings.stripComment, stripFrom_append_of_plain _ _ _
    fun c hc => plain_of_isWhitespace (hspace c hc), hnone, List.append_nil]
  exact hspace

theorem IsRemark.isBlank {chars : List Char} (h : IsRemark chars) : isBlank chars = true := by
  rw [Settings.isBlank, trimChars, trimMatches, List.dropWhile_eq_nil_iff.mpr h.stripComment]
  rfl

theorem isIndented_spaces {n : ℕ} (hn : 0 < n) (rest : List Char) :
    isIndented (List.replicate n ' ' ++ rest) = true := by
  obtain ⟨n, rfl⟩ := Nat.exists_eq_add_of_lt hn
  rfl

/-- White space behind another character is left out, up to this character. -/
theorem trimEnd_append {c : Char} (hc : Text.isWhitespace c = false) (front rest : List Char) :
    trimEnd (front ++ [c] ++ rest) = front ++ [c] ++ trimEnd rest := by
  unfold trimEnd
  induction rest using List.reverseRecOn with
  | nil =>
    rw [List.append_nil, List.rdropWhile_nil, List.append_nil]
    exact List.rdropWhile_concat_neg _ _ _ (by rw [hc]; exact Bool.false_ne_true)
  | append_singleton rest d ih =>
    rw [← List.append_assoc]
    by_cases hd : Text.isWhitespace d = true
    · rw [List.rdropWhile_concat_pos _ _ _ hd, List.rdropWhile_concat_pos _ _ _ hd, ih]
    · rw [List.rdropWhile_concat_neg _ _ _ hd, List.rdropWhile_concat_neg _ _ _ hd,
        List.append_assoc]

theorem trim_ne_nil {c : Char} {chars : List Char} (hmem : c ∈ chars)
    (hc : Text.isWhitespace c = false) : trimChars chars ≠ [] := by
  intro htrim
  have hrest := List.rdropWhile_eq_nil_iff.mp htrim
  have hwhite : Text.isWhitespace c = true := by
    rw [← List.takeWhile_append_dropWhile (p := Text.isWhitespace) (l := chars)] at hmem
    rcases List.mem_append.mp hmem with hmem | hmem
    · exact List.mem_takeWhile_imp hmem
    · exact hrest c hmem
  rw [hwhite] at hc
  cases hc

theorem stripFrom_isPrefix (single double : Bool) (line : Line) :
    stripFrom single double line <+: line := by
  induction line generalizing single double with
  | nil => exact List.prefix_refl _
  | cons c line ih =>
    unfold stripFrom
    split
    · exact (List.prefix_cons_inj c).mpr (ih _ _)
    · split
      · exact (List.prefix_cons_inj c).mpr (ih _ _)
      · split
        · exact List.nil_prefix
        · exact (List.prefix_cons_inj c).mpr (ih _ _)

theorem prefix_of_opens {section_ : List Char} {line : Line} (h : opens section_ line = true) :
    section_ ++ [':'] <+: line := by
  obtain ⟨hlast, hname⟩ := Bool.and_eq_true_iff.mp h |>.imp of_decide_eq_true of_decide_eq_true
  have hshort : trimEnd (stripComment line) <+: line :=
    (List.rdropWhile_prefix _ _).trans (stripFrom_isPrefix _ _ line)
  refine List.IsPrefix.trans ?_ hshort
  generalize trimEnd (stripComment line) = chars at hlast hname
  have hsplit := List.rdropWhile_append_rtakeWhile (p := (· = ':')) (l := chars)
  cases hcolons : chars.rtakeWhile (· = ':') with
  | nil =>
    have hne : chars ≠ [] := fun hnil => by rw [hnil] at hlast; cases hlast
    have hcolon := List.rtakeWhile_eq_nil_iff.mp hcolons hne
    rw [List.getLast?_eq_some_getLast hne, Option.some.injEq] at hlast
    exact absurd (decide_eq_true hlast) hcolon
  | cons c rest =>
    have hc := List.mem_rtakeWhile_imp (p := fun c => decide (c = ':'))
      (hcolons ▸ List.mem_cons_self : c ∈ chars.rtakeWhile (· = ':'))
    rw [of_decide_eq_true hc] at hcolons
    refine ⟨rest, ?_⟩
    rw [← hsplit, hname, hcolons, List.append_assoc]
    rfl

theorem plain_of_isName {name : List Char} (hname : IsName name) :
    ∀ c ∈ name ++ [':'], c ≠ '#' ∧ isQuote c = false := by
  intro c hc
  rcases List.mem_append.mp hc with hc | hc
  · exact (hname c hc).2.2
  · rw [List.mem_singleton.mp hc]
    decide

theorem head_of_isName {name : List Char} (hname : IsName name) (rest : List Char) :
    ∃ c, (name ++ [':'] ++ rest).head? = some c ∧ Text.isWhitespace c = false := by
  cases name with
  | nil => exact ⟨':', rfl, by decide⟩
  | cons c chars => exact ⟨c, rfl, (hname c List.mem_cons_self).1⟩

theorem section_line_spec {section_ trailing : List Char} (hsection : IsName section_)
    (htrailing : IsTrailing trailing) :
    isBlank (section_ ++ [':'] ++ trailing) = false ∧
      isIndented (section_ ++ [':'] ++ trailing) = false ∧
      opens section_ (section_ ++ [':'] ++ trailing) = true := by
  have hstrip : stripComment (section_ ++ [':'] ++ trailing) =
      section_ ++ [':'] ++ stripComment trailing :=
    stripFrom_append_of_plain false false _ (plain_of_isName hsection)
  refine ⟨?_, ?_, ?_⟩
  · rw [isBlank, hstrip, decide_eq_false_iff_not]
    exact trim_ne_nil (List.mem_append_left _ (List.mem_append_right _ List.mem_cons_self))
      (by decide)
  · obtain ⟨c, hhead, hc⟩ := head_of_isName hsection (stripComment trailing)
    rw [isIndented, hstrip, hhead]
    refine Bool.eq_false_iff.mpr fun h => ?_
    rw [isWhitespace_of_isIndent h] at hc
    cases hc
  · have hbare : trimEnd (stripComment (sectionLine section_)) = section_ ++ [':'] := by
      rw [sectionLine, stripComment_eq_self (plain_of_isName hsection)]
      exact List.rdropWhile_concat_neg _ _ _ (by decide)
    have hline := (sectionLine_spec hsection section_).2.2
    rw [opens, hbare] at hline
    rw [opens, hstrip, trimEnd_append (by decide),
      show trimEnd (stripComment trailing) = [] from
        List.rdropWhile_eq_nil_iff.mpr htrailing.1.stripComment, List.append_nil, hline]
    exact decide_eq_true rfl

/-- The text between two quotes is not looked at, and the second one closes the first. -/
theorem stripFrom_quoted {quote : Char} (hquote : isQuote quote = true) {text : List Char}
    (htext : ∀ c ∈ text, c ≠ '#' ∧ isQuote c = false) (rest : List Char) :
    stripFrom false false (quote :: (text ++ quote :: rest)) =
      quote :: (text ++ quote :: stripFrom false false rest) := by
  simp only [isQuote, Bool.or_eq_true, decide_eq_true_eq] at hquote
  rcases hquote with rfl | rfl
  · change '"' :: stripFrom false true (text ++ '"' :: rest) = _
    rw [stripFrom_append_of_plain false true _ htext]
    rfl
  · change '\x27' :: stripFrom true false (text ++ '\x27' :: rest) = _
    rw [stripFrom_append_of_plain true false _ htext]
    rfl

section Scalar

variable {value scalar : List Char} (hvalue : IsValue value) (hscalar : IsWritten value scalar)

include hvalue hscalar

theorem stripFrom_scalar (rest : List Char) :
    stripFrom false false (scalar ++ rest) = scalar ++ stripFrom false false rest := by
  have hplain : ∀ c ∈ value, c ≠ '#' ∧ isQuote c = false := fun c hc => (hvalue.plain c hc).2
  rcases hscalar with rfl | ⟨quote, hquote, rfl⟩
  · exact stripFrom_append_of_plain false false rest hplain
  · change stripFrom false false (quote :: (value ++ [quote] ++ rest)) =
      quote :: (value ++ [quote] ++ stripFrom false false rest)
    rw [List.append_assoc, List.append_assoc]
    exact stripFrom_quoted hquote hplain rest

theorem trimMatches_scalar : trimMatches isQuote scalar = value := by
  rcases hscalar with rfl | ⟨quote, hquote, rfl⟩
  · exact trimMatches_eq_self fun c hc => (hvalue.plain c hc).2.2
  · obtain ⟨c, rest, hrest⟩ := List.exists_cons_of_ne_nil hvalue.ne_nil
    have hc : ¬ isQuote c = true := by
      rw [(hvalue.plain c (hrest ▸ List.mem_cons_self)).2.2]
      exact Bool.false_ne_true
    have hdrop : (value ++ [quote]).dropWhile isQuote = value ++ [quote] := by
      rw [hrest, List.cons_append, List.dropWhile_cons_of_neg hc]
    rw [trimMatches, List.dropWhile_cons_of_pos hquote, hdrop,
      List.rdropWhile_concat_pos _ _ _ hquote, List.rdropWhile_eq_self_iff]
    intro hne
    rw [(hvalue.plain _ (List.getLast_mem hne)).2.2]
    exact Bool.false_ne_true

theorem ends_scalar :
    (∃ c, scalar.head? = some c ∧ Text.isWhitespace c = false) ∧
      ∃ d, scalar.getLast? = some d ∧ Text.isWhitespace d = false := by
  rcases hscalar with rfl | ⟨quote, hquote, rfl⟩
  · exact ⟨⟨_, List.head?_eq_some_head hvalue.ne_nil, (hvalue.plain _ (List.head_mem _)).1⟩,
      ⟨_, List.getLast?_eq_some_getLast hvalue.ne_nil, (hvalue.plain _ (List.getLast_mem _)).1⟩⟩
  · have hwhite : Text.isWhitespace quote = false :=
      Bool.eq_false_iff.mpr fun h => absurd hquote (by rw [(plain_of_isWhitespace h).2]; decide)
    refine ⟨⟨quote, rfl, hwhite⟩, quote, ?_, hwhite⟩
    exact (congrArg List.getLast? (List.append_assoc [quote] value [quote])).symm.trans
      List.getLast?_concat

/-- A value without white space and quotes is read as it is written. -/
theorem entryLine_spec {key trailing : List Char} (hkey : IsName key)
    (htrailing : IsTrailing trailing) (indent gap : ℕ) :
    isSetting key (entryLine indent key gap scalar trailing) = true ∧
      valueOf (behind key (entryLine indent key gap scalar trailing)) = some value := by
  have hspaces (n : ℕ) : ∀ c ∈ List.replicate n ' ', Text.isWhitespace c = true := fun c hc => by
    rw [List.eq_of_mem_replicate hc]
    decide
  have hplain (n : ℕ) : ∀ c ∈ List.replicate n ' ', c ≠ '#' ∧ isQuote c = false :=
    fun c hc => plain_of_isWhitespace (hspaces n c hc)
  obtain ⟨⟨c, hhead, hc⟩, d, hlast, hd⟩ := ends_scalar hvalue hscalar
  have hne : scalar ≠ [] := fun hnil => by rw [hnil] at hhead; cases hhead
  have hbody : (key ++ [':'] ++ (List.replicate gap ' ' ++ scalar)).getLast? = some d := by
    rw [List.getLast?_append_of_ne_nil _ (List.append_ne_nil_of_right_ne_nil _ hne),
      List.getLast?_append_of_ne_nil _ hne, hlast]
  have htrim : trimChars (stripComment (entryLine indent key gap scalar trailing)) =
      key ++ [':'] ++ (List.replicate gap ' ' ++ scalar) := by
    rw [entryLine, stripComment, stripFrom_append_of_plain _ _ _ (hplain indent),
      stripFrom_append_of_plain _ _ _ (plain_of_isName hkey),
      stripFrom_append_of_plain _ _ _ (hplain gap), stripFrom_scalar hvalue hscalar,
      ← List.append_assoc (List.replicate gap ' '), ← List.append_assoc (key ++ [':'])]
    obtain ⟨e, he, hwhite⟩ := head_of_isName hkey (List.replicate gap ' ' ++ scalar)
    exact trim_eq_of_ends _ _ _ (hspaces indent) htrailing.1.stripComment hwhite hd he hbody
  constructor
  · rw [isSetting, htrim, List.isPrefixOf_iff_prefix]
    exact List.prefix_append _ _
  · have hbehind : trimChars (List.replicate gap ' ' ++ scalar) = scalar := by
      have h := trim_eq_of_ends _ _ [] (hspaces gap) (fun c hc => by cases hc) hc hd hhead hlast
      rwa [List.append_nil] at h
    rw [behind, htrim, List.drop_left' (by simp), valueOf, hbehind,
      trimMatches_scalar hvalue hscalar, if_neg hvalue.ne_nil]

end Scalar

/-! ## What is found -/

section Found

variable {section_ key : List Char}

theorem lookupFrom_before {front : List Line} (rest : List Line)
    (hfront : ∀ line ∈ front, ¬section_ ++ [':'] <+: line) :
    lookupFrom section_ key false (front ++ rest) = lookupFrom section_ key false rest := by
  induction front with
  | nil => rfl
  | cons line front ih =>
    obtain ⟨hline, hfront⟩ := List.forall_mem_cons.mp hfront
    rw [List.cons_append]
    rcases line_cases line with ⟨hblank, hindented⟩ | hinner
    · have hopens : opens section_ line = false :=
        Bool.eq_false_iff.mpr fun h => hline (prefix_of_opens h)
      rw [lookupFrom_header hblank hindented, hopens, ih hfront]
    · rw [lookupFrom_skip hinner (.inr (.inl rfl)), ih hfront]

theorem lookupFrom_inside {front : List Line} (rest : List Line)
    (hfront : ∀ line ∈ front, isBlank line = true ∨ isIndented line = true) :
    lookupFrom section_ key true (front ++ rest) =
      match front.find? (isSetting key) with
      | some line => valueOf (behind key line)
      | none => lookupFrom section_ key true rest := by
  induction front with
  | nil => rfl
  | cons line front ih =>
    obtain ⟨hline, hfront⟩ := List.forall_mem_cons.mp hfront
    rw [List.cons_append, List.find?_cons]
    cases hsetting : isSetting key line with
    | true => exact lookupFrom_setting hline hsetting
    | false => rw [lookupFrom_skip hline (.inr (.inr hsetting)), ih hfront]

end Found

theorem Direct.lookup_eq {body section_ key value : List Char}
    (setting : Direct body section_ key value) (hsection : IsName section_) (hkey : IsName key)
    (hvalue : IsValue value) :
    lookup body section_ key =
      match setting.above.find? (isSetting key) with
      | some line => valueOf (behind key line)
      | none => some value := by
  have hinner : ∀ line ∈ setting.above, isBlank line = true ∨ isIndented line = true := by
    intro line hline
    rcases setting.inner line hline with h | ⟨rest, rfl⟩
    · exact .inl h.isBlank
    · exact .inr (isIndented_spaces (Nat.succ_pos _) rest)
  obtain ⟨hblank, hindented, hopens⟩ := section_line_spec hsection setting.sectionTrailing_spec
  obtain ⟨hsetting, hread⟩ := entryLine_spec hvalue setting.scalar_spec hkey setting.trailing_spec
    (setting.indent + 1) (setting.gap + 1)
  have hlines := (congrArg lines setting.body_eq).trans (lines_flatten setting.newline)
  rw [lookup, hlines, lookupFrom_map_dropReturn, lookupFrom_before _ setting.first]
  refine (lookupFrom_header hblank hindented).trans ?_
  rw [hopens, lookupFrom_inside _ hinner]
  cases setting.above.find? (isSetting key) with
  | some line => rfl
  | none =>
    exact (lookupFrom_setting (.inr (isIndented_spaces (Nat.succ_pos _) _)) hsetting).trans hread

theorem Direct.lookup_iff {body section_ key value : List Char}
    (setting : Direct body section_ key value) (hsection : IsName section_) (hkey : IsName key)
    (hvalue : IsValue value) : lookup body section_ key = some value ↔ ¬setting.Hidden := by
  rw [setting.lookup_eq hsection hkey hvalue, Direct.Hidden]
  cases setting.above.find? (isSetting key) with
  | none => simp
  | some line => simp

theorem denied_iff_lookup (body : List Char) : Denied body ↔
    lookup body "model".toList "openai_runtime".toList = some codexAppServer ∧
      lookup body "approvals".toList "mode".toList = some off := by
  have hboth : ((parseRuntimeConfiguration body).usesNativeCodex &&
      (parseRuntimeConfiguration body).approvalsBypassed) = true ↔
      lookup body "model".toList "openai_runtime".toList = some codexAppServer ∧
        lookup body "approvals".toList "mode".toList = some off := by
    rw [Bool.and_eq_true, RuntimeConfiguration.usesNativeCodex,
      RuntimeConfiguration.approvalsBypassed, decide_eq_true_eq, decide_eq_true_eq]
    rfl
  rw [← hboth, Denied, evaluate]
  cases (parseRuntimeConfiguration body).usesNativeCodex &&
      (parseRuntimeConfiguration body).approvalsBypassed with
  | true => exact iff_of_true ⟨_, rfl⟩ rfl
  | false => exact iff_of_false (fun ⟨_, h⟩ => by cases h) Bool.false_ne_true

/-- The lines of the section of the model, which has a mapping with a runtime of its own. -/
def nestedModel : List Line :=
  ["model:", "  fallback:", "    openai_runtime: auto", "  openai_runtime: codex_app_server"].map
    String.toList

end Asterism.Policy
