import Asterism.Json
import Mathlib.Data.List.Sublists

/-!
# Revoking a persistent approval

The approvals an agent remembers are one list in its configuration. The agent's own tool reads the
list and takes away a whole key, but one entry is taken out by rewriting the file: the line of the
key and the items directly below it are replaced, and every other line is written back. Items that
stand further down, behind a comment or a blank line, belong to the list and are left behind.
-/

namespace Asterism.Allowlist

open Text (splitInclusive chomp dropReturn lines ended trimMatches splitInclusive_flatten)

/-- The loop of `plain`, inside or outside of an escape sequence. -/
def plainFrom : Bool → List Char → List Char
  | _, [] => []
  | true, c :: chars => plainFrom (!c.isAlpha) chars
  | false, c :: chars => if c = '\x1b' then plainFrom true chars else c :: plainFrom false chars

/-- `plain`: strip the colouring. -/
def plain (text : List Char) : List Char := plainFrom false text

/-- What an item of a list begins with. -/
def itemMark : List Char := ['-', ' ']

/-- The body of the loop of `parse_allowlist`: the entry on a line. -/
def entryOf (line : List Char) : Option (List Char) :=
  let line := trimMatches Text.isWhitespace line
  if itemMark.isPrefixOf line then
    let entry := trimMatches (· = '"') (trimMatches Text.isWhitespace (line.drop itemMark.length))
    if entry = [] then none else some entry
  else none

/-- `parse_allowlist`: the entries of a list as the tool prints it. -/
def parseAllowlist (output : List Char) : List (List Char) :=
  (lines (plain output)).filterMap entryOf

/-- What is found under the path of the configuration. -/
inductive FileType
  | file
  | symlink
  | other
  deriving DecidableEq

structure Config where
  fileType : FileType
  text : List Char
  deriving DecidableEq

/-- Why `revoke` revokes nothing. -/
inductive Failure
  | tool
  | notConfigured (category : List Char)
  | symlink
  | notRegular
  | noBlock
  deriving DecidableEq

/-- `HermesCli`: the tool of the agent: the list it prints for the key, and the text it leaves when
it takes the key away. -/
structure Hermes where
  get : List Char → Option (List Char)
  unset : List Char → Option (List Char)

/-- The line of the key. -/
def key : List Char := "command_allowlist:".toList

/-- `rewrite_allowlist` takes the line for the one of the key. -/
def isKey (line : List Char) : Bool := key.isPrefixOf (line.dropWhile Text.isWhitespace)

/-- `rewrite_allowlist` takes the line for an item. -/
def isItem (line : List Char) : Bool := itemMark.isPrefixOf (line.dropWhile Text.isWhitespace)

/-- The lines of a list as they are written. -/
def block (entries : List (List Char)) : List (List Char) :=
  ended key :: entries.map fun entry => ended (itemMark ++ entry)

/-- The loop of `rewrite_allowlist`. -/
def replace (entries : List (List Char)) : List (List Char) → Option (List (List Char))
  | [] => none
  | line :: later =>
    if isKey line then some (block entries ++ (later.dropWhile isItem).map ended)
    else (replace entries later).map (ended line :: ·)

/-- `rewrite_allowlist`: replace the list in the file. -/
def rewriteAllowlist (config : Config) (entries : List (List Char)) : Except Failure Config :=
  match config.fileType with
  | .symlink => .error .symlink
  | .other => .error .notRegular
  | .file =>
    match replace entries (lines config.text) with
    | none => .error .noBlock
    | some written => .ok { config with text := written.flatten }

def without (category : List Char) (entries : List (List Char)) : List (List Char) :=
  entries.filter (· ≠ category)

/-- `revoke`: remove one category. -/
def revoke (hermes : Hermes) (config : Config) (category : List Char) :
    Except Failure (List (List Char) × Config) :=
  match hermes.get config.text with
  | none => .error .tool
  | some output =>
    let before := parseAllowlist output
    if category ∈ before then
      let after := without category before
      if after = [] then
        match hermes.unset config.text with
        | none => .error .tool
        | some text => .ok (after, { config with text := text })
      else (rewriteAllowlist config after).map fun written => (after, written)
    else .error (.notConfigured category)

/-- The entries that `parse_allowlist` finds in what the tool prints for a text. -/
def Hermes.entries (hermes : Hermes) (text : List Char) : List (List Char) :=
  match hermes.get text with
  | none => []
  | some output => parseAllowlist output

/-! ## Lines -/

variable {written : List (List Char)}

theorem newline_not_mem_dropLast {text line : List Char} (hline : line ∈ splitInclusive text) :
    '\n' ∉ line.dropLast := by
  induction text generalizing line with
  | nil => cases hline
  | cons c chars ih =>
    rw [splitInclusive] at hline
    split at hline
    · rcases List.mem_cons.mp hline with rfl | hlater
      · exact List.not_mem_nil
      · exact ih hlater
    · rename_i hc
      cases hsplit : splitInclusive chars with
      | nil =>
        rw [hsplit] at hline
        rw [List.mem_singleton.mp hline]
        exact List.not_mem_nil
      | cons first later =>
        rw [hsplit] at hline ih
        rcases List.mem_cons.mp hline with rfl | hlater
        · cases first with
          | nil => exact List.not_mem_nil
          | cons d first =>
            rw [List.dropLast_cons_of_ne_nil (List.cons_ne_nil d first)]
            exact List.not_mem_cons_of_ne_of_not_mem (Ne.symm hc) (ih List.mem_cons_self)
        · exact ih (List.mem_cons_of_mem first hlater)

theorem newline_not_mem_chomp {text line : List Char} (hline : line ∈ splitInclusive text) :
    '\n' ∉ chomp line := by
  have hdrop := newline_not_mem_dropLast hline
  unfold chomp dropReturn
  split
  · split
    · exact fun hmem => hdrop ((List.dropLast_sublist _).mem hmem)
    · exact hdrop
  · rename_i hlast
    intro hmem
    have hne : line ≠ [] := List.ne_nil_of_mem hmem
    rw [← List.dropLast_concat_getLast hne] at hmem
    rcases List.mem_append.mp hmem with hmem | hmem
    · exact hdrop hmem
    · exact hlast (by rw [List.getLast?_eq_some_getLast hne, ← List.mem_singleton.mp hmem])

theorem mem_of_mem_trimMatches {kind : Char → Bool} {chars : List Char} {c : Char}
    (hc : c ∈ trimMatches kind chars) : c ∈ chars :=
  (List.dropWhile_suffix kind).mem ((List.rdropWhile_prefix kind _).mem hc)

theorem newline_not_mem_entry {output entry : List Char} (hentry : entry ∈ parseAllowlist output) :
    '\n' ∉ entry := by
  obtain ⟨line, hline, hof⟩ := List.mem_filterMap.mp hentry
  obtain ⟨raw, hraw, rfl⟩ := List.mem_map.mp hline
  simp only [entryOf] at hof
  split at hof
  · split at hof
    · cases hof
    · cases hof
      intro hmem
      have htail := List.mem_of_mem_drop (mem_of_mem_trimMatches (mem_of_mem_trimMatches hmem))
      exact newline_not_mem_chomp hraw (mem_of_mem_trimMatches htail)
  · cases hof

/-- The line ends in a line feed, with no carriage return before it. -/
def EndsPlain (line : List Char) : Prop :=
  line.getLast? = some '\n' ∧ line.dropLast.getLast? ≠ some '\r'

/-- Such lines and no others are written back as they were. -/
theorem ended_chomp_eq_iff (line : List Char) : ended (chomp line) = line ↔ EndsPlain line := by
  unfold chomp dropReturn EndsPlain
  by_cases hend : line.getLast? = some '\n'
  · obtain ⟨body, rfl⟩ := List.getLast?_eq_some_iff.mp hend
    rw [if_pos hend, List.dropLast_concat]
    by_cases hreturn : body.getLast? = some '\r'
    · obtain ⟨start, rfl⟩ := List.getLast?_eq_some_iff.mp hreturn
      rw [if_pos hreturn, List.dropLast_concat]
      refine iff_of_false (fun h => ?_) fun h => h.2 hreturn
      have hlength := congrArg List.length h
      simp only [ended, List.length_append, List.length_singleton] at hlength
      omega
    · rw [if_neg hreturn]
      exact iff_of_true rfl ⟨hend, hreturn⟩
  · rw [if_neg hend]
    refine iff_of_false (fun h => hend ?_) fun h => hend h.1
    rw [← h]
    exact List.getLast?_concat

theorem map_ended_chomp_eq_iff (raw : List (List Char)) :
    raw.map (ended ∘ chomp) = raw ↔ ∀ line ∈ raw, EndsPlain line := by
  have hsame := List.map_inj_left (f := ended ∘ chomp) (g := id) (l := raw)
  rw [List.map_id] at hsame
  exact hsame.trans (forall₂_congr fun line _ => ended_chomp_eq_iff line)

/-! ## What is replaced -/

/-- Where a text has the list: below the first line that begins with the key. The items directly
below it are told apart from what else belongs to the list further down. -/
structure Layout (text : List Char) where
  before : List (List Char)
  keyLine : List Char
  items : List (List Char)
  more : List (List Char)
  after : List (List Char)
  lines_eq : splitInclusive text = before ++ keyLine :: (items ++ (more ++ after))
  above : ∀ line ∈ before, ¬ key <+: chomp line
  begins : key <+: chomp keyLine
  below : ∀ line ∈ items, isItem (chomp line) = true
  stops : ∀ line ∈ (more ++ after).head?, isItem (chomp line) = false

/-- The lines of the text when the items directly below the key are replaced. -/
def Layout.replaced {text : List Char} (layout : Layout text) (entries : List (List Char)) :
    List (List Char) :=
  layout.before ++ (block entries ++ (layout.more.map (ended ∘ chomp) ++ layout.after))

/-- The tool shows these entries for the new text, and the lines outside of the list are the
same. -/
def Leaves (hermes : Hermes) {text : List Char} (layout : Layout text)
    (entries : List (List Char)) (written : List Char) : Prop :=
  hermes.entries written = entries ∧
    ∃ list, splitInclusive written = layout.before ++ (list ++ layout.after)

/-- The tool reads the list of a text: an entry that was written without quotes as `scalar` says,
and the items further down as `further`. -/
structure Reads (hermes : Hermes) {text : List Char} (layout : Layout text)
    (scalar : List Char → List Char) (further : List (List Char)) : Prop where
  further_eq_nil : further = [] ↔ layout.more = []
  replaced : ∀ entries, entries.Sublist (hermes.entries text) →
    hermes.entries (layout.replaced entries).flatten = entries.map scalar ++ further
  unset : ∃ written, hermes.unset text = some written ∧ Leaves hermes layout [] written

/-- Revoking a category succeeds, takes exactly this category out of the list, and leaves every line
outside of the list as it is. -/
def RevokesExactly (hermes : Hermes) {text : List Char} (layout : Layout text)
    (category : List Char) : Prop :=
  ∃ config, revoke hermes ⟨.file, text⟩ category =
      .ok (without category (hermes.entries text), config) ∧
    Leaves hermes layout (without category (hermes.entries text)) config.text

/-- A line that begins with the key is taken for the one of the key. -/
theorem isKey_of_begins {line : List Char} (hline : key <+: line) : isKey line = true := by
  obtain ⟨rest, rfl⟩ := hline
  exact List.isPrefixOf_iff_prefix.mpr (List.prefix_append key rest)

theorem replace_append {entries before later : List (List Char)} {line : List Char}
    (hbefore : ∀ line ∈ before, isKey line = false) (hline : isKey line = true) :
    replace entries (before ++ line :: later) =
      some (before.map ended ++ (block entries ++ (later.dropWhile isItem).map ended)) := by
  induction before with
  | nil => exact if_pos hline
  | cons first before ih =>
    obtain ⟨hfirst, hbefore⟩ := List.forall_mem_cons.mp hbefore
    rw [List.cons_append, replace, hfirst, if_neg Bool.false_ne_true, ih hbefore]
    rfl

variable {text : List Char}

theorem Layout.dropWhile_items (layout : Layout text) :
    ((layout.items ++ (layout.more ++ layout.after)).map chomp).dropWhile isItem =
      (layout.more ++ layout.after).map chomp := by
  rw [List.map_append, List.dropWhile_append_of_pos]
  · cases hrest : layout.more ++ layout.after with
    | nil => rfl
    | cons line later =>
      have hstops := layout.stops line (by rw [hrest]; rfl)
      rw [List.map_cons, List.dropWhile_cons_of_neg (by rw [hstops]; exact Bool.false_ne_true)]
  · exact List.forall_mem_map.mpr layout.below

theorem exists_map_ended {entries : List (List Char)} (hentries : ∀ entry ∈ entries, '\n' ∉ entry)
    {old written : List (List Char)} (hold : ∀ line ∈ old, '\n' ∉ line)
    (hwritten : replace entries old = some written) :
    ∃ bodies : List (List Char), (∀ line ∈ bodies, '\n' ∉ line) ∧ bodies.map ended = written := by
  induction old generalizing written with
  | nil => cases hwritten
  | cons line later ih =>
    obtain ⟨hline, hlater⟩ := List.forall_mem_cons.mp hold
    rw [replace] at hwritten
    split at hwritten
    · cases hwritten
      refine ⟨(key :: entries.map (itemMark ++ ·)) ++ later.dropWhile isItem, ?_, ?_⟩
      · intro body hbody
        rcases List.mem_append.mp hbody with hbody | hbody
        · rcases List.mem_cons.mp hbody with rfl | hbody
          · decide
          · obtain ⟨entry, hentry, rfl⟩ := List.mem_map.mp hbody
            exact List.not_mem_append (by decide) (hentries entry hentry)
        · exact hlater body ((List.dropWhile_suffix isItem).mem hbody)
      · rw [List.map_append, List.map_cons, List.map_map]
        rfl
    · obtain ⟨rest, hrest, rfl⟩ := Option.map_eq_some_iff.mp hwritten
      obtain ⟨bodies, hbodies, rfl⟩ := ih hlater hrest
      exact ⟨line :: bodies, List.forall_mem_cons.mpr ⟨hline, hbodies⟩, rfl⟩

theorem splitInclusive_replace {entries written : List (List Char)}
    (hentries : ∀ entry ∈ entries, '\n' ∉ entry)
    (hwritten : replace entries (lines text) = some written) :
    splitInclusive written.flatten = written := by
  have hold : ∀ line ∈ lines text, '\n' ∉ line :=
    List.forall_mem_map.mpr fun _ hline => newline_not_mem_chomp hline
  obtain ⟨bodies, hbodies, rfl⟩ := exists_map_ended hentries hold hwritten
  exact splitInclusive_flatten hbodies

theorem Layout.exists_replace (layout : Layout text)
    (entries : List (List Char)) : ∃ written, replace entries (lines text) = some written := by
  have hfound : ∀ old : List (List Char), (∃ line ∈ old, isKey line = true) →
      ∃ written, replace entries old = some written := by
    intro old hkey
    induction old with
    | nil =>
      obtain ⟨line, hline, -⟩ := hkey
      cases hline
    | cons line later ih =>
      rw [replace]
      by_cases hline : isKey line = true
      · exact ⟨_, if_pos hline⟩
      · obtain ⟨other, hother, hothers⟩ := hkey
        rcases List.mem_cons.mp hother with rfl | hother
        · exact absurd hothers hline
        · obtain ⟨written, hwritten⟩ := ih ⟨other, hother, hothers⟩
          exact ⟨ended line :: written, by rw [if_neg hline, hwritten]; rfl⟩
  refine hfound _ ⟨chomp layout.keyLine, ?_, isKey_of_begins layout.begins⟩
  rw [lines, layout.lines_eq]
  exact List.mem_map_of_mem (List.mem_append_right _ List.mem_cons_self)

/-- When no line above is taken for the key, the list is what is replaced. -/
theorem Layout.replace_eq (layout : Layout text) (entries : List (List Char))
    (habove : ∀ line ∈ layout.before, isKey (chomp line) = false) :
    replace entries (lines text) =
      some (layout.before.map (ended ∘ chomp) ++
        (block entries ++ (layout.more ++ layout.after).map (ended ∘ chomp))) := by
  rw [lines, layout.lines_eq, List.map_append, List.map_cons,
    replace_append (List.forall_mem_map.mpr habove) (isKey_of_begins layout.begins),
    layout.dropWhile_items, List.map_map, List.map_map]

/-- Another line that is taken for the key is overwritten. -/
theorem Layout.above_of_replace (layout : Layout text) {entries written list : List (List Char)}
    (hwritten : replace entries (lines text) = some written)
    (hframe : written = layout.before ++ (list ++ layout.after)) :
    ∀ line ∈ layout.before, isKey (chomp line) = false := by
  intro line hline
  by_contra hkey
  have hkey : isKey (chomp line) = true := eq_true_of_ne_false hkey
  have hsome : (layout.before.find? fun line => isKey (chomp line)).isSome :=
    List.find?_isSome.mpr ⟨line, hline, hkey⟩
  obtain ⟨first, hfirst⟩ := Option.isSome_iff_exists.mp hsome
  obtain ⟨hfirstKey, start, later, hsplit, hstart⟩ := List.find?_eq_some_iff_append.mp hfirst
  -- The first such line is written as the bare key, without what stood before or after it.
  have hnone : ∀ line ∈ start, isKey (chomp line) = false := fun line hline =>
    Bool.not_eq_true' _ |>.mp (hstart line hline)
  have hreplaced := hwritten
  rw [lines, layout.lines_eq, hsplit, List.append_assoc, List.cons_append, List.map_append,
    List.map_cons, replace_append (List.forall_mem_map.mpr hnone) hfirstKey] at hreplaced
  have hlines := (Option.some.inj hreplaced).trans hframe
  rw [hsplit, List.append_assoc, List.cons_append] at hlines
  obtain ⟨-, hrest⟩ := List.append_inj hlines (by rw [List.length_map, List.length_map])
  have hhead : ended key = first := (List.cons.inj hrest).1
  refine layout.above first (hsplit ▸ List.mem_append_right _ List.mem_cons_self) ?_
  rw [← hhead]
  decide

theorem leaves_replace_iff {hermes : Hermes} {layout : Layout text} {scalar : List Char → List Char}
    {further : List (List Char)} (hreads : Reads hermes layout scalar further)
    {entries : List (List Char)} (hsublist : entries.Sublist (hermes.entries text))
    (hentries : ∀ entry ∈ entries, '\n' ∉ entry)
    (hwritten : replace entries (lines text) = some written) :
    Leaves hermes layout entries written.flatten ↔
      (∀ line ∈ layout.before, isKey (chomp line) = false) ∧
        (∀ line ∈ layout.before ++ layout.after, EndsPlain line) ∧ layout.more = [] ∧
          ∀ entry ∈ entries, scalar entry = entry := by
  have hlines := splitInclusive_replace hentries hwritten
  constructor
  · rintro ⟨hread, list, hframe⟩
    have hframe := hlines.symm.trans hframe
    have habove := layout.above_of_replace hwritten hframe
    have hreplace := Option.some.inj ((layout.replace_eq entries habove).symm.trans hwritten)
    have hsame := hreplace.trans hframe
    rw [List.map_append, ← List.append_assoc (block entries)] at hsame
    obtain ⟨hbefore, hrest⟩ := List.append_inj hsame (List.length_map _)
    have hafter := (List.append_inj' hrest (List.length_map _)).2
    have hreplaced : written = layout.replaced entries := by
      rw [← hreplace, Layout.replaced, List.map_append, hbefore, hafter]
    rw [hreplaced, hreads.replaced entries hsublist] at hread
    obtain ⟨hscalars, hfurther⟩ :=
      List.append_inj (hread.trans (List.append_nil entries).symm) (List.length_map _)
    refine ⟨habove, fun line hline => ?_, hreads.further_eq_nil.mp hfurther, ?_⟩
    · rcases List.mem_append.mp hline with hline | hline
      · exact (map_ended_chomp_eq_iff _).mp hbefore line hline
      · exact (map_ended_chomp_eq_iff _).mp hafter line hline
    · exact List.map_inj_left.mp (hscalars.trans (List.map_id entries).symm)
  · rintro ⟨habove, hplain, hmore, hscalar⟩
    have hbefore := (map_ended_chomp_eq_iff layout.before).mpr fun line hline =>
      hplain line (List.mem_append_left _ hline)
    have hafter := (map_ended_chomp_eq_iff layout.after).mpr fun line hline =>
      hplain line (List.mem_append_right _ hline)
    have hreplace := Option.some.inj ((layout.replace_eq entries habove).symm.trans hwritten)
    have hreplaced : written = layout.replaced entries := by
      rw [← hreplace, Layout.replaced, List.map_append, hbefore, hafter]
    refine ⟨?_, block entries, ?_⟩
    · have hmap : entries.map scalar = entries.map id := List.map_inj_left.mpr hscalar
      rw [hreplaced, hreads.replaced entries hsublist, hreads.further_eq_nil.mpr hmore,
        List.append_nil, hmap, List.map_id]
    · rw [hlines, hreplaced, Layout.replaced, hmore]
      rfl

theorem Hermes.exists_output {hermes : Hermes} {text entry : List Char}
    (hentry : entry ∈ hermes.entries text) :
    ∃ output, hermes.get text = some output ∧ hermes.entries text = parseAllowlist output := by
  unfold Hermes.entries at hentry ⊢
  cases hget : hermes.get text with
  | none =>
    rw [hget] at hentry
    cases hentry
  | some output => exact ⟨output, rfl, rfl⟩

/-- The last entry is taken away with the key. -/
theorem revoke_last {hermes : Hermes} {text category written : List Char}
    (hlisted : category ∈ hermes.entries text)
    (hlast : without category (hermes.entries text) = [])
    (hunset : hermes.unset text = some written) :
    revoke hermes ⟨.file, text⟩ category = .ok ([], ⟨.file, written⟩) := by
  obtain ⟨output, hget, hentries⟩ := Hermes.exists_output hlisted
  rw [hentries] at hlisted hlast
  simp only [revoke, hget, if_pos hlisted, hlast, if_true, hunset]

/-- Any other entry is taken away by writing the list without it. -/
theorem revoke_rewrites {hermes : Hermes} {text category : List Char}
    (hlisted : category ∈ hermes.entries text)
    (hothers : without category (hermes.entries text) ≠ [])
    (hwritten : replace (without category (hermes.entries text)) (lines text) = some written) :
    revoke hermes ⟨.file, text⟩ category =
      .ok (without category (hermes.entries text), ⟨.file, written.flatten⟩) := by
  obtain ⟨output, hget, hentries⟩ := Hermes.exists_output hlisted
  rw [hentries] at hlisted hothers hwritten ⊢
  simp only [revoke, hget, if_pos hlisted, if_neg hothers, rewriteAllowlist, hwritten]
  rfl

/-- A category is taken out exactly, and every line outside of the list is left as it is, if it is
the only one, or no line above the list is taken for the key, every line outside of the list ends in
a plain line feed, the list has no items behind a comment or a blank line, and the entries that
remain are read without quotes as they were. -/
theorem revokesExactly_iff {hermes : Hermes} {text : List Char} {layout : Layout text}
    {scalar : List Char → List Char} {further : List (List Char)}
    (hreads : Reads hermes layout scalar further) {category : List Char}
    (hlisted : category ∈ hermes.entries text) :
    RevokesExactly hermes layout category ↔
      (∀ entry ∈ hermes.entries text, entry = category) ∨
        ((∀ line ∈ layout.before, isKey (chomp line) = false) ∧
          (∀ line ∈ layout.before ++ layout.after, EndsPlain line) ∧ layout.more = [] ∧
            ∀ entry ∈ hermes.entries text, entry ≠ category → scalar entry = entry) := by
  have honly : without category (hermes.entries text) = [] ↔
      ∀ entry ∈ hermes.entries text, entry = category := by
    simp only [without, List.filter_eq_nil_iff, decide_eq_true_eq, not_not]
  have hkept : (∀ entry ∈ without category (hermes.entries text), scalar entry = entry) ↔
      ∀ entry ∈ hermes.entries text, entry ≠ category → scalar entry = entry := by
    simp only [without, List.mem_filter, decide_eq_true_eq, and_imp]
  by_cases hlast : without category (hermes.entries text) = []
  · refine iff_of_true ?_ (Or.inl (honly.mp hlast))
    obtain ⟨written, hunset, hleaves⟩ := hreads.unset
    refine ⟨⟨.file, written⟩, ?_, ?_⟩
    · rw [hlast]
      exact revoke_last hlisted hlast hunset
    · rw [hlast]
      exact hleaves
  · obtain ⟨output, -, houtput⟩ := Hermes.exists_output hlisted
    have hentries : ∀ entry ∈ without category (hermes.entries text), '\n' ∉ entry :=
      fun entry hentry => newline_not_mem_entry (houtput ▸ List.mem_of_mem_filter hentry)
    obtain ⟨written, hwritten⟩ :=
      layout.exists_replace (without category (hermes.entries text))
    have hrevoke := revoke_rewrites hlisted hlast hwritten
    have hsublist : (without category (hermes.entries text)).Sublist (hermes.entries text) :=
      List.filter_sublist
    have hleaves := leaves_replace_iff hreads hsublist hentries hwritten
    rw [hkept] at hleaves
    rw [or_iff_right fun h => hlast (honly.mpr h), ← hleaves]
    constructor
    · rintro ⟨config, hconfig, hleft⟩
      cases hrevoke.symm.trans hconfig
      exact hleft
    · exact fun hleft => ⟨_, hrevoke, hleft⟩

/-! ## A tool -/

/-- The line is blank or a comment. -/
def isGap (line : List Char) : Bool :=
  let line := line.dropWhile Text.isWhitespace
  line = [] || line.head? = some '#'

def noKey (line : List Char) : Bool := !key.isPrefixOf line

/-- The items of a list, with comments and blank lines between them. -/
def blockItems : List (List Char) → List (List Char)
  | [] => []
  | line :: later =>
    if isItem line then ended line :: blockItems later
    else if isGap line then blockItems later else []

/-- A tool that reads a list of one item on each line. -/
def blockTool : Hermes where
  get text := some (blockItems ((lines text).dropWhile noKey).tail).flatten
  unset text :=
    let all := splitInclusive text
    some (all.takeWhile noKey ++ (all.dropWhile noKey).tail.dropWhile isItem).flatten

def sample : List Char :=
  "model: local\ncommand_allowlist:\n- recursive delete\n- sudo\ntimeout: 30\n".toList

def sampleLayout : Layout sample where
  before := ["model: local\n".toList]
  keyLine := "command_allowlist:\n".toList
  items := ["- recursive delete\n".toList, "- sudo\n".toList]
  more := []
  after := ["timeout: 30\n".toList]
  lines_eq := by decide +kernel
  above := by decide +kernel
  begins := by decide +kernel
  below := by decide +kernel
  stops := by decide +kernel

theorem sample_reads : Reads blockTool sampleLayout id [] where
  further_eq_nil := iff_of_true rfl rfl
  replaced entries hentries := by
    have hall : ∀ entries ∈ (blockTool.entries sample).sublists,
        blockTool.entries (sampleLayout.replaced entries).flatten = entries.map id ++ [] := by
      decide +kernel
    exact hall entries (List.mem_sublists.mpr hentries)
  unset := ⟨"model: local\ntimeout: 30\n".toList, by decide +kernel, by decide +kernel,
    [], by decide +kernel⟩

/-- One of its entries is revoked and nothing else. -/
theorem sample_sudo_revoked : RevokesExactly blockTool sampleLayout "sudo".toList :=
  (revokesExactly_iff sample_reads (by decide +kernel)).mpr
    (Or.inr ⟨by decide +kernel, by unfold EndsPlain; decide +kernel, rfl, fun _ _ _ => rfl⟩)

/-- A configuration with a comment between the entries. -/
def commented : List Char :=
  "command_allowlist:\n- recursive delete\n# for the release\n- sudo\n".toList

def commentedLayout : Layout commented where
  before := []
  keyLine := "command_allowlist:\n".toList
  items := ["- recursive delete\n".toList]
  more := ["# for the release\n".toList, "- sudo\n".toList]
  after := []
  lines_eq := by decide +kernel
  above := by decide +kernel
  begins := by decide +kernel
  below := by decide +kernel
  stops := by decide +kernel

/-- The second entry is reported as revoked, and the file is written as it was. -/
theorem commented_sudo_stays :
    "sudo".toList ∈ blockTool.entries commented ∧
      revoke blockTool ⟨.file, commented⟩ "sudo".toList =
        .ok (["recursive delete".toList], ⟨.file, commented⟩) ∧
      ¬ RevokesExactly blockTool commentedLayout "sudo".toList := by
  have hrevoke : revoke blockTool ⟨.file, commented⟩ "sudo".toList =
      .ok (["recursive delete".toList], ⟨.file, commented⟩) := by decide +kernel
  refine ⟨by decide +kernel, hrevoke, ?_⟩
  rintro ⟨config, hconfig, hread, -⟩
  cases hrevoke.symm.trans hconfig
  exact absurd hread (by decide +kernel)

end Asterism.Allowlist
