import Asterism.Node.ProfileHome

/-!
# Where a credential link points

A link of a profile home is judged by its target: it is the shared pool, or the file of an isolated
credential, or neither. The target is first read as a sequence of components, in which several
spellings of a path are the same, and then compared byte for byte with the path that the Node would
have written.
-/

namespace Asterism.LinkTargets

open ProfileHome

/-! ## The judgement -/

/-- The components of `Path::strip_prefix`: those that come after the components of the base. -/
def stripBase (path base : Path) : Option (List Component) :=
  if components base <+: components path then
    some ((components path).drop (components base).length)
  else none

/-- `LinkTarget`: where a link points. -/
inductive LinkTarget
  | missing | notALink | legacySharedPool
  | isolated (id : String)
  | elsewhere
  deriving DecidableEq

/-- `classify_target`: the shared pool, the file of one credential under the root, or elsewhere. -/
def classifyTarget (target root sharedPool : Path) : LinkTarget :=
  if target = sharedPool then .legacySharedPool
  else
    match stripBase target root with
    | some [.normal id, .normal file] =>
      if file ≠ credentialFileName then .elsewhere
      else
        match toStr id with
        | some id => if credentialFile root id.toList = .ok target then .isolated id else .elsewhere
        | none => .elsewhere
    | _ => .elsewhere

/-! ## Components of a joined path -/

section Paths

variable {base name path rest : Path}

/-- A segment that is a name of its own. -/
structure Plain (name : Path) : Prop where
  separate : separator ∉ name
  named : component? name = some (.normal name)

theorem segments_append (base rest : Path) :
    segments (base ++ separator :: rest) = segments base ++ segments rest :=
  List.splitOnP_append_cons base rest (decide_eq_true rfl)

theorem segments_ne_nil (path : Path) : segments path ≠ [] := List.splitOnP_ne_nil _ path

theorem Plain.segments (h : Plain name) : segments name = [name] :=
  List.splitOnP_eq_singleton fun byte hbyte => by
    rw [decide_eq_false_iff_not]
    rintro rfl
    exact h.separate hbyte

theorem opening_append (base rest : Path) :
    opening (base ++ separator :: rest) = opening (base ++ [separator]) := by
  have hhead : (base ++ separator :: rest).head? = (base ++ [separator]).head? := by
    cases base <;> rfl
  have hsegments : (segments (base ++ separator :: rest)).head? =
      (segments (base ++ [separator])).head? := by
    rw [segments_append, segments_append,
      List.head?_append_of_ne_nil _ (segments_ne_nil base),
      List.head?_append_of_ne_nil _ (segments_ne_nil base)]
  rw [opening, opening, isAbsolute, isAbsolute, hhead, hsegments]

theorem opening_concat (h : base ≠ []) : opening (base ++ [separator]) = opening base := by
  have hhead : (base ++ [separator]).head? = base.head? := List.head?_append_of_ne_nil _ h
  have hsegments : (segments (base ++ [separator])).head? = (segments base).head? := by
    rw [segments_append, List.head?_append_of_ne_nil _ (segments_ne_nil base)]
  rw [opening, opening, isAbsolute, isAbsolute, hhead, hsegments]

theorem components_append (base rest : Path) :
    components (base ++ separator :: rest) =
      components (base ++ [separator]) ++ (segments rest).filterMap component? := by
  have hempty : (segments []).filterMap component? = [] := by decide
  rw [components, components, opening_append, segments_append, segments_append,
    List.filterMap_append, List.filterMap_append, hempty, List.append_nil, List.append_assoc]

theorem components_concat (h : base ≠ []) : components (base ++ [separator]) = components base := by
  have hempty : (segments []).filterMap component? = [] := by decide
  rw [components, components, opening_concat h, segments_append, List.filterMap_append, hempty,
    List.append_nil]

theorem components_join (base : Path) (h : Plain name) :
    components (join base name) = components base ++ [.normal name] := by
  have hname : (segments name).filterMap component? = [.normal name] := by
    rw [h.segments, List.filterMap_cons_some h.named, List.filterMap_nil]
  rw [join]
  split
  case isTrue hends =>
    rcases List.eq_nil_or_concat' base with rfl | ⟨before, last, rfl⟩
    · have hopening : opening name = [] := by
        have hhead : name.head? ≠ some separator := fun hhead =>
          h.separate (List.mem_of_mem_head? hhead)
        have hdot : (segments name).head? ≠ some [dot] := by
          rw [h.segments]
          rintro hdot
          rw [Option.some.inj hdot] at h
          exact absurd h.named (by decide)
        rw [opening, isAbsolute, decide_eq_false hhead, if_neg Bool.false_ne_true, if_neg hdot]
      rw [List.nil_append, components, hopening, hname]
      rfl
    · rw [List.getLast?_concat] at hends
      obtain rfl : last = separator := by
        rcases hends with hnil | hlast
        · exact absurd hnil (by simp)
        · exact Option.some.inj hlast
      rw [List.append_assoc, List.singleton_append, components_append, hname]
  case isFalse hends =>
    rw [components_append, hname, components_concat fun hnil => hends (.inl hnil)]

theorem stripBase_of_append {after : List Component}
    (h : components path = components base ++ after) : stripBase path base = some after := by
  rw [stripBase, h, if_pos (List.prefix_append _ _), List.drop_left]

end Paths

/-! ## Texts as names -/

section Names

variable {bytes : Path} {id : String}

theorem toByteArray_encode (id : String) : (encode id.toList).toByteArray = id.toByteArray :=
  String.utf8Encode_toList

theorem toStr_eq_some : toStr bytes = some id ↔ encode id.toList = bytes := by
  rw [← List.toByteArray_inj, toByteArray_encode, toStr, String.fromUTF8?]
  split
  case isTrue hvalid =>
    rw [Option.some_inj, ← String.toByteArray_inj]
    exact eq_comm
  case isFalse hvalid =>
    exact iff_of_false (fun h => by cases h) fun h => hvalid (h ▸ id.isValidUTF8)

/-- The letters of an id are bytes of their own, and no separator or dot. -/
theorem encode_idChar {c : Char} (h : isIdChar c = true) :
    ∀ byte ∈ String.utf8EncodeChar c, byte ≠ separator ∧ byte ≠ dot := by
  have hsmall : c.toNat < 128 := by
    simp only [isIdChar, Bool.or_eq_true, Bool.and_eq_true, decide_eq_true_eq] at h
    rcases h with (⟨-, hle⟩ | ⟨-, hle⟩) | rfl
    · exact Nat.lt_of_le_of_lt (show c.toNat ≤ 'z'.toNat from hle) (by decide)
    · exact Nat.lt_of_le_of_lt (show c.toNat ≤ '9'.toNat from hle) (by decide)
    · decide
  have hall : ∀ n : Fin 128, isIdChar (Char.ofNat n) = true →
      (String.utf8EncodeChar (Char.ofNat n)).all
        (fun byte => byte ≠ separator ∧ byte ≠ dot) = true := by decide
  have hc := hall ⟨c.toNat, hsmall⟩
  rw [Char.ofNat_toNat] at hc
  exact fun byte hbyte => of_decide_eq_true (List.all_eq_true.mp (hc h) byte hbyte)

theorem validateId_ok (h : validateId id.toList = .ok ()) :
    id.toList ≠ [] ∧ ∀ c ∈ id.toList, isIdChar c = true := by
  unfold validateId at h
  split at h
  · cases h
  case isFalse hlength =>
    split at h
    · cases h
    case isFalse hall =>
      refine ⟨fun hnil => hlength (.inl hnil), List.all_eq_true.mp ?_⟩
      simpa using hall

theorem plain_of_valid (h : validateId id.toList = .ok ()) : Plain (encode id.toList) := by
  obtain ⟨hne, hletters⟩ := validateId_ok h
  have hbytes : ∀ byte ∈ encode id.toList, byte ≠ separator ∧ byte ≠ dot := fun byte hbyte => by
    obtain ⟨c, hc, hbyte⟩ := List.mem_flatMap.mp hbyte
    exact encode_idChar (hletters c hc) byte hbyte
  have hdot : dot ∉ encode id.toList := fun hdot => (hbytes dot hdot).2 rfl
  have hempty : encode id.toList ≠ [] := fun hnil => by
    obtain ⟨c, hc⟩ := List.exists_mem_of_ne_nil _ hne
    exact String.utf8EncodeChar_ne_nil (List.flatMap_eq_nil_iff.mp hnil c hc)
  refine ⟨fun hslash => (hbytes separator hslash).1 rfl, ?_⟩
  rw [component?, if_neg, if_neg]
  · exact fun hdots => hdot (hdots ▸ List.mem_cons_self)
  · rintro (hnil | hsingle)
    · exact hempty hnil
    · exact hdot (hsingle ▸ List.mem_cons_self)

theorem plain_credentialFileName : Plain credentialFileName where
  separate := by decide
  named := by decide

end Names

/-! ## The file of a credential -/

section Files

variable {target root sharedPool : Path} {id : String}

theorem credentialFile_ok (h : credentialFile root id.toList = .ok target) :
    validateId id.toList = .ok () ∧
      target = join (join root (encode id.toList)) credentialFileName := by
  obtain ⟨home', hhome, htarget⟩ := bind_ok_iff.mp h
  obtain ⟨_, hvalid, hjoin⟩ := bind_ok_iff.mp hhome
  cases htarget
  cases hjoin
  exact ⟨hvalid, rfl⟩

theorem components_credentialFile (h : credentialFile root id.toList = .ok target) :
    components target =
      components root ++ [.normal (encode id.toList), .normal credentialFileName] := by
  obtain ⟨hvalid, rfl⟩ := credentialFile_ok h
  rw [components_join _ plain_credentialFileName, components_join _ (plain_of_valid hvalid),
    List.append_assoc]
  rfl

theorem credentialFile_injective {id' : String} (h : credentialFile root id.toList = .ok target)
    (h' : credentialFile root id'.toList = .ok target) : id = id' := by
  have hcomponents := components_credentialFile h
  rw [components_credentialFile h', List.append_cancel_left_eq] at hcomponents
  obtain ⟨hname, -⟩ := List.cons.inj hcomponents
  have hbytes : encode id'.toList = encode id.toList := Component.normal.inj hname
  exact Option.some.inj ((toStr_eq_some.mpr rfl).symm.trans (toStr_eq_some.mpr hbytes))

theorem classifyTarget_of_credentialFile (hpool : target ≠ sharedPool)
    (h : credentialFile root id.toList = .ok target) :
    classifyTarget target root sharedPool = .isolated id := by
  rw [classifyTarget, if_neg hpool, stripBase_of_append (components_credentialFile h)]
  simp only [ne_eq, not_true_eq_false, if_false, toStr_eq_some.mpr rfl, h, if_true]

theorem classifyTarget_cases (hpool : target ≠ sharedPool) :
    (∃ id, classifyTarget target root sharedPool = .isolated id ∧
      credentialFile root id.toList = .ok target) ∨
    classifyTarget target root sharedPool = .elsewhere := by
  rw [classifyTarget, if_neg hpool]
  split
  · split
    · exact .inr rfl
    · split
      · split
        case isTrue hfile => exact .inl ⟨_, rfl, hfile⟩
        · exact .inr rfl
      · exact .inr rfl
  · exact .inr rfl

end Files

/-- A target is judged by its bytes: it is the shared pool, or the file of the one credential that
has it, or elsewhere. -/
theorem classifyTarget_exact (target root sharedPool : Path) :
    (classifyTarget target root sharedPool = .legacySharedPool ↔ target = sharedPool) ∧
    (∀ id, classifyTarget target root sharedPool = .isolated id ↔
      target ≠ sharedPool ∧ validateId id.toList = .ok () ∧
        credentialFile root id.toList = .ok target) ∧
    (classifyTarget target root sharedPool = .elsewhere ↔
      target ≠ sharedPool ∧ ∀ id : String, credentialFile root id.toList ≠ .ok target) ∧
    ∀ id id' : String, credentialFile root id.toList = .ok target →
      credentialFile root id'.toList = .ok target → id = id' := by
  by_cases hpool : target = sharedPool
  · have hlegacy : classifyTarget target root sharedPool = .legacySharedPool := if_pos hpool
    rw [hlegacy]
    exact ⟨iff_of_true rfl hpool, fun _ => iff_of_false nofun fun h => h.1 hpool,
      iff_of_false nofun fun h => h.1 hpool, fun _ _ => credentialFile_injective⟩
  · rcases @classifyTarget_cases target root sharedPool hpool with ⟨id, hjudged, hfile⟩ | hjudged
    · rw [hjudged]
      refine ⟨iff_of_false nofun hpool, fun other => ?_, iff_of_false nofun fun h => h.2 id hfile,
        fun _ _ => credentialFile_injective⟩
      constructor
      · intro heq
        cases heq
        exact ⟨hpool, (credentialFile_ok hfile).1, hfile⟩
      · rintro ⟨-, -, hother⟩
        rw [credentialFile_injective hfile hother]
    · have hnone (id : String) : credentialFile root id.toList ≠ .ok target := fun hfile => by
        rw [classifyTarget_of_credentialFile hpool hfile] at hjudged
        cases hjudged
      rw [hjudged]
      exact ⟨iff_of_false nofun hpool, fun id => iff_of_false nofun fun h => hnone id h.2.2,
        iff_of_true rfl ⟨hpool, hnone⟩, fun _ _ => credentialFile_injective⟩

end Asterism.LinkTargets
