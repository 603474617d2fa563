import Mathlib.Algebra.BigOperators.Group.List.Basic
import Mathlib.Algebra.Ring.Nat
import Mathlib.Data.List.DropRight

/-!
# Text and JSON values

The text operations the Node relies on, over the characters of a string, with lengths in
bytes of the UTF-8 encoding. An object is the list of its fields in key order, which is how
the ordered map behind it enumerates them.
-/

namespace Asterism.Text

/-- The number of bytes that encode these characters. -/
def byteCount (chars : List Char) : ℕ := (chars.map Char.utf8Size).sum

@[simp] theorem byteCount_nil : byteCount [] = 0 := rfl

@[simp] theorem byteCount_cons (c : Char) (chars : List Char) :
    byteCount (c :: chars) = c.utf8Size + byteCount chars := rfl

@[simp] theorem byteCount_append (first second : List Char) :
    byteCount (first ++ second) = byteCount first + byteCount second := by
  simp only [byteCount, List.map_append, List.sum_append]

theorem byteCount_of_single {chars : List Char} (h : ∀ c ∈ chars, c.utf8Size = 1) :
    byteCount chars = chars.length := by
  induction chars with
  | nil => rfl
  | cons c chars ih =>
    rw [byteCount_cons, ih fun d hd => h d (List.mem_cons_of_mem c hd), h c List.mem_cons_self,
      List.length_cons, Nat.add_comm]

/-- `str::len`, in bytes. -/
def len (text : String) : ℕ := byteCount text.toList

/-- The longest run of leading characters that fits into `limit` bytes. -/
def takeBytes : ℕ → List Char → List Char
  | _, [] => []
  | limit, c :: chars =>
    if c.utf8Size ≤ limit then c :: takeBytes (limit - c.utf8Size) chars else []

theorem byteCount_takeBytes_le (limit : ℕ) (chars : List Char) :
    byteCount (takeBytes limit chars) ≤ limit := by
  induction chars generalizing limit with
  | nil => exact Nat.zero_le _
  | cons c chars ih =>
    by_cases hfits : c.utf8Size ≤ limit
    · have hrest := ih (limit - c.utf8Size)
      simp only [takeBytes, if_pos hfits, byteCount_cons]
      omega
    · simp only [takeBytes, if_neg hfits, byteCount_nil, Nat.zero_le]

theorem takeBytes_isPrefix (limit : ℕ) (chars : List Char) : takeBytes limit chars <+: chars := by
  induction chars generalizing limit with
  | nil => exact List.prefix_refl _
  | cons c chars ih =>
    rw [takeBytes]
    split
    · exact List.cons_prefix_cons.mpr ⟨rfl, ih _⟩
    · exact List.nil_prefix

def startsWith (text start : String) : Bool := start.toList.isPrefixOf text.toList

def contains (text fragment : String) : Bool :=
  text.toList.tails.any fun tail => fragment.toList.isPrefixOf tail

/-- `split_once`: the text before and after the first occurrence of a pattern. -/
def splitOnce (pattern : List Char) : List Char → Option (List Char × List Char)
  | [] => if pattern = [] then some ([], []) else none
  | c :: chars =>
    if pattern.isPrefixOf (c :: chars) then some ([], (c :: chars).drop pattern.length)
    else (splitOnce pattern chars).map fun parts => (c :: parts.1, parts.2)

theorem splitOnce_append {pattern chars before after : List Char}
    (h : splitOnce pattern chars = some (before, after)) :
    before ++ (pattern ++ after) = chars := by
  induction chars generalizing before with
  | nil =>
    simp only [splitOnce] at h
    split at h
    · rename_i hpattern
      cases h
      rw [hpattern]
      rfl
    · cases h
  | cons c chars ih =>
    simp only [splitOnce] at h
    split at h
    · rename_i hprefix
      cases h
      obtain ⟨rest, hrest⟩ := List.isPrefixOf_iff_prefix.mp hprefix
      rw [List.nil_append, ← hrest, List.drop_left]
    · obtain ⟨parts, hparts, heq⟩ := Option.map_eq_some_iff.mp h
      obtain ⟨rfl, rfl⟩ := Prod.mk.inj heq
      rw [List.cons_append, ih hparts]

/-- The characters with the Unicode `White_Space` property. -/
def isWhitespace (c : Char) : Bool :=
  let code := c.toNat
  (9 ≤ code && code ≤ 13) || code == 0x20 || code == 0x85 || code == 0xA0 || code == 0x1680 ||
    (0x2000 ≤ code && code ≤ 0x200A) || code == 0x2028 || code == 0x2029 || code == 0x202F ||
    code == 0x205F || code == 0x3000

/-- `trim_matches`: the characters of a kind at both ends are left out. -/
def trimMatches (kind : Char → Bool) (chars : List Char) : List Char :=
  (chars.dropWhile kind).rdropWhile kind

/-- `trim`, on characters. -/
def trimChars (chars : List Char) : List Char := trimMatches isWhitespace chars

def trim (text : String) : String := String.ofList (trimChars text.toList)

/-- Trimmed text does not begin or end with white space, so trimming it changes nothing. -/
theorem trim_trim (text : String) : trim (trim text) = trim text := by
  have hstart : ((text.toList.dropWhile isWhitespace).rdropWhile isWhitespace).dropWhile
      isWhitespace = (text.toList.dropWhile isWhitespace).rdropWhile isWhitespace := by
    obtain ⟨cut, hcut⟩ := List.rdropWhile_prefix isWhitespace (text.toList.dropWhile isWhitespace)
    have hidempotent := List.dropWhile_idempotent isWhitespace text.toList
    cases hkept : (text.toList.dropWhile isWhitespace).rdropWhile isWhitespace with
    | nil => rfl
    | cons c chars =>
      rw [hkept] at hcut
      rw [← hcut, List.cons_append] at hidempotent
      by_cases hspace : isWhitespace c = true
      · -- Trimming the start would have removed this character.
        have hlength := congrArg List.length hidempotent
        rw [List.dropWhile_cons_of_pos hspace, List.length_cons] at hlength
        have hle := (List.dropWhile_suffix (l := chars ++ cut) isWhitespace).length_le
        omega
      · rw [List.dropWhile_cons_of_neg hspace]
  unfold trim trimChars trimMatches
  rw [String.toList_ofList, hstart, List.rdropWhile_idempotent]

/-- A letter between `A` and `Z` in lower case, any other character unchanged. -/
def toAsciiLower (c : Char) : Char :=
  if 'A' ≤ c ∧ c ≤ 'Z' then Char.ofNat (c.toNat + 32) else c

/-- `to_ascii_lowercase`. -/
def toAsciiLowercase (text : String) : String := String.ofList (text.toList.map toAsciiLower)

def isAsciiAlphanumeric (c : Char) : Bool :=
  ('0' ≤ c && c ≤ '9') || ('A' ≤ c && c ≤ 'Z') || ('a' ≤ c && c ≤ 'z')

def hexDigit (n : ℕ) : Char :=
  if n < 10 then Char.ofNat (48 + n) else Char.ofNat (87 + n)

/-- A number in hexadecimal, padded with zeros or cut to `width` digits. -/
def hex : ℕ → ℕ → List Char
  | 0, _ => []
  | width + 1, n => hex width (n / 16) ++ [hexDigit (n % 16)]

theorem mem_hex {c : Char} {width n : ℕ} (h : c ∈ hex width n) : ∃ k < 16, c = hexDigit k := by
  induction width generalizing n with
  | zero => cases h
  | succ width ih =>
    rcases List.mem_append.mp h with hfirst | hlast
    · exact ih hfirst
    · exact ⟨n % 16, Nat.mod_lt n (by decide), List.mem_singleton.mp hlast⟩

@[simp] theorem length_hex (width n : ℕ) : (hex width n).length = width := by
  induction width generalizing n with
  | zero => rfl
  | succ width ih => rw [hex, List.length_append, ih, List.length_singleton]

def decimal (n : ℕ) : String := String.ofList (Nat.toDigits 10 n)

/-- A character as `{:?}` of Rust prints it in a text. Of the characters that are not printable only
the control characters are told apart. -/
def debugChar (c : Char) : List Char :=
  if c = '"' ∨ c = '\\' then ['\\', c]
  else if c = '\t' then ['\\', 't']
  else if c = '\n' then ['\\', 'n']
  else if c = '\r' then ['\\', 'r']
  else if c.toNat = 0 then ['\\', '0']
  else if c.toNat < 0x20 ∨ (0x7F ≤ c.toNat ∧ c.toNat < 0xA0) then
    ['\\', 'u', '\x7b'] ++ Nat.toDigits 16 c.toNat ++ ['\x7d']
  else [c]

/-- A text as `{:?}` of Rust prints it. -/
def debug (text : String) : String :=
  String.ofList (['"'] ++ text.toList.flatMap debugChar ++ ['"'])

/-! ## Lines -/

/-- The lines of a text, each with what ends it. -/
def splitInclusive : List Char → List (List Char)
  | [] => []
  | c :: chars =>
    if c = '\n' then ['\n'] :: splitInclusive chars
    else
      match splitInclusive chars with
      | [] => [[c]]
      | line :: later => (c :: line) :: later

/-- A line without a carriage return at its end. -/
def dropReturn (line : List Char) : List Char :=
  if line.getLast? = some '\r' then line.dropLast else line

/-- A line without what ends it: a line feed, and a carriage return before that. -/
def chomp (line : List Char) : List Char :=
  if line.getLast? = some '\n' then dropReturn line.dropLast else line

/-- `str::lines`. -/
def lines (text : List Char) : List (List Char) := (splitInclusive text).map chomp

/-- A line as it is written. -/
def ended (line : List Char) : List Char := line ++ ['\n']

theorem splitInclusive_ended_append {line : List Char} (hline : '\n' ∉ line) (rest : List Char) :
    splitInclusive (ended line ++ rest) = ended line :: splitInclusive rest := by
  induction line with
  | nil => rfl
  | cons c line ih =>
    have hc : c ≠ '\n' := Ne.symm (List.ne_of_not_mem_cons hline)
    change splitInclusive (c :: (ended line ++ rest)) = (c :: ended line) :: splitInclusive rest
    rw [splitInclusive, if_neg hc, ih (List.not_mem_of_not_mem_cons hline)]

/-- Lines that were written one by one are the lines of the text. -/
theorem splitInclusive_flatten {written : List (List Char)}
    (hlines : ∀ line ∈ written, '\n' ∉ line) :
    splitInclusive (written.map ended).flatten = written.map ended := by
  induction written with
  | nil => rfl
  | cons line later ih =>
    obtain ⟨hline, hlater⟩ := List.forall_mem_cons.mp hlines
    rw [List.map_cons, List.flatten_cons, splitInclusive_ended_append hline, ih hlater]

theorem chomp_ended (line : List Char) : chomp (ended line) = dropReturn line := by
  rw [chomp, ended, if_pos List.getLast?_concat, List.dropLast_concat]

theorem splitInclusive_unended {line : List Char} (hline : '\n' ∉ line) (hne : line ≠ []) :
    splitInclusive line = [line] := by
  induction line with
  | nil => exact absurd rfl hne
  | cons c line ih =>
    rw [splitInclusive, if_neg (Ne.symm (List.ne_of_not_mem_cons hline))]
    cases line with
    | nil => rfl
    | cons d line => rw [ih (List.not_mem_of_not_mem_cons hline) (List.cons_ne_nil d line)]

end Asterism.Text

/-! # JSON values -/

namespace Asterism

/-- A JSON number: an integer, or a floating-point number by its shortest text. -/
inductive Number
  | int (n : ℤ)
  /-- Any other number, as it is printed. -/
  | float (text : String)
  deriving DecidableEq

/-- A JSON value. -/
inductive Value
  | null
  | bool (b : Bool)
  | number (n : Number)
  | string (text : String)
  | array (items : List Value)
  /-- The fields of an object, in increasing key order. -/
  | object (fields : List (String × Value))

namespace Value

mutual

def decEq : (a b : Value) → Decidable (a = b)
  | .null, .null => isTrue rfl
  | .bool a, .bool b => decidable_of_iff (a = b) (by rw [Value.bool.injEq])
  | .number a, .number b => decidable_of_iff (a = b) (by rw [Value.number.injEq])
  | .string a, .string b => decidable_of_iff (a = b) (by rw [Value.string.injEq])
  | .array a, .array b =>
    have := decEqItems a b
    decidable_of_iff (a = b) (by rw [Value.array.injEq])
  | .object a, .object b =>
    have := decEqFields a b
    decidable_of_iff (a = b) (by rw [Value.object.injEq])
  | .null, .bool _ | .null, .number _ | .null, .string _ | .null, .array _ | .null, .object _
  | .bool _, .null | .bool _, .number _ | .bool _, .string _ | .bool _, .array _
  | .bool _, .object _ | .number _, .null | .number _, .bool _ | .number _, .string _
  | .number _, .array _ | .number _, .object _ | .string _, .null | .string _, .bool _
  | .string _, .number _ | .string _, .array _ | .string _, .object _ | .array _, .null
  | .array _, .bool _ | .array _, .number _ | .array _, .string _ | .array _, .object _
  | .object _, .null | .object _, .bool _ | .object _, .number _ | .object _, .string _
  | .object _, .array _ => isFalse (by intro h; cases h)

def decEqItems : (a b : List Value) → Decidable (a = b)
  | [], [] => isTrue rfl
  | [], _ :: _ | _ :: _, [] => isFalse (by intro h; cases h)
  | x :: xs, y :: ys =>
    have := decEq x y
    have := decEqItems xs ys
    decidable_of_iff (x = y ∧ xs = ys) (by rw [List.cons.injEq])

def decEqFields : (a b : List (String × Value)) → Decidable (a = b)
  | [], [] => isTrue rfl
  | [], _ :: _ | _ :: _, [] => isFalse (by intro h; cases h)
  | (k, x) :: xs, (l, y) :: ys =>
    have := decEq x y
    have := decEqFields xs ys
    decidable_of_iff (k = l ∧ x = y ∧ xs = ys) (by rw [List.cons.injEq, Prod.mk.injEq, and_assoc])

end

instance : DecidableEq Value := decEq

mutual

/-- The texts in a value: its strings and its keys. -/
def texts : Value → List String
  | .string text => [text]
  | .array items => textsOfItems items
  | .object fields => textsOfFields fields
  | .null | .bool _ | .number _ => []

def textsOfItems : List Value → List String
  | [] => []
  | item :: items => item.texts ++ textsOfItems items

def textsOfFields : List (String × Value) → List String
  | [] => []
  | (key, value) :: fields => key :: (value.texts ++ textsOfFields fields)

end

/-- `Value::get`: the field of an object, and nothing for any other value. -/
def get (key : String) : Value → Option Value
  | .object fields => (fields.find? fun field => field.1 = key).map Prod.snd
  | _ => none

def asStr : Value → Option String
  | .string text => some text
  | _ => none

/-- `Value::as_i64`. -/
def asI64 : Value → Option ℤ
  | .number (.int n) => if -2 ^ 63 ≤ n ∧ n < 2 ^ 63 then some n else none
  | _ => none

def isArray : Value → Bool
  | .array _ => true
  | _ => false

/-- A string value, or `null` when there is none. -/
def ofOption : Option String → Value
  | some text => .string text
  | none => .null

/-- An insertion into a map in key order, replacing the field of the same key. -/
def insertField (key : String) (value : Value) :
    List (String × Value) → List (String × Value)
  | [] => [(key, value)]
  | field :: fields =>
    if key < field.1 then (key, value) :: field :: fields
    else if key = field.1 then (key, value) :: fields
    else field :: insertField key value fields

/-- The object with these fields, inserted one after the other. -/
def obj (fields : List (String × Value)) : Value :=
  .object (fields.foldl (fun map field => insertField field.1 field.2 map) [])

theorem get_insertField (key name : String) (value : Value) (fields : List (String × Value)) :
    (Value.object (insertField name value fields)).get key =
      if name = key then some value else (Value.object fields).get key := by
  induction fields with
  | nil =>
    by_cases hname : name = key
    · simp [get, insertField, hname]
    · simp [get, insertField, hname]
  | cons field fields ih =>
    simp only [get] at ih ⊢
    by_cases hname : name = key
    · subst hname
      simp only [insertField]
      split_ifs with hlt heq
      · simp
      · simp
      · rw [List.find?_cons_of_neg (by simpa using Ne.symm heq), ih, if_pos rfl]
    · rw [if_neg hname] at ih ⊢
      simp only [insertField]
      split_ifs with hlt heq
      · rw [List.find?_cons_of_neg (by simpa using hname)]
      · rw [List.find?_cons_of_neg (by simpa using hname),
          List.find?_cons_of_neg (by simpa using heq ▸ hname)]
      · simp only [List.find?_cons]
        split
        · rfl
        · exact ih

theorem get_obj (key : String) (fields : List (String × Value)) :
    (obj fields).get key = (fields.reverse.find? fun field => field.1 = key).map Prod.snd := by
  unfold obj
  induction fields using List.reverseRecOn with
  | nil => rfl
  | append_singleton fields field ih =>
    rw [List.foldl_append, List.foldl_cons, List.foldl_nil, get_insertField, ih,
      List.reverse_append, List.reverse_singleton, List.singleton_append, List.find?_cons]
    split
    · rename_i hname
      simp only [hname, decide_true, Option.map_some]
    · rename_i hname
      simp only [hname, decide_false]

/-- One character of an encoded string. -/
def encodeChar (c : Char) : List Char :=
  match c.toNat with
  | 0x22 => ['\\', '"']
  | 0x5C => ['\\', '\\']
  | 0x08 => ['\\', 'b']
  | 0x09 => ['\\', 't']
  | 0x0A => ['\\', 'n']
  | 0x0C => ['\\', 'f']
  | 0x0D => ['\\', 'r']
  | code => if code < 0x20 then ['\\', 'u'] ++ Text.hex 4 code else [c]

def encodeText (text : String) : List Char :=
  ['"'] ++ text.toList.flatMap encodeChar ++ ['"']

def encodeNumber : Number → List Char
  | .int n => (if n < 0 then ['-'] else []) ++ (Text.decimal n.natAbs).toList
  | .float text => text.toList

mutual

/-- `serde_json::to_string`: the compact encoding of a value. -/
def encodeChars : Value → List Char
  | .null => "null".toList
  | .bool b => if b then "true".toList else "false".toList
  | .number n => encodeNumber n
  | .string text => encodeText text
  | .array items => ['['] ++ encodeItems items ++ [']']
  | .object fields => ['\x7b'] ++ encodeFields fields ++ ['\x7d']

def encodeItems : List Value → List Char
  | [] => []
  | [item] => item.encodeChars
  | item :: items => item.encodeChars ++ [','] ++ encodeItems items

def encodeFields : List (String × Value) → List Char
  | [] => []
  | [(key, value)] => encodeText key ++ [':'] ++ value.encodeChars
  | (key, value) :: fields =>
    encodeText key ++ [':'] ++ value.encodeChars ++ [','] ++ encodeFields fields

end

/-- `serde_json::to_string`, as a text. -/
def encode (value : Value) : String := String.ofList value.encodeChars

/-- FNV-1a over the bytes of an encoding. -/
def fnv1a (bytes : List UInt8) : ℕ :=
  bytes.foldl (fun hash byte => (hash ^^^ byte.toNat) * 0x100000001b3 % 2 ^ 64) 0xcbf29ce484222325

/-- The digest of a value's encoding, used to detect change and never for security. -/
def fingerprintValue (value : Value) : String :=
  String.ofList (Text.hex 16 (fnv1a (value.encodeChars.flatMap String.utf8EncodeChar)))

example : (obj [("b", .number (.int 1)), ("a", .string "x")]).encode =
    "\x7b\"a\":\"x\",\"b\":1\x7d" := by decide

example : fingerprintValue (.object []) = "08f44b07b5901a25" := by decide

end Value

end Asterism
