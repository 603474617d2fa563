import Asterism.Sorting.Stable
import Asterism.Json
import Mathlib.Data.List.Sort
import Mathlib.Data.Nat.Log
import Mathlib.Tactic.Positivity
import Mathlib.Tactic.Ring

/-!
# The encoding and the canonical form of JSON values

Two values with integers only have the same encoding only if they are the same value, with
their fields in the same order. Both sides digest a command over its canonical JSON: the Node
enumerates keys by their code points, and the Control Plane sorts them by their UTF-16 code
units and assigns them to a fresh object, whose enumeration order is JavaScript's.
-/

namespace Asterism

open Coding

namespace Value

section Everywhere

variable (number : Number → Prop) (keys : List String → Prop)

mutual

/-- Every number of the value, and the keys of every object in it, are as described. -/
def Everywhere : Value → Prop
  | .null | .bool _ | .string _ => True
  | .number n => number n
  | .array items => EverywhereItems items
  | .object fields => keys (fields.map Prod.fst) ∧ EverywhereFields fields

def EverywhereItems : List Value → Prop
  | [] => True
  | item :: items => item.Everywhere ∧ EverywhereItems items

def EverywhereFields : List (String × Value) → Prop
  | [] => True
  | (_, value) :: fields => value.Everywhere ∧ EverywhereFields fields

end

variable {number keys}

theorem everywhereFields_iff {fields : List (String × Value)} :
    EverywhereFields number keys fields ↔ ∀ field ∈ fields, field.2.Everywhere number keys := by
  induction fields with
  | nil => exact iff_of_true trivial nofun
  | cons field fields ih => rw [EverywhereFields, ih, List.forall_mem_cons]

variable {number' : Number → Prop} {keys' : List String → Prop}

mutual

theorem Everywhere.mono (hnumber : ∀ n, number n → number' n)
    (hkeys : ∀ names, keys names → keys' names) : ∀ {value : Value},
    value.Everywhere number keys → value.Everywhere number' keys'
  | .null, _ => trivial
  | .bool _, _ => trivial
  | .number n, h => hnumber n h
  | .string _, _ => trivial
  | .array _, h => EverywhereItems.mono hnumber hkeys h
  | .object _, h => ⟨hkeys _ h.1, EverywhereFields.mono hnumber hkeys h.2⟩

theorem EverywhereItems.mono (hnumber : ∀ n, number n → number' n)
    (hkeys : ∀ names, keys names → keys' names) : ∀ {items : List Value},
    EverywhereItems number keys items → EverywhereItems number' keys' items
  | [], _ => trivial
  | _ :: _, h => ⟨Everywhere.mono hnumber hkeys h.1, EverywhereItems.mono hnumber hkeys h.2⟩

theorem EverywhereFields.mono (hnumber : ∀ n, number n → number' n)
    (hkeys : ∀ names, keys names → keys' names) : ∀ {fields : List (String × Value)},
    EverywhereFields number keys fields → EverywhereFields number' keys' fields
  | [], _ => trivial
  | (_, _) :: _, h =>
    ⟨Everywhere.mono hnumber hkeys h.1, EverywhereFields.mono hnumber hkeys h.2⟩

end

section Decide

variable [DecidablePred number] [DecidablePred keys]

mutual

def decideEverywhere : (value : Value) → Decidable (value.Everywhere number keys)
  | .null | .bool _ | .string _ => isTrue trivial
  | .number n => inferInstanceAs (Decidable (number n))
  | .array items => decideEverywhereItems items
  | .object fields =>
    have := decideEverywhereFields fields
    inferInstanceAs (Decidable (keys (fields.map Prod.fst) ∧ EverywhereFields number keys fields))

def decideEverywhereItems : (items : List Value) → Decidable (EverywhereItems number keys items)
  | [] => isTrue trivial
  | item :: items =>
    have := decideEverywhere item
    have := decideEverywhereItems items
    inferInstanceAs (Decidable (item.Everywhere number keys ∧ EverywhereItems number keys items))

def decideEverywhereFields : (fields : List (String × Value)) →
    Decidable (EverywhereFields number keys fields)
  | [] => isTrue trivial
  | (_, value) :: fields =>
    have := decideEverywhere value
    have := decideEverywhereFields fields
    inferInstanceAs (Decidable (value.Everywhere number keys ∧ EverywhereFields number keys fields))

end

instance (value : Value) : Decidable (value.Everywhere number keys) := decideEverywhere value

end Decide

end Everywhere

/-- The number is an integer. -/
def IsInteger : Number → Prop
  | .int _ => True
  | .float _ => False

/-- All numbers are integers. -/
abbrev Integral : Value → Prop := Everywhere IsInteger fun _ => True

theorem encodeChar_of_le {c : Char} (h : 0x60 ≤ c.toNat) : encodeChar c = [c] := by
  unfold encodeChar
  split
  all_goals first | omega | skip
  rw [if_neg (by omega)]

/-- The encoding of a character that may be escaped begins with such a character, but not with
a quote. -/
theorem encodeChar_head_of_lt {c : Char} (hc : c.toNat < 0x60) :
    ((encodeChar c).head?.any fun d => d.toNat < 0x60 && d != '"') = true := by
  have hall : ∀ i : Fin 0x60, ((encodeChar (Char.ofNat i)).head?.any fun d =>
      d.toNat < 0x60 && d != '"') = true := by decide
  have hhead := hall ⟨c.toNat, hc⟩
  rwa [Char.ofNat_toNat] at hhead

/-- The encoding of a character begins with a character that is not a quote. -/
theorem encodeChar_head (c : Char) :
    ∃ d rest, encodeChar c = d :: rest ∧ d ≠ '"' ∧ (d.toNat < 0x60 ↔ c.toNat < 0x60) := by
  by_cases hc : c.toNat < 0x60
  · have hhead := encodeChar_head_of_lt hc
    cases hcode : encodeChar c with
    | nil => simp [hcode] at hhead
    | cons d rest =>
      simp only [hcode, List.head?_cons, Option.any_some, Bool.and_eq_true, decide_eq_true_eq,
        bne_iff_ne] at hhead
      exact ⟨d, rest, rfl, hhead.2, iff_of_true hhead.1 hc⟩
  · refine ⟨c, [], encodeChar_of_le (by omega), ?_, Iff.rfl⟩
    rintro rfl
    exact hc (by decide)

theorem encodeChar_separated : Separated encodeChar := by
  refine separated_of_prefix fun a b hprefix => ?_
  obtain ⟨d, rest, ha, -, hda⟩ := encodeChar_head a
  obtain ⟨e, rest', hb, -, heb⟩ := encodeChar_head b
  have hhead : d = e := by
    rw [ha, hb] at hprefix
    exact (List.cons_prefix_cons.mp hprefix).1
  subst hhead
  by_cases hlt : a.toNat < 0x60
  · have hltb : b.toNat < 0x60 := heb.mp (hda.mpr hlt)
    have hall : ∀ i j : Fin 0x60, encodeChar (Char.ofNat i) <+: encodeChar (Char.ofNat j) →
        Char.ofNat i = Char.ofNat j := by decide +kernel
    have hsame := hall ⟨a.toNat, hlt⟩ ⟨b.toNat, hltb⟩
    rw [Char.ofNat_toNat, Char.ofNat_toNat] at hsame
    exact hsame hprefix
  · have hltb : ¬b.toNat < 0x60 := fun hltb => hlt (hda.mp (heb.mpr hltb))
    rw [encodeChar_of_le (by omega), encodeChar_of_le (by omega)] at hprefix
    exact (List.cons_prefix_cons.mp hprefix).1

theorem encodeText_separated : Separated encodeText := by
  intro a b x y heq
  simp only [encodeText, List.cons_append, List.nil_append, List.append_assoc] at heq
  have hstop (c : Char) : ∃ d rest, encodeChar c = d :: rest ∧ d ≠ '"' := by
    obtain ⟨d, rest, hcons, hquote, -⟩ := encodeChar_head c
    exact ⟨d, rest, hcons, hquote⟩
  have hchars := encodeChar_separated.flatMap hstop (List.cons.inj heq).2
  exact ⟨String.ext_iff.mpr hchars.1, hchars.2⟩

def isIntegerChar (c : Char) : Bool := c.isDigit || c == '-'

theorem isIntegerChar_of_mem {n : ℤ} {c : Char} (h : c ∈ encodeNumber (.int n)) :
    isIntegerChar c = true := by
  rw [encodeNumber, Text.decimal, String.toList_ofList, List.mem_append] at h
  rcases h with hsign | hdigit
  · split at hsign
    · rw [List.mem_singleton.mp hsign]
      rfl
    · cases hsign
  · rw [isIntegerChar, Nat.isDigit_of_mem_toDigits (by decide) (by decide) hdigit]
    rfl

theorem neg_not_mem_toDigits (n : ℕ) : '-' ∉ Nat.toDigits 10 n := by
  intro h
  have hdigit := Nat.isDigit_of_mem_toDigits (by decide) (by decide) h
  revert hdigit
  decide

theorem toDigits_injective : Function.Injective (Nat.toDigits 10) := by
  intro a b h
  rw [← Nat.ofDigitChars_ten_toDigits (n := a), h, Nat.ofDigitChars_ten_toDigits]

theorem encodeInt_injective : Function.Injective fun n : ℤ => encodeNumber (.int n) := by
  intro a b h
  simp only [encodeNumber, Text.decimal, String.toList_ofList] at h
  split_ifs at h with ha hb hb
  all_goals simp only [List.cons_append, List.nil_append] at h
  · have hdigits := toDigits_injective (List.cons.inj h).2
    omega
  · exact absurd (h ▸ List.mem_cons_self) (neg_not_mem_toDigits b.natAbs)
  · exact absurd (h.symm ▸ List.mem_cons_self) (neg_not_mem_toDigits a.natAbs)
  · have hdigits := toDigits_injective h
    omega

/-- What may follow a value. -/
def isCloser (c : Char) : Prop := c = ',' ∨ c = ']' ∨ c = '\x7d'

theorem encodeInt_separated {a b : ℤ} {x y : List Char} (hx : StartsWith isCloser x)
    (hy : StartsWith isCloser y) (h : encodeNumber (.int a) ++ x = encodeNumber (.int b) ++ y) :
    a = b ∧ x = y := by
  have hcloser {text : List Char} (htext : StartsWith isCloser text) :
      StartsWith (fun c => isIntegerChar c = false) text := by
    intro c hc
    rcases htext c hc with rfl | rfl | rfl <;> rfl
  exact separated_of_letters isIntegerChar (fun _ _ => isIntegerChar_of_mem) encodeInt_injective
    (hcloser hx) (hcloser hy) h

/-- The kind of value that a first character announces. -/
def announced (c : Char) : ℕ :=
  if c = 'n' then 0
  else if c = 't' ∨ c = 'f' then 1
  else if c = '"' then 3
  else if c = '[' then 4
  else if c = '\x7b' then 5
  else 2

def kindIndex : Value → ℕ
  | .null => 0
  | .bool _ => 1
  | .number _ => 2
  | .string _ => 3
  | .array _ => 4
  | .object _ => 5

theorem announced_of_isIntegerChar {c : Char} (h : isIntegerChar c = true) :
    announced c = 2 ∧ c ≠ ']' := by
  have hne (d : Char) (hd : isIntegerChar d = false) : c ≠ d := by
    rintro rfl
    rw [h] at hd
    cases hd
  refine ⟨?_, hne _ rfl⟩
  rw [announced, if_neg (hne _ rfl), if_neg (not_or.mpr ⟨hne _ rfl, hne _ rfl⟩), if_neg (hne _ rfl),
    if_neg (hne _ rfl), if_neg (hne _ rfl)]

/-- The first character of a value announces its kind, and is no closing bracket. -/
theorem encodeChars_head {value : Value} (h : value.Integral) :
    ∃ c rest, value.encodeChars = c :: rest ∧ announced c = value.kindIndex ∧ c ≠ ']' := by
  cases value with
  | null => exact ⟨_, _, rfl, by decide, by decide⟩
  | bool b =>
    cases b
    · exact ⟨'f', "alse".toList, rfl, by decide, by decide⟩
    · exact ⟨'t', "rue".toList, rfl, by decide, by decide⟩
  | number n =>
    cases n with
    | float text => cases h
    | int n =>
      cases hcode : encodeNumber (.int n) with
      | nil =>
        have hempty := (List.append_eq_nil_iff.mp hcode).2
        rw [Text.decimal, String.toList_ofList] at hempty
        exact absurd hempty Nat.toDigits_ne_nil
      | cons c rest =>
        have hc := announced_of_isIntegerChar (isIntegerChar_of_mem (hcode ▸ List.mem_cons_self))
        exact ⟨c, rest, hcode, hc.1, hc.2⟩
  | string text => exact ⟨_, _, rfl, rfl, by decide⟩
  | array items => exact ⟨_, _, rfl, rfl, by decide⟩
  | object fields => exact ⟨_, _, rfl, rfl, by decide⟩

theorem kindIndex_eq {a b : Value} (ha : a.Integral) (hb : b.Integral) {x y : List Char}
    (h : a.encodeChars ++ x = b.encodeChars ++ y) : a.kindIndex = b.kindIndex := by
  obtain ⟨c, rest, hcode, hkind, -⟩ := encodeChars_head ha
  obtain ⟨d, rest', hcode', hkind', -⟩ := encodeChars_head hb
  rw [hcode, hcode'] at h
  rw [← hkind, ← hkind', (List.cons.inj h).1]

def afterItem (items : List Value) (x : List Char) : List Char :=
  match items with
  | [] => ']' :: x
  | item :: items => ',' :: (encodeItems (item :: items) ++ ']' :: x)

def afterField (fields : List (String × Value)) (x : List Char) : List Char :=
  match fields with
  | [] => '\x7d' :: x
  | field :: fields => ',' :: (encodeFields (field :: fields) ++ '\x7d' :: x)

theorem encodeItems_cons (item : Value) (items : List Value) (x : List Char) :
    encodeItems (item :: items) ++ ']' :: x = item.encodeChars ++ afterItem items x := by
  cases items with
  | nil => rfl
  | cons next items =>
    rw [encodeItems, List.append_assoc, List.append_assoc]
    · rfl
    · nofun

theorem encodeFields_cons (key : String) (value : Value) (fields : List (String × Value))
    (x : List Char) :
    encodeFields ((key, value) :: fields) ++ '\x7d' :: x =
      encodeText key ++ ':' :: (value.encodeChars ++ afterField fields x) := by
  cases fields with
  | nil =>
    simp only [encodeFields, afterField, List.append_assoc, List.cons_append, List.nil_append]
  | cons next fields =>
    rw [encodeFields]
    · simp only [afterField, List.append_assoc, List.cons_append, List.nil_append]
    · nofun

theorem startsWith_afterItem (items : List Value) (x : List Char) :
    StartsWith isCloser (afterItem items x) := by
  cases items with
  | nil => exact startsWith_cons (.inr (.inl rfl)) _
  | cons item items => exact startsWith_cons (.inl rfl) _

theorem startsWith_afterField (fields : List (String × Value)) (x : List Char) :
    StartsWith isCloser (afterField fields x) := by
  cases fields with
  | nil => exact startsWith_cons (.inr (.inr rfl)) _
  | cons field fields => exact startsWith_cons (.inl rfl) _

mutual

theorem encodeChars_separated : ∀ {a b : Value} {x y : List Char}, a.Integral → b.Integral →
    StartsWith isCloser x → StartsWith isCloser y → a.encodeChars ++ x = b.encodeChars ++ y →
    a = b ∧ x = y
  | .null, b, x, y, ha, hb, hx, hy, h => by
    have hkind := kindIndex_eq ha hb h
    cases b with
    | null => exact ⟨rfl, List.append_cancel_left h⟩
    | _ => cases hkind
  | .bool p, b, x, y, ha, hb, hx, hy, h => by
    have hkind := kindIndex_eq ha hb h
    cases b with
    | bool q =>
      cases p <;> cases q
      · exact ⟨rfl, List.append_cancel_left h⟩
      · cases (List.cons.inj h).1
      · cases (List.cons.inj h).1
      · exact ⟨rfl, List.append_cancel_left h⟩
    | _ => cases hkind
  | .number n, b, x, y, ha, hb, hx, hy, h => by
    have hkind := kindIndex_eq ha hb h
    cases b with
    | number m =>
      cases n with
      | float text => cases ha
      | int n =>
        cases m with
        | float text => cases hb
        | int m =>
          obtain ⟨rfl, hxy⟩ := encodeInt_separated hx hy h
          exact ⟨rfl, hxy⟩
    | _ => cases hkind
  | .string text, b, x, y, ha, hb, hx, hy, h => by
    have hkind := kindIndex_eq ha hb h
    cases b with
    | string other =>
      obtain ⟨rfl, hxy⟩ := encodeText_separated h
      exact ⟨rfl, hxy⟩
    | _ => cases hkind
  | .array items, b, x, y, ha, hb, hx, hy, h => by
    have hkind := kindIndex_eq ha hb h
    cases b with
    | array others =>
      simp only [encodeChars, List.append_assoc, List.cons_append, List.nil_append,
        List.cons.injEq, true_and] at h
      obtain ⟨rfl, hxy⟩ := encodeItems_separated ha hb h
      exact ⟨rfl, hxy⟩
    | _ => cases hkind
  | .object fields, b, x, y, ha, hb, hx, hy, h => by
    have hkind := kindIndex_eq ha hb h
    cases b with
    | object others =>
      simp only [encodeChars, List.append_assoc, List.cons_append, List.nil_append,
        List.cons.injEq, true_and] at h
      obtain ⟨rfl, hxy⟩ := encodeFields_separated ha.2 hb.2 h
      exact ⟨rfl, hxy⟩
    | _ => cases hkind

theorem encodeItems_separated : ∀ {l m : List Value} {x y : List Char},
    EverywhereItems IsInteger (fun _ => True) l →
    EverywhereItems IsInteger (fun _ => True) m →
    encodeItems l ++ ']' :: x = encodeItems m ++ ']' :: y →
    l = m ∧ x = y
  | [], [], x, y, _, _, h => ⟨rfl, (List.cons.inj h).2⟩
  | [], b :: m, x, y, _, hm, h => by
    obtain ⟨c, rest, hcode, -, hc⟩ := encodeChars_head hm.1
    rw [encodeItems_cons, hcode] at h
    exact absurd (List.cons.inj h).1.symm hc
  | a :: l, [], x, y, hl, _, h => by
    obtain ⟨c, rest, hcode, -, hc⟩ := encodeChars_head hl.1
    rw [encodeItems_cons, hcode] at h
    exact absurd (List.cons.inj h).1 hc
  | a :: l, b :: m, x, y, hl, hm, h => by
    rw [encodeItems_cons, encodeItems_cons] at h
    obtain ⟨rfl, hrest⟩ := encodeChars_separated hl.1 hm.1 (startsWith_afterItem l x)
      (startsWith_afterItem m y) h
    cases l with
    | nil =>
      cases m with
      | nil => exact ⟨rfl, (List.cons.inj hrest).2⟩
      | cons _ _ => cases (List.cons.inj hrest).1
    | cons c l =>
      cases m with
      | nil => cases (List.cons.inj hrest).1
      | cons d m =>
        obtain ⟨hsame, hxy⟩ := encodeItems_separated hl.2 hm.2 (List.cons.inj hrest).2
        exact ⟨by rw [hsame], hxy⟩

theorem encodeFields_separated : ∀ {l m : List (String × Value)} {x y : List Char},
    EverywhereFields IsInteger (fun _ => True) l → EverywhereFields IsInteger (fun _ => True) m →
    encodeFields l ++ '\x7d' :: x = encodeFields m ++ '\x7d' :: y → l = m ∧ x = y
  | [], [], x, y, _, _, h => ⟨rfl, (List.cons.inj h).2⟩
  | [], (key, b) :: m, x, y, _, hm, h => by
    rw [encodeFields_cons] at h
    cases (List.cons.inj h).1
  | (key, a) :: l, [], x, y, hl, _, h => by
    rw [encodeFields_cons] at h
    cases (List.cons.inj h).1
  | (key, a) :: l, (name, b) :: m, x, y, hl, hm, h => by
    rw [encodeFields_cons, encodeFields_cons] at h
    obtain ⟨rfl, hvalue⟩ := encodeText_separated h
    obtain ⟨rfl, hrest⟩ := encodeChars_separated hl.1 hm.1 (startsWith_afterField l x)
      (startsWith_afterField m y) (List.cons.inj hvalue).2
    cases l with
    | nil =>
      cases m with
      | nil => exact ⟨rfl, (List.cons.inj hrest).2⟩
      | cons _ _ => cases (List.cons.inj hrest).1
    | cons c l =>
      cases m with
      | nil => cases (List.cons.inj hrest).1
      | cons d m =>
        obtain ⟨hsame, hxy⟩ := encodeFields_separated hl.2 hm.2 (List.cons.inj hrest).2
        exact ⟨by rw [hsame], hxy⟩

end

theorem encode_injective {a b : Value} (ha : a.Integral) (hb : b.Integral)
    (h : a.encode = b.encode) : a = b := by
  have hchars : a.encodeChars ++ [] = b.encodeChars ++ [] := by
    rw [List.append_nil, List.append_nil, ← String.toList_ofList (l := a.encodeChars), ← encode, h,
      encode, String.toList_ofList]
  exact (encodeChars_separated ha hb (startsWith_nil _) (startsWith_nil _) hchars).1

end Value

end Asterism

/-! # The canonical form of a command -/

namespace Asterism.Js

/-- The first magnitude at which doubles have gaps. -/
def gapStart : ℕ := 2 ^ 53

/-- The spacing of the doubles around a magnitude. -/
def spacing (n : ℕ) : ℕ := 2 ^ (Nat.log 2 n - 52)

/-- The double nearest to a magnitude, the even one of two. -/
def toDouble (n : ℕ) : ℕ :=
  if n < gapStart then n
  else
    let below := n / spacing n
    let rest := n % spacing n
    if 2 * rest < spacing n ∨ 2 * rest = spacing n ∧ below % 2 = 0 then below * spacing n
    else (below + 1) * spacing n

/-- The number with `zeros` trailing zeros that is closest to a double among those that read
back as it. -/
def shorter (x zeros : ℕ) : Option ℕ :=
  let unit := 10 ^ zeros
  let low := x / unit * unit
  let high := low + unit
  if toDouble low = x ∧ (toDouble high ≠ x ∨ x - low < high - x ∨
      x - low = high - x ∧ x / unit % 2 = 0) then some low
  else if toDouble high = x then some high
  else none

/-- The number with the fewest digits, of those with at most `zeros` trailing zeros. -/
def shortestFrom (x : ℕ) : ℕ → ℕ
  | 0 => x
  | zeros + 1 => (shorter x (zeros + 1)).getD (shortestFrom x zeros)

/-- The number that is printed for a double below `10 ^ 21`. -/
def shortest (x : ℕ) : ℕ := shortestFrom x 20

/-- A magnitude that survives being held and printed. -/
def Exact (n : ℕ) : Prop := shortest (toDouble n) = n

/-- A magnitude from the first gap on is rounded to a multiple of its spacing, by a factor of
fifty-three bits. -/
theorem toDouble_eq_mul {n : ℕ} (h : gapStart ≤ n) :
    ∃ q, 2 ^ 52 ≤ q ∧ q ≤ 2 ^ 53 ∧ toDouble n = q * spacing n := by
  have hn : n ≠ 0 := by
    rintro rfl
    exact absurd h (by decide)
  have hlog : 53 ≤ Nat.log 2 n := Nat.le_log_of_pow_le (by decide) h
  have hsplit : 2 ^ 52 * spacing n = 2 ^ Nat.log 2 n := by
    rw [spacing, ← pow_add]
    congr 1
    omega
  have hlow : 2 ^ 52 ≤ n / spacing n := by
    rw [Nat.le_div_iff_mul_le (by unfold spacing; positivity), hsplit]
    exact Nat.pow_log_le_self 2 hn
  have hhigh : n / spacing n < 2 ^ 53 := by
    rw [Nat.div_lt_iff_lt_mul (by unfold spacing; positivity)]
    calc n < 2 ^ (Nat.log 2 n + 1) := Nat.lt_pow_succ_log_self (by decide) n
      _ = 2 ^ 53 * spacing n := by rw [pow_succ, ← hsplit]; ring
  rw [toDouble, if_neg (not_lt.mpr h)]
  dsimp only
  split_ifs
  · exact ⟨_, hlow, hhigh.le, rfl⟩
  · exact ⟨_, by omega, hhigh, rfl⟩

theorem gapStart_le_toDouble {n : ℕ} (h : gapStart ≤ n) : gapStart ≤ toDouble n := by
  obtain ⟨q, hq, -, hdouble⟩ := toDouble_eq_mul h
  have hlog : 53 ≤ Nat.log 2 n := Nat.le_log_of_pow_le (by decide) h
  have hspacing : 2 ^ 1 ≤ spacing n := Nat.pow_le_pow_right (by decide) (by omega)
  rw [hdouble]
  calc gapStart = 2 ^ 52 * 2 ^ 1 := by decide
    _ ≤ q * spacing n := Nat.mul_le_mul hq hspacing

theorem toDouble_of_dvd {n : ℕ} (h : spacing n ∣ n) : toDouble n = n := by
  by_cases hn : n < gapStart
  · exact if_pos hn
  · rw [toDouble, if_neg hn]
    dsimp only
    rw [Nat.mod_eq_zero_of_dvd h, if_pos (Or.inl (by unfold spacing; positivity)),
      Nat.div_mul_cancel h]

theorem toDouble_toDouble (n : ℕ) : toDouble (toDouble n) = toDouble n := by
  by_cases hn : n < gapStart
  · rw [show toDouble n = n from if_pos hn]
    exact if_pos hn
  · obtain ⟨q, hlow, hhigh, hdouble⟩ := toDouble_eq_mul (not_lt.mp hn)
    refine toDouble_of_dvd ?_
    have hspacing : spacing n = 2 ^ (Nat.log 2 n - 52) := rfl
    rw [hdouble, hspacing]
    generalize Nat.log 2 n - 52 = e
    rcases hhigh.lt_or_eq with hlt | rfl
    · -- The factor has fifty-three bits, so the spacing has not changed.
      have hlog : Nat.log 2 (q * 2 ^ e) = 52 + e := by
        refine Nat.log_eq_of_pow_le_of_lt_pow ?_ ?_
        · rw [pow_add]
          exact Nat.mul_le_mul_right _ hlow
        · rw [show 52 + e + 1 = 53 + e by omega, pow_add]
          exact Nat.mul_lt_mul_of_pos_right hlt (by positivity)
      rw [spacing, hlog, Nat.add_sub_cancel_left]
      exact Nat.dvd_mul_left _ _
    · rw [spacing, ← pow_add, Nat.log_pow (by decide)]
      exact Nat.pow_dvd_pow 2 (by omega)

/-- Whatever shorter number is printed reads back as the same double. -/
theorem toDouble_shorter {x zeros p : ℕ} (h : shorter x zeros = some p) : toDouble p = x := by
  unfold shorter at h
  dsimp only at h
  split_ifs at h with hlow hhigh
  · rw [← Option.some.inj h]
    exact hlow.1
  · rw [← Option.some.inj h]
    exact hhigh

/-- What is printed reads back as the same double. -/
theorem toDouble_shortestFrom {x : ℕ} (hx : toDouble x = x) (zeros : ℕ) :
    toDouble (shortestFrom x zeros) = x := by
  induction zeros with
  | zero => exact hx
  | succ zeros ih =>
    rw [shortestFrom]
    cases hshorter : shorter x (zeros + 1) with
    | none => exact ih
    | some p => exact toDouble_shorter hshorter

/-- Only the number itself reads back as a double below the first gap. -/
theorem eq_of_toDouble_eq {p x : ℕ} (hx : x < gapStart) (h : toDouble p = x) : p = x := by
  by_cases hp : p < gapStart
  · rwa [toDouble, if_pos hp] at h
  · have hle := gapStart_le_toDouble (not_lt.mp hp)
    omega

theorem exact_of_lt {n : ℕ} (h : n < gapStart) : Exact n := by
  have hself : toDouble n = n := if_pos h
  have hfrom (zeros : ℕ) : shortestFrom n zeros = n :=
    eq_of_toDouble_eq h (toDouble_shortestFrom hself zeros)
  rw [Exact, hself]
  exact hfrom 20

example : toDouble (2 ^ 53 + 1) = 2 ^ 53 ∧ toDouble (2 ^ 53 + 3) = 2 ^ 53 + 4 := by decide

example : shortest (2 ^ 60) = 1152921504606847000 ∧ shortest 123456 = 123456 := by decide

end Asterism.Js

namespace Asterism

namespace Js

/-- The UTF-16 code units of a character. -/
def codeUnits (c : Char) : List ℕ :=
  if c.toNat < 0x10000 then [c.toNat]
  else [0xD800 + (c.toNat - 0x10000) / 0x400, 0xDC00 + (c.toNat - 0x10000) % 0x400]

/-- A string as JavaScript holds it. -/
def utf16 (text : String) : List ℕ := text.toList.flatMap codeUnits

/-- `JSON.stringify`, on one character of a string. -/
def quoteChar (c : Char) : List Char :=
  if c = '\x08' then ['\\', 'b']
  else if c = '\t' then ['\\', 't']
  else if c = '\n' then ['\\', 'n']
  else if c = '\x0C' then ['\\', 'f']
  else if c = '\r' then ['\\', 'r']
  else if c = '"' then ['\\', '"']
  else if c = '\\' then ['\\', '\\']
  else if c.toNat < 0x20 then ['\\', 'u'] ++ Text.hex 4 c.toNat
  else [c]

def quote (text : String) : List Char := ['"'] ++ text.toList.flatMap quoteChar ++ ['"']

/-- The text of the number that an integer is held as. -/
def numberText (n : ℤ) : List Char :=
  (if n < 0 then ['-'] else []) ++ (Text.decimal (shortest (toDouble n.natAbs))).toList

mutual

/-- What `JSON.stringify` prints, with the fields in the order in which they are enumerated. -/
def stringify : Value → List Char
  | .null => "null".toList
  | .bool true => "true".toList
  | .bool false => "false".toList
  | .number (.int n) => numberText n
  | .number (.float text) => text.toList
  | .string text => quote text
  | .array items => ['['] ++ stringifyItems items ++ [']']
  | .object fields => ['\x7b'] ++ stringifyFields fields ++ ['\x7d']

def stringifyItems : List Value → List Char
  | [] => []
  | [item] => stringify item
  | item :: items => stringify item ++ [','] ++ stringifyItems items

def stringifyFields : List (String × Value) → List Char
  | [] => []
  | [(key, value)] => quote key ++ [':'] ++ stringify value
  | (key, value) :: fields =>
    quote key ++ [':'] ++ stringify value ++ [','] ++ stringifyFields fields

end

/-- The array index a key stands for. -/
def arrayIndex (key : String) : Option ℕ :=
  let n := key.toList.foldl (fun n c => 10 * n + (c.toNat - 48)) 0
  if key = Text.decimal n ∧ n < 2 ^ 32 - 1 then some n else none

/-- The order that `Array.prototype.sort` gives keys. -/
def sortKeys (keys : List String) : List String :=
  keys.insertionSort fun a b => utf16 a ≤ utf16 b

/-- The own keys of an object after they were assigned in this order, as they are enumerated:
array indices first. Assigning to `__proto__` makes no own property. -/
def ownKeys (assigned : List String) : List String :=
  let own := assigned.filter fun key => key ≠ "__proto__"
  ((own.filter fun key => (arrayIndex key).isSome).insertionSort
      fun a b => (arrayIndex a).getD 0 ≤ (arrayIndex b).getD 0) ++
    own.filter fun key => (arrayIndex key).isNone

end Js

mutual

/-- `canonicalize`: the value with the keys of each object in sorted order, as the Control Plane
builds it. -/
def canonicalize : Value → Value
  | .array items => .array (canonicalizeItems items)
  | .object fields =>
    let done := canonicalizeFields fields
    .object ((Js.ownKeys (Js.sortKeys (fields.map Prod.fst))).filterMap fun key =>
      done.find? fun field => field.1 = key)
  | value => value

def canonicalizeItems : List Value → List Value
  | [] => []
  | item :: items => canonicalize item :: canonicalizeItems items

def canonicalizeFields : List (String × Value) → List (String × Value)
  | [] => []
  | (key, value) :: fields => (key, canonicalize value) :: canonicalizeFields fields

end

/-- `canonicalJson`: the canonical text of a value, as the Control Plane digests it. -/
def canonicalJson (value : Value) : String := String.ofList (Js.stringify (canonicalize value))

example : canonicalJson (.obj [("b", .number (.int 1)), ("a", .string "x")]) =
    "\x7b\"a\":\"x\",\"b\":1\x7d" := by decide +kernel

theorem Js.quoteChar_eq (c : Char) : quoteChar c = Value.encodeChar c := by
  by_cases hc : c.toNat < 0x60
  · have hall : ∀ i : Fin 0x60, quoteChar (Char.ofNat i) = Value.encodeChar (Char.ofNat i) := by
      decide
    have hsame := hall ⟨c.toNat, hc⟩
    rwa [Char.ofNat_toNat] at hsame
  · have hne (d : Char) (hd : d.toNat < 0x60) : c ≠ d := by
      rintro rfl
      exact hc hd
    rw [Value.encodeChar_of_le (by omega)]
    simp only [quoteChar, hne _ (by decide : '\x08'.toNat < 0x60),
      hne _ (by decide : '\t'.toNat < 0x60), hne _ (by decide : '\n'.toNat < 0x60),
      hne _ (by decide : '\x0C'.toNat < 0x60), hne _ (by decide : '\r'.toNat < 0x60),
      hne _ (by decide : '"'.toNat < 0x60), hne _ (by decide : '\\'.toNat < 0x60), if_false]
    exact if_neg (by omega)

theorem Js.quote_eq (text : String) : quote text = Value.encodeText text := by
  rw [quote, Value.encodeText, funext Js.quoteChar_eq]

/-- The number is an integer in the safe range of JavaScript. -/
def IsSafe : Number → Prop
  | .int n => n.natAbs < Js.gapStart
  | .float _ => False

instance : DecidablePred IsSafe
  | .int n => inferInstanceAs (Decidable (n.natAbs < Js.gapStart))
  | .float _ => isFalse not_false

theorem Js.numberText_eq {n : ℤ} (h : n.natAbs < gapStart) :
    numberText n = Value.encodeNumber (.int n) := by
  rw [numberText, exact_of_lt h, Value.encodeNumber]

section Stringify

variable {keys : List String → Prop}

mutual

theorem Js.stringify_eq : ∀ {value : Value}, value.Everywhere IsSafe keys →
    stringify value = value.encodeChars
  | .null, _ => rfl
  | .bool true, _ => rfl
  | .bool false, _ => rfl
  | .number (.int _), h => Js.numberText_eq h
  | .string text, _ => Js.quote_eq text
  | .array items, h => by rw [stringify, Value.encodeChars, Js.stringifyItems_eq h]
  | .object fields, h => by rw [stringify, Value.encodeChars, Js.stringifyFields_eq h.2]

theorem Js.stringifyItems_eq : ∀ {items : List Value}, Value.EverywhereItems IsSafe keys items →
    stringifyItems items = Value.encodeItems items
  | [], _ => rfl
  | [item], h => by rw [stringifyItems, Value.encodeItems, Js.stringify_eq h.1]
  | item :: next :: items, h => by
    rw [stringifyItems, Value.encodeItems, Js.stringify_eq h.1, Js.stringifyItems_eq h.2]
    all_goals nofun

theorem Js.stringifyFields_eq : ∀ {fields : List (String × Value)},
    Value.EverywhereFields IsSafe keys fields → stringifyFields fields = Value.encodeFields fields
  | [], _ => rfl
  | [(key, value)], h => by
    rw [stringifyFields, Value.encodeFields, Js.quote_eq, Js.stringify_eq h.1]
  | (key, value) :: next :: fields, h => by
    rw [stringifyFields, Value.encodeFields, Js.quote_eq, Js.stringify_eq h.1,
      Js.stringifyFields_eq h.2]
    all_goals nofun

end

end Stringify

section Lookup

variable {β : Type*}

theorem filterMap_find_keys {fields : List (String × β)} (h : (fields.map Prod.fst).Nodup) :
    ((fields.map Prod.fst).filterMap fun key => fields.find? fun field => field.1 = key) =
      fields := by
  induction fields with
  | nil => rfl
  | cons field fields ih =>
    obtain ⟨hnew, hnodup⟩ := List.nodup_cons.mp h
    have hfirst : ((field :: fields).find? fun other => other.1 = field.1) = some field :=
      List.find?_cons_of_pos (decide_eq_true rfl)
    rw [List.map_cons, List.filterMap_cons, hfirst]
    refine congrArg (field :: ·) (Eq.trans ?_ (ih hnodup))
    refine List.filterMap_congr fun key hkey => List.find?_cons_of_neg ?_
    rw [decide_eq_true_eq]
    rintro rfl
    exact hnew hkey

theorem map_fst_filterMap_find {keys : List String} {fields : List (String × β)}
    (h : ∀ key ∈ keys, key ∈ fields.map Prod.fst) :
    (keys.filterMap fun key => fields.find? fun field => field.1 = key).map Prod.fst = keys := by
  induction keys with
  | nil => rfl
  | cons key keys ih =>
    obtain ⟨hkey, hkeys⟩ := List.forall_mem_cons.mp h
    obtain ⟨field, hfield, hname⟩ := List.mem_map.mp hkey
    cases hfind : fields.find? fun field => field.1 = key with
    | none => exact absurd (decide_eq_true hname) (List.find?_eq_none.mp hfind field hfield)
    | some found =>
      have hfound := List.find?_some hfind
      rw [decide_eq_true_eq] at hfound
      rw [List.filterMap_cons, hfind, List.map_cons, ih hkeys, hfound]

end Lookup

theorem Js.mem_of_mem_ownKeys {keys : List String} {key : String}
    (h : key ∈ ownKeys (sortKeys keys)) : key ∈ keys := by
  have hmem : key ∈ sortKeys keys := by
    simp only [ownKeys, List.mem_append, List.mem_insertionSort, List.mem_filter] at h
    rcases h with ⟨⟨hmem, -⟩, -⟩ | ⟨⟨hmem, -⟩, -⟩ <;> exact hmem
  exact List.mem_insertionSort _ |>.mp hmem

/-- JavaScript enumerates the keys of an object in the order in which the Node does. -/
def KeysAgree (keys : List String) : Prop := Js.ownKeys (Js.sortKeys keys) = keys

instance (keys : List String) : Decidable (KeysAgree keys) :=
  inferInstanceAs (Decidable (_ = _))

@[simp] theorem map_fst_canonicalizeFields (fields : List (String × Value)) :
    (canonicalizeFields fields).map Prod.fst = fields.map Prod.fst := by
  induction fields with
  | nil => rfl
  | cons field fields ih => rw [canonicalizeFields, List.map_cons, ih, List.map_cons]

section Canonicalize

variable {number : Number → Prop} {keys : List String → Prop}

mutual

theorem everywhere_canonicalize : ∀ {value : Value}, value.Everywhere number keys →
    (canonicalize value).Everywhere number fun _ => True
  | .null, _ => trivial
  | .bool _, _ => trivial
  | .number _, h => h
  | .string _, _ => trivial
  | .array _, h => everywhere_canonicalizeItems h
  | .object _, h => by
    refine ⟨trivial, Value.everywhereFields_iff.mpr fun field hfield => ?_⟩
    obtain ⟨key, -, hfind⟩ := List.mem_filterMap.mp hfield
    exact Value.everywhereFields_iff.mp (everywhere_canonicalizeFields h.2) field
      (List.mem_of_find?_eq_some hfind)

theorem everywhere_canonicalizeItems : ∀ {items : List Value},
    Value.EverywhereItems number keys items →
    Value.EverywhereItems number (fun _ => True) (canonicalizeItems items)
  | [], _ => trivial
  | _ :: _, h => ⟨everywhere_canonicalize h.1, everywhere_canonicalizeItems h.2⟩

theorem everywhere_canonicalizeFields : ∀ {fields : List (String × Value)},
    Value.EverywhereFields number keys fields →
    Value.EverywhereFields number (fun _ => True) (canonicalizeFields fields)
  | [], _ => trivial
  | (_, _) :: _, h => ⟨everywhere_canonicalize h.1, everywhere_canonicalizeFields h.2⟩

end

mutual

/-- A value is its canonical form if the keys of all its objects agree. -/
theorem canonicalize_eq_self_iff : ∀ {value : Value}, value.Everywhere number List.Nodup →
    (canonicalize value = value ↔ value.Everywhere (fun _ => True) KeysAgree)
  | .null, _ => iff_of_true rfl trivial
  | .bool _, _ => iff_of_true rfl trivial
  | .number _, _ => iff_of_true rfl trivial
  | .string _, _ => iff_of_true rfl trivial
  | .array items, h => by
    rw [canonicalize, Value.array.injEq, canonicalizeItems_eq_self_iff h]
    rfl
  | .object fields, h => by
    have hkeys : ((canonicalizeFields fields).map Prod.fst).Nodup := by
      rw [map_fst_canonicalizeFields]
      exact h.1
    have hlookup := filterMap_find_keys hkeys
    rw [map_fst_canonicalizeFields] at hlookup
    rw [canonicalize, Value.object.injEq]
    constructor
    · intro hself
      have hagree : KeysAgree (fields.map Prod.fst) := by
        have hnames := congrArg (List.map Prod.fst) hself
        rwa [map_fst_filterMap_find] at hnames
        intro key hkey
        rw [map_fst_canonicalizeFields]
        exact Js.mem_of_mem_ownKeys hkey
      rw [show Js.ownKeys (Js.sortKeys (fields.map Prod.fst)) = _ from hagree, hlookup] at hself
      exact ⟨hagree, (canonicalizeFields_eq_self_iff h.2).mp hself⟩
    · rintro ⟨hagree, hfields⟩
      rw [show Js.ownKeys (Js.sortKeys (fields.map Prod.fst)) = _ from hagree, hlookup]
      exact (canonicalizeFields_eq_self_iff h.2).mpr hfields

theorem canonicalizeItems_eq_self_iff : ∀ {items : List Value},
    Value.EverywhereItems number List.Nodup items →
    (canonicalizeItems items = items ↔ Value.EverywhereItems (fun _ => True) KeysAgree items)
  | [], _ => iff_of_true rfl trivial
  | _ :: _, h => by
    rw [canonicalizeItems, List.cons.injEq, canonicalize_eq_self_iff h.1,
      canonicalizeItems_eq_self_iff h.2]
    rfl

theorem canonicalizeFields_eq_self_iff : ∀ {fields : List (String × Value)},
    Value.EverywhereFields number List.Nodup fields →
    (canonicalizeFields fields = fields ↔
      Value.EverywhereFields (fun _ => True) KeysAgree fields)
  | [], _ => iff_of_true rfl trivial
  | (_, _) :: _, h => by
    rw [canonicalizeFields, List.cons.injEq, Prod.mk.injEq, canonicalize_eq_self_iff h.1,
      canonicalizeFields_eq_self_iff h.2]
    exact and_congr_left fun _ => and_iff_right rfl

end

end Canonicalize

/-- The keys are in the order in which the Node's map enumerates them. -/
abbrev Ordered (keys : List String) : Prop := keys.Pairwise (· < ·)

/-- The two sides digest the same bytes for a value with safe integers exactly if JavaScript
enumerates the keys of each of its objects in the order in which the Node does. -/
theorem canonicalJson_eq_encode_iff {value : Value} (h : value.Everywhere IsSafe Ordered) :
    (canonicalJson value).toByteArray = value.encode.toByteArray ↔
      value.Everywhere (fun _ => True) KeysAgree := by
  have hnodup : value.Everywhere IsSafe List.Nodup := by
    refine h.mono (fun _ hn => hn) fun keys hkeys => List.Pairwise.imp ?_ hkeys
    rintro a b hlt rfl
    exact String.lt_irrefl a hlt
  have hcanonical := everywhere_canonicalize hnodup
  have hprinted : canonicalJson value = (canonicalize value).encode := by
    rw [canonicalJson, Js.stringify_eq hcanonical]
    rfl
  have hinteger {other : Value} {keys : List String → Prop} (hsafe : other.Everywhere IsSafe keys) :
      other.Integral := by
    refine hsafe.mono (fun n hn => ?_) fun _ _ => trivial
    cases n with
    | int n => trivial
    | float text => cases hn
  rw [String.toByteArray_inj, hprinted, ← canonicalize_eq_self_iff hnodup]
  exact ⟨Value.encode_injective (hinteger hcanonical) (hinteger h), congrArg Value.encode⟩

/-- Keys that are array indices come first and in numeric order, characters beyond the basic
plane come before some of it, and one key is lost. -/
theorem canonicalJson_ne_encode :
    let indices := Value.obj [("9", .null), ("10", .null)]
    let planes := Value.obj [("～", .null), ("𐀀", .null)]
    let prototype := Value.obj [("__proto__", .null)]
    canonicalJson indices = "\x7b\"9\":null,\"10\":null\x7d" ∧
      indices.encode = "\x7b\"10\":null,\"9\":null\x7d" ∧
      canonicalJson planes ≠ planes.encode ∧
      canonicalJson prototype = "\x7b\x7d" ∧
      prototype.encode = "\x7b\"__proto__\":null\x7d" := by
  decide +kernel

/-- A command that creates a run is written alike by both sides. -/
theorem canonicalJson_runsCreate :
    let value := Value.obj [("command", .string "runs.create"), ("project_id", .string "p1"),
      ("payload", Value.obj [("input", .string "hi"), ("limit", .number (.int (-3)))])]
    (canonicalJson value).toByteArray = value.encode.toByteArray := by
  exact (canonicalJson_eq_encode_iff (by decide +kernel)).mpr (by decide +kernel)

end Asterism

/-! ## The authentication transcript -/

namespace Asterism

/-- Every field that goes into the signed transcript. -/
@[ext]
structure AuthTranscriptInput (Version Time : Type) where
  protocolVersion : Version
  nodeId : String
  instanceId : String
  sessionId : String
  clientNonce : String
  serverNonce : String
  issuedAt : Time
  expiresAt : Time
  capabilitiesDigest : String

/-- `AUTH_DOMAIN`: what a signature of a transcript is for. -/
def authDomain : String := "asterism-node-auth/v1"

def intText (n : ℤ) : String := String.ofList (Value.encodeNumber (.int n))

/-- `auth_transcript`: the transcript as the Node builds it. -/
def authTranscript (input : AuthTranscriptInput UInt16 Int64) : ByteArray :=
  (Value.obj
    [("domain", .string authDomain),
      ("protocol_version", .string (Text.decimal input.protocolVersion.toNat)),
      ("node_id", .string input.nodeId), ("instance_id", .string input.instanceId),
      ("session_id", .string input.sessionId), ("client_nonce", .string input.clientNonce),
      ("server_nonce", .string input.serverNonce),
      ("issued_at", .string (intText input.issuedAt.toInt)),
      ("expires_at", .string (intText input.expiresAt.toInt)),
      ("capabilities_digest", .string input.capabilitiesDigest)]).encode.toByteArray

namespace Js

/-- An integer that is a JavaScript number. -/
structure Integer where
  value : ℤ
  isDouble : toDouble value.natAbs = value.natAbs

def Integer.text (n : Integer) : String := String.ofList (numberText n.value)

/-- What `JSON.stringify` prints, given a list of the keys to be printed, in this order. -/
def stringifyKeys (fields : List (String × Value)) (keys : List String) : String :=
  String.ofList (stringify (.object (keys.filterMap fun key =>
    fields.find? fun field => field.1 = key)))

/-- `authTranscript`: the transcript as the Control Plane builds it. -/
def authTranscript (input : AuthTranscriptInput Integer Integer) : ByteArray :=
  let fields : List (String × Value) :=
    [("capabilities_digest", .string input.capabilitiesDigest),
      ("client_nonce", .string input.clientNonce), ("domain", .string authDomain),
      ("expires_at", .string input.expiresAt.text), ("instance_id", .string input.instanceId),
      ("issued_at", .string input.issuedAt.text), ("node_id", .string input.nodeId),
      ("protocol_version", .string input.protocolVersion.text),
      ("server_nonce", .string input.serverNonce), ("session_id", .string input.sessionId)]
  (stringifyKeys fields (sortKeys (fields.map Prod.fst))).toByteArray

theorem natAbs_sign_mul {n : ℤ} {m : ℕ} (h : n = 0 → m = 0) : (n.sign * m).natAbs = m := by
  rw [Int.natAbs_mul, Int.natAbs_natCast]
  by_cases hn : n = 0
  · rw [h hn, Nat.mul_zero]
  · rw [Int.natAbs_sign_of_ne_zero hn, Nat.one_mul]

theorem sign_sign_mul {n : ℤ} {m : ℕ} (h : m = 0 → n = 0) : (n.sign * m).sign = n.sign := by
  rw [Int.sign_mul, Int.sign_sign]
  by_cases hm : m = 0
  · rw [h hm, Int.sign_zero, Int.zero_mul]
  · rw [Int.sign_natCast_of_ne_zero hm, Int.mul_one]

theorem toDouble_eq_zero_iff {n : ℕ} : toDouble n = 0 ↔ n = 0 := by
  constructor
  · intro h
    exact eq_of_toDouble_eq (by decide) h
  · rintro rfl
    rfl

theorem natAbs_sign_mul_toDouble (n : ℤ) :
    (n.sign * toDouble n.natAbs).natAbs = toDouble n.natAbs := by
  refine natAbs_sign_mul fun hn => ?_
  rw [hn, Int.natAbs_zero, toDouble_eq_zero_iff]

/-- The number that JavaScript reads an integer as. -/
def Integer.ofInt (n : ℤ) : Integer where
  value := n.sign * toDouble n.natAbs
  isDouble := by rw [natAbs_sign_mul_toDouble, toDouble_toDouble]

end Js

/-- The fields as the Control Plane holds them. -/
def AuthTranscriptInput.held (input : AuthTranscriptInput UInt16 Int64) :
    AuthTranscriptInput Js.Integer Js.Integer :=
  { input with
    protocolVersion := .ofInt input.protocolVersion.toNat
    issuedAt := .ofInt input.issuedAt.toInt
    expiresAt := .ofInt input.expiresAt.toInt }

/-- The object that a transcript encodes. -/
def transcriptValue (version issuedAt expiresAt nodeId instanceId sessionId clientNonce
    serverNonce capabilitiesDigest : String) : Value :=
  .object
    [("capabilities_digest", .string capabilitiesDigest), ("client_nonce", .string clientNonce),
      ("domain", .string authDomain), ("expires_at", .string expiresAt),
      ("instance_id", .string instanceId), ("issued_at", .string issuedAt),
      ("node_id", .string nodeId), ("protocol_version", .string version),
      ("server_nonce", .string serverNonce), ("session_id", .string sessionId)]

theorem transcriptValue_everywhere (number : Number → Prop) (version issuedAt expiresAt nodeId
    instanceId sessionId clientNonce serverNonce capabilitiesDigest : String) :
    (transcriptValue version issuedAt expiresAt nodeId instanceId sessionId clientNonce serverNonce
      capabilitiesDigest).Everywhere number fun _ => True := by
  simp only [transcriptValue, Value.Everywhere, Value.EverywhereFields, and_self]

theorem authTranscript_eq (input : AuthTranscriptInput UInt16 Int64) :
    authTranscript input = (transcriptValue (Text.decimal input.protocolVersion.toNat)
      (intText input.issuedAt.toInt) (intText input.expiresAt.toInt) input.nodeId input.instanceId
      input.sessionId input.clientNonce input.serverNonce
      input.capabilitiesDigest).encode.toByteArray := by
  refine congrArg (fun value : Value => value.encode.toByteArray) ?_
  simp only [Value.obj, Value.insertField, transcriptValue, List.foldl_cons, List.foldl_nil,
    String.reduceLT, String.reduceEq, ↓reduceIte]

/-- The keys of a transcript, in the order of their code units. -/
def transcriptKeys : List String :=
  ["capabilities_digest", "client_nonce", "domain", "expires_at", "instance_id", "issued_at",
    "node_id", "protocol_version", "server_nonce", "session_id"]

theorem Js.stringifyKeys_sortKeys {fields : List (String × Value)}
    (hsorted : sortKeys (fields.map Prod.fst) = fields.map Prod.fst)
    (hnodup : (fields.map Prod.fst).Nodup) :
    stringifyKeys fields (sortKeys (fields.map Prod.fst)) =
      String.ofList (stringify (.object fields)) := by
  rw [stringifyKeys, hsorted, filterMap_find_keys hnodup]

theorem Js.authTranscript_eq (input : AuthTranscriptInput Js.Integer Js.Integer) :
    Js.authTranscript input = (transcriptValue input.protocolVersion.text input.issuedAt.text
      input.expiresAt.text input.nodeId input.instanceId input.sessionId input.clientNonce
      input.serverNonce input.capabilitiesDigest).encode.toByteArray := by
  have hsorted : sortKeys transcriptKeys = transcriptKeys := by decide +kernel
  have hnodup : transcriptKeys.Nodup := by decide
  refine congrArg String.toByteArray ((Js.stringifyKeys_sortKeys ?_ ?_).trans ?_)
  · exact hsorted
  · exact hnodup
  · exact congrArg String.ofList (Js.stringify_eq (transcriptValue_everywhere ..))

theorem transcriptValue_injective {version version' issuedAt issuedAt' expiresAt expiresAt' nodeId
    nodeId' instanceId instanceId' sessionId sessionId' clientNonce clientNonce' serverNonce
    serverNonce' capabilitiesDigest capabilitiesDigest' : String}
    (h : (transcriptValue version issuedAt expiresAt nodeId instanceId sessionId clientNonce
        serverNonce capabilitiesDigest).encode.toByteArray =
      (transcriptValue version' issuedAt' expiresAt' nodeId' instanceId' sessionId' clientNonce'
        serverNonce' capabilitiesDigest').encode.toByteArray) :
    version = version' ∧ issuedAt = issuedAt' ∧ expiresAt = expiresAt' ∧ nodeId = nodeId' ∧
      instanceId = instanceId' ∧ sessionId = sessionId' ∧ clientNonce = clientNonce' ∧
      serverNonce = serverNonce' ∧ capabilitiesDigest = capabilitiesDigest' := by
  have hvalue := Value.encode_injective (transcriptValue_everywhere ..)
    (transcriptValue_everywhere ..) (String.toByteArray_inj.mp h)
  simp only [transcriptValue, Value.object.injEq, List.cons.injEq, Prod.mk.injEq,
    Value.string.injEq, true_and, and_true] at hvalue
  obtain ⟨hdigest, hclient, hexpires, hinstance, hissued, hnode, hversion, hserver, hsession⟩ :=
    hvalue
  exact ⟨hversion, hissued, hexpires, hnode, hinstance, hsession, hclient, hserver, hdigest⟩

theorem decimal_injective : Function.Injective Text.decimal := by
  intro m n h
  exact Value.toDigits_injective (String.ofList_injective h)

theorem intText_natCast (n : ℕ) : intText n = Text.decimal n := by
  have hneg : ¬(n : ℤ) < 0 := by omega
  rw [intText, Value.encodeNumber, if_neg hneg, Int.natAbs_natCast, List.nil_append,
    String.ofList_toList]

theorem intText_injective : Function.Injective intText := by
  intro m n h
  exact Value.encodeInt_injective (String.ofList_injective h)

namespace Js

/-- The integer that the text of a number denotes. -/
def Integer.printed (n : Integer) : ℤ := n.value.sign * shortest n.value.natAbs

theorem Integer.toDouble_shortest (n : Integer) :
    toDouble (shortest n.value.natAbs) = n.value.natAbs :=
  toDouble_shortestFrom n.isDouble 20

theorem Integer.shortest_eq_zero_iff (n : Integer) :
    shortest n.value.natAbs = 0 ↔ n.value = 0 := by
  rw [← toDouble_eq_zero_iff, n.toDouble_shortest, Int.natAbs_eq_zero]

theorem Integer.natAbs_printed (n : Integer) : n.printed.natAbs = shortest n.value.natAbs :=
  natAbs_sign_mul n.shortest_eq_zero_iff.mpr

theorem Integer.sign_printed (n : Integer) : n.printed.sign = n.value.sign :=
  sign_sign_mul n.shortest_eq_zero_iff.mp

theorem Integer.text_eq (n : Integer) : n.text = intText n.printed := by
  have hneg : n.value < 0 ↔ n.printed < 0 := by
    rw [← Int.sign_eq_neg_one_iff_neg, ← n.sign_printed, Int.sign_eq_neg_one_iff_neg]
  rw [Integer.text, numberText, n.isDouble, intText, Value.encodeNumber, n.natAbs_printed]
  simp only [hneg]

theorem Integer.value_ofInt_printed (n : Integer) : (Integer.ofInt n.printed).value = n.value := by
  change n.printed.sign * (toDouble n.printed.natAbs : ℤ) = n.value
  rw [n.sign_printed, n.natAbs_printed, n.toDouble_shortest, Int.sign_mul_natAbs]

theorem Integer.text_injective : Function.Injective Integer.text := by
  intro m n h
  rw [m.text_eq, n.text_eq] at h
  have hvalue := congrArg (fun k => (Integer.ofInt k).value) (intText_injective h)
  simp only [Integer.value_ofInt_printed] at hvalue
  cases m
  cases n
  cases hvalue
  rfl

theorem Integer.printed_ofInt (n : ℤ) :
    (Integer.ofInt n).printed = n.sign * shortest (toDouble n.natAbs) := by
  have hzero : toDouble n.natAbs = 0 → n = 0 := by
    rw [toDouble_eq_zero_iff, Int.natAbs_eq_zero]
    exact id
  change (n.sign * (toDouble n.natAbs : ℤ)).sign *
    (shortest (n.sign * (toDouble n.natAbs : ℤ)).natAbs : ℤ) = _
  rw [sign_sign_mul hzero, natAbs_sign_mul_toDouble]

/-- An integer is printed as it is if and only if it is exact. -/
theorem Integer.text_ofInt_eq_iff (n : ℤ) :
    (Integer.ofInt n).text = intText n ↔ Exact n.natAbs := by
  rw [Integer.text_eq, intText_injective.eq_iff, Integer.printed_ofInt]
  constructor
  · intro h
    by_cases hn : n = 0
    · subst hn
      exact exact_of_lt (by decide)
    · have habs := congrArg Int.natAbs h
      rwa [natAbs_sign_mul fun hzero => absurd hzero hn] at habs
  · intro h
    rw [h, Int.sign_mul_natAbs]

end Js

theorem text_version (version : UInt16) :
    (Js.Integer.ofInt version.toNat).text = Text.decimal version.toNat := by
  have hexact : Js.Exact version.toNat := by
    have hversion := version.toNat_lt
    refine Js.exact_of_lt ?_
    rw [Js.gapStart]
    omega
  rw [← Int.natAbs_natCast version.toNat, ← Js.Integer.text_ofInt_eq_iff] at hexact
  rw [hexact, intText_natCast]

/-- The two sides build the same transcript exactly if JavaScript prints both times as they
are. On each side the transcript determines every field. -/
theorem authTranscript_agreement (input : AuthTranscriptInput UInt16 Int64) :
    (Js.authTranscript input.held = authTranscript input ↔
      Js.Exact input.issuedAt.toInt.natAbs ∧ Js.Exact input.expiresAt.toInt.natAbs) ∧
      Function.Injective authTranscript ∧ Function.Injective Js.authTranscript := by
  refine ⟨?_, fun a b h => ?_, fun a b h => ?_⟩
  · rw [Js.authTranscript_eq, authTranscript_eq, ← Js.Integer.text_ofInt_eq_iff,
      ← Js.Integer.text_ofInt_eq_iff]
    constructor
    · intro h
      obtain ⟨-, hissued, hexpires, -⟩ := transcriptValue_injective h
      exact ⟨hissued, hexpires⟩
    · rintro ⟨hissued, hexpires⟩
      simp only [AuthTranscriptInput.held, hissued, hexpires, text_version]
  · rw [authTranscript_eq, authTranscript_eq] at h
    obtain ⟨hversion, hissued, hexpires, hnode, hinstance, hsession, hclient, hserver, hdigest⟩ :=
      transcriptValue_injective h
    exact AuthTranscriptInput.ext (UInt16.toNat_inj.mp (decimal_injective hversion)) hnode
      hinstance hsession hclient hserver (Int64.toInt_inj.mp (intText_injective hissued))
      (Int64.toInt_inj.mp (intText_injective hexpires)) hdigest
  · rw [Js.authTranscript_eq, Js.authTranscript_eq] at h
    obtain ⟨hversion, hissued, hexpires, hnode, hinstance, hsession, hclient, hserver, hdigest⟩ :=
      transcriptValue_injective h
    exact AuthTranscriptInput.ext (Js.Integer.text_injective hversion) hnode hinstance hsession
      hclient hserver (Js.Integer.text_injective hissued) (Js.Integer.text_injective hexpires)
      hdigest

def issuedTranscript (time : Int64) : AuthTranscriptInput UInt16 Int64 where
  protocolVersion := 1
  nodeId := "node"
  instanceId := "instance"
  sessionId := "session"
  clientNonce := "client"
  serverNonce := "server"
  issuedAt := time
  expiresAt := 0
  capabilitiesDigest := "digest"

/-- JavaScript rounds one time and prints another with trailing zeros. -/
theorem authTranscript_ne :
    let odd := issuedTranscript (2 ^ 53 + 1)
    let long := issuedTranscript (2 ^ 60)
    Js.authTranscript odd.held ≠ authTranscript odd ∧
      odd.held.issuedAt.text = "9007199254740992" ∧
      intText odd.issuedAt.toInt = "9007199254740993" ∧
      Js.authTranscript long.held ≠ authTranscript long ∧
      long.held.issuedAt.text = "1152921504606847000" ∧
      intText long.issuedAt.toInt = "1152921504606846976" := by
  have hne {time : Int64}
      (htime : (issuedTranscript time).held.issuedAt.text ≠ intText time.toInt) :
      Js.authTranscript (issuedTranscript time).held ≠ authTranscript (issuedTranscript time) := by
    intro h
    rw [Js.authTranscript_eq, authTranscript_eq] at h
    exact htime (transcriptValue_injective h).2.1
  refine ⟨hne ?_, ?_, ?_, hne ?_, ?_, ?_⟩ <;> decide +kernel

end Asterism
