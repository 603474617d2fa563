import Mathlib.Data.List.Infix
import Mathlib.Data.List.Sort
import Mathlib.Data.List.TakeWhile

/-!
# Separated codes, stable sorting, and reading a list in pages

A code is separated when the end of each code word can be found in any text that goes on
after it. Sorting by a key keeps the order of elements with the same key. Pages that each
begin anew in the whole list, with the elements that the last element of the page before
admits, give the list once if and only if this element admits exactly the ones after it.
-/

namespace Coding

variable {α β : Type*}

/-- The code words can be told apart whatever follows them. -/
def Separated (code : α → List β) : Prop :=
  ∀ ⦃a b : α⦄ ⦃x y : List β⦄, code a ++ x = code b ++ y → a = b ∧ x = y

/-- The text ends, or goes on with a letter of this kind. -/
def StartsWith (stops : β → Prop) (text : List β) : Prop := ∀ c ∈ text.head?, stops c

theorem startsWith_cons {stops : β → Prop} {c : β} (h : stops c) (text : List β) :
    StartsWith stops (c :: text) := by
  intro d hd
  obtain rfl := Option.some.inj hd
  exact h

theorem startsWith_nil (stops : β → Prop) : StartsWith stops [] := nofun

/-- No code word is the beginning of another, so they can be told apart. -/
theorem separated_of_prefix {code : α → List β} (h : ∀ a b, code a <+: code b → a = b) :
    Separated code := by
  intro a b x y heq
  have hprefix : code a <+: code b ∨ code b <+: code a :=
    List.prefix_or_prefix_of_prefix ⟨x, rfl⟩ ⟨y, heq.symm⟩
  obtain rfl : a = b := by
    rcases hprefix with hab | hba
    · exact h a b hab
    · exact (h b a hba).symm
  exact ⟨rfl, List.append_cancel_left heq⟩

/-- A sequence of separated code words is separated by a letter that none of them begins
with. -/
theorem Separated.flatMap {code : α → List β} (h : Separated code) {stop : β}
    (hstop : ∀ a, ∃ c rest, code a = c :: rest ∧ c ≠ stop) {l m : List α} {x y : List β}
    (heq : l.flatMap code ++ stop :: x = m.flatMap code ++ stop :: y) : l = m ∧ x = y := by
  induction l generalizing m with
  | nil =>
    cases m with
    | nil => exact ⟨rfl, (List.cons.inj heq).2⟩
    | cons b m =>
      obtain ⟨c, rest, hcode, hne⟩ := hstop b
      rw [List.flatMap_cons, hcode] at heq
      exact absurd (List.cons.inj heq).1.symm hne
  | cons a l ih =>
    cases m with
    | nil =>
      obtain ⟨c, rest, hcode, hne⟩ := hstop a
      rw [List.flatMap_cons, hcode] at heq
      exact absurd (List.cons.inj heq).1 hne
    | cons b m =>
      rw [List.flatMap_cons, List.flatMap_cons, List.append_assoc, List.append_assoc] at heq
      obtain ⟨rfl, hrest⟩ := h heq
      obtain ⟨rfl, hxy⟩ := ih hrest
      exact ⟨rfl, hxy⟩

/-- Code words over some letters are separated by any letter that is not one of these. -/
theorem separated_of_letters {code : α → List β} (p : β → Bool)
    (hcode : ∀ a, ∀ c ∈ code a, p c = true) (hinj : Function.Injective code) {a b : α}
    {x y : List β} (hx : StartsWith (fun c => p c = false) x)
    (hy : StartsWith (fun c => p c = false) y) (heq : code a ++ x = code b ++ y) :
    a = b ∧ x = y := by
  have htake (a : α) {x : List β} (hx : StartsWith (fun c => p c = false) x) :
      (code a ++ x).takeWhile p = code a := by
    rw [List.takeWhile_append_of_pos (hcode a)]
    cases x with
    | nil => rw [List.takeWhile_nil, List.append_nil]
    | cons c x => rw [List.takeWhile_cons_of_neg (by rw [hx c rfl]; nofun), List.append_nil]
  have hsame : code a = code b := by
    rw [← htake a hx, heq, htake b hy]
  obtain rfl := hinj hsame
  exact ⟨rfl, List.append_cancel_left heq⟩

end Coding

/-! # Stable sorting by a key -/

namespace Sorting

variable {α β γ : Type} [LinearOrder β] (key : α → β)

abbrev sortBy (l : List α) : List α := l.insertionSort fun a b => key a ≤ key b

instance total_le_key : Std.Total fun a b : α => key a ≤ key b :=
  ⟨fun a b => le_total (key a) (key b)⟩

instance isTrans_le_key : IsTrans α fun a b : α => key a ≤ key b := ⟨fun _ _ _ => le_trans⟩

theorem pairwise_sortBy (l : List α) : (sortBy key l).Pairwise fun a b => key a ≤ key b :=
  List.pairwise_insertionSort _ l

/-- If elements with the same key are equal, the order before sorting does not matter. -/
theorem sortBy_eq_of_perm {l l' : List α} (hperm : l.Perm l')
    (h : ∀ a ∈ l, ∀ b ∈ l, key a = key b → a = b) : sortBy key l = sortBy key l' := by
  have hsorted : (sortBy key l).Perm (sortBy key l') :=
    ((List.perm_insertionSort _ l).trans hperm).trans (List.perm_insertionSort _ l').symm
  refine hsorted.eq_of_pairwise (fun a b ha hb hab hba => ?_) (pairwise_sortBy key l)
    (pairwise_sortBy key l')
  refine h a ((List.mem_insertionSort _).mp ha) b ?_ (le_antisymm hab hba)
  exact hperm.symm.subset ((List.mem_insertionSort _).mp hb)

/-! ## The end of a sorted list -/

/-- The element is the last one of those that have the property and the greatest key. -/
structure LastGreatest (p : α → Prop) (before : List α) (a : α) (after : List α) : Prop where
  has : p a
  before : ∀ b ∈ before, p b → key b ≤ key a
  after : ∀ b ∈ after, p b → key b < key a

theorem exists_lastGreatest {p : α → Prop} [DecidablePred p] {l : List α} (h : ∃ a ∈ l, p a) :
    ∃ before a after, l = before ++ a :: after ∧ LastGreatest key p before a after := by
  induction l with
  | nil =>
    obtain ⟨a, ha, -⟩ := h
    cases ha
  | cons first l ih =>
    by_cases hrest : ∃ a ∈ l, p a
    · obtain ⟨before, a, after, rfl, hgreatest⟩ := ih hrest
      by_cases hfirst : p first ∧ key a < key first
      · refine ⟨[], first, _, rfl, hfirst.1, (fun b hb => by cases hb), fun b hb hp => ?_⟩
        refine lt_of_le_of_lt ?_ hfirst.2
        rcases List.mem_append.mp hb with hb | hb
        · exact hgreatest.before b hb hp
        · rcases List.mem_cons.mp hb with rfl | hb
          · exact le_rfl
          · exact (hgreatest.after b hb hp).le
      · refine ⟨first :: before, a, after, rfl, hgreatest.has, fun b hb hp => ?_, hgreatest.after⟩
        rcases List.mem_cons.mp hb with rfl | hb
        · exact not_lt.mp fun hlt => hfirst ⟨hp, hlt⟩
        · exact hgreatest.before b hb hp
    · have hnone (b : α) (hb : b ∈ l) : ¬ p b := fun hp => hrest ⟨b, hb, hp⟩
      obtain ⟨a, ha, hp⟩ := h
      rcases List.mem_cons.mp ha with rfl | ha
      · refine ⟨[], a, l, rfl, hp, (fun b hb => by cases hb), fun b hb hb' => ?_⟩
        exact absurd hb' (hnone b hb)
      · exact absurd hp (hnone a ha)

variable {key}

theorem not_pair_sublist {before after : List α} {a b : α} (hnodup : (before ++ a :: after).Nodup)
    (hb : b ∈ after) : ¬ [b, a].Sublist (before ++ a :: after) := by
  intro hpair
  obtain ⟨-, hrest, hdisjoint⟩ := List.nodup_append.mp hnodup
  have ha : a ∉ after := (List.nodup_cons.mp hrest).1
  have hbefore : b ∉ before := fun hmem =>
    hdisjoint b hmem b (List.mem_cons_of_mem _ hb) rfl
  obtain ⟨front, back, hsplit, hfront, hback⟩ := List.sublist_append_iff.mp hpair
  cases front with
  | nil =>
    rw [List.nil_append] at hsplit
    subst hsplit
    rcases List.sublist_cons_iff.mp hback with hback | ⟨rest, hrest, -⟩
    · exact ha (hback.subset (List.mem_cons_of_mem _ List.mem_cons_self))
    · have hsame : b = a := (List.cons.inj hrest).1
      exact ha (hsame ▸ hb)
  | cons first front =>
    rw [List.cons_append] at hsplit
    obtain ⟨rfl, -⟩ := List.cons.inj hsplit
    exact hbefore (hfront.subset List.mem_cons_self)

/-- A search from the end of the sorted list finds the last one of those with the greatest key. -/
theorem findSome?_sortBy {f : α → Option γ} {before after : List α} {a : α}
    (hnodup : (before ++ a :: after).Nodup)
    (h : LastGreatest key (fun b => (f b).isSome = true) before a after) :
    (sortBy key (before ++ a :: after)).reverse.findSome? f = f a := by
  have hperm : (sortBy key (before ++ a :: after)).Perm (before ++ a :: after) :=
    List.perm_insertionSort _ _
  have hmem : a ∈ sortBy key (before ++ a :: after) :=
    hperm.symm.subset (List.mem_append_right _ List.mem_cons_self)
  obtain ⟨smaller, greater, hsplit⟩ := List.append_of_mem hmem
  have hsorted := pairwise_sortBy key (before ++ a :: after)
  have hsame : (smaller ++ a :: greater).Nodup := hsplit ▸ hperm.nodup_iff.mpr hnodup
  have hnone : ∀ b ∈ greater, f b = none := by
    intro b hb
    by_contra hsome
    have hp : (f b).isSome = true := Option.isSome_iff_ne_none.mpr hsome
    have hne : b ≠ a := by
      rintro rfl
      exact (List.nodup_cons.mp (List.nodup_append.mp hsame).2.1).1 hb
    rw [hsplit] at hsorted
    have hle : key a ≤ key b :=
      List.rel_of_pairwise_cons (List.pairwise_append.mp hsorted).2.1 hb
    have hlisted : b ∈ before ++ a :: after := by
      refine hperm.subset ?_
      rw [hsplit]
      exact List.mem_append_right _ (List.mem_cons_of_mem _ hb)
    rcases List.mem_append.mp hlisted with hbefore | hafter
    · -- An element with the same key that comes earlier comes earlier in the sorted list.
      have hpair : [b, a].Sublist (before ++ a :: after) :=
        List.Sublist.append (List.singleton_sublist.mpr hbefore)
          (List.singleton_sublist.mpr List.mem_cons_self)
      have hkept : [b, a].Sublist (sortBy key (before ++ a :: after)) :=
        List.pair_sublist_insertionSort (h.before b hbefore hp) hpair
      rw [hsplit] at hkept
      exact not_pair_sublist hsame hb hkept
    · rcases List.mem_cons.mp hafter with rfl | hafter
      · exact hne rfl
      · exact absurd (h.after b hafter hp) (not_lt.mpr hle)
  obtain ⟨found, hfound⟩ := Option.isSome_iff_exists.mp h.has
  rw [hsplit, List.reverse_append, List.reverse_cons, List.append_assoc, List.findSome?_append,
    List.findSome?_eq_none_iff.mpr fun b hb => hnone b (List.mem_reverse.mp hb),
    List.singleton_append, List.findSome?_cons, hfound]
  rfl

/-! ## The first element -/

/-- In a sorted list the elements with smaller keys come first. -/
theorem length_takeWhile_eq_countP {l : List α} (hl : l.Pairwise fun a b => key a ≤ key b)
    (bound : β) :
    (l.takeWhile fun b => decide (key b < bound)).length =
      l.countP fun b => decide (key b < bound) := by
  induction l with
  | nil => rfl
  | cons a l ih =>
    obtain ⟨hle, hrest⟩ := List.pairwise_cons.mp hl
    by_cases ha : key a < bound
    · rw [List.takeWhile_cons, List.countP_cons, if_pos (decide_eq_true ha), decide_eq_true ha,
        List.length_cons, ih hrest]
      rfl
    · have hnone : l.countP (fun b => decide (key b < bound)) = 0 := by
        refine List.countP_eq_zero.mpr fun b hb hlt => ha ?_
        exact lt_of_le_of_lt (hle b hb) (of_decide_eq_true hlt)
      rw [List.takeWhile_cons, List.countP_cons, decide_eq_false ha, hnone]
      rfl

theorem exists_sortBy_cons (key : α → β) (a : α) (l : List α) :
    ∃ smaller others, sortBy key (a :: l) = smaller ++ a :: others ∧
      smaller.length = l.countP fun b => decide (key b < key a) := by
  have hsorted := pairwise_sortBy key l
  have hsame : (fun b => decide (¬ key a ≤ key b)) = fun b => decide (key b < key a) :=
    funext fun b => by rw [decide_eq_decide, not_le]
  refine ⟨_, _, List.insertionSort_cons_eq_take_drop _ a l, ?_⟩
  rw [hsame, length_takeWhile_eq_countP hsorted]
  exact (List.perm_insertionSort _ l).countP_eq _

/-! ## The first elements -/

/-- If no key occurs twice, the first elements are those with fewer smaller keys. -/
theorem mem_take_sortBy_iff {l : List α} (hkeys : (l.map key).Nodup) {a : α} {n : ℕ} :
    a ∈ (sortBy key l).take n ↔ a ∈ l ∧ l.countP (fun b => decide (key b < key a)) < n := by
  by_cases ha : a ∈ l
  swap
  · refine ⟨fun h => absurd ?_ ha, fun h => absurd h.1 ha⟩
    exact (List.mem_insertionSort _).mp (List.mem_of_mem_take h)
  have hperm : (sortBy key l).Perm l := List.perm_insertionSort _ l
  obtain ⟨before, after, hsplit⟩ := List.append_of_mem (hperm.mem_iff.mpr ha)
  have hsorted := pairwise_sortBy key l
  have hnodup := (hperm.map key).nodup_iff.mpr hkeys
  rw [hsplit] at hsorted hnodup hperm
  rw [List.map_append, List.map_cons, List.nodup_middle, List.nodup_cons] at hnodup
  obtain ⟨hdistinct, -⟩ := hnodup
  have hbefore : ∀ b ∈ before, key b < key a := fun b hb => by
    refine lt_of_le_of_ne ((List.pairwise_append.mp hsorted).2.2 b hb a List.mem_cons_self) ?_
    intro heq
    exact hdistinct (List.mem_append_left _ (heq ▸ List.mem_map_of_mem hb))
  have hafter : ∀ b ∈ a :: after, ¬ key b < key a := by
    refine List.forall_mem_cons.mpr ⟨lt_irrefl _, fun b hb => not_lt.mpr ?_⟩
    exact (List.pairwise_cons.mp (List.pairwise_append.mp hsorted).2.1).1 b hb
  have hcount : l.countP (fun b => decide (key b < key a)) = before.length := by
    rw [← hperm.countP_eq, List.countP_append,
      List.countP_eq_length.mpr fun b hb => decide_eq_true (hbefore b hb),
      List.countP_eq_zero.mpr fun b hb => by simpa using hafter b hb, Nat.add_zero]
  rw [hcount, hsplit, List.take_append, List.mem_append]
  constructor
  · rintro (hmem | hmem)
    · exact absurd (hbefore a (List.mem_of_mem_take hmem)) (lt_irrefl _)
    · refine ⟨ha, ?_⟩
      by_contra hlong
      rw [Nat.sub_eq_zero_of_le (not_lt.mp hlong), List.take_zero] at hmem
      cases hmem
  · rintro ⟨-, hshort⟩
    obtain ⟨m, hm⟩ := Nat.exists_eq_add_of_lt hshort
    refine Or.inr ?_
    rw [hm, show before.length + m + 1 - before.length = m + 1 by omega, List.take_succ_cons]
    exact List.mem_cons_self

end Sorting

/-! # Following a list page by page -/

namespace Paging

variable {α : Type}

/-- The pages one after the other, each from the last element of the one before, until one is
empty. -/
def follow (page : Option α → List α) : ℕ → Option α → List α
  | 0, _ => []
  | rounds + 1, cursor =>
    match (page cursor).getLast? with
    | none => []
    | some last => page cursor ++ follow page rounds (some last)

/-- A page: the first elements that the cursor admits. -/
def pageOf (admits : α → α → Bool) (limit : ℕ) (all : List α) : Option α → List α
  | none => all.take limit
  | some last => (all.filter (admits last)).take limit

/-- At the end of each page the cursor admits what comes after it. -/
def Continues (admits : α → α → Bool) (limit : ℕ) (all rest : List α) : Prop :=
  ∀ before last after, rest = before ++ last :: after → limit ∣ before.length + 1 ∨ after = [] →
    ∀ a ∈ all, admits last a = true ↔ a ∈ after

section Pages

variable {admits : α → α → Bool} {limit rounds : ℕ} {all done rest after : List α} {last : α}

theorem follow_succ {page : Option α → List α} {cursor : Option α} {front : List α}
    (h : page cursor = front ++ [last]) :
    follow page (rounds + 1) cursor = front ++ last :: follow page rounds (some last) := by
  rw [follow, h, List.getLast?_concat]
  exact List.append_assoc _ _ _

theorem follow_nil {page : Option α → List α} {cursor : Option α} (h : page cursor = []) :
    follow page (rounds + 1) cursor = [] := by
  rw [follow, h]
  rfl

theorem admits_of_mem_follow
    (htrans : ∀ a b c, admits a b = true → admits b c = true → admits a c = true) {a : α}
    (h : a ∈ follow (pageOf admits limit all) rounds (some last)) : admits last a = true := by
  induction rounds generalizing last with
  | zero => cases h
  | succ rounds ih =>
    have hpage {b : α} (hb : b ∈ pageOf admits limit all (some last)) : admits last b = true :=
      (List.mem_filter.mp (List.mem_of_mem_take hb)).2
    rcases List.eq_nil_or_concat' (pageOf admits limit all (some last)) with hnil | ⟨front, b, hb⟩
    · rw [follow_nil hnil] at h
      cases h
    · rw [follow_succ hb] at h
      have hlast : admits last b = true := hpage (hb ▸ List.mem_append_right _ List.mem_cons_self)
      rcases List.mem_append.mp h with hfront | hrest
      · exact hpage (hb ▸ List.mem_append_left _ hfront)
      · rcases List.mem_cons.mp hrest with rfl | hrest
        · exact hlast
        · exact htrans _ _ _ hlast (ih hrest)

theorem head?_follow (hlimit : 0 < limit) :
    (follow (pageOf admits limit all) (rounds + 1) (some last)).head? =
      (all.filter (admits last)).head? := by
  have hpage : (pageOf admits limit all (some last)).head? = (all.filter (admits last)).head? := by
    rw [pageOf, List.head?_take, if_neg (Nat.ne_of_gt hlimit)]
  rcases List.eq_nil_or_concat' (pageOf admits limit all (some last)) with hnil | ⟨front, b, hb⟩
  · rw [follow_nil hnil, ← hpage, hnil]
  · rw [follow_succ hb, ← hpage, hb]
    cases front <;> rfl

/-- The end of a list is kept by what holds of its elements only. -/
theorem filter_eq_iff {p : α → Bool} (hnodup : (done ++ after).Nodup) :
    (done ++ after).filter p = after ↔ ∀ a ∈ done ++ after, p a = true ↔ a ∈ after := by
  constructor
  · intro h a ha
    have hmem : a ∈ (done ++ after).filter p ↔ a ∈ after := by rw [h]
    rw [← hmem, List.mem_filter, and_iff_right ha]
  · intro h
    have hdone : done.filter p = [] := List.filter_eq_nil_iff.mpr fun a ha hp =>
      List.disjoint_of_nodup_append hnodup ha ((h a (List.mem_append_left _ ha)).mp hp)
    have hafter : after.filter p = after := List.filter_eq_self.mpr fun a ha =>
      (h a (List.mem_append_right _ ha)).mpr ha
    rw [List.filter_append, hdone, hafter, List.nil_append]

/-- If the pages after a cursor give the rest of the list, the cursor admits exactly this rest. -/
theorem filter_of_follow
    (htrans : ∀ a b c, admits a b = true → admits b c = true → admits a c = true)
    (hlimit : 0 < limit) (hnodup : (done ++ after).Nodup)
    (h : follow (pageOf admits limit (done ++ after)) (rounds + 1) (some last) = after) :
    (done ++ after).filter (admits last) = after := by
  have hafter : after.filter (admits last) = after := List.filter_eq_self.mpr fun a ha =>
    admits_of_mem_follow htrans (h.symm ▸ ha)
  have hhead : after.head? = ((done ++ after).filter (admits last)).head? := by
    rw [← head?_follow hlimit, h]
  rw [List.filter_append] at hhead
  rw [List.filter_append, hafter]
  -- Otherwise the next page would begin with an element that has been read.
  cases hdone : done.filter (admits last) with
  | nil => rfl
  | cons a others =>
    rw [hdone, List.cons_append, List.head?_cons] at hhead
    have hmem : a ∈ done := List.mem_of_mem_filter (hdone ▸ List.mem_cons_self)
    exact absurd (List.mem_of_mem_head? hhead) (List.disjoint_of_nodup_append hnodup hmem)

theorem dvd_length_iff {front between after' : List α} {last' : α}
    (hend : front.length + 1 = limit ∨ after = [] ∧ front.length + 1 ≤ limit)
    (hsplit : after = between ++ last' :: after') :
    limit ∣ (front ++ last :: between).length + 1 ↔ limit ∣ between.length + 1 := by
  have hfull : front.length + 1 = limit :=
    hend.resolve_right fun hnil => absurd (hsplit.symm.trans hnil.1) (by simp)
  rw [List.length_append, List.length_cons,
    show front.length + (between.length + 1) + 1 = limit + (between.length + 1) by omega]
  exact Nat.dvd_add_right (Nat.dvd_refl _)

/-- The page ends of a list are the end of its first page and those of the rest. -/
theorem continues_append_iff {front : List α}
    (hend : front.length + 1 = limit ∨ after = [] ∧ front.length + 1 ≤ limit) :
    Continues admits limit all (front ++ last :: after) ↔
      (∀ a ∈ all, admits last a = true ↔ a ∈ after) ∧ Continues admits limit all after := by
  constructor
  · intro h
    refine ⟨h front last after rfl ?_, fun before last' after' hsplit hpage => ?_⟩
    · rcases hend with hfull | ⟨hnil, -⟩
      · exact .inl (hfull ▸ Nat.dvd_refl _)
      · exact .inr hnil
    · refine h (front ++ last :: before) last' after' ?_
        (hpage.imp_left (dvd_length_iff hend hsplit).mpr)
      rw [hsplit, List.append_assoc, List.cons_append]
  · rintro ⟨hlast, hrest⟩ before last' after' hsplit hpage
    rcases List.append_eq_append_iff.mp hsplit with
      ⟨between, rfl, hbetween⟩ | ⟨between, rfl, hbetween⟩
    · cases between with
      | nil =>
        obtain ⟨rfl, rfl⟩ := List.cons.inj hbetween
        exact hlast
      | cons first between =>
        obtain ⟨rfl, hafter⟩ := List.cons.inj hbetween
        exact hrest between last' after' hafter
          (hpage.imp_left (dvd_length_iff hend hafter).mp)
    · cases between with
      | nil =>
        obtain ⟨rfl, rfl⟩ := List.cons.inj hbetween
        exact hlast
      | cons first between =>
        -- This element is inside of the first page.
        obtain ⟨rfl, rfl⟩ := List.cons.inj hbetween
        rcases hpage with hdvd | hnil
        · have hle := Nat.le_of_dvd (Nat.succ_pos _) hdvd
          rw [List.length_append, List.length_cons] at hend
          omega
        · exact absurd hnil (by simp)

theorem follow_eq_iff_of_page
    (htrans : ∀ a b c, admits a b = true → admits b c = true → admits a c = true)
    (hlimit : 0 < limit) (hnodup : all.Nodup) {cursor : Option α} (hall : all = done ++ rest)
    (hpage : pageOf admits limit all cursor = rest.take limit) (hrounds : rest.length < rounds) :
    follow (pageOf admits limit all) rounds cursor = rest ↔ Continues admits limit all rest := by
  induction rounds generalizing done rest cursor with
  | zero => exact absurd hrounds (Nat.not_lt_zero _)
  | succ rounds ih =>
    rcases List.eq_nil_or_concat' (rest.take limit) with hnil | ⟨front, last, hlast⟩
    · have hrest : rest = [] := (List.take_eq_nil_iff.mp hnil).resolve_left (Nat.ne_of_gt hlimit)
      rw [follow_nil (hpage.trans hnil), hrest]
      refine iff_of_true rfl fun before last after hsplit => ?_
      exact absurd hsplit (by simp)
    · obtain ⟨after, hsplit⟩ : ∃ after, rest = front ++ last :: after :=
        ⟨rest.drop limit, by rw [List.append_cons, ← hlast, List.take_append_drop]⟩
      have hend : front.length + 1 = limit ∨ after = [] ∧ front.length + 1 ≤ limit := by
        have hlength := congrArg List.length hlast
        rw [List.length_take, hsplit] at hlength
        simp only [List.length_append, List.length_cons, List.length_nil] at hlength
        cases after with
        | nil => exact .inr ⟨rfl, by simp only [List.length_nil] at hlength; omega⟩
        | cons => exact .inl (by simp only [List.length_cons] at hlength; omega)
      have hafter : all = (done ++ front ++ [last]) ++ after := by
        rw [hall, hsplit]
        simp only [List.append_assoc, List.singleton_append]
      have hfew : after.length < rounds := by
        rw [hsplit, List.length_append, List.length_cons] at hrounds
        omega
      rw [follow_succ (hpage.trans hlast), hsplit, continues_append_iff hend,
        List.append_cancel_left_eq, List.cons.injEq]
      have hnext (h : all.filter (admits last) = after) :
          follow (pageOf admits limit all) rounds (some last) = after ↔
            Continues admits limit all after :=
        ih hafter (by rw [pageOf, h]) hfew
      have hadmits : all.filter (admits last) = after ↔
          ∀ a ∈ all, admits last a = true ↔ a ∈ after := by
        rw [hafter] at hnodup ⊢
        exact filter_eq_iff hnodup
      constructor
      · rintro ⟨-, hfollow⟩
        obtain ⟨others, rfl⟩ := Nat.exists_eq_add_of_lt hfew
        have hfilter : all.filter (admits last) = after := by
          rw [hafter] at hnodup hfollow ⊢
          exact filter_of_follow htrans hlimit hnodup hfollow
        exact ⟨hadmits.mp hfilter, (hnext hfilter).mp hfollow⟩
      · rintro ⟨hlast', hrest⟩
        exact ⟨rfl, (hnext (hadmits.mpr hlast')).mpr hrest⟩

/-- The pages give the list exactly if at the end of each page the cursor admits what comes
after it. -/
theorem follow_eq_iff
    (htrans : ∀ a b c, admits a b = true → admits b c = true → admits a c = true)
    (hlimit : 0 < limit) (hnodup : all.Nodup) (hrounds : all.length < rounds) :
    follow (pageOf admits limit all) rounds none = all ↔ Continues admits limit all all :=
  follow_eq_iff_of_page htrans hlimit hnodup (List.nil_append all).symm rfl hrounds

end Pages

section Cursor

variable (seq : α → ℤ)

/-- The elements whose number lies behind a cursor. -/
def later (after : ℤ) (items : List α) : List α :=
  items.filter fun item => after < seq item

/-- Where a reader stands after some elements: at the number of the last one, or at the cursor
it began with. -/
def lastSeq (cursor : ℤ) (items : List α) : ℤ :=
  (items.getLast?.map seq).getD cursor

variable {seq} {cursor after : ℤ} {items sent rest : List α} {item : α}

/-- What lies behind a cursor are the elements with a greater number. -/
theorem mem_later : item ∈ later seq after items ↔ item ∈ items ∧ after < seq item := by
  rw [later, List.mem_filter, decide_eq_true_eq]

theorem lastSeq_concat (cursor : ℤ) (front : List α) (last : α) :
    lastSeq seq cursor (front ++ [last]) = seq last := by
  rw [lastSeq, List.getLast?_concat]
  rfl

/-- A reader that takes two lists one after the other starts the second where the first ended. -/
theorem lastSeq_append (cursor : ℤ) (first second : List α) :
    lastSeq seq cursor (first ++ second) = lastSeq seq (lastSeq seq cursor first) second := by
  rcases List.eq_nil_or_concat' second with rfl | ⟨front, last, rfl⟩
  · rw [List.append_nil]
    rfl
  · rw [← List.append_assoc, lastSeq_concat, lastSeq_concat]

/-- In an increasing list no number is greater than the last one. -/
theorem le_lastSeq (h : items.Pairwise fun a b => seq a < seq b) (hmem : item ∈ items) :
    seq item ≤ lastSeq seq cursor items := by
  rcases List.eq_nil_or_concat' items with rfl | ⟨front, last, rfl⟩
  · cases hmem
  · rw [lastSeq_concat]
    rcases List.mem_append.mp hmem with hfront | hlast
    · exact ((List.pairwise_append.mp h).2.2 item hfront last List.mem_cons_self).le
    · rw [List.mem_singleton.mp hlast]

theorem cursor_le_lastSeq (h : ∀ item ∈ items, cursor < seq item) :
    cursor ≤ lastSeq seq cursor items := by
  rcases List.eq_nil_or_concat' items with rfl | ⟨front, last, rfl⟩
  · exact le_rfl
  · rw [lastSeq_concat]
    exact (h last (List.mem_append_right _ List.mem_cons_self)).le

/-- A reader that has taken the first elements behind its cursor finds the others behind the
place where it stands. -/
theorem later_lastSeq (hsorted : items.Pairwise fun a b => seq a < seq b)
    (hitems : later seq cursor items = sent ++ rest) :
    later seq (lastSeq seq cursor sent) items = rest := by
  have hbehind (item : α) (hmem : item ∈ sent ++ rest) : cursor < seq item :=
    (mem_later.mp (hitems ▸ hmem)).2
  have hcursor : cursor ≤ lastSeq seq cursor sent :=
    cursor_le_lastSeq fun item hmem => hbehind item (List.mem_append_left _ hmem)
  have hsplit : (sent ++ rest).Pairwise fun a b => seq a < seq b := hitems ▸ hsorted.filter _
  obtain ⟨hsent, -, hrest⟩ := List.pairwise_append.mp hsplit
  have htwice : later seq (lastSeq seq cursor sent) (sent ++ rest) =
      later seq (lastSeq seq cursor sent) items := by
    rw [← hitems, later, later, List.filter_filter]
    refine List.filter_congr fun item _ => ?_
    rw [Bool.and_eq_left_iff_imp, decide_eq_true_eq, decide_eq_true_eq]
    exact hcursor.trans_lt
  have hdone : later seq (lastSeq seq cursor sent) sent = [] := by
    refine List.filter_eq_nil_iff.mpr fun item hmem => ?_
    rw [decide_eq_true_eq, not_lt]
    exact le_lastSeq hsent hmem
  have hleft : later seq (lastSeq seq cursor sent) rest = rest := by
    refine List.filter_eq_self.mpr fun item hmem => decide_eq_true ?_
    rcases List.eq_nil_or_concat' sent with rfl | ⟨front, last, rfl⟩
    · exact hbehind item hmem
    · rw [lastSeq_concat]
      exact hrest last (List.mem_append_right _ List.mem_cons_self) item hmem
  rw [← htwice, later, List.filter_append]
  exact (congrArg₂ _ hdone hleft).trans (List.nil_append rest)

end Cursor

end Paging
