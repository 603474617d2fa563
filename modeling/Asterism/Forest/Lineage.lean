import Mathlib.Data.List.Chain
import Mathlib.Data.List.Nodup
import Mathlib.Data.List.Perm.Subperm

/-!
# Forests given by parent keys

A list of nodes with distinct keys, each naming the key of its parent or none, is a forest above
the nodes without a parent. A loop with a stack visits the descendants of a node: it takes a key
off the stack, notes the children and puts their keys on the stack. The nodes are noted in the
order of `descendants`, and no node is noted twice.
-/

namespace Forest

section Lineage

variable {α κ : Type} (key : α → κ) (parent : α → Option κ)

/-- A node, its parent, and so on up to a node without a parent. -/
inductive Lineage (nodes : List α) : List α → Prop
  | root {node : α} (hnode : node ∈ nodes) (hroot : parent node = none) : Lineage nodes [node]
  | child {node up : α} {line : List α} (hnode : node ∈ nodes)
      (hparent : parent node = some (key up))
      (h : Lineage nodes (up :: line)) : Lineage nodes (node :: up :: line)

variable {key parent} {nodes : List α}

namespace Lineage

theorem mem {node : α} {line : List α} (h : Lineage key parent nodes (node :: line)) :
    node ∈ nodes := by
  cases h with
  | root hnode => exact hnode
  | child hnode => exact hnode

theorem subset {line : List α} (h : Lineage key parent nodes line) : line ⊆ nodes := by
  induction h with
  | root hnode _ => exact List.cons_subset.mpr ⟨hnode, List.nil_subset _⟩
  | child hnode _ _ ih => exact List.cons_subset.mpr ⟨hnode, ih⟩

theorem of_append (before : List α) {node : α} {line : List α}
    (h : Lineage key parent nodes (before ++ node :: line)) :
    Lineage key parent nodes (node :: line) := by
  induction before with
  | nil => exact h
  | cons first before ih =>
    refine ih ?_
    cases hrest : before ++ node :: line with
    | nil => exact absurd hrest (by simp)
    | cons second rest =>
      rw [List.cons_append, hrest] at h
      cases h with
      | child _ _ h => exact h

theorem unique (hkeys : (nodes.map key).Nodup) {node : α} {line line' : List α}
    (h : Lineage key parent nodes (node :: line)) (h' : Lineage key parent nodes (node :: line')) :
    line = line' := by
  induction line generalizing node line' with
  | nil =>
    cases h with
    | root _ hroot =>
      cases h' with
      | root => rfl
      | child _ hparent _ =>
        rw [hroot] at hparent
        cases hparent
  | cons up line ih =>
    cases h with
    | child _ hparent h =>
      cases h' with
      | root _ hroot =>
        rw [hparent] at hroot
        cases hroot
      | child _ hparent' h' =>
        have hkey := Option.some.inj (hparent.symm.trans hparent')
        obtain rfl := List.inj_on_of_nodup_map hkeys h.mem h'.mem hkey
        rw [ih h h']

theorem nodup (hkeys : (nodes.map key).Nodup) {line : List α} (h : Lineage key parent nodes line) :
    line.Nodup := by
  induction h with
  | root => exact List.nodup_singleton _
  | child hnode hparent h ih =>
    rename_i node up line
    refine List.nodup_cons.mpr ⟨fun hmem => ?_, ih⟩
    -- The lineage from the first occurrence is longer than the one from the second.
    obtain ⟨before, after, hsplit⟩ := List.append_of_mem hmem
    have hlater : Lineage key parent nodes (node :: after) := by
      rw [hsplit] at h
      exact h.of_append before
    have hsame := (Lineage.child hnode hparent h).unique hkeys hlater
    have hlength := congrArg List.length (hsplit.symm.trans hsame)
    rw [List.length_append, List.length_cons] at hlength
    omega

theorem length_le (hkeys : (nodes.map key).Nodup) {line : List α}
    (h : Lineage key parent nodes line) : line.length ≤ nodes.length :=
  (List.subperm_of_subset (h.nodup hkeys) h.subset).length_le

end Lineage

end Lineage

variable {α κ : Type} [DecidableEq κ] (key : α → κ) (parent : α → Option κ)

/-- The nodes whose parent has this key. -/
def children (nodes : List α) (k : κ) : List α := nodes.filter fun node => parent node = some k

/-- The loop with a stack, for a number of rounds. -/
def search (nodes : List α) : ℕ → List κ → List α → List α
  | 0, _, noted => noted
  | _ + 1, [], noted => noted
  | rounds + 1, k :: stack, noted =>
    search nodes rounds (((children parent nodes k).map key).reverse ++ stack)
      (noted ++ children parent nodes k)

/-- The stack that is left after a number of rounds. -/
def stackAfter (nodes : List α) : ℕ → List κ → List κ
  | 0, stack => stack
  | _ + 1, [] => []
  | rounds + 1, k :: stack =>
    stackAfter nodes rounds (((children parent nodes k).map key).reverse ++ stack)

/-- The descendants down to a depth: the children first, then what is below the last child. -/
def explore (nodes : List α) : ℕ → κ → List α
  | 0, _ => []
  | depth + 1, k =>
    children parent nodes k ++
      (children parent nodes k).reverse.flatMap fun node => explore nodes depth (key node)

/-- The descendants of a key. -/
def descendants (nodes : List α) (k : κ) : List α := explore key parent nodes nodes.length k

variable {key parent} {nodes : List α}

theorem mem_children {k : κ} {node : α} :
    node ∈ children parent nodes k ↔ node ∈ nodes ∧ parent node = some k := by
  simp only [children, List.mem_filter, decide_eq_true_eq]

theorem Lineage.cons {node up : α} {line : List α} (h : Lineage key parent nodes (up :: line))
    (hnode : node ∈ children parent nodes (key up)) :
    Lineage key parent nodes (node :: up :: line) :=
  .child (mem_children.mp hnode).1 (mem_children.mp hnode).2 h

/-- What holds of a node if it holds of its children holds of every node. -/
theorem Lineage.induction_down (hkeys : (nodes.map key).Nodup) {motive : α → List α → Prop}
    (step : ∀ node line, Lineage key parent nodes (node :: line) →
      (∀ child ∈ children parent nodes (key node), motive child (node :: line)) → motive node line)
    {node : α} {line : List α} (h : Lineage key parent nodes (node :: line)) :
    motive node line := by
  have hcount : ∀ n node line, Lineage key parent nodes (node :: line) →
      nodes.length ≤ n + line.length → motive node line := by
    intro n
    induction n with
    | zero =>
      intro node line h hn
      have hlength := h.length_le hkeys
      rw [List.length_cons] at hlength
      omega
    | succ n ih =>
      intro node line h hn
      refine step node line h fun child hchild => ih child _ (h.cons hchild) ?_
      rw [List.length_cons]
      omega
  exact hcount nodes.length node line h (Nat.le_add_right _ _)

theorem explore_succ (hkeys : (nodes.map key).Nodup) {depth : ℕ} {node : α} {line : List α}
    (h : Lineage key parent nodes (node :: line))
    (hdepth : nodes.length ≤ depth + (line.length + 1)) :
    explore key parent nodes (depth + 1) (key node) =
      explore key parent nodes depth (key node) := by
  induction depth generalizing node line with
  | zero =>
    have hnone : children parent nodes (key node) = [] := by
      refine List.eq_nil_iff_forall_not_mem.mpr fun child hchild => ?_
      have hlength := (h.cons hchild).length_le hkeys
      rw [List.length_cons, List.length_cons] at hlength
      omega
    rw [explore, explore, hnone]
    rfl
  | succ depth ih =>
    rw [explore, explore]
    refine congrArg _ (List.flatMap_congr fun child hchild => ?_)
    refine ih (h.cons (List.mem_reverse.mp hchild)) ?_
    rw [List.length_cons]
    omega

theorem descendants_eq (hkeys : (nodes.map key).Nodup) {node : α} {line : List α}
    (h : Lineage key parent nodes (node :: line)) :
    descendants key parent nodes (key node) = children parent nodes (key node) ++
      (children parent nodes (key node)).reverse.flatMap fun child =>
        descendants key parent nodes (key child) := by
  rw [descendants, ← explore_succ hkeys h (Nat.le_add_right _ _), explore]
  rfl

/-- The descendants of a node are those whose lineage goes through it. -/
theorem mem_descendants_iff (hkeys : (nodes.map key).Nodup) {node found : α} {line : List α}
    (h : Lineage key parent nodes (node :: line)) :
    found ∈ descendants key parent nodes (key node) ↔
      ∃ between, Lineage key parent nodes (found :: (between ++ node :: line)) := by
  refine Lineage.induction_down hkeys (motive := fun node line =>
    found ∈ descendants key parent nodes (key node) ↔
      ∃ between, Lineage key parent nodes (found :: (between ++ node :: line)))
    (fun node line h ih => ?_) h
  rw [descendants_eq hkeys h, List.mem_append, List.mem_flatMap]
  constructor
  · rintro (hchild | ⟨child, hchild, hfound⟩)
    · exact ⟨[], h.cons hchild⟩
    · obtain ⟨between, hline⟩ := (ih child (List.mem_reverse.mp hchild)).mp hfound
      exact ⟨between ++ [child], by rwa [List.append_assoc]⟩
  · rintro ⟨between, hline⟩
    induction between using List.reverseRecOn with
    | nil =>
      cases hline with
      | child hnode hparent _ => exact .inl (mem_children.mpr ⟨hnode, hparent⟩)
    | append_singleton between child _ =>
      rw [List.append_assoc, List.singleton_append] at hline
      have hchild : child ∈ children parent nodes (key node) := by
        have hlater := Lineage.of_append (found :: between) hline
        cases hlater with
        | child hnode hparent _ => exact mem_children.mpr ⟨hnode, hparent⟩
      exact .inr ⟨child, List.mem_reverse.mpr hchild, (ih child hchild).mpr ⟨between, hline⟩⟩

theorem nodup_descendants (hkeys : (nodes.map key).Nodup) {node : α} {line : List α}
    (h : Lineage key parent nodes (node :: line)) :
    (descendants key parent nodes (key node)).Nodup := by
  refine Lineage.induction_down hkeys (motive := fun node _ =>
    (descendants key parent nodes (key node)).Nodup) (fun node line h ih => ?_) h
  have hchildren : (children parent nodes (key node)).Nodup := hkeys.of_map.filter _
  have hthrough {child found : α} (hchild : child ∈ children parent nodes (key node))
      (hfound : found ∈ descendants key parent nodes (key child)) :
      ∃ between, Lineage key parent nodes (found :: (between ++ child :: node :: line)) :=
    (mem_descendants_iff hkeys (h.cons hchild)).mp hfound
  rw [descendants_eq hkeys h]
  refine List.nodup_append.mpr ⟨hchildren, List.nodup_flatMap.mpr ⟨fun child hchild =>
    ih child (List.mem_reverse.mp hchild), ?_⟩, ?_⟩
  · refine (List.nodup_reverse.mpr hchildren).pairwise_of_forall_ne
      fun first hfirst second hsecond hne found hfound hfound' => hne ?_
    obtain ⟨between, hline⟩ := hthrough (List.mem_reverse.mp hfirst) hfound
    obtain ⟨between', hline'⟩ := hthrough (List.mem_reverse.mp hsecond) hfound'
    have hsame := hline.unique hkeys hline'
    exact (List.cons.inj (List.append_inj_right' hsame rfl)).1
  · intro child hchild found hfound heq
    subst heq
    obtain ⟨other, hother, hbelow⟩ := List.mem_flatMap.mp hfound
    obtain ⟨between, hline⟩ := hthrough (List.mem_reverse.mp hother) hbelow
    have hlength := congrArg List.length ((h.cons hchild).unique hkeys hline)
    rw [List.length_append, List.length_cons, List.length_cons, List.length_cons] at hlength
    omega

theorem length_descendants_le (hkeys : (nodes.map key).Nodup) {node : α} {line : List α}
    (h : Lineage key parent nodes (node :: line)) :
    (descendants key parent nodes (key node)).length ≤ nodes.length := by
  refine (List.subperm_of_subset (nodup_descendants hkeys h) fun found hfound => ?_).length_le
  obtain ⟨between, hline⟩ := (mem_descendants_iff hkeys h).mp hfound
  exact hline.mem

/-- The loop notes the descendants of what is on the stack, and ends. -/
theorem search_eq (hkeys : (nodes.map key).Nodup) {rounds : ℕ} (stack noted : List α)
    (hstack : ∀ node ∈ stack, ∃ line, Lineage key parent nodes (node :: line))
    (hrounds : stack.length +
      (stack.flatMap fun node => descendants key parent nodes (key node)).length ≤ rounds) :
    stackAfter key parent nodes rounds (stack.map key) = [] ∧
      search key parent nodes rounds (stack.map key) noted =
        noted ++ stack.flatMap fun node => descendants key parent nodes (key node) := by
  induction rounds generalizing stack noted with
  | zero =>
    have hempty : stack = [] := List.eq_nil_of_length_eq_zero (by omega)
    rw [hempty]
    exact ⟨rfl, (List.append_nil noted).symm⟩
  | succ rounds ih =>
    cases stack with
    | nil => exact ⟨rfl, (List.append_nil noted).symm⟩
    | cons node stack =>
      obtain ⟨line, h⟩ := hstack node List.mem_cons_self
      have hdescendants := descendants_eq hkeys h
      have hnext := ih ((children parent nodes (key node)).reverse ++ stack)
        (noted ++ children parent nodes (key node)) (fun next hnext => ?_) ?_
      · obtain ⟨hends, hnext⟩ := hnext
        rw [List.map_append, List.map_reverse] at hends hnext
        refine ⟨hends, ?_⟩
        rw [List.map_cons, search, hnext, List.flatMap_append, List.flatMap_cons, hdescendants,
          List.append_assoc, List.append_assoc]
      · rcases List.mem_append.mp hnext with hchild | hrest
        · exact ⟨_, h.cons (List.mem_reverse.mp hchild)⟩
        · exact hstack next (List.mem_cons_of_mem _ hrest)
      · rw [List.flatMap_cons, hdescendants, List.length_cons, List.length_append,
          List.length_append] at hrounds
        rw [List.flatMap_append, List.length_append, List.length_append, List.length_reverse]
        omega

/-- From one node, a round for every node and one more is enough. -/
theorem search_singleton (hkeys : (nodes.map key).Nodup) {rounds : ℕ} {node : α} {line : List α}
    (h : Lineage key parent nodes (node :: line)) (hrounds : nodes.length + 1 ≤ rounds)
    (noted : List α) :
    stackAfter key parent nodes rounds [key node] = [] ∧
      search key parent nodes rounds [key node] noted =
        noted ++ descendants key parent nodes (key node) := by
  have hlength := length_descendants_le hkeys h
  have hstack : ∀ next ∈ [node], ∃ line, Lineage key parent nodes (next :: line) := by
    intro next hnext
    rw [List.mem_singleton.mp hnext]
    exact ⟨line, h⟩
  have henough : [node].length +
      ([node].flatMap fun node => descendants key parent nodes (key node)).length ≤ rounds := by
    rw [List.flatMap_singleton, List.length_singleton]
    omega
  have hsearch := search_eq hkeys [node] noted hstack henough
  rwa [List.flatMap_singleton] at hsearch

end Forest

/-! ## The order of the nodes -/

namespace Forest

variable {α κ : Type} [DecidableEq κ] {key : α → κ} {parent : α → Option κ} {nodes nodes' : List α}

variable {line : List α}

omit [DecidableEq κ] in
theorem Lineage.of_subset (hsubset : nodes ⊆ nodes')
    (h : Lineage key parent nodes line) : Lineage key parent nodes' line := by
  induction h with
  | root hnode hroot => exact .root (hsubset hnode) hroot
  | child hnode hparent _ ih => exact .child (hsubset hnode) hparent ih

omit [DecidableEq κ] in
theorem Lineage.parent_eq {node up : α} (h : Lineage key parent nodes (node :: line))
    (hup : up ∈ line.head?) :
    parent node = some (key up) := by
  cases h with
  | root => cases hup
  | child _ hparent _ =>
    cases hup
    exact hparent

omit [DecidableEq κ] in
theorem Lineage.sibling {node other : α} (h : Lineage key parent nodes (node :: line))
    (hother : other ∈ nodes)
    (hparent : parent other = parent node) : Lineage key parent nodes (other :: line) := by
  cases h with
  | root _ hroot => exact .root hother (hparent.trans hroot)
  | child _ hup h => exact .child hother (hparent.trans hup) h

theorem mem_descendants_perm (hkeys : (nodes.map key).Nodup) (hperm : nodes.Perm nodes')
    {node found : α} (h : Lineage key parent nodes (node :: line)) :
    found ∈ descendants key parent nodes' (key node) ↔
      found ∈ descendants key parent nodes (key node) := by
  have hkeys' : (nodes'.map key).Nodup := (hperm.map key).nodup_iff.mp hkeys
  rw [mem_descendants_iff hkeys h, mem_descendants_iff hkeys' (h.of_subset hperm.subset)]
  exact exists_congr fun between =>
    ⟨Lineage.of_subset hperm.symm.subset, Lineage.of_subset hperm.subset⟩

/-- What is below a descendant is visited in the order in which it is visited from there. -/
theorem descendants_sublist (hkeys : (nodes.map key).Nodup) {node below : α}
    (h : Lineage key parent nodes (node :: line))
    (hbelow : below ∈ descendants key parent nodes (key node)) :
    (descendants key parent nodes (key below)).Sublist
      (descendants key parent nodes (key node)) := by
  refine Lineage.induction_down hkeys (motive := fun node _ =>
    below ∈ descendants key parent nodes (key node) →
      (descendants key parent nodes (key below)).Sublist
        (descendants key parent nodes (key node))) (fun node line h ih hbelow => ?_) h hbelow
  have hchild {child : α} (hchild : child ∈ children parent nodes (key node)) :
      (descendants key parent nodes (key child)).Sublist
        (descendants key parent nodes (key node)) := by
    rw [descendants_eq hkeys h]
    refine List.Sublist.trans ?_ (List.sublist_append_right _ _)
    exact List.sublist_flatten_of_mem
      (List.mem_map_of_mem (List.mem_reverse.mpr hchild))
  rw [descendants_eq hkeys h, List.mem_append, List.mem_flatMap] at hbelow
  rcases hbelow with hbelow | ⟨child, hmem, hbelow⟩
  · exact hchild hbelow
  · have hmem := List.mem_reverse.mp hmem
    exact (ih child hmem hbelow).trans (hchild hmem)

/-- Every child comes before everything below any of them. -/
theorem pair_sublist_descendants (hkeys : (nodes.map key).Nodup) {up child other below : α}
    (h : Lineage key parent nodes (up :: line)) (hchild : child ∈ children parent nodes (key up))
    (hother : other ∈ children parent nodes (key up))
    (hbelow : below ∈ descendants key parent nodes (key other)) :
    [child, below].Sublist (descendants key parent nodes (key up)) := by
  rw [descendants_eq hkeys h]
  refine List.Sublist.append (List.singleton_sublist.mpr hchild) (List.singleton_sublist.mpr ?_)
  exact List.mem_flatMap.mpr ⟨other, List.mem_reverse.mpr hother, hbelow⟩

/-- If every node of a lineage is the first child, and the last one is the last child, only what
is below a sibling is visited after it. -/
theorem exists_descendants_split (hkeys : (nodes.map key).Nodup) {last node : α}
    {between line : List α} (h : Lineage key parent nodes (last :: (between ++ node :: line)))
    (hfirst : (between ++ [node]).IsChain fun child up =>
      (children parent nodes (key up)).head? = some child)
    (hlast : ∀ up ∈ (between ++ [node]).head?,
      (children parent nodes (key up)).getLast? = some last) :
    ∃ before after, descendants key parent nodes (key node) = before ++ last :: after ∧
      ∀ found ∈ after, ∃ sibling ∈ nodes, parent sibling = parent last ∧
        found ∈ descendants key parent nodes (key sibling) := by
  induction between using List.reverseRecOn generalizing node line with
  | nil =>
    have hnode : Lineage key parent nodes (node :: line) := Lineage.of_append [last] h
    obtain ⟨before, hbefore⟩ := List.getLast?_eq_some_iff.mp (hlast node rfl)
    refine ⟨before, (children parent nodes (key node)).reverse.flatMap fun child =>
      descendants key parent nodes (key child), ?_, fun found hfound => ?_⟩
    · rw [descendants_eq hkeys hnode]
      nth_rewrite 1 [hbefore]
      rw [List.append_assoc]
      rfl
    · obtain ⟨sibling, hsibling, hfound⟩ := List.mem_flatMap.mp hfound
      obtain ⟨hmem, hparent⟩ := mem_children.mp (List.mem_reverse.mp hsibling)
      refine ⟨sibling, hmem, ?_, hfound⟩
      cases h with
      | child _ hup _ => rw [hparent, hup]
  | append_singleton between child ih =>
    rw [List.append_assoc, List.singleton_append] at h
    have hnode : Lineage key parent nodes (node :: line) :=
      Lineage.of_append (last :: (between ++ [child])) (by rwa [List.cons_append,
        List.append_assoc])
    obtain ⟨hchain, -, hhead⟩ := List.isChain_append.mp hfirst
    have hlower : ∀ up ∈ (between ++ [child]).head?,
        (children parent nodes (key up)).getLast? = some last := by
      intro up hup
      refine hlast up ?_
      rw [List.head?_append, hup]
      rfl
    obtain ⟨before, after, hsplit, hafter⟩ := ih h hchain hlower
    have hchildren := hhead child List.getLast?_concat node rfl
    obtain ⟨others, hothers⟩ := List.head?_eq_some_iff.mp hchildren
    refine ⟨children parent nodes (key node) ++ (others.reverse.flatMap fun other =>
      descendants key parent nodes (key other)) ++ before, after, ?_, hafter⟩
    rw [descendants_eq hkeys hnode, hothers, List.reverse_cons, List.flatMap_append,
      List.flatMap_singleton, hsplit, List.append_assoc, List.append_assoc]

section Promoted

variable [DecidableEq α]

/-- The nodes with a lineage at the front, except for its last node, which is at the end. -/
def promoted (nodes : List α) (last : α) (line : List α) : List α :=
  line ++ nodes.filter (fun node => node ∉ last :: line) ++ [last]

omit [DecidableEq κ] in
theorem promoted_perm (hkeys : (nodes.map key).Nodup) {last : α}
    (h : Lineage key parent nodes (last :: line)) : nodes.Perm (promoted nodes last line) := by
  have hnodup : nodes.Nodup := hkeys.of_map
  have hline : (nodes.filter fun node => node ∈ last :: line).Perm (last :: line) := by
    refine (List.perm_ext_iff_of_nodup (hnodup.filter _) (h.nodup hkeys)).mpr fun node => ?_
    simp only [List.mem_filter, decide_eq_true_eq, and_iff_right_iff_imp]
    exact fun hnode => h.subset hnode
  have hsplit := (List.filter_append_perm (fun node => decide (node ∈ last :: line)) nodes).symm
  refine hsplit.trans ((hline.append_right _).trans ?_)
  rw [promoted, List.append_assoc, List.cons_append]
  simp only [decide_not]
  refine List.Perm.trans ?_ (List.perm_append_comm.append_left line).symm
  rw [List.singleton_append]
  exact (List.perm_middle.symm : _)

omit [DecidableEq κ] [DecidableEq α] in
theorem Lineage.eq_of_parent (hkeys : (nodes.map key).Nodup) {child up other : α} (before : List α)
    (h : Lineage key parent nodes (before ++ child :: up :: line))
    (hother : other ∈ before ++ child :: up :: line) (hparent : parent other = some (key up)) :
    other = child := by
  obtain ⟨start, rest, hsplit⟩ := List.append_of_mem hother
  have hline : Lineage key parent nodes (other :: rest) := by
    rw [hsplit] at h
    exact h.of_append start
  have hup : Lineage key parent nodes (up :: line) :=
    Lineage.of_append (before ++ [child]) (by rwa [List.append_assoc])
  cases hline with
  | root _ hroot =>
    rw [hroot] at hparent
    cases hparent
  | child _ hparent' hline =>
    have hkey := Option.some.inj (hparent'.symm.trans hparent)
    obtain rfl := List.inj_on_of_nodup_map hkeys hline.mem hup.mem hkey
    obtain rfl := hline.unique hkeys hup
    exact (List.cons.inj (List.append_inj_right' hsplit rfl)).1.symm

/-- With the lineage at the front, each of its nodes is the first child. -/
theorem isChain_promoted (hkeys : (nodes.map key).Nodup) {last : α}
    (h : Lineage key parent nodes (last :: line)) :
    line.IsChain fun child up =>
      (children parent (promoted nodes last line) (key up)).head? = some child := by
  refine List.isChain_iff_forall_rel_of_append_cons_cons.mpr fun child up before rest hline => ?_
  subst hline
  have hparent : parent child = some (key up) := by
    have hchild := Lineage.of_append (last :: before) h
    cases hchild with
    | child _ hparent _ => exact hparent
  have hnone : before.filter (fun node => decide (parent node = some (key up))) = [] := by
    refine List.filter_eq_nil_iff.mpr fun node hnode hup => ?_
    have heq := Lineage.eq_of_parent hkeys (last :: before) h
      (List.mem_cons_of_mem _ (List.mem_append_left _ hnode)) (of_decide_eq_true hup)
    subst heq
    exact absurd (List.nodup_append.mp (List.nodup_cons.mp (h.nodup hkeys)).2).2.2
      fun hdisjoint => hdisjoint node hnode node List.mem_cons_self rfl
  rw [children, promoted, List.append_assoc, List.append_assoc, List.filter_append, hnone,
    List.nil_append, List.cons_append, List.filter_cons, if_pos (decide_eq_true hparent)]
  rfl

/-- With the last node at the end of the list, it is the last child. -/
theorem getLast?_promoted {last up : α} (hparent : parent last = some (key up)) (line : List α) :
    (children parent (promoted nodes last line) (key up)).getLast? = some last := by
  rw [children, promoted, List.filter_append, List.filter_cons, if_pos (decide_eq_true hparent)]
  exact List.getLast?_concat

/-- With its lineage promoted, only what is below a sibling is visited after a node. -/
theorem exists_promoted_split (hkeys : (nodes.map key).Nodup) {last root : α} {between : List α}
    (h : Lineage key parent nodes (last :: (between ++ [root]))) :
    ∃ before after,
      descendants key parent (promoted nodes last (between ++ [root])) (key root) =
        before ++ last :: after ∧
      ∀ found ∈ after, ∃ sibling ∈ nodes, parent sibling = parent last ∧
        found ∈ descendants key parent nodes (key sibling) := by
  have hperm := promoted_perm hkeys h
  have hkeys' := (hperm.map key).nodup_iff.mp hkeys
  have hline := h.of_subset hperm.subset
  have hlast : ∀ up ∈ (between ++ [root]).head?,
      (children parent (promoted nodes last (between ++ [root])) (key up)).getLast? = some last :=
    fun up hup => getLast?_promoted (h.parent_eq hup) _
  obtain ⟨before, after, hsplit, hafter⟩ :=
    exists_descendants_split hkeys' hline (isChain_promoted hkeys h) hlast
  refine ⟨before, after, hsplit, fun found hfound => ?_⟩
  obtain ⟨sibling, hsibling, hparent, hbelow⟩ := hafter found hfound
  have hmem : sibling ∈ nodes := hperm.symm.subset hsibling
  exact ⟨sibling, hmem, hparent,
    (mem_descendants_perm hkeys hperm (h.sibling hmem hparent)).mp hbelow⟩

end Promoted

end Forest
