/-
# The weights of a tree of call chains

However chains are added and the tree is sorted in between, the path of a node
tells its weights: what ended there is the weight of the chains equal to the
path, and with what went on it is the weight of the chains that begin with the
path. Every chain is the path of one node (`CallTree.accounts_foldl_run`). It
all follows from which chains the nodes hold (`CallNode.Holds`): the chains
that a node holds are those that continue the path to it
(`CallNode.Holds.shows_of_mem_paths`).

Key definitions: `CallNode.paths`, `CallNode.Shows`, `CallTree.Op`,
`CallTree.additions`, `CallTree.Accounts`.
Key theorems: `CallNode.Holds.shows_of_mem_paths`, `CallNode.Holds.mem_paths`,
`CallNode.Holds.nodup_paths`, `CallTree.branches_foldl_run`,
`CallTree.accounts_foldl_run`.
-/
import Mathlib.Data.List.Basic
import Mathlib.Data.List.Induction
import Mathlib.Data.List.Nodup
import Profiler.Proofs.Report.CallTree

namespace Profiler

variable {φ : Type}

open WeightedChain (after like)

/-! ### The path of a node -/

namespace CallNode

mutual

/-- The node and those below it with their paths, parents first. The path of a
node has the frames from the outermost node down to its own. -/
def paths : CallNode φ → List (List φ × CallNode φ)
  | mk frames period childrenPeriod children =>
    (frames, mk frames period childrenPeriod children) ::
      (pathsEach children).map fun x => (frames ++ x.1, x.2)

def pathsEach : List (CallNode φ) → List (List φ × CallNode φ)
  | [] => []
  | n :: rest => n.paths ++ pathsEach rest

end

theorem pathsEach_eq_flatMap (nodes : List (CallNode φ)) :
    pathsEach nodes = nodes.flatMap paths := by
  induction nodes with
  | nil => rfl
  | cons n rest ih => rw [pathsEach, ih, List.flatMap_cons]

theorem visitEach_eq_flatMap (depth : Nat) (nodes : List (CallNode φ)) :
    visitEach depth nodes = nodes.flatMap (·.visit depth) := by
  induction nodes with
  | nil => rfl
  | cons n rest ih => rw [visitEach, ih, List.flatMap_cons]

theorem map_snd_paths (depth : Nat) (n : CallNode φ) :
    n.paths.map Prod.snd = (n.visit depth).map Prod.snd := by
  induction n using inductionOn generalizing depth with
  | h frames period childrenPeriod children ih =>
    rw [paths, visit, pathsEach_eq_flatMap, visitEach_eq_flatMap, List.map_cons, List.map_cons,
      List.map_map, List.map_flatMap, List.map_flatMap]
    congr 1
    exact List.flatMap_congr fun n hn => ih n hn _

theorem frames_prefix_of_mem_paths {n : CallNode φ} {x : List φ × CallNode φ} (hx : x ∈ n.paths) :
    n.frames <+: x.1 := by
  obtain ⟨frames, period, childrenPeriod, children⟩ := n
  rw [paths] at hx
  rcases List.mem_cons.mp hx with rfl | hx
  · exact List.prefix_refl frames
  · obtain ⟨y, -, rfl⟩ := List.mem_map.mp hx
    exact List.prefix_append frames y.1

end CallNode

/-! ### What a node shows of the chains -/

section Shows

variable [DecidableEq φ] {frames path : List φ} {n : CallNode φ} {nodes : List (CallNode φ)}
  {period : UInt64} {es : List (WeightedChain φ)} {x : List φ × CallNode φ}

/-- The node shows the weight of the chains that end where its path does, and
of those that go through it. Where they go on, they part at the first frame. -/
structure CallNode.Shows (n : CallNode φ) (path : List φ) (es : List (WeightedChain φ)) : Prop where
  frames_ne_nil : n.frames ≠ []
  apart : n.children.Pairwise fun a b => a.frames.head? ≠ b.frames.head?
  period_eq : n.period = weightOf (fun chain => chain = path) es
  totalPeriod_eq : n.period + n.childrenPeriod = weightOf (fun chain => path <+: chain) es

namespace CallNode

/-- Of the chains it holds, a node shows those that end in it and all of them. -/
theorem Holds.shows (h : n.Holds es) : n.Shows n.frames es := by
  obtain ⟨frames, period, childrenPeriod, children⟩ := n
  obtain ⟨hne, hthrough, hperiod, hbranches⟩ := holds_mk_iff.mp h
  have hends : ∀ e ∈ es, (e.chain.drop frames.length).isEmpty = decide (e.chain = frames) := by
    intro e he
    obtain ⟨rest, hrest⟩ := hthrough e he
    rw [← hrest, List.drop_left]
    cases rest <;> simp
  refine ⟨hne, hbranches.apart, ?_, ?_⟩
  · calc period = weightOf (fun chain => (chain.drop frames.length).isEmpty) es := by
          rw [hperiod, weightOf_after]
      _ = weightOf (fun chain => chain = frames) es := weightOf_congr hends
  · calc period + childrenPeriod = weightOf (fun _ => true) (after frames.length es) := by
          rw [hperiod, hbranches.period_eq, weightOf_add_not]
      _ = weightOf (fun _ => true) es := weightOf_after _ _ _
      _ = weightOf (fun chain => frames <+: chain) es :=
          weightOf_congr fun e he => (decide_eq_true (hthrough e he)).symm

/-- The chains that begin unlike the path do not count. -/
theorem Shows.of_like (h : n.Shows path (like frames es)) (hne : path ≠ [])
    (hhead : path.head? = frames.head?) : n.Shows path es := by
  have hequal : ∀ e ∈ es, (decide (e.chain.head? = frames.head?) && decide (e.chain = path)) =
      decide (e.chain = path) := by
    intro e _
    by_cases he : e.chain = path
    · simp [he, hhead]
    · simp [he]
  have hbegins : ∀ e ∈ es, (decide (e.chain.head? = frames.head?) && decide (path <+: e.chain)) =
      decide (path <+: e.chain) := by
    intro e _
    by_cases he : path <+: e.chain
    · simp [he, (head?_eq_of_begins hne he).trans hhead]
    · simp [he]
  refine ⟨h.frames_ne_nil, h.apart, ?_, ?_⟩
  · rw [h.period_eq, like, weightOf_filter _ (fun chain => chain.head? = frames.head?)]
    exact weightOf_congr hequal
  · rw [h.totalPeriod_eq, like, weightOf_filter _ (fun chain => chain.head? = frames.head?)]
    exact weightOf_congr hbegins

/-- What is shown of the chains after their common frames is shown of them. -/
theorem Shows.of_after (h : n.Shows path (after frames.length es))
    (hthrough : ∀ e ∈ es, frames <+: e.chain) : n.Shows (frames ++ path) es := by
  have hequal : ∀ e ∈ es, decide (e.chain.drop frames.length = path) =
      decide (e.chain = frames ++ path) := by
    intro e he
    obtain ⟨rest, hrest⟩ := hthrough e he
    rw [← hrest, List.drop_left]
    simp
  have hbegins : ∀ e ∈ es, decide (path <+: e.chain.drop frames.length) =
      decide (frames ++ path <+: e.chain) := by
    intro e he
    obtain ⟨rest, hrest⟩ := hthrough e he
    rw [← hrest, List.drop_left]
    simp
  refine ⟨h.frames_ne_nil, h.apart, ?_, ?_⟩
  · rw [h.period_eq, weightOf_after]
    exact weightOf_congr hequal
  · rw [h.totalPeriod_eq, weightOf_after]
    exact weightOf_congr hbegins

end CallNode

theorem Branches.exists_of_mem_pathsEach (h : Branches nodes period es)
    (hx : x ∈ CallNode.pathsEach nodes) :
    ∃ n ∈ nodes, x ∈ n.paths ∧ n.frames ≠ [] ∧ n.frames <+: x.1 := by
  rw [CallNode.pathsEach_eq_flatMap] at hx
  obtain ⟨n, hn, hx⟩ := List.mem_flatMap.mp hx
  exact ⟨n, hn, hx, (h.below n hn).frames_ne_nil, CallNode.frames_prefix_of_mem_paths hx⟩

theorem Branches.path_ne_nil (h : Branches nodes period es)
    (hx : x ∈ CallNode.pathsEach nodes) : x.1 ≠ [] := by
  obtain ⟨n, -, -, hne, hbegins⟩ := h.exists_of_mem_pathsEach hx
  exact fun hnil => hne (List.prefix_nil.mp (hnil ▸ hbegins))

theorem Branches.shows (h : Branches nodes period es)
    (hshows : ∀ n ∈ nodes, ∀ fs, n.Holds fs → ∀ x ∈ n.paths, x.2.Shows x.1 fs)
    (hx : x ∈ CallNode.pathsEach nodes) : x.2.Shows x.1 es := by
  obtain ⟨n, hn, hmem, hne, hbegins⟩ := h.exists_of_mem_pathsEach hx
  exact (hshows n hn _ (h.below n hn) x hmem).of_like (h.path_ne_nil hx)
    (head?_eq_of_begins hne hbegins)

/-- **Every node below shows, of the chains that a node holds, those that
continue the path to it.** -/
theorem CallNode.Holds.shows_of_mem_paths (h : n.Holds es) (hx : x ∈ n.paths) :
    x.2.Shows x.1 es := by
  induction n using CallNode.inductionOn generalizing es x with
  | h frames period childrenPeriod children ih =>
    rw [CallNode.paths] at hx
    rcases List.mem_cons.mp hx with rfl | hx
    · exact h.shows
    · obtain ⟨y, hy, rfl⟩ := List.mem_map.mp hx
      obtain ⟨-, hthrough, -, hbranches⟩ := holds_mk_iff.mp h
      exact (hbranches.shows (fun n hn fs hfs z hz => ih n hn hfs hz) hy).of_after hthrough

/-! ### The node of a chain -/

/-- A chain has a path among branches if it has one in the branch that it
begins like. -/
theorem Branches.mem_paths (h : Branches nodes period es)
    (hmem : ∀ n ∈ nodes, ∀ fs, n.Holds fs → ∀ e ∈ fs, e.chain ∈ n.paths.map Prod.fst)
    {e : WeightedChain φ} (he : e ∈ es) (hne : e.chain ≠ []) :
    e.chain ∈ (CallNode.pathsEach nodes).map Prod.fst := by
  obtain ⟨n, hn, hhead⟩ := h.cover e he hne
  have hlike : e ∈ like n.frames es := List.mem_filter.mpr ⟨he, decide_eq_true hhead.symm⟩
  rw [CallNode.pathsEach_eq_flatMap, List.map_flatMap]
  exact List.mem_flatMap.mpr ⟨n, hn, hmem n hn _ (h.below n hn) e hlike⟩

/-- Every chain that a node holds is the path of a node below it. -/
theorem CallNode.Holds.mem_paths (h : n.Holds es) {e : WeightedChain φ} (he : e ∈ es) :
    e.chain ∈ n.paths.map Prod.fst := by
  induction n using CallNode.inductionOn generalizing es e with
  | h frames period childrenPeriod children ih =>
    obtain ⟨-, hthrough, -, hbranches⟩ := holds_mk_iff.mp h
    obtain ⟨rest, hrest⟩ := hthrough e he
    rw [CallNode.paths, List.map_cons, List.map_map]
    cases rest with
    | nil =>
      rw [← hrest, List.append_nil]
      exact List.mem_cons_self
    | cons a as =>
      have hafter : (⟨a :: as, e.weight⟩ : WeightedChain φ) ∈ after frames.length es :=
        mem_after.mpr ⟨e, he, by rw [← hrest, List.drop_left]⟩
      have hpath := hbranches.mem_paths (fun n hn fs hfs f hf => ih n hn hfs hf) hafter nofun
      obtain ⟨y, hy, hyrest⟩ := List.mem_map.mp hpath
      refine List.mem_cons_of_mem _ (List.mem_map.mpr ⟨y, hy, ?_⟩)
      change frames ++ y.1 = e.chain
      rw [hyrest, hrest]

theorem Branches.nodup_paths (h : Branches nodes period es)
    (hnodup : ∀ n ∈ nodes, ∀ fs, n.Holds fs → (n.paths.map Prod.fst).Nodup) :
    ((CallNode.pathsEach nodes).map Prod.fst).Nodup := by
  rw [CallNode.pathsEach_eq_flatMap, List.map_flatMap, List.nodup_flatMap]
  refine ⟨fun n hn => hnodup n hn _ (h.below n hn), h.apart.imp_of_mem ?_⟩
  intro a b ha hb hapart path hpath hpath'
  have hhead : ∀ n ∈ nodes, path ∈ n.paths.map Prod.fst → path.head? = n.frames.head? := by
    intro n hn hmem
    obtain ⟨x, hx, rfl⟩ := List.mem_map.mp hmem
    exact head?_eq_of_begins (h.below n hn).frames_ne_nil (CallNode.frames_prefix_of_mem_paths hx)
  exact hapart ((hhead a ha hpath).symm.trans (hhead b hb hpath'))

/-- No path leads to two nodes. -/
theorem CallNode.Holds.nodup_paths (h : n.Holds es) : (n.paths.map Prod.fst).Nodup := by
  induction n using CallNode.inductionOn generalizing es with
  | h frames period childrenPeriod children ih =>
    obtain ⟨-, -, -, hbranches⟩ := holds_mk_iff.mp h
    have hbelow := hbranches.nodup_paths fun n hn fs hfs => ih n hn hfs
    have hmap : (CallNode.pathsEach children).map (Prod.fst ∘ fun x => (frames ++ x.1, x.2)) =
        ((CallNode.pathsEach children).map Prod.fst).map (frames ++ ·) := by
      rw [List.map_map]
      rfl
    rw [CallNode.paths, List.map_cons, List.map_map, hmap, List.nodup_cons]
    refine ⟨fun hmem => ?_, hbelow.map fun _ _ => List.append_cancel_left⟩
    obtain ⟨path, hpath, heq⟩ := List.mem_map.mp hmem
    obtain ⟨x, hx, rfl⟩ := List.mem_map.mp hpath
    exact hbranches.path_ne_nil hx (List.append_right_eq_self.mp heq)

end Shows

/-! ### Any chains and sorts -/

namespace CallTree

/-- Every node with its path, parents first. -/
def paths (t : CallTree φ) : List (List φ × CallNode φ) := CallNode.pathsEach t.children

theorem map_snd_paths (t : CallTree φ) : t.paths.map Prod.snd = t.nodes.map Prod.snd := by
  rw [paths, nodes, CallNode.pathsEach_eq_flatMap, CallNode.visitEach_eq_flatMap,
    List.map_flatMap, List.map_flatMap]
  exact List.flatMap_congr fun n _ => n.map_snd_paths 0

/-- What may be done to a tree. -/
inductive Op (φ : Type) where
  | add (chain : List φ) (weight : UInt64)
  | sort
  deriving Repr

def additions (ops : List (Op φ)) : List (WeightedChain φ) :=
  ops.filterMap fun
    | .add chain weight => some ⟨chain, weight⟩
    | .sort => none

variable [DecidableEq φ]

def Op.run (t : CallTree φ) : Op φ → CallTree φ
  | add chain weight => t.insert chain weight
  | sort => t.sort

/-- The tree shows these chains with their weights. -/
structure Accounts (t : CallTree φ) (es : List (WeightedChain φ)) : Prop where
  rootsApart : t.children.Pairwise fun a b => a.frames.head? ≠ b.frames.head?
  childrenPeriod_eq : t.childrenPeriod = weightOf (fun chain => chain ≠ []) es
  shows : ∀ x ∈ t.paths, x.2.Shows x.1 es
  path_unique : ∀ e ∈ es, e.chain ≠ [] → (t.paths.map Prod.fst).count e.chain = 1

/-- One step keeps what the tree holds, and adds the chain of an addition. -/
theorem Op.branches_run {t : CallTree φ} {es : List (WeightedChain φ)}
    (h : Branches t.children t.childrenPeriod es) (op : Op φ) :
    Branches (op.run t).children (op.run t).childrenPeriod (es ++ additions [op]) := by
  cases op with
  | add chain weight =>
    have hadd : additions [add chain weight] = [⟨chain, weight⟩] := rfl
    rw [hadd, run, CallTree.insert]
    split
    · next hnil =>
      rw [hnil]
      exact h.append_nil weight
    · next hne => exact h.insertAmong hne fun n _ fs hfs hhead => hfs.insert hhead weight
  | sort =>
    have hsort : additions [(sort : Op φ)] = [] := rfl
    rw [hsort, List.append_nil]
    exact h.sort fun n _ fs hfs => hfs.sort

theorem branches_foldl_run (ops : List (Op φ)) :
    Branches (ops.foldl Op.run {}).children (ops.foldl Op.run {}).childrenPeriod
      (additions ops) := by
  induction ops using List.reverseRecOn with
  | nil => exact Branches.empty
  | append_singleton ops op ih =>
    have happend : additions (ops ++ [op]) = additions ops ++ additions [op] :=
      List.filterMap_append
    rw [List.foldl_concat, happend]
    exact Op.branches_run ih op

/-- **The tree shows every chain that was added, with its weight**, whatever
was added and sorted in between. -/
theorem accounts_foldl_run (ops : List (Op φ)) :
    (ops.foldl Op.run {}).Accounts (additions ops) := by
  have h := branches_foldl_run ops
  refine ⟨h.apart, ?_, fun x hx => ?_, fun e he hne => ?_⟩
  · rw [h.period_eq]
    refine weightOf_congr fun e _ => ?_
    cases e.chain <;> rfl
  · exact h.shows (fun n _ fs hfs y hy => hfs.shows_of_mem_paths hy) hx
  · have hnodup := h.nodup_paths fun n _ fs hfs => hfs.nodup_paths
    exact List.count_eq_one_of_mem hnodup
      (h.mem_paths (fun n _ fs hfs f hf => hfs.mem_paths hf) he hne)

/-- The chain `a b c` is cut twice, and the heavier of the two branches is
first after a sort. -/
example : ([.add [1, 2, 3] 5, .add [1, 4] 7, .sort, .add [1, 2] 1, .sort] : List (Op Nat)).foldl
    Op.run {} =
    ⟨13, [.mk [1] 0 13 [.mk [4] 7 0 [], .mk [2] 1 5 [.mk [3] 5 0 []]]]⟩ := by
  cbv

end CallTree
end Profiler
