/-
# The shape of a tree of call chains

Where a node begins and ends does not depend on the order in which the chains
came: its frames are the longest common beginning of the chains that go through
it (`CallNode.Compact`). An insertion cuts a node only where the new chain
leaves it, so it keeps this (`CallNode.Compact.insert`), and sorting does not
touch the frames (`CallNode.Compact.sort`). So the paths of the tree are the
chains and the places where two of them part (`CallNode.Compact.marks`,
`CallNode.Holds.mem_paths_of_parted`), and trees of the same chains differ in
the order of siblings only (`CallNode.Compact.alike`).

Key definitions: `CallNode.Alike`, `CallTree.Alike`, `WeightedChain.Marks`,
`CallNode.Compact`.
Key theorems: `CallNode.Compact.insert`, `CallNode.Compact.sort`,
`CallNode.Compact.marks`, `CallNode.Holds.mem_paths_of_parted`,
`CallNode.Compact.alike`, `CallTree.foldl_run_alike`.
-/
import Profiler.Proofs.Report.CallWeights

namespace Profiler

variable {φ : Type}

open WeightedChain (after like)

/-- The nodes have the same frames and weights, and their children can be put
in an order in which each is like its counterpart. -/
inductive CallNode.Alike : CallNode φ → CallNode φ → Prop where
  | intro {frames : List φ} {period childrenPeriod : UInt64}
      {children matched children' : List (CallNode φ)}
      (each : List.Forall₂ CallNode.Alike children matched) (order : matched.Perm children') :
      Alike (mk frames period childrenPeriod children) (mk frames period childrenPeriod children')

/-- The trees are equal but for the order of siblings. -/
def CallTree.Alike (t t' : CallTree φ) : Prop :=
  t.childrenPeriod = t'.childrenPeriod ∧
    ∃ matched, List.Forall₂ CallNode.Alike t.children matched ∧ matched.Perm t'.children

/-- A chain ends after these frames, or two chains that have them go on with
different frames. -/
def WeightedChain.Marks (es : List (WeightedChain φ)) (path : List φ) : Prop :=
  (∃ e ∈ es, e.chain = path) ∨
    ∃ e ∈ es, ∃ f ∈ es, ∃ a b, a ≠ b ∧ path ++ [a] <+: e.chain ∧ path ++ [b] <+: f.chain

/-! ### Lists that can be matched -/

/-- Elements that are told apart by a key have their counterparts in one order. -/
theorem exists_forall₂_perm {α β κ : Type} {R : α → β → Prop} {key : α → κ} {key' : β → κ}
    {as : List α} {bs : List β} (ha : as.Pairwise fun x y => key x ≠ key y)
    (hb : bs.Pairwise fun x y => key' x ≠ key' y)
    (hto : ∀ a ∈ as, ∃ b ∈ bs, key' b = key a ∧ R a b)
    (hfrom : ∀ b ∈ bs, ∃ a ∈ as, key a = key' b) :
    ∃ matched, List.Forall₂ R as matched ∧ matched.Perm bs := by
  induction as generalizing bs with
  | nil =>
    have hnone : bs = [] := by
      refine List.eq_nil_iff_forall_not_mem.mpr fun b hmem => ?_
      obtain ⟨a, ha, -⟩ := hfrom b hmem
      exact List.not_mem_nil ha
    exact ⟨[], .nil, hnone ▸ .nil⟩
  | cons a as ih =>
    obtain ⟨hapart, ha⟩ := List.pairwise_cons.mp ha
    obtain ⟨b, hbmem, hkey, hR⟩ := hto a List.mem_cons_self
    obtain ⟨before, behind, rfl⟩ := List.append_of_mem hbmem
    have hmiddle : (before ++ b :: behind).Perm (b :: (before ++ behind)) := List.perm_middle
    obtain ⟨hbapart, hb⟩ := List.pairwise_cons.mp
      ((hmiddle.pairwise_iff fun hne => Ne.symm hne).mp hb)
    have hto' : ∀ x ∈ as, ∃ y ∈ before ++ behind, key' y = key x ∧ R x y := by
      intro x hx
      obtain ⟨y, hy, hxy, hRxy⟩ := hto x (List.mem_cons_of_mem a hx)
      rcases List.mem_cons.mp (hmiddle.mem_iff.mp hy) with rfl | hy
      · exact absurd (hkey.symm.trans hxy) (hapart x hx)
      · exact ⟨y, hy, hxy, hRxy⟩
    have hfrom' : ∀ y ∈ before ++ behind, ∃ x ∈ as, key x = key' y := by
      intro y hy
      obtain ⟨x, hx, hxy⟩ := hfrom y (hmiddle.mem_iff.mpr (List.mem_cons_of_mem b hy))
      rcases List.mem_cons.mp hx with rfl | hx
      · exact absurd (hkey.trans hxy) (hbapart y hy)
      · exact ⟨x, hx, hxy⟩
    obtain ⟨matched, heach, horder⟩ := ih ha hb hto' hfrom'
    exact ⟨b :: matched, .cons hR heach, (horder.cons b).trans hmiddle.symm⟩

/-! ### Nodes that hold no more frames than all of their chains -/

namespace CallNode

variable [DecidableEq φ]

/-- The frames of each node are all that the chains through it have in common. -/
inductive Compact : CallNode φ → List (WeightedChain φ) → Prop where
  | intro {frames : List φ} {period childrenPeriod : UInt64} {children : List (CallNode φ)}
      {es : List (WeightedChain φ)}
      (longest : ∀ common, (∀ e ∈ es, common <+: e.chain) → common <+: frames)
      (below : ∀ n ∈ children, n.Compact (like n.frames (after frames.length es))) :
      (mk frames period childrenPeriod children).Compact es

end CallNode

section Compact

variable [DecidableEq φ] {frames common tail rest path : List φ}
  {period period' childrenPeriod childrenPeriod' weight : UInt64}
  {children nodes nodes' : List (CallNode φ)}
  {n n' : CallNode φ} {es es' : List (WeightedChain φ)} {e f : WeightedChain φ}

namespace CallNode

theorem compact_mk_iff : (mk frames period childrenPeriod children).Compact es ↔
    (∀ common, (∀ e ∈ es, common <+: e.chain) → common <+: frames) ∧
      ∀ n ∈ children, n.Compact (like n.frames (after frames.length es)) := by
  constructor
  · rintro ⟨hlongest, hbelow⟩
    exact ⟨hlongest, hbelow⟩
  · rintro ⟨hlongest, hbelow⟩
    exact ⟨hlongest, hbelow⟩

theorem Compact.ne_nil (hn : n.Holds es) (h : n.Compact es) : es ≠ [] := by
  obtain ⟨frames, period, childrenPeriod, children⟩ := n
  obtain ⟨hne, -, -, -⟩ := holds_mk_iff.mp hn
  obtain ⟨hlongest, -⟩ := compact_mk_iff.mp h
  obtain ⟨a, rest, hframes⟩ := List.exists_cons_of_ne_nil hne
  rintro rfl
  have hlong := (hlongest (frames ++ [a]) nofun).length_le
  rw [List.length_append, List.length_singleton] at hlong
  omega

theorem compact_leaf (chain : List φ) (weight : UInt64) :
    (leaf chain weight).Compact [⟨chain, weight⟩] :=
  compact_mk_iff.mpr ⟨fun _ hall => hall _ (List.mem_singleton_self _), nofun⟩

omit [DecidableEq φ] in
theorem longest_append (hlongest : ∀ common, (∀ e ∈ es, common <+: e.chain) → common <+: frames)
    (e : WeightedChain φ) : ∀ common, (∀ f ∈ es ++ [e], common <+: f.chain) → common <+: frames :=
  fun common hall => hlongest common fun f hf => hall f (List.mem_append_left _ hf)

end CallNode

theorem Branches.like_append_nil (h : Branches nodes period es) (weight : UInt64) (hn : n ∈ nodes) :
    like n.frames (es ++ [⟨[], weight⟩]) = like n.frames es := by
  refine like_append_of_ne (fun hhead => ?_) es weight
  exact (h.below n hn).frames_ne_nil (List.head?_eq_none_iff.mp hhead.symm)

namespace CallNode

theorem Compact.endAt (hn : (mk frames period childrenPeriod children).Holds es)
    (h : (mk frames period childrenPeriod children).Compact es) (weight : UInt64) :
    (mk frames (period + weight) childrenPeriod children).Compact (es ++ [⟨frames, weight⟩]) := by
  obtain ⟨-, -, -, hbranches⟩ := holds_mk_iff.mp hn
  obtain ⟨hlongest, hbelow⟩ := compact_mk_iff.mp h
  refine compact_mk_iff.mpr ⟨longest_append hlongest _, fun n hmem => ?_⟩
  rw [after_append, after_singleton, List.drop_length, hbranches.like_append_nil weight hmem]
  exact hbelow n hmem

theorem Compact.goOn (h : (mk frames period childrenPeriod children).Compact es)
    (hnodes : ∀ n ∈ nodes, n.Compact (like n.frames (after frames.length es ++ [⟨rest, weight⟩]))) :
    (mk frames period (childrenPeriod + weight) nodes).Compact
      (es ++ [⟨frames ++ rest, weight⟩]) := by
  obtain ⟨hlongest, -⟩ := compact_mk_iff.mp h
  refine compact_mk_iff.mpr ⟨longest_append hlongest _, fun n hmem => ?_⟩
  rw [after_append, after_singleton, List.drop_left]
  exact hnodes n hmem

/-- The lower part of a node that is cut has all that its chains have in common
after the upper part. -/
theorem Compact.lower (hthrough : ∀ e ∈ es, common ++ tail <+: e.chain)
    (h : (mk (common ++ tail) period childrenPeriod children).Compact es) :
    (mk tail period childrenPeriod children).Compact (after common.length es) := by
  obtain ⟨hlongest, hbelow⟩ := compact_mk_iff.mp h
  refine compact_mk_iff.mpr ⟨fun more hall => ?_, fun n hmem => ?_⟩
  · refine (List.prefix_append_right_inj common).mp (hlongest _ fun e he => ?_)
    obtain ⟨rest, hrest⟩ := hthrough e he
    have hmore := hall _ (mem_after.mpr ⟨e, he, rfl⟩)
    rw [← hrest, List.append_assoc, List.drop_left] at hmore
    rw [← hrest, List.append_assoc]
    exact (List.prefix_append_right_inj common).mpr hmore
  · rw [after_after, ← List.length_append]
    exact hbelow n hmem

omit [DecidableEq φ] in
theorem prefix_of_parted {more : List φ} (hparted : ∀ a ∈ tail.head?, a ∉ rest.head?)
    (htail : more <+: common ++ tail) (hrest : more <+: common ++ rest) : more <+: common := by
  rcases List.prefix_or_prefix_of_prefix htail (List.prefix_append common tail) with hle | hle
  · exact hle
  · obtain ⟨beyond, rfl⟩ := hle
    have htail' := (List.prefix_append_right_inj common).mp htail
    have hrest' := (List.prefix_append_right_inj common).mp hrest
    cases beyond with
    | nil => simp
    | cons a as =>
      have ha := head?_eq_of_begins (List.cons_ne_nil a as) htail'
      have hb := head?_eq_of_begins (List.cons_ne_nil a as) hrest'
      exact absurd hb (hparted a ha)

/-- A node is cut where a chain leaves it. -/
theorem Compact.cut (hn : (mk (common ++ tail) period childrenPeriod children).Holds es)
    (h : (mk (common ++ tail) period childrenPeriod children).Compact es) (htail : tail ≠ [])
    (hparted : ∀ a ∈ tail.head?, a ∉ rest.head?)
    (hnodes : ∀ n ∈ nodes, n.Compact (like n.frames (after common.length es ++ [⟨rest, weight⟩]))) :
    (mk common period' childrenPeriod'
      (mk tail period childrenPeriod children :: nodes)).Compact
        (es ++ [⟨common ++ rest, weight⟩]) := by
  obtain ⟨-, hthrough, -, -⟩ := holds_mk_iff.mp hn
  obtain ⟨hlongest, -⟩ := compact_mk_iff.mp h
  have hafter : after common.length (es ++ [⟨common ++ rest, weight⟩]) =
      after common.length es ++ [⟨rest, weight⟩] := by
    rw [after_append, after_singleton, List.drop_left]
  have hother : rest.head? ≠ tail.head? := by
    obtain ⟨b, bs, rfl⟩ := List.exists_cons_of_ne_nil htail
    exact hparted b rfl
  refine compact_mk_iff.mpr ⟨fun more hall => ?_, ?_⟩
  · exact prefix_of_parted hparted (longest_append hlongest _ more hall)
      (hall _ (List.mem_append_right _ (List.mem_singleton_self _)))
  · rw [hafter, List.forall_mem_cons]
    refine ⟨?_, hnodes⟩
    change (mk tail period childrenPeriod children).Compact
      (like tail (after common.length es ++ [⟨rest, weight⟩]))
    rw [like_append_of_ne hother, like_eq_self htail (begins_after hthrough)]
    exact h.lower hthrough

end CallNode

/-- Branches stay compact when one more chain goes on in them. -/
theorem Branches.compact_insertAmong {chain : List φ} (h : Branches nodes period es)
    (hnodes : ∀ n ∈ nodes, n.Compact (like n.frames es)) (hne : chain ≠ [])
    (hinsert : ∀ n ∈ nodes, ∀ fs, n.Holds fs → n.Compact fs → n.frames.head? = chain.head? →
      (n.insert chain weight).Compact (fs ++ [⟨chain, weight⟩])) :
    ∀ n ∈ CallNode.insertAmong chain weight nodes,
      n.Compact (like n.frames (es ++ [⟨chain, weight⟩])) :=
  h.forall_mem_insertAmong hne hnodes (CallNode.compact_leaf chain weight) fun n hn hhead =>
    hinsert n hn _ (h.below n hn) (hnodes n hn) hhead

/-- **An insertion keeps a node compact.** The node is cut only where the chain
leaves what all others have in common. -/
theorem CallNode.Compact.insert {chain : List φ} (hn : n.Holds es) (h : n.Compact es)
    (hhead : n.frames.head? = chain.head?) (weight : UInt64) :
    (n.insert chain weight).Compact (es ++ [⟨chain, weight⟩]) := by
  induction n using CallNode.inductionOn generalizing chain es with
  | h frames period childrenPeriod children ih =>
    obtain ⟨common, tail, rest, hsplit, rfl, rfl, hparted⟩ := exists_commonSplit frames chain
    rw [CallNode.insert, hsplit]
    cases tail with
    | nil =>
      rw [List.append_nil] at hn h ⊢
      cases rest with
      | nil =>
        rw [List.append_nil]
        exact h.endAt hn weight
      | cons a as =>
        obtain ⟨-, -, -, hbranches⟩ := holds_mk_iff.mp hn
        obtain ⟨-, hbelow⟩ := compact_mk_iff.mp h
        exact h.goOn (hbranches.compact_insertAmong hbelow (List.cons_ne_nil a as)
          fun n hmem fs hfs hfs' hn' => ih n hmem hfs hfs' hn')
    | cons b bs =>
      have hcommon := ne_nil_of_parted hn.frames_ne_nil hhead hparted
      cases rest with
      | nil => exact h.cut hn (List.cons_ne_nil b bs) hparted (List.forall_mem_nil _)
      | cons a as =>
        -- nothing else goes on like the rest of the chain
        have htail := List.cons_ne_nil b bs
        obtain ⟨-, -, -, hbranches⟩ := holds_mk_iff.mp (hn.split hcommon htail)
        have hnone : ∀ n ∈ [mk (b :: bs) period childrenPeriod children],
            n.frames.head? ≠ (a :: as).head? := by
          rw [List.forall_mem_singleton]
          exact fun heq => hparted b rfl heq.symm
        refine h.cut hn htail hparted ?_
        rw [List.forall_mem_singleton]
        change (leaf (a :: as) weight).Compact
          (like (a :: as) (after common.length es ++ [⟨a :: as, weight⟩]))
        rw [like_append_of_eq rfl, hbranches.like_eq_nil (List.cons_ne_nil a as) hnone]
        exact compact_leaf (a :: as) weight

/-! ### Sorting -/

omit [DecidableEq φ] in
theorem CallNode.mem_sorted {nodes : List (CallNode φ)} :
    n ∈ sortSiblings (sortEach nodes) ↔ ∃ m ∈ nodes, m.sort = n := by
  rw [sortEach_eq_map, sortSiblings, List.mem_mergeSort, List.mem_map]

/-- **A sorted node is as compact as before.** -/
theorem CallNode.Compact.sort (h : n.Compact es) : n.sort.Compact es := by
  induction n using CallNode.inductionOn generalizing es with
  | h frames period childrenPeriod children ih =>
    obtain ⟨hlongest, hbelow⟩ := compact_mk_iff.mp h
    rw [CallNode.sort]
    refine compact_mk_iff.mpr ⟨hlongest, fun n hmem => ?_⟩
    obtain ⟨m, hm, rfl⟩ := CallNode.mem_sorted.mp hmem
    rw [CallNode.frames_sort]
    exact ih m hm (hbelow m hm)

/-! ### The paths of the nodes -/

namespace WeightedChain

omit [DecidableEq φ] in
theorem Marks.mono (h : Marks es path) (hsub : ∀ e ∈ es, e ∈ es') : Marks es' path := by
  rcases h with ⟨e, he, hchain⟩ | ⟨e, he, f, hf, hparts⟩
  · exact .inl ⟨e, hsub e he, hchain⟩
  · exact .inr ⟨e, hsub e he, f, hsub f hf, hparts⟩

omit [DecidableEq φ] in
/-- What is marked after common frames is marked with them. -/
theorem Marks.of_after (hthrough : ∀ e ∈ es, frames <+: e.chain)
    (h : Marks (after frames.length es) path) : Marks es (frames ++ path) := by
  have hbegins : ∀ e ∈ es, ∀ more, more <+: e.chain.drop frames.length →
      frames ++ more <+: e.chain := by
    intro e he more hmore
    obtain ⟨rest, hrest⟩ := hthrough e he
    rw [← hrest, List.drop_left] at hmore
    rw [← hrest]
    exact (List.prefix_append_right_inj frames).mpr hmore
  rcases h with ⟨f, hf, hchain⟩ | ⟨f, hf, g, hg, a, b, hab, hfa, hgb⟩
  · obtain ⟨e, he, rfl⟩ := mem_after.mp hf
    obtain ⟨rest, hrest⟩ := hthrough e he
    refine .inl ⟨e, he, ?_⟩
    rw [← hchain, ← hrest, List.drop_left]
  · obtain ⟨e, he, rfl⟩ := mem_after.mp hf
    obtain ⟨e', he', rfl⟩ := mem_after.mp hg
    refine .inr ⟨e, he, e', he', a, b, hab, ?_, ?_⟩
    · rw [List.append_assoc]
      exact hbegins e he _ hfa
    · rw [List.append_assoc]
      exact hbegins e' he' _ hgb

omit [DecidableEq φ] in
/-- The longest common beginning of some chains is marked by them. -/
theorem marks_of_longest (hes : es ≠ []) (hthrough : ∀ e ∈ es, frames <+: e.chain)
    (hlongest : ∀ common, (∀ e ∈ es, common <+: e.chain) → common <+: frames) :
    Marks es frames := by
  have hshort : ∀ a, ¬ ∀ e ∈ es, frames ++ [a] <+: e.chain := by
    intro a hall
    have hlen := (hlongest _ hall).length_le
    rw [List.length_append, List.length_singleton] at hlen
    omega
  by_contra hnot
  have hgoes : ∀ e ∈ es, ∃ b, frames ++ [b] <+: e.chain := by
    intro e he
    obtain ⟨rest, hrest⟩ := hthrough e he
    cases rest with
    | nil => exact absurd (.inl ⟨e, he, by rw [← hrest, List.append_nil]⟩) hnot
    | cons b bs => exact ⟨b, bs, by rw [← hrest, List.append_assoc]; rfl⟩
  obtain ⟨e, he⟩ := List.exists_mem_of_ne_nil es hes
  obtain ⟨b, hb⟩ := hgoes e he
  refine hshort b fun f hf => ?_
  obtain ⟨c, hc⟩ := hgoes f hf
  by_cases hbc : b = c
  · exact hbc ▸ hc
  · exact absurd (.inr ⟨e, he, f, hf, b, c, hbc, hb, hc⟩) hnot

end WeightedChain

open WeightedChain (Marks)

theorem Branches.marks (h : Branches nodes period es)
    (hmarks : ∀ n ∈ nodes, ∀ x ∈ n.paths, Marks (like n.frames es) x.1)
    {x : List φ × CallNode φ} (hx : x ∈ CallNode.pathsEach nodes) : Marks es x.1 := by
  obtain ⟨n, hn, hmem, -, -⟩ := h.exists_of_mem_pathsEach hx
  exact (hmarks n hn x hmem).mono fun e he => List.mem_of_mem_filter he

/-- Every path is marked: a node that was only passed through would not be
compact. -/
theorem CallNode.Compact.marks (hn : n.Holds es) (h : n.Compact es)
    {x : List φ × CallNode φ} (hx : x ∈ n.paths) : Marks es x.1 := by
  induction n using CallNode.inductionOn generalizing es x with
  | h frames period childrenPeriod children ih =>
    obtain ⟨-, hthrough, -, hbranches⟩ := holds_mk_iff.mp hn
    obtain ⟨hlongest, hbelow⟩ := compact_mk_iff.mp h
    rw [CallNode.paths] at hx
    rcases List.mem_cons.mp hx with rfl | hx
    · exact WeightedChain.marks_of_longest (h.ne_nil hn) hthrough hlongest
    · obtain ⟨y, hy, rfl⟩ := List.mem_map.mp hx
      have hmarks := hbranches.marks
        (fun n hmem x hx => ih n hmem (hbranches.below n hmem) (hbelow n hmem) hx) hy
      exact hmarks.of_after hthrough

/-- Two chains that part in the same branch after these frames. -/
theorem Branches.mem_paths_of_parted (h : Branches nodes period es) {a b : φ} (hpath : path ≠ [])
    (he : e ∈ es) (hf : f ∈ es) (hea : path ++ [a] <+: e.chain) (hfb : path ++ [b] <+: f.chain)
    (hmem : ∀ n ∈ nodes, e ∈ like n.frames es → f ∈ like n.frames es →
      path ∈ n.paths.map Prod.fst) : path ∈ (CallNode.pathsEach nodes).map Prod.fst := by
  have hhead : ∀ {g : WeightedChain φ} {c : φ}, path ++ [c] <+: g.chain →
      g.chain ≠ [] ∧ g.chain.head? = path.head? := by
    intro g c hg
    have hbegins := (List.prefix_append path [c]).trans hg
    exact ⟨fun hnil => hpath (List.prefix_nil.mp (hnil ▸ hbegins)),
      head?_eq_of_begins hpath hbegins⟩
  obtain ⟨hne, hehead⟩ := hhead hea
  obtain ⟨-, hfhead⟩ := hhead hfb
  obtain ⟨n, hn, hn'⟩ := h.cover e he hne
  have helike : e ∈ like n.frames es := List.mem_filter.mpr ⟨he, decide_eq_true hn'.symm⟩
  have hflike : f ∈ like n.frames es :=
    List.mem_filter.mpr ⟨hf, decide_eq_true (hfhead.trans (hehead.symm.trans hn'.symm))⟩
  rw [CallNode.pathsEach_eq_flatMap, List.map_flatMap]
  exact List.mem_flatMap.mpr ⟨n, hn, hmem n hn helike hflike⟩

omit [DecidableEq φ] in
/-- Two frames that follow the same frames in a chain are one. -/
theorem next_unique {chain : List φ} {a b : φ} (ha : path ++ [a] <+: chain)
    (hb : path ++ b :: rest <+: chain) : a = b := by
  obtain ⟨as, rfl⟩ := ha
  rw [List.append_assoc, List.prefix_append_right_inj] at hb
  obtain ⟨bs, hbs⟩ := hb
  exact (List.cons.inj hbs).1.symm

/-- Where two chains of a node part, a path ends. -/
theorem CallNode.Holds.mem_paths_of_parted (hn : n.Holds es) {a b : φ} (hpath : path ≠ [])
    (he : e ∈ es) (hf : f ∈ es) (hab : a ≠ b) (hea : path ++ [a] <+: e.chain)
    (hfb : path ++ [b] <+: f.chain) : path ∈ n.paths.map Prod.fst := by
  induction n using CallNode.inductionOn generalizing es e f path with
  | h frames period childrenPeriod children ih =>
    obtain ⟨-, hthrough, -, hbranches⟩ := holds_mk_iff.mp hn
    rw [CallNode.paths, List.map_cons, List.map_map]
    rcases List.prefix_or_prefix_of_prefix ((List.prefix_append path [a]).trans hea)
      (hthrough e he) with hle | hle
    · -- all chains of the node go on alike before its frames end
      obtain ⟨tail, rfl⟩ := hle
      cases tail with
      | nil => rw [List.append_nil]; exact List.mem_cons_self
      | cons c cs =>
        exact absurd ((next_unique hea (hthrough e he)).trans
          (next_unique hfb (hthrough f hf)).symm) hab
    · obtain ⟨below, rfl⟩ := hle
      by_cases hbelow : below = []
      · rw [hbelow, List.append_nil]
        exact List.mem_cons_self
      · have hafter : ∀ {g : WeightedChain φ} {c : φ}, frames ++ below ++ [c] <+: g.chain →
            below ++ [c] <+: g.chain.drop frames.length := by
          rintro g c ⟨rest, hrest⟩
          refine ⟨rest, ?_⟩
          have hchain : g.chain = frames ++ (below ++ [c] ++ rest) := by
            rw [← hrest]
            simp only [List.append_assoc]
          rw [hchain, List.drop_left]
        have hmem := hbranches.mem_paths_of_parted hbelow (mem_after.mpr ⟨e, he, rfl⟩)
          (mem_after.mpr ⟨f, hf, rfl⟩) (hafter hea) (hafter hfb)
          fun n hmem he' hf' => ih n hmem (hbranches.below n hmem) hbelow he' hf'
            (hafter hea) (hafter hfb)
        obtain ⟨y, hy, hyrest⟩ := List.mem_map.mp hmem
        exact List.mem_cons_of_mem _ (List.mem_map.mpr ⟨y, hy, congrArg (frames ++ ·) hyrest⟩)

/-! ### Trees of the same chains -/

omit [DecidableEq φ] in
theorem weightOf_perm (kind : List φ → Bool) (h : es.Perm es') :
    weightOf kind es = weightOf kind es' := by
  induction h with
  | nil => rfl
  | cons e _ ih => rw [weightOf, weightOf, ih]
  | swap e f es =>
    simp only [weightOf]
    grind
  | trans _ _ ih ih' => exact ih.trans ih'

/-- A branch has its counterpart among the branches of the same chains. -/
theorem Branches.exists_counterpart (h : Branches nodes period es)
    (hnodes : ∀ n ∈ nodes, n.Compact (like n.frames es)) (h' : Branches nodes' period' es')
    (hperm : es.Perm es') (hn : n ∈ nodes) :
    ∃ n' ∈ nodes', n'.frames.head? = n.frames.head? ∧
      (like n.frames es).Perm (like n'.frames es') := by
  obtain ⟨e, he⟩ := List.exists_mem_of_ne_nil _ ((hnodes n hn).ne_nil (h.below n hn))
  obtain ⟨he, hlike⟩ := List.mem_filter.mp he
  have hhead := of_decide_eq_true hlike
  have hne : e.chain ≠ [] := by
    intro hnil
    rw [hnil] at hhead
    exact (h.below n hn).frames_ne_nil (List.head?_eq_none_iff.mp hhead.symm)
  obtain ⟨n', hn', hhead'⟩ := h'.cover e (hperm.mem_iff.mp he) hne
  refine ⟨n', hn', hhead'.trans hhead, ?_⟩
  rw [like_congr (hhead'.trans hhead)]
  exact hperm.filter _

theorem Branches.alike (h : Branches nodes period es)
    (hnodes : ∀ n ∈ nodes, n.Compact (like n.frames es)) (h' : Branches nodes' period' es')
    (hnodes' : ∀ n ∈ nodes', n.Compact (like n.frames es')) (hperm : es.Perm es')
    (halike : ∀ n ∈ nodes, ∀ n' ∈ nodes', (like n.frames es).Perm (like n'.frames es') →
      n.Alike n') :
    ∃ matched, List.Forall₂ CallNode.Alike nodes matched ∧ matched.Perm nodes' := by
  refine exists_forall₂_perm h.apart h'.apart (fun n hn => ?_) (fun n' hn' => ?_)
  · obtain ⟨n', hn', hhead, hlike⟩ := h.exists_counterpart hnodes h' hperm hn
    exact ⟨n', hn', hhead, halike n hn n' hn' hlike⟩
  · obtain ⟨n, hn, hhead, -⟩ := h'.exists_counterpart hnodes' h hperm.symm hn'
    exact ⟨n, hn, hhead⟩

omit [DecidableEq φ] in
theorem eq_of_begins (h : frames <+: common) (h' : common <+: frames) : frames = common :=
  h.eq_of_length_le h'.length_le

/-- **Compact nodes of the same chains are alike**, in whatever order the
chains are listed. -/
theorem CallNode.Compact.alike (hn : n.Holds es) (h : n.Compact es) (hn' : n'.Holds es')
    (h' : n'.Compact es') (hperm : es.Perm es') : n.Alike n' := by
  induction n using CallNode.inductionOn generalizing n' es es' with
  | h frames period childrenPeriod children ih =>
    obtain ⟨frames', period', childrenPeriod', children'⟩ := n'
    obtain ⟨-, hthrough, hperiod, hbranches⟩ := holds_mk_iff.mp hn
    obtain ⟨-, hthrough', hperiod', hbranches'⟩ := holds_mk_iff.mp hn'
    obtain ⟨hlongest, hbelow⟩ := compact_mk_iff.mp h
    obtain ⟨hlongest', hbelow'⟩ := compact_mk_iff.mp h'
    obtain rfl : frames = frames' := eq_of_begins
      (hlongest' frames fun e he => hthrough e (hperm.mem_iff.mpr he))
      (hlongest frames' fun e he => hthrough' e (hperm.mem_iff.mp he))
    have hafter : (after frames.length es).Perm (after frames.length es') := hperm.map _
    obtain rfl : period = period' := by rw [hperiod, hperiod', weightOf_perm _ hafter]
    obtain rfl : childrenPeriod = childrenPeriod' := by
      rw [hbranches.period_eq, hbranches'.period_eq, weightOf_perm _ hafter]
    obtain ⟨matched, heach, horder⟩ := hbranches.alike hbelow hbranches' hbelow' hafter
      fun n hmem n' hmem' hlike => ih n hmem (hbranches.below n hmem) (hbelow n hmem)
        (hbranches'.below n' hmem') (hbelow' n' hmem') hlike
    exact .intro heach horder

end Compact

/-! ### Any chains and sorts -/

namespace CallTree

variable [DecidableEq φ]

open WeightedChain (Marks)

/-- One step keeps the branches of a tree compact. -/
theorem Op.compact_run {t : CallTree φ} {es : List (WeightedChain φ)}
    (h : Branches t.children t.childrenPeriod es)
    (hcompact : ∀ n ∈ t.children, n.Compact (like n.frames es)) (op : Op φ) :
    ∀ n ∈ (op.run t).children, n.Compact (like n.frames (es ++ additions [op])) := by
  cases op with
  | add chain weight =>
    have hadd : additions [add chain weight] = [⟨chain, weight⟩] := rfl
    rw [hadd, run, CallTree.insert]
    split
    · next hnil =>
      intro n hn
      rw [hnil, h.like_append_nil weight hn]
      exact hcompact n hn
    · next hne =>
      exact h.compact_insertAmong hcompact hne fun n _ fs hfs hfs' hhead =>
        hfs'.insert hfs hhead weight
  | sort =>
    have hsort : additions [(sort : Op φ)] = [] := rfl
    rw [hsort, List.append_nil]
    intro n hn
    obtain ⟨m, hm, rfl⟩ := CallNode.mem_sorted.mp hn
    rw [CallNode.frames_sort]
    exact (hcompact m hm).sort

theorem compact_foldl_run (ops : List (Op φ)) :
    ∀ n ∈ (ops.foldl Op.run {}).children, n.Compact (like n.frames (additions ops)) := by
  induction ops using List.reverseRecOn with
  | nil => exact nofun
  | append_singleton ops op ih =>
    have happend : additions (ops ++ [op]) = additions ops ++ additions [op] :=
      List.filterMap_append
    rw [List.foldl_concat, happend]
    exact Op.compact_run (branches_foldl_run ops) ih op

/-- **The order in which chains are added does not count.** Trees to which the
same chains were added, with sorts anywhere in between, differ in the order of
siblings only. Their paths are the chains that were added and the places where
two of them go on with different frames. -/
theorem foldl_run_alike {ops ops' : List (Op φ)} (h : (additions ops).Perm (additions ops')) :
    (ops.foldl Op.run {}).Alike (ops'.foldl Op.run {}) ∧
      ∀ path, path ∈ (ops.foldl Op.run {}).paths.map Prod.fst ↔
        path ≠ [] ∧ Marks (additions ops) path := by
  have hbranches := branches_foldl_run ops
  have hbranches' := branches_foldl_run ops'
  have hcompact := compact_foldl_run ops
  have hcompact' := compact_foldl_run ops'
  refine ⟨⟨?_, ?_⟩, fun path => ⟨?_, ?_⟩⟩
  · rw [hbranches.period_eq, hbranches'.period_eq, weightOf_perm _ h]
  · exact hbranches.alike hcompact hbranches' hcompact' h fun n hn n' hn' hlike =>
      (hcompact n hn).alike (hbranches.below n hn) (hbranches'.below n' hn') (hcompact' n' hn') hlike
  · intro hpath
    obtain ⟨x, hx, rfl⟩ := List.mem_map.mp hpath
    exact ⟨hbranches.path_ne_nil hx,
      hbranches.marks (fun n hn y hy => (hcompact n hn).marks (hbranches.below n hn) hy) hx⟩
  · rintro ⟨hne, ⟨e, he, rfl⟩ | ⟨e, he, f, hf, a, b, hab, hea, hfb⟩⟩
    · exact hbranches.mem_paths (fun n _ fs hfs e he => hfs.mem_paths he) he hne
    · exact hbranches.mem_paths_of_parted hne he hf hea hfb fun n hn he' hf' =>
        (hbranches.below n hn).mem_paths_of_parted hne he' hf' hab hea hfb

/-- A chain without weight cuts the node of another, and is no other tree if it
comes first. -/
theorem foldl_run_alike_weightless :
    let ops : List (Op Nat) := [.add [1, 2, 3] 5, .sort, .add [1, 4] 0, .add [1, 2] 7]
    let ops' : List (Op Nat) := [.add [1, 4] 0, .add [1, 2] 7, .add [1, 2, 3] 5]
    (additions ops).Perm (additions ops') ∧
      (ops.foldl Op.run {}).Alike (ops'.foldl Op.run {}) ∧
      [1] ∈ (ops.foldl Op.run {}).paths.map Prod.fst := by
  intro ops ops'
  have hperm : (additions ops).Perm (additions ops') := by
    show ([⟨[1, 2, 3], 5⟩] ++ [⟨[1, 4], 0⟩, ⟨[1, 2], 7⟩] : List (WeightedChain Nat)).Perm _
    exact List.perm_append_comm
  obtain ⟨halike, hpaths⟩ := foldl_run_alike hperm
  have hparted : Marks (additions ops) [1] := .inr ⟨⟨[1, 2, 3], 5⟩, .head _, ⟨[1, 4], 0⟩,
    .tail _ (.head _), 2, 4, by decide, by decide, by decide⟩
  exact ⟨hperm, halike, (hpaths [1]).mpr ⟨nofun, hparted⟩⟩

end CallTree
end Profiler
