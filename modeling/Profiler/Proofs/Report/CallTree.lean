/-
# Which chains a tree of call chains holds

A node holds the chains that go through it: each begins with the frames of the
node, and what it has after them is either nothing, or goes on in the child
that begins like it. The two weights of the node are those of these two kinds
(`CallNode.Holds`). The children of a node and the roots of the tree are
branches alike (`Branches`), and an insertion adds one chain to what they hold,
whether it ends at a node, goes through it, or cuts it in two
(`CallNode.Holds.insert`, `Branches.insertAmong`). Sorting changes nothing
(`CallNode.Holds.sort`, `Branches.sort`).

Key definitions: `WeightedChain`, `weightOf`, `CallNode.Holds`, `Branches`.
Key theorems: `CallNode.Holds.split`, `CallNode.Holds.insert`,
`Branches.insertAmong`, `Branches.sort`.
-/
import Mathlib.Data.List.Pairwise
import Profiler.Report.CallTree

namespace Profiler

variable {φ : Type}

theorem head?_eq_of_begins {as bs : List φ} (hne : as ≠ []) (h : as <+: bs) :
    bs.head? = as.head? := by
  obtain ⟨rest, rfl⟩ := h
  cases as with
  | nil => exact absurd rfl hne
  | cons a as => rfl

/-! ### Chains with their weights -/

/-- A chain that was added, and its weight. -/
structure WeightedChain (φ : Type) where
  chain : List φ
  weight : UInt64
  deriving Repr

/-- The weight of the chains of a kind, as a word. -/
def weightOf (kind : List φ → Bool) : List (WeightedChain φ) → UInt64
  | [] => 0
  | e :: rest => (if kind e.chain then e.weight else 0) + weightOf kind rest

/-- What the chains have after their first `n` frames. -/
def WeightedChain.after (n : Nat) (es : List (WeightedChain φ)) : List (WeightedChain φ) :=
  es.map fun e => { e with chain := e.chain.drop n }

/-- The chains that begin like a list. -/
def WeightedChain.like [DecidableEq φ] (frames : List φ) (es : List (WeightedChain φ)) :
    List (WeightedChain φ) := es.filter fun e => e.chain.head? = frames.head?

open WeightedChain (after like)

section Weights

variable {kind kind' : List φ → Bool} {es fs : List (WeightedChain φ)} {m n : Nat}

@[simp] theorem weightOf_append (kind : List φ → Bool) (es fs : List (WeightedChain φ)) :
    weightOf kind (es ++ fs) = weightOf kind es + weightOf kind fs := by
  induction es with
  | nil => simp [weightOf]
  | cons e rest ih => rw [List.cons_append, weightOf, weightOf, ih, UInt64.add_assoc]

theorem weightOf_singleton (kind : List φ → Bool) (e : WeightedChain φ) :
    weightOf kind [e] = if kind e.chain then e.weight else 0 := by
  rw [weightOf, weightOf, UInt64.add_zero]

theorem weightOf_congr (h : ∀ e ∈ es, kind e.chain = kind' e.chain) :
    weightOf kind es = weightOf kind' es := by
  induction es with
  | nil => rfl
  | cons e rest ih =>
    rw [weightOf, weightOf, h e List.mem_cons_self,
      ih fun f hf => h f (List.mem_cons_of_mem e hf)]

theorem weightOf_filter (kind kind' : List φ → Bool) (es : List (WeightedChain φ)) :
    weightOf kind (es.filter fun e => kind' e.chain) =
      weightOf (fun chain => kind' chain && kind chain) es := by
  induction es with
  | nil => rfl
  | cons e rest ih =>
    rw [List.filter_cons, weightOf]
    split
    · next h => simp [weightOf, ih, h]
    · next h => simp [ih, h]

theorem weightOf_after (kind : List φ → Bool) (n : Nat) (es : List (WeightedChain φ)) :
    weightOf kind (after n es) = weightOf (fun chain => kind (chain.drop n)) es := by
  induction es with
  | nil => rfl
  | cons e rest ih =>
    have hcons : after n (e :: rest) = { e with chain := e.chain.drop n } :: after n rest := rfl
    rw [hcons, weightOf, weightOf, ih]

theorem weightOf_add_not (kind : List φ → Bool) (es : List (WeightedChain φ)) :
    weightOf kind es + weightOf (fun chain => !kind chain) es = weightOf (fun _ => true) es := by
  induction es with
  | nil => rfl
  | cons e rest ih =>
    rw [weightOf, weightOf, weightOf, ← ih]
    by_cases h : kind e.chain = true
    · simp only [h, if_true, Bool.not_true, Bool.false_eq_true, if_false]
      grind
    · simp only [h, Bool.false_eq_true, if_false, Bool.not_false, if_true]
      grind

theorem weightOf_eq_zero (h : ∀ e ∈ es, kind e.chain = false) : weightOf kind es = 0 := by
  induction es with
  | nil => rfl
  | cons e rest ih =>
    rw [weightOf, h e List.mem_cons_self, ih fun f hf => h f (List.mem_cons_of_mem e hf)]
    rfl

theorem after_append (n : Nat) (es fs : List (WeightedChain φ)) :
    after n (es ++ fs) = after n es ++ after n fs := List.map_append

theorem after_after (m n : Nat) (es : List (WeightedChain φ)) :
    after n (after m es) = after (m + n) es := by
  simp [after, Function.comp_def]

theorem after_singleton (n : Nat) (e : WeightedChain φ) :
    after n [e] = [{ e with chain := e.chain.drop n }] := rfl

theorem mem_after {f : WeightedChain φ} :
    f ∈ after n es ↔ ∃ e ∈ es, { e with chain := e.chain.drop n } = f := List.mem_map

end Weights

namespace CallNode

@[elab_as_elim]
theorem inductionOn {motive : CallNode φ → Prop}
    (h : ∀ frames period childrenPeriod children, (∀ n ∈ children, motive n) →
      motive (mk frames period childrenPeriod children)) : ∀ n, motive n
  | mk frames period childrenPeriod children =>
    h frames period childrenPeriod children fun n _ => inductionOn h n
termination_by n => sizeOf n
decreasing_by
  have hlt := List.sizeOf_lt_of_mem ‹n ∈ children›
  simp only [mk.sizeOf_spec]
  omega

variable [DecidableEq φ]

/-- The node holds these chains, with their weights. -/
inductive Holds : CallNode φ → List (WeightedChain φ) → Prop where
  | intro {frames : List φ} {period childrenPeriod : UInt64} {children : List (CallNode φ)}
      {es : List (WeightedChain φ)} (frames_ne_nil : frames ≠ [])
      (through : ∀ e ∈ es, frames <+: e.chain)
      (period_eq : period = weightOf List.isEmpty (after frames.length es))
      (childrenPeriod_eq : childrenPeriod = weightOf (!·.isEmpty) (after frames.length es))
      (apart : children.Pairwise fun a b => a.frames.head? ≠ b.frames.head?)
      (cover : ∀ e ∈ after frames.length es, e.chain ≠ [] →
        ∃ n ∈ children, n.frames.head? = e.chain.head?)
      (below : ∀ n ∈ children, n.Holds (like n.frames (after frames.length es))) :
      (mk frames period childrenPeriod children).Holds es

end CallNode

/-- Nodes that the non-empty ones of some chains go on in, and the weight of
these. -/
structure Branches [DecidableEq φ] (nodes : List (CallNode φ)) (period : UInt64)
    (es : List (WeightedChain φ)) : Prop where
  period_eq : period = weightOf (!·.isEmpty) es
  apart : nodes.Pairwise fun a b => a.frames.head? ≠ b.frames.head?
  cover : ∀ e ∈ es, e.chain ≠ [] → ∃ n ∈ nodes, n.frames.head? = e.chain.head?
  below : ∀ n ∈ nodes, n.Holds (like n.frames es)

namespace CallNode

variable [DecidableEq φ] {frames common tail : List φ} {period childrenPeriod : UInt64}
  {children nodes : List (CallNode φ)} {n : CallNode φ} {es : List (WeightedChain φ)}
  {e : WeightedChain φ}

theorem holds_mk_iff : (mk frames period childrenPeriod children).Holds es ↔
    frames ≠ [] ∧ (∀ e ∈ es, frames <+: e.chain) ∧
      period = weightOf List.isEmpty (after frames.length es) ∧
      Branches children childrenPeriod (after frames.length es) := by
  constructor
  · rintro ⟨hne, hthrough, hperiod, hchildren, hapart, hcover, hbelow⟩
    exact ⟨hne, hthrough, hperiod, hchildren, hapart, hcover, hbelow⟩
  · rintro ⟨hne, hthrough, hperiod, hchildren, hapart, hcover, hbelow⟩
    exact ⟨hne, hthrough, hperiod, hchildren, hapart, hcover, hbelow⟩

theorem Holds.frames_ne_nil (h : n.Holds es) : n.frames ≠ [] := by
  cases h with
  | intro hne => exact hne

end CallNode

/-! ### One more chain -/

section Insertion

variable [DecidableEq φ] {frames common tail rest : List φ} {period childrenPeriod weight : UInt64}
  {children nodes : List (CallNode φ)} {n : CallNode φ} {es : List (WeightedChain φ)}

theorem like_append (frames : List φ) (es fs : List (WeightedChain φ)) :
    like frames (es ++ fs) = like frames es ++ like frames fs := List.filter_append es fs

theorem like_singleton (frames chain : List φ) (weight : UInt64) :
    like frames [⟨chain, weight⟩] = if chain.head? = frames.head? then [⟨chain, weight⟩] else [] := by
  by_cases h : chain.head? = frames.head? <;> simp [like, h]

theorem Branches.append_nil (h : Branches nodes period es) (weight : UInt64) :
    Branches nodes period (es ++ [⟨[], weight⟩]) where
  period_eq := by simp [weightOf, h.period_eq]
  apart := h.apart
  cover e he hne := by
    rcases List.mem_append.mp he with he | he
    · exact h.cover e he hne
    · rw [List.mem_singleton.mp he] at hne
      exact absurd rfl hne
  below n hn := by
    have hframes := (h.below n hn).frames_ne_nil
    have hhead : ([] : List φ).head? ≠ n.frames.head? := by
      cases hn' : n.frames with
      | nil => exact absurd hn' hframes
      | cons a as => exact nofun
    rw [like_append, like_singleton, if_neg hhead, List.append_nil]
    exact h.below n hn

namespace CallNode

theorem Holds.endAt (h : (mk frames period childrenPeriod children).Holds es) (weight : UInt64) :
    (mk frames (period + weight) childrenPeriod children).Holds (es ++ [⟨frames, weight⟩]) := by
  obtain ⟨hne, hthrough, hperiod, hbranches⟩ := holds_mk_iff.mp h
  have hafter : after frames.length (es ++ [⟨frames, weight⟩]) =
      after frames.length es ++ [⟨[], weight⟩] := by
    rw [after_append, after_singleton, List.drop_length]
  refine holds_mk_iff.mpr ⟨hne, ?_, ?_, ?_⟩
  · rw [List.forall_mem_append, List.forall_mem_singleton]
    exact ⟨hthrough, List.prefix_refl frames⟩
  · rw [hafter, weightOf_append, weightOf_singleton, hperiod]
    rfl
  · rw [hafter]
    exact hbranches.append_nil weight

theorem Holds.goOn (h : (mk frames period childrenPeriod children).Holds es) (hrest : rest ≠ [])
    (hnodes : Branches nodes (childrenPeriod + weight)
      (after frames.length es ++ [⟨rest, weight⟩])) :
    (mk frames period (childrenPeriod + weight) nodes).Holds (es ++ [⟨frames ++ rest, weight⟩]) := by
  obtain ⟨hne, hthrough, hperiod, -⟩ := holds_mk_iff.mp h
  have hafter : after frames.length (es ++ [⟨frames ++ rest, weight⟩]) =
      after frames.length es ++ [⟨rest, weight⟩] := by
    rw [after_append, after_singleton, List.drop_left]
  refine holds_mk_iff.mpr ⟨hne, ?_, ?_, ?_⟩
  · rw [List.forall_mem_append, List.forall_mem_singleton]
    exact ⟨hthrough, List.prefix_append frames rest⟩
  · rw [hafter, weightOf_append, weightOf_singleton, List.isEmpty_eq_false_iff.mpr hrest, hperiod]
    simp
  · rw [hafter]
    exact hnodes

omit [DecidableEq φ] in
theorem begins_after (h : ∀ e ∈ es, common ++ tail <+: e.chain) :
    ∀ f ∈ after common.length es, tail <+: f.chain := by
  intro f hf
  obtain ⟨e, he, rfl⟩ := mem_after.mp hf
  obtain ⟨rest, hrest⟩ := h e he
  refine ⟨rest, ?_⟩
  rw [← hrest, List.append_assoc, List.drop_left]

theorem like_eq_self (htail : tail ≠ []) (h : ∀ f ∈ es, tail <+: f.chain) : like tail es = es :=
  List.filter_eq_self.mpr fun f hf => decide_eq_true (head?_eq_of_begins htail (h f hf))

/-- A node that is cut in two holds what it held. -/
theorem Holds.split (h : (mk (common ++ tail) period childrenPeriod children).Holds es)
    (hcommon : common ≠ []) (htail : tail ≠ []) :
    (mk common 0 (period + childrenPeriod) [mk tail period childrenPeriod children]).Holds es := by
  obtain ⟨-, hthrough, hperiod, hbranches⟩ := holds_mk_iff.mp h
  have hbegin := begins_after hthrough
  have hgoes : ∀ f ∈ after common.length es, f.chain.isEmpty = false := by
    intro f hf
    refine List.isEmpty_eq_false_iff.mpr fun hnil => htail ?_
    exact List.prefix_nil.mp (hnil ▸ hbegin f hf)
  have hlike := like_eq_self htail hbegin
  have htwice : after tail.length (after common.length es) = after (common ++ tail).length es := by
    rw [after_after, List.length_append]
  have htotal : period + childrenPeriod = weightOf (!·.isEmpty) (after common.length es) := by
    calc period + childrenPeriod
        = weightOf (fun _ => true) (after (common ++ tail).length es) := by
          rw [hperiod, hbranches.period_eq, weightOf_add_not]
      _ = weightOf (fun _ => true) (after common.length es) := by
          rw [weightOf_after, weightOf_after]
      _ = weightOf (!·.isEmpty) (after common.length es) :=
          weightOf_congr fun f hf => by rw [hgoes f hf]; rfl
  refine holds_mk_iff.mpr ⟨hcommon, fun e he => ?_, ?_, htotal, List.pairwise_singleton _ _, ?_, ?_⟩
  · exact (List.prefix_append common tail).trans (hthrough e he)
  · exact (weightOf_eq_zero hgoes).symm
  · exact fun f hf _ => ⟨_, List.mem_singleton_self _,
      (head?_eq_of_begins htail (hbegin f hf)).symm⟩
  · rw [List.forall_mem_singleton]
    change (mk tail period childrenPeriod children).Holds (like tail (after common.length es))
    rw [hlike]
    refine holds_mk_iff.mpr ⟨htail, hbegin, ?_, ?_⟩
    · rw [htwice]
      exact hperiod
    · rw [htwice]
      exact hbranches

end CallNode

theorem insertAmong_of_forall_ne {chain : List φ} (weight : UInt64)
    (h : ∀ n ∈ nodes, n.frames.head? ≠ chain.head?) :
    CallNode.insertAmong chain weight nodes = nodes ++ [.leaf chain weight] := by
  induction nodes with
  | nil => rfl
  | cons n rest ih =>
    rw [CallNode.insertAmong, if_neg (h n List.mem_cons_self),
      ih fun m hm => h m (List.mem_cons_of_mem n hm)]
    rfl

theorem insertAmong_of_head?_eq {chain : List φ} (weight : UInt64) {before behind : List (CallNode φ)}
    (h : ∀ m ∈ before, m.frames.head? ≠ chain.head?) (hn : n.frames.head? = chain.head?) :
    CallNode.insertAmong chain weight (before ++ n :: behind) =
      before ++ n.insert chain weight :: behind := by
  induction before with
  | nil => rw [List.nil_append, CallNode.insertAmong, if_pos hn, List.nil_append]
  | cons m rest ih =>
    rw [List.cons_append, CallNode.insertAmong, if_neg (h m List.mem_cons_self),
      ih fun k hk => h k (List.mem_cons_of_mem m hk), List.cons_append]

theorem Branches.empty : Branches ([] : List (CallNode φ)) 0 [] :=
  ⟨rfl, List.Pairwise.nil, nofun, nofun⟩

theorem CallNode.holds_leaf {chain : List φ} (hne : chain ≠ []) (weight : UInt64) :
    (leaf chain weight).Holds [⟨chain, weight⟩] := by
  have hempty : (mk chain 0 0 []).Holds [] := holds_mk_iff.mpr ⟨hne, nofun, rfl, .empty⟩
  have h := hempty.endAt weight
  rwa [UInt64.zero_add] at h

theorem exists_commonSplit (frames chain : List φ) : ∃ common tail rest : List φ,
    commonSplit frames chain = (common, tail, rest) ∧ frames = common ++ tail ∧
      chain = common ++ rest ∧ ∀ a ∈ tail.head?, a ∉ rest.head? :=
  ⟨_, _, _, rfl, (commonSplit_fst_append_left frames chain).symm,
    (commonSplit_fst_append_right frames chain).symm, not_mem_head?_commonSplit frames chain⟩

omit [DecidableEq φ] in
theorem ne_nil_of_parted {common tail rest : List φ} (hne : common ++ tail ≠ [])
    (hhead : (common ++ tail).head? = (common ++ rest).head?)
    (hparted : ∀ a ∈ tail.head?, a ∉ rest.head?) : common ≠ [] := by
  rintro rfl
  rw [List.nil_append] at hne
  rw [List.nil_append, List.nil_append] at hhead
  obtain ⟨a, as, rfl⟩ := List.exists_cons_of_ne_nil hne
  exact hparted a rfl (hhead ▸ rfl)

theorem CallNode.head?_frames_insert {chain : List φ} (weight : UInt64) (hne : n.frames ≠ [])
    (hhead : n.frames.head? = chain.head?) :
    (n.insert chain weight).frames.head? = n.frames.head? := by
  obtain ⟨frames, period, childrenPeriod, children⟩ := n
  obtain ⟨common, tail, rest, hsplit, rfl, rfl, hparted⟩ := exists_commonSplit frames chain
  have hcommon := ne_nil_of_parted hne hhead hparted
  have hkept : common.head? = (common ++ tail).head? :=
    (head?_eq_of_begins hcommon (List.prefix_append common tail)).symm
  rw [CallNode.insert, hsplit]
  cases tail with
  | nil => cases rest <;> rfl
  | cons a as => cases rest <;> exact hkept

theorem like_congr {frames frames' : List φ} (h : frames.head? = frames'.head?)
    (es : List (WeightedChain φ)) : like frames es = like frames' es := by
  simp only [like, h]

theorem like_append_of_ne {frames chain : List φ} (h : chain.head? ≠ frames.head?)
    (es : List (WeightedChain φ)) (weight : UInt64) :
    like frames (es ++ [⟨chain, weight⟩]) = like frames es := by
  rw [like_append, like_singleton, if_neg h, List.append_nil]

theorem like_append_of_eq {frames chain : List φ} (h : chain.head? = frames.head?)
    (es : List (WeightedChain φ)) (weight : UInt64) :
    like frames (es ++ [⟨chain, weight⟩]) = like frames es ++ [⟨chain, weight⟩] := by
  rw [like_append, like_singleton, if_pos h]

omit [DecidableEq φ] in
theorem weightOf_goesOn_append {chain : List φ} (hne : chain ≠ []) (es : List (WeightedChain φ))
    (weight : UInt64) : weightOf (!·.isEmpty) (es ++ [⟨chain, weight⟩]) =
      weightOf (!·.isEmpty) es + weight := by
  rw [weightOf_append, weightOf_singleton, List.isEmpty_eq_false_iff.mpr hne]
  rfl

theorem Branches.like_eq_nil {chain : List φ} (h : Branches nodes period es) (hne : chain ≠ [])
    (hnone : ∀ n ∈ nodes, n.frames.head? ≠ chain.head?) : like chain es = [] := by
  refine List.filter_eq_nil_iff.mpr fun e he hlike => ?_
  have hhead := of_decide_eq_true hlike
  have hchain : e.chain ≠ [] := by
    intro hnil
    rw [hnil] at hhead
    exact hne (List.head?_eq_none_iff.mp hhead.symm)
  obtain ⟨n, hn, hn'⟩ := h.cover e he hchain
  exact hnone n hn (hn'.trans hhead)

/-- What relates each branch to its chains goes on to do so if it does for a
new branch and for the one that takes the chain. -/
theorem Branches.forall_mem_insertAmong {chain : List φ}
    {P : CallNode φ → List (WeightedChain φ) → Prop} (h : Branches nodes period es)
    (hne : chain ≠ []) (hP : ∀ n ∈ nodes, P n (like n.frames es))
    (hleaf : P (.leaf chain weight) [⟨chain, weight⟩])
    (hinsert : ∀ n ∈ nodes, n.frames.head? = chain.head? →
      P (n.insert chain weight) (like n.frames es ++ [⟨chain, weight⟩])) :
    ∀ n ∈ CallNode.insertAmong chain weight nodes,
      P n (like n.frames (es ++ [⟨chain, weight⟩])) := by
  intro n hn
  by_cases hsome : ∃ m ∈ nodes, m.frames.head? = chain.head?
  · obtain ⟨m, hm, hhead⟩ := hsome
    have hkept := CallNode.head?_frames_insert weight (h.below m hm).frames_ne_nil hhead
    have htaken : P (m.insert chain weight)
        (like (m.insert chain weight).frames (es ++ [⟨chain, weight⟩])) := by
      rw [like_congr hkept, like_append_of_eq hhead.symm]
      exact hinsert m hm hhead
    obtain ⟨before, behind, rfl⟩ := List.append_of_mem hm
    obtain ⟨-, hbehind, hacross⟩ := List.pairwise_append.mp h.apart
    have hother : ∀ k, k ∈ before ∨ k ∈ behind → k.frames.head? ≠ chain.head? := by
      rintro k (hk | hk)
      · exact hhead ▸ hacross k hk m List.mem_cons_self
      · exact hhead ▸ Ne.symm ((List.pairwise_cons.mp hbehind).1 k hk)
    have hstays : ∀ k, k ∈ before ∨ k ∈ behind →
        P k (like k.frames (es ++ [⟨chain, weight⟩])) := by
      intro k hk
      rw [like_append_of_ne (Ne.symm (hother k hk))]
      refine hP k (List.mem_append.mpr ?_)
      exact hk.imp_right (List.mem_cons_of_mem m)
    rw [insertAmong_of_head?_eq weight (fun k hk => hother k (.inl hk)) hhead] at hn
    rcases List.mem_append.mp hn with hn | hn
    · exact hstays n (.inl hn)
    · rcases List.mem_cons.mp hn with rfl | hn
      · exact htaken
      · exact hstays n (.inr hn)
  · have hnone : ∀ m ∈ nodes, m.frames.head? ≠ chain.head? := fun m hm heq => hsome ⟨m, hm, heq⟩
    rw [insertAmong_of_forall_ne weight hnone] at hn
    rcases List.mem_append.mp hn with hn | hn
    · rw [like_append_of_ne (Ne.symm (hnone n hn))]
      exact hP n hn
    · rw [List.mem_singleton.mp hn]
      change P (.leaf chain weight) (like chain (es ++ [⟨chain, weight⟩]))
      rw [like_append_of_eq rfl, h.like_eq_nil hne hnone]
      exact hleaf

/-- The branches take a chain that none of them begins like. -/
theorem Branches.insertAmong_new {chain : List φ} (h : Branches nodes period es) (hne : chain ≠ [])
    (hnone : ∀ n ∈ nodes, n.frames.head? ≠ chain.head?) (weight : UInt64) :
    Branches (CallNode.insertAmong chain weight nodes) (period + weight)
      (es ++ [⟨chain, weight⟩]) := by
  have hbelow := h.forall_mem_insertAmong hne h.below (CallNode.holds_leaf hne weight)
    fun n hn hhead => absurd hhead (hnone n hn)
  rw [insertAmong_of_forall_ne weight hnone] at hbelow ⊢
  refine ⟨?_, ?_, ?_, hbelow⟩
  · rw [weightOf_goesOn_append hne, h.period_eq]
  · refine List.pairwise_append.mpr ⟨h.apart, List.pairwise_singleton _ _, fun n hn m hm => ?_⟩
    rw [List.mem_singleton.mp hm]
    exact hnone n hn
  · intro e he hchain
    rcases List.mem_append.mp he with he | he
    · obtain ⟨n, hn, hhead⟩ := h.cover e he hchain
      exact ⟨n, List.mem_append_left _ hn, hhead⟩
    · rw [List.mem_singleton.mp he]
      exact ⟨.leaf chain weight, by simp, rfl⟩

/-- The branches take a chain that goes through one of them. -/
theorem Branches.insertAmong_like {chain : List φ} (h : Branches nodes period es) (hne : chain ≠ [])
    (hn : n ∈ nodes) (hhead : n.frames.head? = chain.head?)
    (hinsert : ∀ m ∈ nodes, m.frames.head? = chain.head? →
      (m.insert chain weight).Holds (like m.frames es ++ [⟨chain, weight⟩])) :
    Branches (CallNode.insertAmong chain weight nodes) (period + weight)
      (es ++ [⟨chain, weight⟩]) := by
  have hbelow := h.forall_mem_insertAmong hne h.below (CallNode.holds_leaf hne weight) hinsert
  have hkept := CallNode.head?_frames_insert weight (h.below n hn).frames_ne_nil hhead
  obtain ⟨before, behind, rfl⟩ := List.append_of_mem hn
  obtain ⟨hbefore, hbehind, hacross⟩ := List.pairwise_append.mp h.apart
  obtain ⟨hbehind, hrest⟩ := List.pairwise_cons.mp hbehind
  have hother : ∀ m ∈ before, m.frames.head? ≠ chain.head? :=
    fun m hm => hhead ▸ hacross m hm n List.mem_cons_self
  rw [insertAmong_of_head?_eq weight hother hhead] at hbelow ⊢
  refine ⟨?_, ?_, ?_, hbelow⟩
  · rw [weightOf_goesOn_append hne, h.period_eq]
  · refine List.pairwise_append.mpr ⟨hbefore, List.pairwise_cons.mpr ⟨?_, hrest⟩, ?_⟩
    · exact fun m hm => hkept ▸ hbehind m hm
    · intro m hm k hk
      rcases List.mem_cons.mp hk with rfl | hk
      · exact hkept ▸ hacross m hm n List.mem_cons_self
      · exact hacross m hm k (List.mem_cons_of_mem n hk)
  · intro e he hchain
    rcases List.mem_append.mp he with he | he
    · obtain ⟨m, hm, hm'⟩ := h.cover e he hchain
      rcases List.mem_append.mp hm with hm | hm
      · exact ⟨m, List.mem_append_left _ hm, hm'⟩
      · rcases List.mem_cons.mp hm with rfl | hm
        · exact ⟨_, List.mem_append_right _ List.mem_cons_self, hkept.trans hm'⟩
        · exact ⟨m, List.mem_append_right _ (List.mem_cons_of_mem _ hm), hm'⟩
    · rw [List.mem_singleton.mp he]
      exact ⟨_, List.mem_append_right _ List.mem_cons_self, hkept.trans hhead⟩

/-- The branches take a chain if every one of them takes a chain that begins
like it. -/
theorem Branches.insertAmong {chain : List φ} (h : Branches nodes period es) (hne : chain ≠ [])
    (hinsert : ∀ n ∈ nodes, ∀ fs, n.Holds fs → n.frames.head? = chain.head? →
      (n.insert chain weight).Holds (fs ++ [⟨chain, weight⟩])) :
    Branches (CallNode.insertAmong chain weight nodes) (period + weight)
      (es ++ [⟨chain, weight⟩]) := by
  by_cases hsome : ∃ n ∈ nodes, n.frames.head? = chain.head?
  · obtain ⟨n, hn, hhead⟩ := hsome
    exact h.insertAmong_like hne hn hhead fun m hm hm' => hinsert m hm _ (h.below m hm) hm'
  · exact h.insertAmong_new hne (fun n hn hhead => hsome ⟨n, hn, hhead⟩) weight

/-- **A node takes one more chain that begins like it.** The chain ends where
the frames of the node end, or goes on after them, or the node is cut in two
where they part. -/
theorem CallNode.Holds.insert {chain : List φ} (h : n.Holds es)
    (hhead : n.frames.head? = chain.head?) (weight : UInt64) :
    (n.insert chain weight).Holds (es ++ [⟨chain, weight⟩]) := by
  induction n using CallNode.inductionOn generalizing chain es with
  | h frames period childrenPeriod children ih =>
    have hframes := h.frames_ne_nil
    obtain ⟨common, tail, rest, hsplit, rfl, rfl, hparted⟩ := exists_commonSplit frames chain
    have hcommon := ne_nil_of_parted hframes hhead hparted
    rw [CallNode.insert, hsplit]
    cases tail with
    | nil =>
      -- the chain has all frames of the node
      rw [List.append_nil] at h ⊢
      cases rest with
      | nil =>
        rw [List.append_nil]
        exact h.endAt weight
      | cons a as =>
        obtain ⟨-, -, -, hbranches⟩ := holds_mk_iff.mp h
        exact h.goOn nofun (hbranches.insertAmong nofun fun n hn fs hfs hn' => ih n hn hfs hn')
    | cons b bs =>
      -- it leaves the node in the middle: first the cut, which changes nothing that is held
      have hcut := h.split hcommon nofun
      cases rest with
      | nil =>
        rw [List.append_nil]
        have hend := hcut.endAt weight
        rwa [UInt64.zero_add] at hend
      | cons a as =>
        obtain ⟨-, -, -, hbranches⟩ := holds_mk_iff.mp hcut
        have hnone : ∀ n ∈ [mk (b :: bs) period childrenPeriod children],
            n.frames.head? ≠ (a :: as).head? := by
          rw [List.forall_mem_singleton]
          exact fun heq => hparted b rfl heq.symm
        have hnew := hbranches.insertAmong_new (List.cons_ne_nil a as) hnone weight
        rw [insertAmong_of_forall_ne weight hnone] at hnew
        exact hcut.goOn nofun hnew

end Insertion

/-! ### Sorting -/

section Sorting

variable [DecidableEq φ] {nodes : List (CallNode φ)} {period : UInt64} {n : CallNode φ}
  {es : List (WeightedChain φ)}

/-- The order of the branches does not count. -/
theorem Branches.perm {nodes' : List (CallNode φ)} (h : Branches nodes period es)
    (hperm : nodes.Perm nodes') : Branches nodes' period es where
  period_eq := h.period_eq
  apart := (hperm.pairwise_iff fun hne => Ne.symm hne).mp h.apart
  cover e he hne := by
    obtain ⟨n, hn, hhead⟩ := h.cover e he hne
    exact ⟨n, hperm.mem_iff.mp hn, hhead⟩
  below n hn := h.below n (hperm.mem_iff.mpr hn)

omit [DecidableEq φ] in
theorem CallNode.sortEach_eq_map (nodes : List (CallNode φ)) : sortEach nodes = nodes.map sort := by
  induction nodes with
  | nil => rfl
  | cons n rest ih => rw [sortEach, ih, List.map_cons]

omit [DecidableEq φ] in
theorem CallNode.frames_sort (n : CallNode φ) : n.sort.frames = n.frames := by
  obtain ⟨frames, period, childrenPeriod, children⟩ := n
  rw [sort]
  rfl

/-- Branches are sorted if each of them is. -/
theorem Branches.sort (h : Branches nodes period es)
    (hsort : ∀ n ∈ nodes, ∀ fs, n.Holds fs → n.sort.Holds fs) :
    Branches (CallNode.sortSiblings (CallNode.sortEach nodes)) period es := by
  have heach : Branches (nodes.map CallNode.sort) period es := by
    refine ⟨h.period_eq, ?_, ?_, ?_⟩
    · refine List.pairwise_map.mpr (h.apart.imp fun hne => ?_)
      rwa [CallNode.frames_sort, CallNode.frames_sort]
    · intro e he hne
      obtain ⟨n, hn, hhead⟩ := h.cover e he hne
      exact ⟨n.sort, List.mem_map_of_mem hn, by rwa [CallNode.frames_sort]⟩
    · rw [List.forall_mem_map]
      intro n hn
      rw [CallNode.frames_sort]
      exact hsort n hn _ (h.below n hn)
  rw [CallNode.sortEach_eq_map]
  exact heach.perm (List.mergeSort_perm _ _).symm

/-- **A sorted node holds what it held.** -/
theorem CallNode.Holds.sort (h : n.Holds es) : n.sort.Holds es := by
  induction n using CallNode.inductionOn generalizing es with
  | h frames period childrenPeriod children ih =>
    obtain ⟨hne, hthrough, hperiod, hbranches⟩ := holds_mk_iff.mp h
    rw [CallNode.sort]
    exact holds_mk_iff.mpr ⟨hne, hthrough, hperiod, hbranches.sort fun n hn fs hfs => ih n hn hfs⟩

end Sorting

end Profiler
