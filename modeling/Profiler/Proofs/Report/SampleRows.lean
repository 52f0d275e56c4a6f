/-
# The rows of a report and its samples

The keys order rows totally, and two rows are equal in that order if they have
the same value for every key. A sample that is added finds the one row that has
its values, or the place between the smaller and the greater ones
(`insertRow_cases`), so the rows stay in order, and each of them gathers the
samples that have its values, with the names and maps that these had when they
were added (`SampleTable.Summarizes.run`). Shown by weight, rows that weigh the
same stay in the order of their keys (`SampleTable.pairwise_byWeight`).

Key definitions: `SampleRow.Agree`, `InOrder`, `Taken`, `SampleRow.Gathers`,
`SampleTable.Summarizes`, `SampleTable.Op`, `SampleTable.taken`.
Key theorems: `compareRows_eq_iff`, `insertRow_cases`, `SampleTable.Summarizes.taking`,
`SampleTable.Summarizes.run`, `SampleTable.pairwise_byWeight`,
`SampleTable.summarizes_foldl_run`.
-/
import Profiler.Proofs.Report.CallShape
import Profiler.Proofs.Sorting
import Profiler.Report.SampleTable

namespace Profiler

/-! ### The order of rows -/

/-- Two rows have the same value for a key. -/
def SortKey.Agrees (k : SortKey) (a b : SampleRow) : Prop :=
  match k with
  | pid => a.pid = b.pid
  | tid => a.tid = b.tid
  | comm => a.comm = b.comm
  | dso => a.map.filename = b.map.filename

instance (k : SortKey) (a b : SampleRow) : Decidable (k.Agrees a b) :=
  match k with
  | .pid => inferInstanceAs (Decidable (a.pid = b.pid))
  | .tid => inferInstanceAs (Decidable (a.tid = b.tid))
  | .comm => inferInstanceAs (Decidable (a.comm = b.comm))
  | .dso => inferInstanceAs (Decidable (a.map.filename = b.map.filename))

/-- Two rows have the same value for each of these keys. -/
def SampleRow.Agree (keys : List SortKey) (a b : SampleRow) : Prop := ∀ k ∈ keys, k.Agrees a b

instance (keys : List SortKey) (a b : SampleRow) : Decidable (SampleRow.Agree keys a b) :=
  inferInstanceAs (Decidable (∀ k ∈ keys, k.Agrees a b))

open SampleRow (Agree)

variable {keys : List SortKey} {a b c row : SampleRow} {rows before after : List SampleRow}

namespace SortKey

theorem compare_eq_iff {k : SortKey} : k.compare a b = .eq ↔ k.Agrees a b := by
  cases k with
  | pid => exact Std.compare_eq_iff_eq (a := a.pid)
  | tid => exact Std.compare_eq_iff_eq (a := a.tid)
  | comm => exact Std.compare_eq_iff_eq (a := a.comm)
  | dso => exact Std.compare_eq_iff_eq (a := a.map.filename)

instance transCmp (k : SortKey) : Std.TransCmp k.compare :=
  match k with
  | .pid => inferInstanceAs (Std.TransCmp (compareOn SampleRow.pid))
  | .tid => inferInstanceAs (Std.TransCmp (compareOn SampleRow.tid))
  | .comm => inferInstanceAs (Std.TransCmp (compareOn SampleRow.comm))
  | .dso => inferInstanceAs (Std.TransCmp (compareOn fun row : SampleRow => row.map.filename))

end SortKey

theorem compareRows_cons (k : SortKey) (keys : List SortKey) :
    compareRows (k :: keys) = compareLex k.compare (compareRows keys) := rfl

instance transCmp_compareRows (keys : List SortKey) : Std.TransCmp (compareRows keys) := by
  induction keys with
  | nil =>
    refine @Std.TransCmp.mk _ _ ⟨?_⟩ ?_
    · intro a b; rfl
    · intro a b c _ _; rfl
  | cons k keys ih =>
    rw [compareRows_cons]
    infer_instance

/-- **Rows that agree on the keys are the ones that are equal in the order.** -/
theorem compareRows_eq_iff : compareRows keys a b = .eq ↔ Agree keys a b := by
  unfold Agree
  induction keys with
  | nil => simp [compareRows]
  | cons k keys ih =>
    have hcons : compareRows (k :: keys) a b = (k.compare a b).then (compareRows keys a b) := rfl
    rw [hcons, Ordering.then_eq_eq, SortKey.compare_eq_iff, ih, List.forall_mem_cons]

namespace SampleRow.Agree

theorem refl (keys : List SortKey) (a : SampleRow) : Agree keys a a :=
  compareRows_eq_iff.mp Std.ReflCmp.compare_self

theorem symm (h : Agree keys a b) : Agree keys b a :=
  compareRows_eq_iff.mp (Std.OrientedCmp.eq_symm (compareRows_eq_iff.mpr h))

theorem compareRows_left (h : Agree keys a b) : compareRows keys a c = compareRows keys b c :=
  Std.TransCmp.congr_left (compareRows_eq_iff.mpr h)

theorem compareRows_right (h : Agree keys b c) : compareRows keys a b = compareRows keys a c :=
  Std.TransCmp.congr_right (compareRows_eq_iff.mpr h)

theorem trans (h : Agree keys a b) (h' : Agree keys b c) : Agree keys a c := by
  rw [← compareRows_eq_iff, h.compareRows_left]
  exact compareRows_eq_iff.mpr h'

theorem ne_lt (h : Agree keys a c) (h' : Agree keys b c) : compareRows keys a b ≠ .lt := by
  rw [h.compareRows_left, ← h'.compareRows_left, compareRows_eq_iff.mpr (refl keys b)]
  exact nofun

theorem congr_left (h : Agree keys a b) : Agree keys a c ↔ Agree keys b c := by
  rw [← compareRows_eq_iff, ← compareRows_eq_iff, h.compareRows_left]

theorem of_fields (hpid : a.pid = b.pid) (htid : a.tid = b.tid) (hcomm : a.comm = b.comm)
    (hmap : a.map = b.map) : Agree keys a b := by
  intro k _
  cases k with
  | pid => exact hpid
  | tid => exact htid
  | comm => exact hcomm
  | dso => exact congrArg MapEntry.filename hmap

end SampleRow.Agree

/-- Each row is smaller than those behind it. -/
def InOrder (keys : List SortKey) (rows : List SampleRow) : Prop :=
  rows.Pairwise fun a b => compareRows keys a b = .lt

namespace InOrder

theorem append_iff : InOrder keys (before ++ after) ↔ InOrder keys before ∧ InOrder keys after ∧
    ∀ a ∈ before, ∀ b ∈ after, compareRows keys a b = .lt := List.pairwise_append

theorem cons_iff : InOrder keys (row :: rows) ↔
    (∀ b ∈ rows, compareRows keys row b = .lt) ∧ InOrder keys rows := List.pairwise_cons

theorem replace (h : InOrder keys (before ++ a :: after)) (hagree : Agree keys a b) :
    InOrder keys (before ++ b :: after) := by
  obtain ⟨hbefore, hafter, hacross⟩ := append_iff.mp h
  obtain ⟨hleast, hafter⟩ := cons_iff.mp hafter
  refine append_iff.mpr ⟨hbefore, cons_iff.mpr ⟨fun y hy => ?_, hafter⟩, fun x hx y hy => ?_⟩
  · rw [← hagree.compareRows_left]
    exact hleast y hy
  · rcases List.mem_cons.mp hy with rfl | hy
    · rw [← hagree.compareRows_right]
      exact hacross x hx a List.mem_cons_self
    · exact hacross x hx y (List.mem_cons_of_mem _ hy)

theorem map (h : InOrder keys rows) {f : SampleRow → SampleRow}
    (hf : ∀ row, Agree keys row (f row)) : InOrder keys (rows.map f) := by
  refine List.pairwise_map.mpr (h.imp fun {a b} hlt => ?_)
  rw [← (hf a).compareRows_left, ← (hf b).compareRows_right]
  exact hlt

/-- **No two rows have the same keys.** -/
theorem not_agree (h : InOrder keys (before ++ row :: after)) (hagree : Agree keys row a) :
    ∀ x ∈ before ++ after, ¬ Agree keys x a := by
  obtain ⟨-, hafter, hacross⟩ := append_iff.mp h
  obtain ⟨hgreater, -⟩ := cons_iff.mp hafter
  intro x hx hxa
  rcases List.mem_append.mp hx with hx | hx
  · exact hxa.ne_lt hagree (hacross x hx row List.mem_cons_self)
  · exact hagree.ne_lt hxa (hgreater x hx)

theorem filter_eq_singleton (h : InOrder keys rows) (hrow : row ∈ rows) (hagree : Agree keys row a) :
    (rows.filter fun x => Agree keys x a) = [row] := by
  obtain ⟨before, after, rfl⟩ := List.append_of_mem hrow
  have hothers := h.not_agree hagree
  have hnone : ((before ++ after).filter fun x => Agree keys x a) = [] := by
    rw [List.filter_eq_nil_iff]
    simpa using hothers
  rw [List.filter_append] at hnone
  obtain ⟨hbefore, hafter⟩ := List.append_eq_nil_iff.mp hnone
  rw [List.filter_append, List.filter_cons_of_pos (by simpa using hagree), hbefore, hafter,
    List.nil_append]

end InOrder

/-! ### The place of a sample -/

theorem mem_middle {α : Type} {x y : α} {l l' : List α} :
    x ∈ l ++ y :: l' ↔ x = y ∨ x ∈ l ++ l' := by
  rw [List.perm_middle.mem_iff, List.mem_cons]

/-- **What an insertion does** to rows that are in order: the new row is merged
with the one that has its keys, or put between the smaller and the greater
rows. They are in order again. -/
theorem insertRow_cases (h : InOrder keys rows) (row : SampleRow) :
    ∃ before new after, insertRow keys row rows = (before.length, before ++ new :: after) ∧
      InOrder keys (before ++ new :: after) ∧ Agree keys new row ∧
      ((∃ same, rows = before ++ same :: after ∧ Agree keys same row ∧ new = same.merge row) ∨
        rows = before ++ after ∧ new = row) := by
  induction rows with
  | nil => exact ⟨[], row, [], rfl, List.pairwise_singleton _ _, .refl keys row, .inr ⟨rfl, rfl⟩⟩
  | cons first rest ih =>
    obtain ⟨hleast, hrest⟩ := InOrder.cons_iff.mp h
    rw [insertRow]
    cases hfirst : compareRows keys first row with
    | eq =>
      have hsame := compareRows_eq_iff.mp hfirst
      have hmerged : Agree keys first (first.merge row) := .of_fields rfl rfl rfl rfl
      have horder : InOrder keys ([] ++ first.merge row :: rest) := InOrder.replace h hmerged
      exact ⟨[], first.merge row, rest, rfl, horder, hmerged.congr_left.mp hsame,
        .inl ⟨first, rfl, hsame, rfl⟩⟩
    | gt =>
      have hless : compareRows keys row first = .lt := Std.OrientedCmp.gt_iff_lt.mp hfirst
      have hall : ∀ x ∈ first :: rest, compareRows keys row x = .lt :=
        List.forall_mem_cons.mpr ⟨hless, fun x hx => Std.TransCmp.lt_trans hless (hleast x hx)⟩
      exact ⟨[], row, first :: rest, rfl, InOrder.cons_iff.mpr ⟨hall, h⟩, .refl keys row,
        .inr ⟨rfl, rfl⟩⟩
    | lt =>
      dsimp only
      obtain ⟨before, new, after, hinsert, horder, hnew, hrows⟩ := ih hrest
      have hothers : ∀ x ∈ before ++ after, x ∈ rest := by
        rcases hrows with ⟨same, rfl, -⟩ | ⟨rfl, -⟩
        · exact fun x hx => mem_middle.mpr (.inr hx)
        · exact fun x hx => hx
      have hfirst' : ∀ x ∈ before ++ new :: after, compareRows keys first x = .lt := by
        intro x hx
        rcases mem_middle.mp hx with rfl | hx
        · rw [hnew.compareRows_right]
          exact hfirst
        · exact hleast x (hothers x hx)
      refine ⟨first :: before, new, after, by rw [hinsert]; rfl,
        InOrder.cons_iff.mpr ⟨hfirst', horder⟩, hnew, ?_⟩
      rcases hrows with ⟨same, rfl, hsame, rfl⟩ | ⟨rfl, rfl⟩
      · exact .inl ⟨same, rfl, hsame, rfl⟩
      · exact .inr ⟨rfl, rfl⟩

/-! ### Sums of words -/

/-- The sum of some words, which starts again from zero. -/
def wordSum {α : Type} (f : α → UInt64) : List α → UInt64
  | [] => 0
  | x :: rest => f x + wordSum f rest

theorem wordSum_append {α : Type} (f : α → UInt64) (l l' : List α) :
    wordSum f (l ++ l') = wordSum f l + wordSum f l' := by
  induction l with
  | nil => simp [wordSum]
  | cons x l ih => rw [List.cons_append, wordSum, wordSum, ih, UInt64.add_assoc]

theorem wordSum_middle {α : Type} (f : α → UInt64) (l l' : List α) (x : α) :
    wordSum f (l ++ x :: l') = f x + wordSum f (l ++ l') := by
  rw [wordSum_append, wordSum_append, wordSum]
  ac_rfl

theorem wordSum_map {α β : Type} (f : β → UInt64) (g : α → β) (l : List α) :
    wordSum f (l.map g) = wordSum (fun x => f (g x)) l := by
  induction l with
  | nil => rfl
  | cons x l ih => rw [List.map_cons, wordSum, wordSum, ih]

/-! ### What a row gathers -/

/-- A tree that shows these chains and no nodes beside theirs. -/
structure CallTree.IsTrieOf (t : CallTree String) (es : List (WeightedChain String)) : Prop where
  branches : Branches t.children t.childrenPeriod es
  compact : ∀ n ∈ t.children, n.Compact (WeightedChain.like n.frames es)

namespace CallTree.IsTrieOf

variable {t : CallTree String} {es : List (WeightedChain String)}

theorem empty : IsTrieOf {} [] := ⟨Branches.empty, List.forall_mem_nil _⟩

theorem run (h : t.IsTrieOf es) (op : Op String) : (op.run t).IsTrieOf (es ++ additions [op]) :=
  ⟨Op.branches_run h.branches op, Op.compact_run h.branches h.compact op⟩

theorem insert (h : t.IsTrieOf es) (chain : List String) (weight : UInt64) :
    (t.insert chain weight).IsTrieOf (es ++ [⟨chain, weight⟩]) := h.run (.add chain weight)

theorem sort (h : t.IsTrieOf es) : t.sort.IsTrieOf es := by
  have hsort := h.run .sort
  rwa [show additions [(Op.sort : Op String)] = [] from rfl, List.append_nil] at hsort

end CallTree.IsTrieOf

/-- A sample as it was when it was added, with the name and the map that were
found then; and the call chain that came with it. -/
structure Taken where
  pid : Pid
  tid : Pid
  comm : String
  ip : UInt64
  time : UInt64
  period : UInt64
  map : MapEntry
  chain? : Option (List String) := none

namespace Taken

/-- The row of a sample that is alone. -/
def alone (x : Taken) : SampleRow :=
  { pid := x.pid, tid := x.tid, comm := x.comm, ip := x.ip, time := x.time, period := x.period,
    count := 1, map := x.map }

/-- The chain has the weight of the sample. -/
def weighted? (x : Taken) : Option (WeightedChain String) := x.chain?.map (⟨·, x.period⟩)

/-- The samples with the keys of a row. -/
def own (keys : List SortKey) (row : SampleRow) (xs : List Taken) : List Taken :=
  xs.filter fun x => Agree keys row x.alone

variable {x : Taken} {xs : List Taken}

theorem own_congr (h : Agree keys a b) (xs : List Taken) : own keys a xs = own keys b xs :=
  List.filter_congr fun x _ => by simp only [h.congr_left]

theorem own_append_of_agree (h : Agree keys row x.alone) :
    own keys row (xs ++ [x]) = own keys row xs ++ [x] := by
  simp [own, List.filter_append, h]

theorem own_append_of_not (h : ¬ Agree keys row x.alone) :
    own keys row (xs ++ [x]) = own keys row xs := by
  simp [own, List.filter_append, h]

theorem own_append_of_new (h : ∀ y ∈ xs, ¬ Agree keys y.alone x.alone) :
    own keys x.alone (xs ++ [x]) = [x] := by
  have hnone : own keys x.alone xs = [] := by
    rw [own, List.filter_eq_nil_iff]
    intro y hy hxy
    exact h y hy (of_decide_eq_true hxy).symm
  rw [own_append_of_agree (.refl keys x.alone), hnone, List.nil_append]

end Taken

namespace SampleRow

/-- A row holds these samples: their periods and their number, which start
again from zero, their chains, and the rest of the first of them. -/
structure Gathers (row : SampleRow) (xs : List Taken) : Prop where
  period_eq : row.period = wordSum Taken.period xs
  count_eq : row.count = UInt64.ofNat xs.length
  chains : row.chains.IsTrieOf (xs.filterMap Taken.weighted?)
  first : ∃ x, xs.head? = some x ∧
    row = { x.alone with period := row.period, count := row.count, chains := row.chains }

/-- The row with the chain of a sample, if there is one. -/
def withChain (row : SampleRow) (x : Taken) : SampleRow :=
  match x.chain? with
  | none => row
  | some chain => row.addChain chain x.period

variable {x : Taken} {xs : List Taken}

theorem agree_withChain (keys : List SortKey) (row : SampleRow) (x : Taken) :
    Agree keys row (row.withChain x) := by
  unfold withChain
  cases x.chain? <;> exact .of_fields rfl rfl rfl rfl

theorem withChain_eq (row : SampleRow) (x : Taken) :
    row.withChain x = { row with chains := (row.withChain x).chains } := by
  unfold withChain
  cases x.chain? <;> rfl

theorem isTrieOf_withChain {es : List (WeightedChain String)} (h : row.chains.IsTrieOf es)
    (x : Taken) : (row.withChain x).chains.IsTrieOf (es ++ [x].filterMap Taken.weighted?) := by
  unfold withChain
  cases hchain : x.chain? with
  | none =>
    have hnone : x.weighted? = none := by rw [Taken.weighted?, hchain]; rfl
    simpa [hnone] using h
  | some chain =>
    have hsome : x.weighted? = some ⟨chain, x.period⟩ := by rw [Taken.weighted?, hchain]; rfl
    simpa [hsome, addChain] using h.insert chain x.period

/-- One more sample is merged with its row. -/
theorem Gathers.merge (h : row.Gathers xs) (x : Taken) :
    ((row.merge x.alone).withChain x).Gathers (xs ++ [x]) := by
  obtain ⟨first, hfirst, hrow⟩ := h.first
  have hchains : (row.merge x.alone).chains.IsTrieOf (xs.filterMap Taken.weighted?) := h.chains
  refine ⟨?_, ?_, ?_, first, ?_, ?_⟩
  · rw [withChain_eq, wordSum_append, ← h.period_eq]
    simp [SampleRow.merge, Taken.alone, wordSum]
  · rw [withChain_eq, List.length_append, UInt64.ofNat_add, ← h.count_eq]
    rfl
  · rw [List.filterMap_append]
    exact isTrieOf_withChain hchains x
  · rw [List.head?_append, hfirst]
    rfl
  · rw [withChain_eq]
    simp only [SampleRow.merge]
    rw [hrow]

theorem gathers_singleton (x : Taken) : (x.alone.withChain x).Gathers [x] := by
  have hempty : x.alone.chains.IsTrieOf [] := CallTree.IsTrieOf.empty
  have hchains := isTrieOf_withChain hempty x
  refine ⟨?_, ?_, hchains, x, rfl, ?_⟩
  · rw [withChain_eq]
    simp [Taken.alone, wordSum]
  · rw [withChain_eq]
    rfl
  · rw [withChain_eq]

theorem Gathers.sort (h : row.Gathers xs) :
    { row with chains := row.chains.sort : SampleRow }.Gathers xs := by
  obtain ⟨first, hfirst, hrow⟩ := h.first
  exact ⟨h.period_eq, h.count_eq, h.chains.sort, first, hfirst, by rw [hrow]⟩

end SampleRow

/-! ### What a table holds -/

theorem wordSum_insertRow (h : InOrder keys rows) {f : SampleRow → UInt64}
    (hmerge : ∀ a b : SampleRow, f (a.merge b) = f a + f b) (row : SampleRow) :
    wordSum f (insertRow keys row rows).2 = wordSum f rows + f row := by
  obtain ⟨before, new, after, hinsert, -, -, hrows⟩ := insertRow_cases h row
  rw [hinsert, wordSum_middle]
  rcases hrows with ⟨same, rfl, -, rfl⟩ | ⟨rfl, rfl⟩
  · rw [hmerge, wordSum_middle]
    ac_rfl
  · exact UInt64.add_comm _ _

theorem modify_length {α : Type} (before : List α) (a : α) (after : List α) (f : α → α) :
    (before ++ a :: after).modify before.length f = before ++ f a :: after := by
  induction before with
  | nil => rfl
  | cons x before ih => exact congrArg (x :: ·) ih

namespace SampleTable

/-- The table with one more sample, and with the threads that are known then. -/
def taking (t : SampleTable) (threads : ThreadTree) (x : Taken) : SampleTable :=
  let placed := insertRow t.keys x.alone t.rows
  { t with
    threads
    rows := placed.2.modify placed.1 (·.withChain x)
    totalCount := t.totalCount + 1
    totalPeriod := t.totalPeriod + x.period }

/-- A table of these samples: its rows are in order, each sample is in a row,
and the totals are the sums over the rows. -/
structure Summarizes (t : SampleTable) (keys : List SortKey) (xs : List Taken) : Prop where
  keys_eq : t.keys = keys
  inOrder : InOrder keys t.rows
  covers : ∀ x ∈ xs, ∃ row ∈ t.rows, Agree keys row x.alone
  gathers : ∀ row ∈ t.rows, row.Gathers (Taken.own keys row xs)
  totalPeriod_eq : t.totalPeriod = wordSum SampleRow.period t.rows
  totalCount_eq : t.totalCount = wordSum SampleRow.count t.rows

variable {t : SampleTable} {xs : List Taken}

theorem summarizes_empty (keys : List SortKey) : Summarizes { keys } keys [] :=
  ⟨rfl, .nil, List.forall_mem_nil _, List.forall_mem_nil _, rfl, rfl⟩

theorem Summarizes.tell (h : t.Summarizes keys xs) (threads : ThreadTree) :
    Summarizes { t with threads } keys xs :=
  ⟨h.keys_eq, h.inOrder, h.covers, h.gathers, h.totalPeriod_eq, h.totalCount_eq⟩

/-- Nor do sorted chains change what the rows hold. -/
theorem Summarizes.sortChains (h : t.Summarizes keys xs) : t.sortChains.Summarizes keys xs := by
  have hagree : ∀ row : SampleRow, Agree keys row { row with chains := row.chains.sort } :=
    fun row => .of_fields rfl rfl rfl rfl
  refine ⟨h.keys_eq, h.inOrder.map hagree, ?_, ?_, ?_, ?_⟩
  · intro x hx
    obtain ⟨row, hrow, hx⟩ := h.covers x hx
    exact ⟨_, List.mem_map_of_mem hrow, (hagree row).congr_left.mp hx⟩
  · intro row hrow
    obtain ⟨unsorted, hunsorted, rfl⟩ := List.mem_map.mp hrow
    rw [← Taken.own_congr (hagree unsorted)]
    exact (h.gathers unsorted hunsorted).sort
  · show t.totalPeriod = wordSum SampleRow.period (t.rows.map _)
    rw [wordSum_map]
    exact h.totalPeriod_eq
  · show t.totalCount = wordSum SampleRow.count (t.rows.map _)
    rw [wordSum_map]
    exact h.totalCount_eq

theorem rows_taking {x : Taken} {before after : List SampleRow} {new : SampleRow}
    (hkeys : t.keys = keys)
    (hinsert : insertRow keys x.alone t.rows = (before.length, before ++ new :: after))
    (threads : ThreadTree) :
    (t.taking threads x).rows = before ++ new.withChain x :: after := by
  rw [SampleTable.taking, hkeys, hinsert]
  exact modify_length before new after _

/-- The row of a sample holds it with the samples before it, and the rows beside
it are those of other samples. -/
theorem Summarizes.taking_cases (h : t.Summarizes keys xs) (threads : ThreadTree) (x : Taken) :
    ∃ before row after, (t.taking threads x).rows = before ++ row :: after ∧
      InOrder keys (before ++ row :: after) ∧ Agree keys row x.alone ∧
      row.Gathers (Taken.own keys row (xs ++ [x])) ∧
      ∀ other, other ∈ before ++ after ↔ other ∈ t.rows ∧ ¬ Agree keys other x.alone := by
  obtain ⟨before, new, after, hinsert, horder, hnew, hrows⟩ := insertRow_cases h.inOrder x.alone
  have hchained := SampleRow.agree_withChain keys new x
  have hx : Agree keys (new.withChain x) x.alone := hchained.congr_left.mp hnew
  have hnot := horder.not_agree hnew
  have hresult := rows_taking h.keys_eq hinsert threads
  refine ⟨before, new.withChain x, after, hresult, horder.replace hchained, hx, ?_, fun other => ?_⟩
  · rcases hrows with ⟨same, hrows, hsame, rfl⟩ | ⟨hrows, rfl⟩
    · have hgathers := h.gathers same (hrows ▸ mem_middle.mpr (.inl rfl))
      rw [Taken.own_congr (hx.trans hsame.symm), Taken.own_append_of_agree hsame]
      exact hgathers.merge x
    · have hfresh : ∀ y ∈ xs, ¬ Agree keys y.alone x.alone := by
        intro y hy hyx
        obtain ⟨row, hrow, hrowy⟩ := h.covers y hy
        exact hnot row (hrows ▸ hrow) (hrowy.trans hyx)
      rw [Taken.own_congr hx, Taken.own_append_of_new hfresh]
      exact SampleRow.gathers_singleton x
  · rcases hrows with ⟨same, hrows, hsame, -⟩ | ⟨hrows, -⟩
    · rw [hrows, mem_middle]
      refine ⟨fun hother => ⟨.inr hother, hnot other hother⟩, ?_⟩
      rintro ⟨rfl | hother, hne⟩
      · exact absurd hsame hne
      · exact hother
    · rw [hrows]
      exact ⟨fun hother => ⟨hother, hnot other hother⟩, And.left⟩

/-- A sum that merging respects and chains do not touch grows by what the sample
brings. -/
theorem Summarizes.wordSum_taking (h : t.Summarizes keys xs) (threads : ThreadTree) (x : Taken)
    {f : SampleRow → UInt64} (hmerge : ∀ a b : SampleRow, f (a.merge b) = f a + f b)
    (hchain : ∀ row : SampleRow, f (row.withChain x) = f row) :
    wordSum f (t.taking threads x).rows = wordSum f t.rows + f x.alone := by
  obtain ⟨before, new, after, hinsert, -⟩ := insertRow_cases h.inOrder x.alone
  have hsum := wordSum_insertRow h.inOrder hmerge x.alone
  rw [hinsert, wordSum_middle] at hsum
  have hresult := rows_taking h.keys_eq hinsert threads
  rw [hresult, wordSum_middle, hchain, hsum]

/-- **A sample goes into one row,** and the others stay as they are. -/
theorem Summarizes.taking (h : t.Summarizes keys xs) (threads : ThreadTree) (x : Taken) :
    (t.taking threads x).Summarizes keys (xs ++ [x]) := by
  obtain ⟨before, own, after, hresult, horder, hx, hgathers, hothers⟩ := h.taking_cases threads x
  refine ⟨h.keys_eq, ?_, ?_, ?_, ?_, ?_⟩
  · rw [hresult]
    exact horder
  · rw [hresult]
    intro y hy
    by_cases hyx : Agree keys y.alone x.alone
    · exact ⟨own, mem_middle.mpr (.inl rfl), hx.trans hyx.symm⟩
    · -- another sample is still where it was
      have hy : y ∈ xs := by
        rcases List.mem_append.mp hy with hy | hy
        · exact hy
        · rw [List.mem_singleton.mp hy] at hyx
          exact absurd (.refl keys x.alone) hyx
      obtain ⟨row, hrow, hrowy⟩ := h.covers y hy
      have hrowx : ¬ Agree keys row x.alone := fun hrowx => hyx (hrowy.symm.trans hrowx)
      exact ⟨row, mem_middle.mpr (.inr ((hothers row).mpr ⟨hrow, hrowx⟩)), hrowy⟩
  · rw [hresult]
    intro row hrow
    rcases mem_middle.mp hrow with rfl | hrow
    · exact hgathers
    · obtain ⟨hrow, hrowx⟩ := (hothers row).mp hrow
      rw [Taken.own_append_of_not hrowx]
      exact h.gathers row hrow
  · rw [h.wordSum_taking threads x (fun _ _ => rfl) fun row => by rw [SampleRow.withChain_eq],
      ← h.totalPeriod_eq]
    rfl
  · rw [h.wordSum_taking threads x (fun _ _ => rfl) fun row => by rw [SampleRow.withChain_eq],
      ← h.totalCount_eq]
    rfl

/-! ### Rows by weight -/

theorem period_le_trans (a b c : SampleRow) (hab : decide (b.period ≤ a.period) = true)
    (hbc : decide (c.period ≤ b.period) = true) : decide (c.period ≤ a.period) = true :=
  decide_eq_true (UInt64.le_trans (of_decide_eq_true hbc) (of_decide_eq_true hab))

theorem period_le_total (a b : SampleRow) :
    (decide (b.period ≤ a.period) || decide (a.period ≤ b.period)) = true := by
  simpa using UInt64.le_total b.period a.period

/-- Rows of one weight are shown in the order in which they are kept. -/
theorem filter_byWeight (t : SampleTable) (period : UInt64) :
    t.byWeight.filter (·.period = period) = t.rows.filter (·.period = period) := by
  refine filter_mergeSort period_le_trans period_le_total (fun a b ha hb => ?_) t.rows
  rw [of_decide_eq_true ha, of_decide_eq_true hb]
  exact decide_eq_true UInt64.le_rfl

/-- **The heaviest rows are shown first,** and rows of one weight in the order of
their keys. -/
theorem pairwise_byWeight (h : InOrder keys t.rows) : t.byWeight.Pairwise fun a b =>
    b.period < a.period ∨ a.period = b.period ∧ compareRows keys a b = .lt := by
  have hsorted : t.byWeight.Pairwise fun a b => decide (b.period ≤ a.period) = true :=
    List.pairwise_mergeSort period_le_trans period_le_total t.rows
  rw [List.pairwise_iff_forall_sublist] at hsorted ⊢
  intro a b hab
  have hle : b.period ≤ a.period := of_decide_eq_true (hsorted hab)
  rcases UInt64.lt_or_eq_of_le hle with hlt | heq
  · exact .inl hlt
  · have hkept := hab.filter (·.period = a.period)
    rw [filter_byWeight] at hkept
    have hpair : ([a, b].filter (·.period = a.period)) = [a, b] := by simp [heq]
    rw [hpair] at hkept
    exact .inr ⟨heq.symm,
      List.pairwise_iff_forall_sublist.mp h (hkept.trans List.filter_sublist)⟩

/-! ### Any samples and records -/

/-- What may be done to a table: add samples, with and without chains, take in
records, tell it of threads and maps, and show its rows. -/
inductive Op where
  | sample (pid tid : Pid) (ip time period : UInt64)
  | chain (pid tid : Pid) (ip time period : UInt64) (frames : List String)
  | record (r : Record)
  | tell (change : ThreadTree → ThreadTree)
  | visit

def Op.run (t : SampleTable) : Op → SampleTable
  | sample pid tid ip time period => (t.add pid tid ip time period).2
  | chain pid tid ip time period frames => (t.addChain pid tid ip time period frames).2
  | record r => t.processRecord r
  | tell change => { t with threads := change t.threads }
  | visit => t.sortChains

/-- A sample with the name of its thread and the map of its address, as they are
known now. -/
def look (t : SampleTable) (pid tid : Pid) (ip time period : UInt64)
    (chain? : Option (List String)) : Taken :=
  { pid, tid, comm := (t.threads.findThread pid tid).1.comm, ip, time, period,
    map := t.threads.findMap pid ip, chain? }

/-- The sample that is added to the table, if one is. A record without a period
stands for one event. -/
def Op.taken (t : SampleTable) : Op → List Taken
  | sample pid tid ip time period => [t.look pid tid ip time period none]
  | chain pid tid ip time period frames => [t.look pid tid ip time period (some frames)]
  | record (.sample s) =>
    [t.look s.pid.toInt32 s.tid.toInt32 s.ip s.time (if s.period = 0 then 1 else s.period) none]
  | record _ | tell _ | visit => []

/-- The samples that are added one after another, each as it was then. -/
def taken (t : SampleTable) : List Op → List Taken
  | [] => []
  | op :: ops => op.taken t ++ taken (op.run t) ops

theorem countedPeriod_eq (s : Sample) :
    countedPeriod s = if s.period = 0 then 1 else s.period := by
  have hmax : countedPeriod s = if s.period ≤ 1 then 1 else s.period := rfl
  grind

theorem add_eq (t : SampleTable) (pid tid : Pid) (ip time period : UInt64) :
    (t.add pid tid ip time period).2 =
      t.taking (t.threads.findThread pid tid).2 (t.look pid tid ip time period none) := by
  have hplain : (fun row : SampleRow => row.withChain (t.look pid tid ip time period none)) = id :=
    rfl
  simp only [taking]
  rw [hplain, List.modify_id]
  rfl

theorem addChain_eq (t : SampleTable) (pid tid : Pid) (ip time period : UInt64)
    (frames : List String) : (t.addChain pid tid ip time period frames).2 =
      t.taking (t.threads.findThread pid tid).2 (t.look pid tid ip time period (some frames)) := rfl

/-- **Every step keeps a table of samples,** with the one that is added. -/
theorem Summarizes.run (h : t.Summarizes keys xs) (op : Op) :
    (op.run t).Summarizes keys (xs ++ op.taken t) := by
  cases op with
  | sample pid tid ip time period =>
    show (t.add pid tid ip time period).2.Summarizes keys _
    rw [add_eq]
    exact h.taking _ _
  | chain pid tid ip time period frames =>
    show (t.addChain pid tid ip time period frames).2.Summarizes keys _
    rw [addChain_eq]
    exact h.taking _ _
  | record r =>
    cases r with
    | sample s =>
      show (t.add _ _ s.ip s.time (countedPeriod s)).2.Summarizes keys _
      rw [add_eq, countedPeriod_eq]
      exact h.taking _ _
    | _ =>
      rw [Op.taken, List.append_nil]
      · exact h.tell _
      · rintro _ ⟨⟩
  | tell change =>
    rw [Op.taken, List.append_nil]
    exact h.tell _
  | visit =>
    rw [Op.taken, List.append_nil]
    exact h.sortChains

theorem Summarizes.foldl_run (h : t.Summarizes keys xs) (ops : List Op) :
    (ops.foldl Op.run t).Summarizes keys (xs ++ t.taken ops) := by
  induction ops generalizing t xs with
  | nil => simpa [taken] using h
  | cons op ops ih =>
    have hrest := ih (h.run op)
    rwa [List.append_assoc] at hrest

/-- **Samples are merged by their keys.** Whatever is added to a table and told
to it, its rows are in the order of the keys. Each sample is in the one row that
has its values, with the name and the map that it had when it was added; a row
has the sum of the periods of its samples, their number and the tree of their
chains, and the totals are sums over the rows. When rows are shown, each comes
once, the heaviest first, and equals in the order of the keys. -/
theorem summarizes_foldl_run (keys : List SortKey) (ops : List Op) :
    let t := ops.foldl Op.run { keys }
    let xs := taken { keys } ops
    t.Summarizes keys xs ∧
      (∀ x ∈ xs, ∃ row, (t.rows.filter fun row => Agree keys row x.alone) = [row]) ∧
      t.sortChains.byWeight.Perm
        (t.rows.map fun row => { row with chains := row.chains.sort }) ∧
      t.sortChains.byWeight.Pairwise fun a b =>
        b.period < a.period ∨ a.period = b.period ∧ compareRows keys a b = .lt := by
  intro t xs
  have h : t.Summarizes keys xs := (summarizes_empty keys).foldl_run ops
  refine ⟨h, fun x hx => ?_, List.mergeSort_perm _ _, pairwise_byWeight h.sortChains.inOrder⟩
  obtain ⟨row, hrow, hagree⟩ := h.covers x hx
  exact ⟨row, h.inOrder.filter_eq_singleton hrow hagree⟩

/-- One thread is renamed between its samples. By name they are two rows, and
the record without a period is in the second. -/
theorem summarizes_foldl_run_renamed :
    let rename := fun comm => Op.tell fun threads => threads.addThread 7 7 comm
    let ops := [rename "a", .sample 7 7 0 0 5, rename "b", .chain 7 7 0 0 9 ["f"],
      .record (.sample { pid := 7, tid := 7 })]
    let t := ops.foldl Op.run { keys := [.comm] }
    let xs := taken { keys := [.comm] } ops
    (xs.map fun x => (x.comm, x.period)) = [("a", 5), ("b", 9), ("b", 1)] ∧
      (t.rows.map fun row => (row.comm, row.period, row.count)) = [("a", 5, 1), ("b", 10, 2)] ∧
      t.Summarizes [.comm] xs ∧
      ∃ x ∈ xs, x.comm = "b" ∧
        ∃ row, (t.rows.filter fun row => Agree [.comm] row x.alone) = [row] := by
  intro rename ops t xs
  have hnames : (xs.map fun x => (x.comm, x.period)) = [("a", 5), ("b", 9), ("b", 1)] := by
    decide +kernel
  have hrows : (t.rows.map fun row => (row.comm, row.period, row.count)) =
      [("a", 5, 1), ("b", 10, 2)] := by decide +kernel
  obtain ⟨hsum, hmerged, -⟩ := summarizes_foldl_run [.comm] ops
  have hlast : ∃ x ∈ xs, x.comm = "b" := by
    have hb : "b" ∈ (xs.map fun x => (x.comm, x.period)).map Prod.fst := by
      rw [hnames]
      decide
    simpa using hb
  obtain ⟨x, hx, hcomm⟩ := hlast
  exact ⟨hnames, hrows, hsum, x, hx, hcomm, hmerged x hx⟩

end SampleTable
end Profiler
