/-
# Maps whose keys ascend

Insertion keeps the keys of a map in order, whatever is inserted, so a map
that was built by insertions has its entries by key (`OrderedMap.Ascending`).
A key behind all others is inserted at the end.

Key definitions: `OrderedMap.Ascending`, `OrderedMap.mapValues`.
Key theorems: `OrderedMap.Ascending.insert`, `OrderedMap.mem_keys_insert`,
`OrderedMap.insert_of_forall_lt`, `OrderedMap.get?_mapValues`,
`OrderedMap.get?_erase_of_ne`, `OrderedMap.Ascending.get?_of_mem`.
-/
import Mathlib.Data.List.Induction
import Mathlib.Data.List.Pairwise
import Profiler.OrderedMap

namespace Profiler
namespace OrderedMap

variable {κ α β : Type} {k : κ} {a : α}

/-- The keys ascend. -/
def Ascending [LT κ] (m : OrderedMap κ α) : Prop := m.keys.Pairwise (· < ·)

def mapValues (g : α → β) (m : OrderedMap κ α) : OrderedMap κ β :=
  ⟨m.entries.map fun e => (e.1, g e.2)⟩

theorem mem_keys_insertEntry [LT κ] [DecidableLT κ] [DecidableEq κ] {l : List (κ × α)} {k' : κ} :
    k' ∈ (insertEntry k a l).map Prod.fst ↔ k' = k ∨ k' ∈ l.map Prod.fst := by
  induction l with
  | nil => simp [insertEntry]
  | cons e rest ih =>
    obtain ⟨j, b⟩ := e
    rw [insertEntry]
    by_cases hlt : k < j
    · simp [hlt]
    · by_cases heq : k = j
      · rw [if_neg hlt, if_pos heq, heq]
        simp
      · rw [if_neg hlt, if_neg heq, List.map_cons, List.mem_cons, ih, List.map_cons, List.mem_cons]
        exact or_left_comm

theorem mem_keys_insert [LT κ] [DecidableLT κ] [DecidableEq κ] {m : OrderedMap κ α} {k' : κ} :
    k' ∈ (m.insert k a).keys ↔ k' = k ∨ k' ∈ m.keys := mem_keys_insertEntry

theorem mem_keys_foldl_insert [LT κ] [DecidableLT κ] [DecidableEq κ] {m : OrderedMap κ α}
    {l : List (κ × α)} :
    k ∈ (l.foldl (fun (m : OrderedMap κ α) (e : κ × α) => m.insert e.1 e.2) m).keys ↔
      k ∈ m.keys ∨ k ∈ l.map Prod.fst := by
  induction l generalizing m with
  | nil => simp
  | cons e rest ih =>
    rw [List.foldl_cons, ih, mem_keys_insert, List.map_cons, List.mem_cons, or_assoc,
      or_left_comm]

theorem get?_mapValues [DecidableEq κ] (g : α → β) (m : OrderedMap κ α) (k : κ) :
    (m.mapValues g).get? k = (m.get? k).map g := by
  unfold get? mapValues
  rw [List.find?_map, Option.map_map, Option.map_map]
  rfl

section Lookup

variable [DecidableEq κ] {m : OrderedMap κ α} {k' : κ}

theorem get?_erase_self (m : OrderedMap κ α) (k : κ) : (m.erase k).get? k = none := by
  unfold get? erase
  rw [List.find?_filter, Option.map_eq_none_iff, List.find?_eq_none]
  intro e _
  simp

theorem get?_erase_of_ne (m : OrderedMap κ α) {k k' : κ} (h : k ≠ k') :
    (m.erase k).get? k' = m.get? k' := by
  unfold get? erase
  rw [List.find?_filter]
  congr 1
  congr 1
  funext e
  by_cases hk : e.1 = k'
  · simp [hk, Ne.symm h]
  · simp [hk]

theorem mem_keys_iff : k ∈ m.keys ↔ ∃ a, m.get? k = some a := by
  rw [keys, List.mem_map, ← Option.isSome_iff_exists, get?, Option.isSome_map, List.find?_isSome]
  simp only [decide_eq_true_eq]

theorem contains_eq_true_iff : m.contains k = true ↔ k ∈ m.keys := by
  rw [contains, Option.isSome_iff_exists, mem_keys_iff]

theorem mem_keys_erase : k' ∈ (m.erase k).keys ↔ k' ∈ m.keys ∧ k' ≠ k := by
  simp only [keys, erase, List.mem_map, List.mem_filter, decide_eq_true_eq]
  constructor
  · rintro ⟨e, ⟨he, hne⟩, rfl⟩
    exact ⟨⟨e, he, rfl⟩, hne⟩
  · rintro ⟨⟨e, he, rfl⟩, hne⟩
    exact ⟨e, ⟨he, hne⟩, rfl⟩

end Lookup

theorem insert_of_forall_lt [LT κ] [DecidableLT κ] [DecidableEq κ] [Std.Asymm (α := κ) (· < ·)]
    {l : List (κ × α)} (h : ∀ e ∈ l, e.1 < k) :
    (⟨l⟩ : OrderedMap κ α).insert k a = ⟨l ++ [(k, a)]⟩ := by
  unfold insert
  congr 1
  induction l with
  | nil => rfl
  | cons e rest ih =>
    obtain ⟨j, b⟩ := e
    obtain ⟨hj, hrest⟩ := List.forall_mem_cons.mp h
    have hlt : ¬ k < j := Std.Asymm.asymm j k hj
    have hne : k ≠ j := by
      rintro rfl
      exact hlt hj
    rw [insertEntry, if_neg hlt, if_neg hne, ih hrest, List.cons_append]

theorem ofList_of_ascending [LT κ] [DecidableLT κ] [DecidableEq κ] [Std.Asymm (α := κ) (· < ·)]
    {l : List (κ × α)} (h : (⟨l⟩ : OrderedMap κ α).Ascending) : ofList l = ⟨l⟩ := by
  induction l using List.reverseRecOn with
  | nil => rfl
  | append_singleton l e ih =>
    simp only [Ascending, keys, List.map_append, List.pairwise_append, List.map_cons,
      List.map_nil, List.mem_map, List.mem_singleton] at h
    obtain ⟨hl, -, hlast⟩ := h
    have hlt : ∀ e' ∈ l, e'.1 < e.1 := fun e' he' => hlast e'.1 ⟨e', he', rfl⟩ e.1 rfl
    rw [ofList, List.foldl_append, ← ofList, ih hl]
    exact insert_of_forall_lt hlt

theorem Ascending.erase [LT κ] [DecidableEq κ] {m : OrderedMap κ α} (h : m.Ascending) (k : κ) :
    (m.erase k).Ascending :=
  h.sublist (List.filter_sublist.map Prod.fst)

theorem Ascending.get?_of_mem [LT κ] [DecidableEq κ] [Std.Irrefl (α := κ) (· < ·)]
    {m : OrderedMap κ α} (h : m.Ascending) {e : κ × α} (he : e ∈ m.entries) :
    m.get? e.1 = some e.2 := by
  obtain ⟨l⟩ := m
  have h : (l.map Prod.fst).Pairwise (· < ·) := h
  unfold get?
  induction l with
  | nil => cases he
  | cons x rest ih =>
    obtain ⟨hx, hrest⟩ := List.pairwise_cons.mp h
    rcases List.mem_cons.mp he with rfl | he
    · rw [List.find?_cons_of_pos (by simp)]
      rfl
    · have hne : x.1 ≠ e.1 := fun heq =>
        Std.Irrefl.irrefl e.1 (heq ▸ hx e.1 (List.mem_map_of_mem he))
      rw [List.find?_cons_of_neg (by simpa using hne)]
      exact ih hrest he hrest

section Order

variable [LT κ] [DecidableLT κ] [DecidableEq κ] [Std.Trichotomous (α := κ) (· < ·)]
  [Trans (α := κ) (· < ·) (· < ·) (· < ·)]

theorem pairwise_insertEntry {l : List (κ × α)} (h : (l.map Prod.fst).Pairwise (· < ·)) :
    ((insertEntry k a l).map Prod.fst).Pairwise (· < ·) := by
  induction l with
  | nil => exact List.pairwise_singleton _ _
  | cons e rest ih =>
    obtain ⟨j, b⟩ := e
    rw [List.map_cons, List.pairwise_cons] at h
    obtain ⟨hj, hrest⟩ := h
    rw [insertEntry]
    by_cases hlt : k < j
    · rw [if_pos hlt, List.map_cons, List.pairwise_cons]
      refine ⟨fun i hi => ?_, List.pairwise_cons.mpr ⟨hj, hrest⟩⟩
      rcases List.mem_cons.mp hi with rfl | hi
      · exact hlt
      · exact Trans.trans hlt (hj i hi)
    · rw [if_neg hlt]
      by_cases heq : k = j
      · rw [if_pos heq, heq]
        exact List.pairwise_cons.mpr ⟨hj, hrest⟩
      · rw [if_neg heq, List.map_cons, List.pairwise_cons]
        have hgt : j < k := by
          by_contra hnot
          exact heq (Std.Trichotomous.trichotomous k j hlt hnot)
        refine ⟨fun i hi => ?_, ih hrest⟩
        rcases mem_keys_insertEntry.mp hi with rfl | hi
        · exact hgt
        · exact hj i hi

theorem Ascending.insert {m : OrderedMap κ α} (h : m.Ascending) (k : κ) (a : α) :
    (m.insert k a).Ascending := pairwise_insertEntry h

/-- A map that was built by insertions has its entries by key. -/
theorem Ascending.foldl_insert {m : OrderedMap κ α} (h : m.Ascending) (l : List (κ × α)) :
    (l.foldl (fun (m : OrderedMap κ α) (e : κ × α) => m.insert e.1 e.2) m).Ascending := by
  induction l generalizing m with
  | nil => exact h
  | cons e rest ih => exact ih (h.insert e.1 e.2)

end Order

end OrderedMap
end Profiler
