/-
# Looking up addresses in symbol tables

A table has its symbols in ascending order of address, one for each
(`SymbolTable.ascending_ofSymbols`). The symbol that is looked at for an address
is the last one that begins at or below it, and only that one
(`SymbolTable.find?_eq_some_iff`). Functions of real binaries may lie inside
others. Behind the inner one the outer one still covers addresses, but it is not
looked at there any more: no symbol is found exactly where each symbol that
covers the address is followed by another that begins at or below it
(`SymbolTable.find?_ofSymbols`). Where no symbol begins inside another, every
covered address is found.

Key definitions: `SymbolTable.Ascending`, `SymbolTable.below?`.
Key theorems: `SymbolTable.below?_eq_some_iff`, `SymbolTable.find?_eq_some_iff`,
`SymbolTable.ascending_ofSymbols`, `SymbolTable.find?_ofSymbols`.
-/
import Mathlib.Data.List.Nodup
import Profiler.Proofs.Sorting
import Profiler.Symbol.Basic

namespace Profiler

theorem Symbol.addr_le_of_covers {s : Symbol} {a : UInt64} (h : s.covers a = true) : s.addr ≤ a :=
  of_decide_eq_true (Bool.and_eq_true_iff.mp h).1

theorem Symbol.covers_of_le {s : Symbol} {a b : UInt64} (hb : s.covers b = true)
    (ha : s.addr ≤ a) (hab : a ≤ b) : s.covers a = true := by
  have hlt : b - s.addr < max s.len 1 := of_decide_eq_true (Bool.and_eq_true_iff.mp hb).2
  have hle : a - s.addr ≤ b - s.addr := by
    have hsb := UInt64.le_trans ha hab
    rw [UInt64.le_iff_toNat_le, UInt64.toNat_sub_of_le _ _ ha, UInt64.toNat_sub_of_le _ _ hsb]
    exact Nat.sub_le_sub_right (UInt64.le_iff_toNat_le.mp hab) _
  have hsmaller : a - s.addr < max s.len 1 := UInt64.lt_of_le_of_lt hle hlt
  exact Bool.and_eq_true_iff.mpr ⟨decide_eq_true ha, decide_eq_true hsmaller⟩

namespace SymbolTable

/-- The symbols are in ascending order of address, one for each. -/
def Ascending (t : SymbolTable) : Prop := t.Pairwise fun s s' => s.addr < s'.addr

/-- The last symbol that begins at or below an address. -/
def below? (t : SymbolTable) (a : UInt64) : Option Symbol :=
  (t.takeWhile fun s => s.addr ≤ a).getLast?

variable {t : SymbolTable} {a : UInt64} {s : Symbol}

/-! ### Looking up -/

/-- In an ascending table the symbols at or below an address come first. -/
theorem below?_eq_getLast?_filter (h : t.Ascending) :
    t.below? a = (t.filter fun s => s.addr ≤ a).getLast? := by
  refine congrArg List.getLast? ?_
  induction t with
  | nil => rfl
  | cons s t ih =>
    obtain ⟨hs, ht⟩ := List.pairwise_cons.mp h
    by_cases hsa : s.addr ≤ a
    · rw [List.takeWhile_cons_of_pos (by simpa using hsa), ih ht,
        List.filter_cons_of_pos (by simpa using hsa)]
    · have hnone : t.filter (fun s => s.addr ≤ a) = [] := by
        refine List.filter_eq_nil_iff.mpr fun s' hs' hle => hsa ?_
        exact UInt64.le_trans (UInt64.le_of_lt (hs s' hs')) (of_decide_eq_true hle)
      rw [List.takeWhile_cons_of_neg (by simpa using hsa),
        List.filter_cons_of_neg (by simpa using hsa), hnone]

theorem below?_eq_none_iff (h : t.Ascending) : t.below? a = none ↔ ∀ s ∈ t, a < s.addr := by
  rw [below?_eq_getLast?_filter h, List.getLast?_eq_none_iff, List.filter_eq_nil_iff]
  simp only [decide_eq_true_eq, UInt64.not_le]

theorem Ascending.eq_of_addr_eq (h : t.Ascending) {s s' : Symbol} (hs : s ∈ t) (hs' : s' ∈ t)
    (haddr : s.addr = s'.addr) : s = s' := by
  have hnodup : (t.map Symbol.addr).Nodup := List.pairwise_map.mpr (h.imp UInt64.ne_of_lt)
  exact List.inj_on_of_nodup_map hnodup hs hs' haddr

/-- The last symbol at or below an address is the one with the greatest address. -/
theorem below?_eq_some_iff (h : t.Ascending) : t.below? a = some s ↔
    s ∈ t ∧ s.addr ≤ a ∧ ∀ s' ∈ t, s'.addr ≤ a → s'.addr ≤ s.addr := by
  have hmem : ∀ s, s ∈ t.filter (fun s => s.addr ≤ a) ↔ s ∈ t ∧ s.addr ≤ a := fun s => by
    rw [List.mem_filter, decide_eq_true_eq]
  have hgreatest : ∀ s, t.below? a = some s →
      s ∈ t ∧ s.addr ≤ a ∧ ∀ s' ∈ t, s'.addr ≤ a → s'.addr ≤ s.addr := by
    intro s hs
    rw [below?_eq_getLast?_filter h] at hs
    obtain ⟨before, hbefore⟩ := List.getLast?_eq_some_iff.mp hs
    have hlast : s ∈ t.filter fun s => s.addr ≤ a := List.mem_of_getLast? hs
    refine ⟨((hmem s).mp hlast).1, ((hmem s).mp hlast).2, fun s' hs' hs'a => ?_⟩
    have hs' := (hmem s').mpr ⟨hs', hs'a⟩
    have hsorted : (before ++ [s]).Pairwise fun s s' => s.addr < s'.addr :=
      hbefore ▸ h.filter _
    rw [hbefore, List.mem_append, List.mem_singleton] at hs'
    rcases hs' with hs' | rfl
    · exact UInt64.le_of_lt ((List.pairwise_append.mp hsorted).2.2 s' hs' s (List.mem_singleton_self s))
    · exact UInt64.le_rfl
  refine ⟨hgreatest s, ?_⟩
  rintro ⟨hs, hsa, hmax⟩
  cases hlast : t.below? a with
  | none => exact absurd hsa (UInt64.not_le.mpr ((below?_eq_none_iff h).mp hlast s hs))
  | some last =>
    obtain ⟨hlastmem, hlasta, hlastmax⟩ := hgreatest last hlast
    have haddr : last.addr = s.addr :=
      UInt64.le_antisymm (hmax last hlastmem hlasta) (hlastmax s hs hsa)
    rw [h.eq_of_addr_eq hlastmem hs haddr]

/-- The symbol of an address is the last one at or below it, if it covers it. -/
theorem find?_eq_some_iff (h : t.Ascending) : t.find? a = some s ↔
    s ∈ t ∧ s.covers a = true ∧ ∀ s' ∈ t, s'.addr ≤ a → s'.addr ≤ s.addr := by
  show (t.below? a).filter (·.covers a) = some s ↔ _
  rw [Option.filter_eq_some_iff, below?_eq_some_iff h]
  constructor
  · rintro ⟨⟨hs, -, hmax⟩, hcovers⟩
    exact ⟨hs, hcovers, hmax⟩
  · rintro ⟨hs, hcovers, hmax⟩
    exact ⟨⟨hs, Symbol.addr_le_of_covers hcovers, hmax⟩, hcovers⟩

/-- No symbol is found where the last one at or below the address has ended. -/
theorem find?_eq_none_iff (h : t.Ascending) : t.find? a = none ↔
    ∀ s ∈ t, s.covers a = true → ∃ s' ∈ t, s.addr < s'.addr ∧ s'.addr ≤ a := by
  constructor
  · intro hnone s hs hcovers
    by_contra hlast
    have hfound := (find?_eq_some_iff h).mpr ⟨hs, hcovers, fun s' hs' hs'a =>
      UInt64.not_lt.mp fun hlt => hlast ⟨s', hs', hlt, hs'a⟩⟩
    rw [hnone] at hfound
    cases hfound
  · intro hhidden
    rw [Option.eq_none_iff_forall_ne_some]
    intro s hfound
    obtain ⟨hs, hcovers, hmax⟩ := (find?_eq_some_iff h).mp hfound
    obtain ⟨s', hs', hlt, hs'a⟩ := hhidden s hs hcovers
    exact UInt64.not_le.mpr hlt (hmax s' hs' hs'a)

/-! ### Building tables -/

theorem map_fillLengths : ∀ t : SymbolTable,
    (fillLengths t).map (fun s => (s.addr, s.name)) = t.map (fun s => (s.addr, s.name))
  | [] => rfl
  | s :: rest => by simp [fillLengths, map_fillLengths rest]

theorem Ascending.fillLengths (h : t.Ascending) : (fillLengths t).Ascending := by
  have hmap : ∀ t : SymbolTable, t.Ascending ↔
      (t.map fun s => (s.addr, s.name)).Pairwise fun x y => x.1 < y.1 := fun t => by
    rw [List.pairwise_map]
    rfl
  rw [hmap, map_fillLengths, ← hmap]
  exact h

theorem same_addr_iff (s s' : Symbol) : (s.addr == s'.addr) = true ↔
    s.addr.toNat = s'.addr.toNat := by
  rw [beq_iff_eq, UInt64.toNat_inj]

theorem ascending_dropSameAddress (h : t.Pairwise fun s s' => s.addr ≤ s'.addr) :
    (dropSameAddress t).Ascending :=
  (pairwise_eraseRepsBy same_addr_iff (h.imp UInt64.le_iff_toNat_le.mp)).imp
    UInt64.lt_iff_toNat_lt.mpr

theorem addr_le_of_inOrder {s s' : Symbol} (h : inOrder s s' = true) : s.addr ≤ s'.addr := by
  unfold inOrder at h
  simp only [Bool.or_eq_true, Bool.and_eq_true, decide_eq_true_eq, beq_iff_eq] at h
  rcases h with h | ⟨h, -⟩
  · exact UInt64.le_of_lt h
  · exact UInt64.le_of_eq h

theorem inOrder_trans (s s' s'' : Symbol) (h : inOrder s s' = true) (h' : inOrder s' s'' = true) :
    inOrder s s'' = true := by
  unfold inOrder at h h' ⊢
  simp only [Bool.or_eq_true, Bool.and_eq_true, decide_eq_true_eq, beq_iff_eq,
    UInt64.lt_iff_toNat_lt, UInt64.le_iff_toNat_le, ← UInt64.toNat_inj] at h h' ⊢
  omega

theorem inOrder_total (s s' : Symbol) : (inOrder s s' || inOrder s' s) = true := by
  unfold inOrder
  simp only [Bool.or_eq_true, Bool.and_eq_true, decide_eq_true_eq, beq_iff_eq,
    UInt64.lt_iff_toNat_lt, UInt64.le_iff_toNat_le, ← UInt64.toNat_inj]
  omega

theorem ascending_ofSymbols (symbols : List Symbol) : (ofSymbols symbols).Ascending := by
  have hsorted := List.pairwise_mergeSort inOrder_trans inOrder_total symbols
  exact (ascending_dropSameAddress (hsorted.imp addr_le_of_inOrder)).fillLengths

/-! ### Symbols of binaries -/

/-- **What is found for an address.** Whatever symbols a binary has, a symbol
that is found covers the address, and none that covers it begins later. No
symbol is found exactly where each one that covers the address is followed by
another that begins at or below it. Where no symbol begins inside another, one
is found exactly where one covers the address. -/
theorem find?_ofSymbols (symbols : List Symbol) (a : UInt64) :
    let t := ofSymbols symbols
    (∀ s, t.find? a = some s →
      s ∈ t ∧ s.covers a = true ∧ ∀ s' ∈ t, s'.covers a = true → s'.addr ≤ s.addr) ∧
    (t.find? a = none ↔
      ∀ s ∈ t, s.covers a = true → ∃ s' ∈ t, s.addr < s'.addr ∧ s'.addr ≤ a) ∧
    ((∀ s ∈ t, ∀ s' ∈ t, s.addr < s'.addr → s.covers s'.addr = false) →
      ((∃ s, t.find? a = some s) ↔ ∃ s ∈ t, s.covers a = true)) := by
  intro t
  have h : t.Ascending := ascending_ofSymbols symbols
  refine ⟨fun s hs => ?_, find?_eq_none_iff h, fun hapart => ⟨?_, ?_⟩⟩
  · obtain ⟨hmem, hcovers, hmax⟩ := (find?_eq_some_iff h).mp hs
    exact ⟨hmem, hcovers, fun s' hs' hs'a => hmax s' hs' (Symbol.addr_le_of_covers hs'a)⟩
  · rintro ⟨s, hs⟩
    obtain ⟨hmem, hcovers, -⟩ := (find?_eq_some_iff h).mp hs
    exact ⟨s, hmem, hcovers⟩
  · rintro ⟨s, hs, hcovers⟩
    refine Option.ne_none_iff_exists'.mp fun hnone => ?_
    obtain ⟨s', hs', hlt, hs'a⟩ := (find?_eq_none_iff h).mp hnone s hs hcovers
    have hinside := Symbol.covers_of_le hcovers (UInt64.le_of_lt hlt) hs'a
    rw [hapart s hs s' hs' hlt] at hinside
    cases hinside

/-- Two names of one function, of which the longer is kept, and a last one without
a length. -/
theorem find?_ofSymbols_apart :
    let t := ofSymbols [⟨0x1000, 0x20, "main"⟩, ⟨0x1000, 0x10, "alias"⟩, ⟨0x2000, 0, "start"⟩]
    (∀ s ∈ t, ∀ s' ∈ t, s.addr < s'.addr → s.covers s'.addr = false) ∧
      t.find? 0x1010 = some ⟨0x1000, 0x20, "main"⟩ ∧ ∃ s, t.find? 0x2abc = some s := by
  intro t
  have ht : t = [⟨0x1000, 0x20, "main"⟩, ⟨0x2000, 0xffffffffffffdfff, "start"⟩] := by
    show fillLengths (dropSameAddress (List.mergeSort _ _)) = _
    rw [List.mergeSort_of_pairwise (by decide)]
    decide
  have hapart : ∀ s ∈ t, ∀ s' ∈ t, s.addr < s'.addr → s.covers s'.addr = false := by
    rw [ht]
    decide
  refine ⟨hapart, by rw [ht]; decide, ((find?_ofSymbols _ 0x2abc).2.2 hapart).mpr ?_⟩
  show ∃ s ∈ t, s.covers 0x2abc = true
  rw [ht]
  decide

/-- A short function lies inside a long one, which goes on behind it: there the
long one covers an address, and nothing is found. -/
theorem find?_behind_nested :
    let t := ofSymbols [⟨0x1000, 0x1000, "outer"⟩, ⟨0x1100, 0x10, "inner"⟩]
    t.find? 0x1800 = none ∧ ∃ s ∈ t, s.covers 0x1800 = true := by
  intro t
  have ht : t = [⟨0x1000, 0x1000, "outer"⟩, ⟨0x1100, 0x10, "inner"⟩] := by
    show fillLengths (dropSameAddress (List.mergeSort _ _)) = _
    rw [List.mergeSort_of_pairwise (by decide)]
    decide
  rw [ht]
  decide

end SymbolTable
end Profiler
