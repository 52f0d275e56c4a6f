/-
# Sorting and dropping repetitions

A stable sort keeps the order of equal entries (`filter_mergeSort`). In a list
that is in order of a key, entries of one key stand next to each other, so that
dropping repetitions leaves the first entry of every key
(`find?_eraseRepsBy`), each key once (`pairwise_eraseRepsBy`).

Key theorems: `filter_mergeSort`, `eraseRepsBy_cons_cons`,
`pairwise_eraseRepsBy`, `find?_eraseRepsBy`.
-/
import Mathlib.Data.List.Basic

namespace Profiler

variable {α : Type}

/-- Entries of which none has to stand before another stay as they are. -/
theorem filter_mergeSort {le : α → α → Bool} (htrans : ∀ a b c, le a b → le b c → le a c)
    (htotal : ∀ a b, le a b || le b a) {p : α → Bool} (hp : ∀ a b, p a → p b → le a b)
    (l : List α) : (l.mergeSort le).filter p = l.filter p := by
  have hequal : (l.filter p).Pairwise fun a b => le a b :=
    List.pairwise_of_forall_mem_list fun a ha b hb =>
      hp a b (List.mem_filter.mp ha).2 (List.mem_filter.mp hb).2
  have hsub := (List.sublist_mergeSort htrans htotal hequal List.filter_sublist).filter p
  rw [List.filter_filter] at hsub
  simp only [Bool.and_self] at hsub
  exact (hsub.eq_of_length ((List.mergeSort_perm l le).filter p).length_eq.symm).symm

/-! ### Repetitions -/

section Repetitions

variable {r : α → α → Bool}

theorem eraseRepsBy_loop (a : α) (l acc : List α) :
    List.eraseRepsBy.loop r a l acc = acc.reverse ++ (a :: l).eraseRepsBy r := by
  have hcons : ∀ (a : α) (l : List α), (a :: l).eraseRepsBy r = List.eraseRepsBy.loop r a l [] :=
    fun _ _ => rfl
  induction l generalizing a acc with
  | nil => simp [hcons, List.eraseRepsBy.loop]
  | cons b l ih =>
    rw [hcons, List.eraseRepsBy.loop, List.eraseRepsBy.loop]
    cases r a b with
    | true => rw [ih a acc, ih a []]; simp
    | false => rw [ih b (a :: acc), ih b [a]]; simp

theorem eraseRepsBy_cons_cons (a b : α) (l : List α) : (a :: b :: l).eraseRepsBy r =
    if r a b then (a :: l).eraseRepsBy r else a :: (b :: l).eraseRepsBy r := by
  have hcons : (a :: b :: l).eraseRepsBy r = List.eraseRepsBy.loop r a (b :: l) [] := rfl
  rw [hcons, List.eraseRepsBy.loop]
  cases r a b with
  | true => rfl
  | false =>
    show List.eraseRepsBy.loop r b l [a] = a :: (b :: l).eraseRepsBy r
    rw [eraseRepsBy_loop]
    rfl

theorem eraseRepsBy_sublist (l : List α) : (l.eraseRepsBy r).Sublist l := by
  cases l with
  | nil => exact List.Sublist.slnil
  | cons a l =>
    induction l generalizing a with
    | nil => exact List.Sublist.refl _
    | cons b l ih =>
      rw [eraseRepsBy_cons_cons]
      split
      · exact (ih a).trans ((List.sublist_cons_self b l).cons_cons a)
      · exact (ih b).cons_cons a

/-- What is left has every key once. -/
theorem pairwise_eraseRepsBy {key : α → Nat} (hr : ∀ a b, r a b = true ↔ key a = key b)
    {l : List α} (h : l.Pairwise fun a b => key a ≤ key b) :
    (l.eraseRepsBy r).Pairwise fun a b => key a < key b := by
  cases l with
  | nil => exact List.Pairwise.nil
  | cons a l =>
    induction l generalizing a with
    | nil => exact List.pairwise_singleton _ a
    | cons b l ih =>
      obtain ⟨ha, hrest⟩ := List.pairwise_cons.mp h
      rw [eraseRepsBy_cons_cons]
      split
      · exact ih a (h.sublist ((List.sublist_cons_self b l).cons_cons a))
      · next hab =>
        refine List.pairwise_cons.mpr ⟨fun c hc => ?_, ih b hrest⟩
        have hlt : key a < key b := Nat.lt_of_le_of_ne (ha b List.mem_cons_self) (mt (hr a b).mpr hab)
        rcases List.mem_cons.mp ((eraseRepsBy_sublist (b :: l)).subset hc) with rfl | hc
        · exact hlt
        · exact Nat.lt_of_lt_of_le hlt ((List.pairwise_cons.mp hrest).1 c hc)

/-- What is left for a key is its first entry. -/
theorem find?_eraseRepsBy {key : α → Nat} (hr : ∀ a b, r a b = true ↔ key a = key b)
    (l : List α) (k : Nat) :
    (l.eraseRepsBy r).find? (key · = k) = l.find? (key · = k) := by
  cases l with
  | nil => rfl
  | cons a l =>
    induction l generalizing a with
    | nil => rfl
    | cons b l ih =>
      rw [eraseRepsBy_cons_cons]
      split
      · next hab =>
        rw [ih a, List.find?_cons, List.find?_cons, List.find?_cons, (hr a b).mp hab]
        cases decide (key b = k) <;> rfl
      · rw [List.find?_cons, ih b, List.find?_cons (a := a)]

end Repetitions
end Profiler
