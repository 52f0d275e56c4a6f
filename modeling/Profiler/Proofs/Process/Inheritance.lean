/-
# What a forked process sees

The maps of a process are kept when its last thread ends, and its number may be
used again. A process that is forked takes a copy of its parent's maps only if
there are no maps under its number, so what counts is whether there ever were
any: whether a record mapped a file for the number, or it was forked from a
process with maps (`ThreadTree.contains_userMaps_ofRecords`). If there never
were, the new process sees at every address what its parent sees. Otherwise it
goes on with the maps of the earlier process, and sees the same as its parent
exactly where that was so before (`ThreadTree.seesAlike_fork`).

Key definitions: `Record.mapsFor?`, `ThreadTree.Mapped`, `ThreadTree.SeesAlike`.
Key theorems: `ThreadTree.contains_userMaps_update`,
`ThreadTree.contains_userMaps_ofRecords`, `ThreadTree.seesAlike_fork`.
-/
import Mathlib.Data.List.Basic
import Mathlib.Data.List.Induction
import Profiler.Process.ThreadTree
import Profiler.Proofs.OrderedMap

namespace Profiler

/-- The process that a record maps a file for. The maps of the kernel and those
without length belong to none. -/
def Record.mapsFor? : Record → Option Pid
  | .mmap r => if isKernelMode r.misc ∨ r.len = 0 then none else some (ThreadTree.pidOf r.pid)
  | .mmap2 r => if isKernelMode r.misc ∨ r.len = 0 then none else some (ThreadTree.pidOf r.pid)
  | _ => none

namespace ThreadTree

/-- Whether a process had maps at some time, or an earlier one with its number:
a record mapped a file for it, or it was forked from a process with maps. -/
inductive Mapped : List Record → Pid → Prop
  | added {rs : List Record} {r : Record} {pid : Pid} (h : r.mapsFor? = some pid) :
      Mapped (rs ++ [r]) pid
  | forked {rs : List Record} {r : TaskRecord} (h : Mapped rs (pidOf r.ppid)) :
      Mapped (rs ++ [.fork r]) (pidOf r.pid)
  | later {rs : List Record} {pid : Pid} (r : Record) (h : Mapped rs pid) : Mapped (rs ++ [r]) pid

/-- Whether a user address shows the same in two processes: it is outside the
maps of both, or at the same place of the same file. -/
def SeesAlike (t : ThreadTree) (pid ppid : Pid) (addr : UInt64) : Prop :=
  let m := t.findMapIn pid addr false
  let m' := t.findMapIn ppid addr false
  (m = .unknown pid ∧ m' = .unknown ppid) ∨
    (m.filename = m'.filename ∧ m.fileOffset addr = m'.fileOffset addr)

instance (t : ThreadTree) (pid ppid : Pid) (addr : UInt64) :
    Decidable (t.SeesAlike pid ppid addr) :=
  inferInstanceAs (Decidable ((_ ∧ _) ∨ (_ ∧ _)))

variable {t : ThreadTree} {pid tid ppid ptid : Pid} {addr : UInt64}

/-! ### The maps after a record -/

theorem userMaps_findThread (t : ThreadTree) (pid tid : Pid) :
    (t.findThread pid tid).2.userMaps = t.userMaps := by
  simp only [findThread]
  split
  · split <;> rfl
  · rfl

/-- A process without maps takes those of its parent, and others keep what they
have. -/
theorem get?_userMaps_inherit (t : ThreadTree) (pid ppid n : Pid) (comm : String) :
    (t.inherit pid ppid comm).userMaps.get? n =
      (t.userMaps.get? n).or (if pid = n then t.userMaps.get? ppid else none) := by
  simp only [inherit]
  cases hparent : t.userMaps.get? ppid with
  | none => rw [ite_self, Option.or_none]
  | some maps =>
    cases hown : t.userMaps.get? pid with
    | none =>
      by_cases hn : pid = n
      · rw [if_pos hn, ← hn, hown, OrderedMap.get?_insert_self, Option.none_or]
      · rw [if_neg hn, Option.or_none]
        exact OrderedMap.get?_insert_of_ne _ _ hn
    | some old =>
      by_cases hn : pid = n
      · rw [← hn, hown, Option.some_or]
      · rw [if_neg hn, Option.or_none]

theorem get?_userMaps_fork (t : ThreadTree) (pid tid ppid ptid n : Pid) :
    (t.fork pid tid ppid ptid).userMaps.get? n =
      (t.userMaps.get? n).or (if pid = n then t.userMaps.get? ppid else none) := by
  have hfound : ((t.findThread ppid ptid).2.findThread pid tid).2.userMaps = t.userMaps := by
    rw [userMaps_findThread, userMaps_findThread]
  unfold fork
  by_cases heq : pid = ppid
  · subst heq
    simp only [if_pos, hfound]
    split
    · next hn => rw [hn, Option.or_self]
    · rw [Option.or_none]
  · simp only [if_neg heq, get?_userMaps_inherit, hfound]

/-- A map is added for a process, which has maps from then on. -/
theorem contains_userMaps_addRecordMap (t : ThreadTree) (misc : UInt16) (pid tid : UInt32)
    (start len pgoff time : UInt64) (filename userName : String) (n : Pid) :
    (t.addRecordMap misc pid tid start len pgoff time filename userName).userMaps.contains n =
        true ↔
      t.userMaps.contains n = true ∨ (¬(isKernelMode misc = true ∨ len = 0) ∧ pidOf pid = n) := by
  unfold addRecordMap
  by_cases hkernel : isKernelMode misc = true
  · simp only [hkernel, if_true, true_or, not_true_eq_false, false_and, or_false, addKernelMap]
    split <;> exact Iff.rfl
  · simp only [hkernel, addThreadMap, addUserMap, Bool.false_eq_true, if_false, false_or]
    by_cases hlen : len = 0
    · simp [hlen, userMaps_findThread]
    · rw [if_neg hlen]
      simp only [hlen, not_false_eq_true, true_and, userMaps_findThread,
        OrderedMap.contains_eq_true_iff, OrderedMap.mem_keys_insert]
      rw [or_comm, eq_comm]

/-- Which processes have maps after a record. -/
theorem contains_userMaps_update (t : ThreadTree) (r : Record) (pid : Pid) :
    (t.update r).userMaps.contains pid = true ↔
      t.userMaps.contains pid = true ∨ r.mapsFor? = some pid ∨
        ∃ f, r = .fork f ∧ pidOf f.pid = pid ∧ t.userMaps.contains (pidOf f.ppid) = true := by
  cases r with
  | mmap r =>
    rw [update, contains_userMaps_addRecordMap]
    simp [Record.mapsFor?]
  | mmap2 r =>
    rw [update, contains_userMaps_addRecordMap]
    simp [Record.mapsFor?]
  | fork r =>
    rw [update, OrderedMap.contains, get?_userMaps_fork, Option.isSome_or, Bool.or_eq_true]
    by_cases hpid : pidOf r.pid = pid
    · simp [hpid, Record.mapsFor?, OrderedMap.contains]
    · simp [hpid, Record.mapsFor?, OrderedMap.contains]
  | _ => simp [update, addThread, exit, Record.mapsFor?]

theorem not_mapped_nil (pid : Pid) : ¬Mapped [] pid := by
  intro h
  generalize hrs : ([] : List Record) = rs at h
  cases h <;> exact List.append_ne_nil_of_right_ne_nil _ (List.cons_ne_nil _ _) hrs.symm

/-- What one more record adds. -/
theorem mapped_concat_iff {rs : List Record} {r : Record} {pid : Pid} :
    Mapped (rs ++ [r]) pid ↔ Mapped rs pid ∨ r.mapsFor? = some pid ∨
      ∃ f, r = .fork f ∧ pidOf f.pid = pid ∧ Mapped rs (pidOf f.ppid) := by
  constructor
  · intro h
    generalize hrs : rs ++ [r] = rs' at h
    cases h with
    | added h =>
      obtain ⟨rfl, hr⟩ := List.append_inj' hrs rfl
      obtain rfl := List.singleton_inj.mp hr
      exact Or.inr (Or.inl h)
    | forked h =>
      obtain ⟨rfl, hr⟩ := List.append_inj' hrs rfl
      exact Or.inr (Or.inr ⟨_, List.singleton_inj.mp hr, rfl, h⟩)
    | later r h =>
      obtain ⟨rfl, -⟩ := List.append_inj' hrs rfl
      exact Or.inl h
  · rintro (h | h | ⟨f, rfl, rfl, h⟩)
    · exact .later r h
    · exact .added h
    · exact .forked h

/-- **A process has maps exactly if it ever had any.** Neither its end nor a
new process with its number takes them away. -/
theorem contains_userMaps_ofRecords (rs : List Record) (pid : Pid) :
    (ofRecords rs).userMaps.contains pid = true ↔ Mapped rs pid := by
  induction rs using List.reverseRecOn generalizing pid with
  | nil => exact iff_of_false Bool.false_ne_true (not_mapped_nil pid)
  | append_singleton rs r ih =>
    rw [ofRecords, List.foldl_concat, contains_userMaps_update, ← ofRecords, mapped_concat_iff]
    simp only [ih]

/-! ### A process begins -/

theorem seesAlike_congr {t' : ThreadTree} (h : t'.mapsOf pid = t.mapsOf pid)
    (hparent : t'.mapsOf ppid = t.mapsOf ppid) :
    t'.SeesAlike pid ppid addr ↔ t.SeesAlike pid ppid addr := by
  simp only [SeesAlike, findMapIn, Bool.false_eq_true, if_false, h, hparent]

theorem seesAlike_of_mapsOf_eq (h : t.mapsOf pid = t.mapsOf ppid) : t.SeesAlike pid ppid addr := by
  simp only [SeesAlike, findMapIn, Bool.false_eq_true, if_false, h]
  cases (t.mapsOf ppid).find? addr with
  | none => exact Or.inl ⟨rfl, rfl⟩
  | some m => exact Or.inr ⟨rfl, rfl⟩

/-- **A forked process sees what its parent sees unless its number had maps.**
Whatever was recorded before, right after a fork an address shows the same in
the new process and in its parent exactly if there never were maps under the
number of the new process, or the address already showed the same under both
numbers. -/
theorem seesAlike_fork (rs : List Record) (r : TaskRecord) (addr : UInt64) :
    let t := ofRecords rs
    let pid := pidOf r.pid
    let ppid := pidOf r.ppid
    (t.update (.fork r)).SeesAlike pid ppid addr ↔ ¬Mapped rs pid ∨ t.SeesAlike pid ppid addr := by
  intro t pid ppid
  have hmaps : ∀ n, (t.update (.fork r)).mapsOf n =
      ((t.userMaps.get? n).or (if pid = n then t.userMaps.get? ppid else none)).getD [] := fun n =>
    congrArg (·.getD []) (get?_userMaps_fork t pid (pidOf r.tid) ppid (pidOf r.ptid) n)
  have hparent : (t.update (.fork r)).mapsOf ppid = t.mapsOf ppid := by
    rw [hmaps, mapsOf]
    split
    · rw [Option.or_self]
    · rw [Option.or_none]
  rw [← contains_userMaps_ofRecords, OrderedMap.contains]
  cases hown : t.userMaps.get? pid with
  | none =>
    have hchild : (t.update (.fork r)).mapsOf pid = t.mapsOf ppid := by
      rw [hmaps, hown, if_pos rfl, Option.none_or, mapsOf]
    exact iff_of_true (seesAlike_of_mapsOf_eq (hchild.trans hparent.symm))
      (Or.inl Bool.false_ne_true)
  | some old =>
    have hchild : (t.update (.fork r)).mapsOf pid = t.mapsOf pid := by
      rw [hmaps, hown, Option.some_or, mapsOf, hown]
    rw [seesAlike_congr hchild hparent, or_iff_right (by simp)]

/-- Process 2 ends and its number is used again for a child of process 1: it
goes on with the maps of the process that ended. -/
theorem not_seesAlike_fork_reused :
    let rs : List Record := [
      .mmap { misc := userMode, pid := 1, tid := 1, addr := 4096, len := 256, filename := "/a" },
      .mmap { misc := userMode, pid := 2, tid := 2, addr := 8192, len := 256, filename := "/b" },
      .exit { pid := 2, tid := 2 }]
    let r : TaskRecord := { pid := 2, tid := 2, ppid := 1, ptid := 1 }
    r.pid ≠ r.ppid ∧
      ¬((ofRecords rs).update (.fork r)).SeesAlike (pidOf r.pid) (pidOf r.ppid) 4112 := by decide

end ThreadTree
end Profiler
