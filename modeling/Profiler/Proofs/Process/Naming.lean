/-
# What a thread is called

Threads are kept by their numbers alone, and a number moves between processes:
it is used again, or the end of a thread was missed. Whatever records the tree
was told of and whatever threads it was asked for, a thread is kept under its
own number (`ThreadTree.Use.keyed_run`, `ThreadTree.keyed_foldl_run`), so a
thread is always found with the numbers that were asked for.

Naming a thread does not move it: one that is known under another process keeps
that process, and is forgotten when it is asked for next. Right after a record
has named a thread it is therefore found under the record's name unless its
number was known under another process, in which case it is called like its
process (`ThreadTree.findThread_update_comm`).

Key definitions: `ThreadTree.Use`, `ThreadTree.Keyed`.
Key theorems: `ThreadTree.threads_findThread`, `ThreadTree.keyed_foldl_run`,
`ThreadTree.findThread_update_comm`.
-/
import Profiler.Process.ThreadTree
import Profiler.Proofs.OrderedMap

namespace Profiler
namespace ThreadTree

/-- A use of the tree: a record is told, or a thread is asked for. -/
inductive Use where
  | tell (r : Record)
  | ask (pid tid : Pid)
  deriving DecidableEq, Repr

def Use.run (t : ThreadTree) : Use → ThreadTree
  | .tell r => t.update r
  | .ask pid tid => (t.findThread pid tid).2

/-- Every thread is kept under its own number. -/
structure Keyed (t : ThreadTree) : Prop where
  tid_of_get? : ∀ tid known, t.threads.get? tid = some known → known.tid = tid

variable {t : ThreadTree} {pid tid : Pid} {known : Thread}

/-! ### Looking for a thread -/

theorem findThread_of_known (h : t.threads.get? tid = some known) (hpid : known.pid = pid) :
    (t.findThread pid tid).1 = known := by
  simp only [findThread, h, if_pos hpid]

theorem findThread_of_new (h : ∀ known, t.threads.get? tid = some known → known.pid ≠ pid) :
    (t.findThread pid tid).1 = ⟨pid, tid, (t.processes.get? pid).getD unknownComm⟩ := by
  unfold findThread
  cases hproc : t.processes.get? pid <;> cases hthread : t.threads.get? tid
  case none.none => simp [OrderedMap.get?_insert_self]
  case none.some known => simp [h known hthread, OrderedMap.get?_insert_self]
  case some.none comm => simp [hproc]
  case some.some comm known => simp [h known hthread, hproc]

/-- What is found is what is known of the number from then on, and other
numbers are left alone. -/
theorem threads_findThread (t : ThreadTree) (pid tid n : Pid) :
    (t.findThread pid tid).2.threads.get? n =
      if tid = n then some (t.findThread pid tid).1 else t.threads.get? n := by
  have hinsert : ∀ thread : Thread, (t.threads.insert tid thread).get? n =
      if tid = n then some thread else t.threads.get? n := by
    intro thread
    split
    · next h => rw [← h, OrderedMap.get?_insert_self]
    · next h => rw [OrderedMap.get?_insert_of_ne _ _ h]
  unfold findThread
  cases hthread : t.threads.get? tid with
  | none => exact hinsert _
  | some known =>
    by_cases hpid : known.pid = pid
    · simp only [if_pos hpid]
      split
      · next h => rw [← h, hthread]
      · rfl
    · simp only [if_neg hpid]
      exact hinsert _

theorem processes_findThread {comm : String} (h : t.processes.get? pid = some comm) :
    (t.findThread pid tid).2.processes = t.processes := by
  unfold findThread
  simp only [h]
  split
  · split <;> rfl
  · rfl

/-! ### Every thread has its own number -/

theorem Keyed.of_get? (ht : t.Keyed) {t' : ThreadTree} {thread : Thread} (htid : thread.tid = tid)
    (h : ∀ n, t'.threads.get? n = if tid = n then some thread else t.threads.get? n) :
    t'.Keyed := by
  refine ⟨fun n known hn => ?_⟩
  rw [h n] at hn
  split at hn
  · next heq =>
    obtain rfl := Option.some.inj hn
    exact htid.trans heq
  · exact ht.tid_of_get? n known hn

theorem Keyed.numbers_findThread (ht : t.Keyed) (pid tid : Pid) :
    (t.findThread pid tid).1.pid = pid ∧ (t.findThread pid tid).1.tid = tid := by
  by_cases h : ∃ known, t.threads.get? tid = some known ∧ known.pid = pid
  · obtain ⟨known, hknown, hpid⟩ := h
    rw [findThread_of_known hknown hpid]
    exact ⟨hpid, ht.tid_of_get? tid known hknown⟩
  · rw [findThread_of_new fun known hknown hpid => h ⟨known, hknown, hpid⟩]
    exact ⟨rfl, rfl⟩

theorem Keyed.findThread (ht : t.Keyed) (pid tid : Pid) : (t.findThread pid tid).2.Keyed :=
  ht.of_get? (ht.numbers_findThread pid tid).2 (threads_findThread t pid tid)

theorem threads_addThread (t : ThreadTree) (pid tid n : Pid) (comm : String) :
    (t.addThread pid tid comm).threads.get? n =
      if tid = n then
        some { ((t.threads.get? tid).getD ⟨pid, tid, comm⟩) with comm }
      else t.threads.get? n := by
  have hthreads : (t.addThread pid tid comm).threads =
      t.threads.insert tid { ((t.threads.get? tid).getD ⟨pid, tid, comm⟩) with comm } := by
    unfold addThread
    cases t.threads.get? tid <;> rfl
  rw [hthreads]
  split
  · next h => rw [← h, OrderedMap.get?_insert_self]
  · next h => rw [OrderedMap.get?_insert_of_ne _ _ h]

theorem Keyed.addThread (ht : t.Keyed) (pid tid : Pid) (comm : String) :
    (t.addThread pid tid comm).Keyed := by
  refine ht.of_get? ?_ fun n => threads_addThread t pid tid n comm
  cases h : t.threads.get? tid with
  | none => rfl
  | some known => exact ht.tid_of_get? tid known h

theorem Keyed.fork (ht : t.Keyed) (pid tid ppid ptid : Pid) : (t.fork pid tid ppid ptid).Keyed := by
  have hparent := ht.findThread ppid ptid
  have hchild := hparent.findThread pid tid
  have hnumber := (hparent.numbers_findThread pid tid).2
  have hinherit : ∀ (t : ThreadTree) (comm : String), (t.inherit pid ppid comm).threads =
      t.threads := by
    intro t comm
    simp only [inherit]
    split <;> rfl
  -- The child is put in once more, under the name of its parent.
  let parent := t.findThread ppid ptid
  let child := parent.2.findThread pid tid
  let named : Thread := { child.1 with comm := parent.1.comm }
  have hnamed : named.tid = tid := hnumber
  have hthreads : ∀ n, (t.fork pid tid ppid ptid).threads.get? n =
      if tid = n then some named else child.2.threads.get? n := by
    intro n
    unfold ThreadTree.fork
    simp only [apply_ite ThreadTree.threads, hinherit, ite_self]
    split
    · next h => rw [← h, OrderedMap.get?_insert_self]
    · next h => rw [OrderedMap.get?_insert_of_ne _ _ h]
  exact hchild.of_get? hnamed hthreads

theorem Keyed.exit (ht : t.Keyed) (tid : Pid) : (t.exit tid).Keyed := by
  refine ⟨fun n known hn => ?_⟩
  by_cases h : tid = n
  · rw [← h, ThreadTree.exit, OrderedMap.get?_erase_self] at hn
    cases hn
  · rw [ThreadTree.exit, OrderedMap.get?_erase_of_ne _ h] at hn
    exact ht.tid_of_get? n known hn

theorem Keyed.addRecordMap (ht : t.Keyed) (misc : UInt16) (pid tid : UInt32)
    (start len pgoff time : UInt64) (filename userName : String) :
    (t.addRecordMap misc pid tid start len pgoff time filename userName).Keyed := by
  unfold ThreadTree.addRecordMap addKernelMap addThreadMap addUserMap
  have hfound := ht.findThread (pidOf pid) (pidOf tid)
  split
  · split
    · exact ht
    · exact ⟨ht.tid_of_get?⟩
  · split
    · exact hfound
    · exact ⟨hfound.tid_of_get?⟩

theorem Keyed.update (ht : t.Keyed) (r : Record) : (t.update r).Keyed := by
  cases r with
  | mmap r => exact ht.addRecordMap ..
  | mmap2 r => exact ht.addRecordMap ..
  | comm r => exact ht.addThread ..
  | fork r => exact ht.fork ..
  | exit r => exact ht.exit _
  | _ => exact ht

/-- **Each use keeps every thread under its own number.** -/
theorem Use.keyed_run (ht : t.Keyed) (u : Use) : (u.run t).Keyed := by
  cases u with
  | tell r => exact ht.update r
  | ask pid tid => exact ht.findThread pid tid

theorem keyed_foldl_run (uses : List Use) : (uses.foldl Use.run {}).Keyed := by
  suffices h : ∀ t : ThreadTree, t.Keyed → (uses.foldl Use.run t).Keyed from
    h {} ⟨fun tid known h => by cases h⟩
  induction uses with
  | nil => exact fun t ht => ht
  | cons u uses ih => exact fun t ht => ih _ (u.keyed_run ht)

/-! ### A name that a record gives -/

theorem processes_addThread (t : ThreadTree) (pid tid : Pid) (comm : String) :
    (t.addThread pid tid comm).processes.get? pid =
      some (if pid = tid then comm else (t.processes.get? pid).getD comm) := by
  unfold addThread
  by_cases hmain : pid = tid
  · rw [if_pos (Or.inl hmain), OrderedMap.get?_insert_self, if_pos hmain]
  · rw [if_neg hmain]
    cases hproc : t.processes.get? pid with
    | none =>
      rw [if_pos (Or.inr (by rw [OrderedMap.contains, hproc]; rfl)), OrderedMap.get?_insert_self]
      rfl
    | some old =>
      rw [if_neg (by simp [hmain, OrderedMap.contains, hproc]), hproc]
      rfl

/-- The name a thread is found under right after it was named: that of its
process, if it is known under another one. -/
theorem comm_findThread_addThread (t : ThreadTree) (pid tid : Pid) (comm : String) :
    ((t.addThread pid tid comm).findThread pid tid).1.comm =
      if (∀ known, t.threads.get? tid = some known → known.pid = pid) ∨ pid = tid then comm
      else (t.processes.get? pid).getD comm := by
  have hthread := threads_addThread t pid tid tid comm
  rw [if_pos rfl] at hthread
  have hproc := processes_addThread t pid tid comm
  by_cases hkept : ∀ known, t.threads.get? tid = some known → known.pid = pid
  · have hpid : ((t.threads.get? tid).getD ⟨pid, tid, comm⟩).pid = pid := by
      cases h : t.threads.get? tid with
      | none => rfl
      | some known => exact hkept known h
    rw [findThread_of_known hthread hpid, if_pos (Or.inl hkept)]
  · simp only [not_forall] at hkept
    obtain ⟨known, hknown, hne⟩ := hkept
    have hnew : ∀ k, (t.addThread pid tid comm).threads.get? tid = some k → k.pid ≠ pid := by
      intro k hk
      rw [hthread, hknown] at hk
      obtain rfl := Option.some.inj hk
      exact hne
    rw [findThread_of_new hnew, hproc, Option.getD_some]
    exact if_congr (by simp [hknown, hne]) rfl rfl

/-- **A record names its thread unless the thread is known under another
process.** Whatever was told and asked before, a thread that is looked for
right after a record has named it has the numbers of the record, and if it is
the main thread its name and that of its process are the record's. Any other
thread has the record's name exactly if its number was not known under another
process, or the process was already called like that or had no name. -/
theorem findThread_update_comm (uses : List Use) (r : CommRecord) :
    let t := uses.foldl Use.run {}
    let pid := pidOf r.pid
    let tid := pidOf r.tid
    let t' := t.update (.comm r)
    let found := t'.findThread pid tid
    found.1.pid = pid ∧ found.1.tid = tid ∧
      (pid = tid → found.1.comm = r.comm ∧ t'.processes.get? pid = some r.comm ∧
        found.2.processes.get? pid = some r.comm) ∧
      (found.1.comm = r.comm ↔
        (∀ known, t.threads.get? tid = some known → known.pid = pid) ∨ pid = tid ∨
          ∀ comm, t.processes.get? pid = some comm → comm = r.comm) := by
  intro t pid tid t' found
  have hkeyed : t'.Keyed := (keyed_foldl_run uses).update (.comm r)
  obtain ⟨hpid, htid⟩ := hkeyed.numbers_findThread pid tid
  have hcomm : found.1.comm = _ := comm_findThread_addThread t pid tid r.comm
  have hproc : t'.processes.get? pid = _ := processes_addThread t pid tid r.comm
  refine ⟨hpid, htid, fun hmain => ?_, ?_⟩
  · rw [if_pos hmain] at hproc
    rw [if_pos (Or.inr hmain)] at hcomm
    exact ⟨hcomm, hproc, by rw [processes_findThread hproc, hproc]⟩
  · rw [hcomm, ← or_assoc]
    split
    · next h => exact ⟨fun _ => Or.inl h, fun _ => rfl⟩
    · next h =>
      rw [or_iff_right h]
      cases t.processes.get? pid with
      | none => simp
      | some old => simp

/-- A thread of process 1 that turns up in process 2: the name that a record
gives it is lost. -/
theorem findThread_update_comm_moved :
    let t := [Use.tell (.comm { pid := 1, tid := 1, comm := "one" }),
      .tell (.comm { pid := 1, tid := 5, comm := "worker" }),
      .tell (.comm { pid := 2, tid := 2, comm := "two" })].foldl Use.run {}
    let r : CommRecord := { pid := 2, tid := 5, comm := "renamed" }
    let found := ((t.update (.comm r)).findThread (pidOf r.pid) (pidOf r.tid)).1
    found = ⟨2, 5, "two"⟩ ∧ found.comm ≠ r.comm := by decide

end ThreadTree
end Profiler
