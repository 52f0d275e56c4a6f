/-
# The files that a recording notes

A recording notes the files that its map records name, and looks for their
build ids when it is finished. It passes over a map when the lowest bit of the
cpu's mode is set. A thread tree takes a map for the kernel's only when the
whole mode is the kernel's. So every file that is noted is one that a process
has mapped, but the files that were mapped in one of the other odd modes (the
hypervisor's, the one of a guest's programs, and one without meaning) are noted
only when they were mapped in an even mode as well.

Key definitions: `Record.mapped?`, `Record.IsUserMap`, `UserFile`, `MappedIn`.
Key theorems: `isKernelMode_eq_false_iff`, `Record.isUserMap_iff`,
`RecordingStats.mem_mappedFiles_account`, `RecordingStats.mem_mappedFiles_foldl`,
`RecordingStats.mappedFiles_iff_userFile`.
-/
import Mathlib.Data.List.Basic
import Profiler.Process.ThreadTree
import Profiler.Proofs.OrderedMap
import Profiler.Recording.Recorder

namespace Profiler

/-- The mode of the cpu and the file of a record that maps one. -/
def Record.mapped? : Record → Option (UInt16 × String)
  | .mmap r => some (r.misc, r.filename)
  | .mmap2 r => some (r.misc, r.filename)
  | _ => none

/-- Whatever a thread tree holds, it takes the record for a map of a process. -/
def Record.IsUserMap (r : Record) : Prop :=
  ∃ pid tid start len pgoff time filename, ∀ t : ThreadTree,
    t.update r = t.addThreadMap pid tid start len pgoff time filename

/-- A file that some record maps for a process. -/
def UserFile (rs : List Record) (file : String) : Prop :=
  ∃ r ∈ rs, ∃ misc, r.mapped? = some (misc, file) ∧ r.IsUserMap

/-- A file that some record maps in one of these modes of the cpu. -/
def MappedIn (modes : UInt16 → Prop) (rs : List Record) (file : String) : Prop :=
  ∃ r ∈ rs, ∃ misc, r.mapped? = some (misc, file) ∧ modes misc

/-- The modes whose lowest bit is clear. -/
def EvenMode (misc : UInt16) : Prop := misc &&& kernelMode = 0

/-- The odd modes that are not the kernel's. -/
def OtherOddMode (misc : UInt16) : Prop := misc &&& 7 = 3 ∨ misc &&& 7 = 5 ∨ misc &&& 7 = 7

variable {r : Record} {rs : List Record} {misc : UInt16} {file : String}

/-! ### Modes -/

theorem cpuMode_cases (misc : UInt16) : ∃ m ∈ [0, 1, 2, 3, 4, 5, 6, 7], misc &&& 7 = m := by
  have hlt : (misc &&& 7).toNat ≤ 7 := by
    rw [UInt16.toNat_and]
    exact Nat.and_le_right
  refine ⟨misc &&& 7, ?_, rfl⟩
  simp only [List.mem_cons, List.not_mem_nil, or_false, ← UInt16.toNat_inj]
  simp only [UInt16.reduceToNat]
  omega

theorem isKernelMode_eq_false_iff (misc : UInt16) :
    isKernelMode misc = false ↔ EvenMode misc ∨ OtherOddMode misc := by
  have hlow : misc &&& kernelMode = (misc &&& 7) &&& kernelMode := by
    rw [UInt16.and_assoc]
    rfl
  obtain ⟨m, hm, hmode⟩ := cpuMode_cases misc
  rw [isKernelMode, EvenMode, hlow, OtherOddMode, hmode]
  simp only [List.mem_cons, List.not_mem_nil, or_false] at hm
  rcases hm with rfl | rfl | rfl | rfl | rfl | rfl | rfl | rfl <;> decide

/-! ### What a thread tree makes of a map -/

namespace ThreadTree

theorem threads_addKernelMap (t : ThreadTree) (start len pgoff time : UInt64) (filename : String) :
    (t.addKernelMap start len pgoff time filename).threads = t.threads := by
  unfold addKernelMap
  split <;> rfl

theorem contains_threads_addThreadMap (t : ThreadTree) (pid tid : Pid)
    (start len pgoff time : UInt64) (filename : String) :
    (t.addThreadMap pid tid start len pgoff time filename).threads.contains tid = true := by
  have hadded : (t.addThreadMap pid tid start len pgoff time filename).threads =
      (t.findThread pid tid).2.threads := by
    unfold addThreadMap addUserMap
    split <;> rfl
  rw [hadded, findThread, OrderedMap.contains]
  cases hknown : t.threads.get? tid with
  | none => simp [OrderedMap.get?_insert_self]
  | some known =>
    by_cases hpid : known.pid = pid
    · simp [hpid, hknown]
    · simp [hpid, OrderedMap.get?_insert_self]

end ThreadTree

/-- **The mode decides whose a map is,** and nothing else does. -/
theorem Record.isUserMap_iff (h : r.mapped? = some (misc, file)) :
    r.IsUserMap ↔ isKernelMode misc = false := by
  have hupdate : ∃ pid tid start len pgoff time filename userName, ∀ t : ThreadTree,
      t.update r = t.addRecordMap misc pid tid start len pgoff time filename userName := by
    cases r with
    | mmap r | mmap2 r =>
      obtain ⟨rfl, rfl⟩ := Prod.mk.inj (Option.some.inj h)
      exact ⟨_, _, _, _, _, _, _, _, fun t => rfl⟩
    | _ => cases h
  obtain ⟨pid, tid, start, len, pgoff, time, filename, userName, hupdate⟩ := hupdate
  unfold ThreadTree.addRecordMap at hupdate
  constructor
  · rintro ⟨pid', tid', start', len', pgoff', time', name', hthread⟩
    by_contra hmode
    -- the empty tree would know the thread after a map of the kernel's
    have hknown := ThreadTree.contains_threads_addThreadMap {} pid' tid' start' len' pgoff' time' name'
    rw [← hthread, hupdate, if_pos (by simpa using hmode), ThreadTree.threads_addKernelMap] at hknown
    cases hknown
  · intro hmode
    exact ⟨_, _, _, _, _, _, _, fun t => by rw [hupdate, if_neg (by simp [hmode])]⟩

/-- The files of user maps are those mapped in an even mode and those mapped in
one of the other odd modes. -/
theorem userFile_iff : UserFile rs file ↔ MappedIn EvenMode rs file ∨ MappedIn OtherOddMode rs file := by
  constructor
  · rintro ⟨r, hr, misc, hmapped, huser⟩
    rcases (isKernelMode_eq_false_iff misc).mp ((Record.isUserMap_iff hmapped).mp huser) with h | h
    · exact .inl ⟨r, hr, misc, hmapped, h⟩
    · exact .inr ⟨r, hr, misc, hmapped, h⟩
  · have huser : ∀ {modes : UInt16 → Prop}, (∀ misc, modes misc → isKernelMode misc = false) →
        MappedIn modes rs file → UserFile rs file := by
      rintro modes hmodes ⟨r, hr, misc, hmapped, hmode⟩
      exact ⟨r, hr, misc, hmapped, (Record.isUserMap_iff hmapped).mpr (hmodes misc hmode)⟩
    rintro (h | h)
    · exact huser (fun misc hmode => (isKernelMode_eq_false_iff misc).mpr (.inl hmode)) h
    · exact huser (fun misc hmode => (isKernelMode_eq_false_iff misc).mpr (.inr hmode)) h

/-! ### What a recording notes -/

namespace RecordingStats

/-- One record adds the file that it maps, if the mode's lowest bit is clear. -/
theorem mem_mappedFiles_account (s : RecordingStats) (r : Record) (file : String) :
    file ∈ (s.account r).mappedFiles.keys ↔ file ∈ s.mappedFiles.keys ∨
      ∃ misc, r.mapped? = some (misc, file) ∧ EvenMode misc := by
  have hadd : ∀ (s : RecordingStats) (misc : UInt16) (name : String),
      file ∈ (s.addFile misc name).mappedFiles.keys ↔
        file ∈ s.mappedFiles.keys ∨ name = file ∧ EvenMode misc := by
    intro s misc name
    unfold addFile EvenMode
    by_cases hmode : misc &&& kernelMode = 0
    · rw [if_pos hmode, OrderedMap.mem_keys_insert, or_comm, eq_comm, and_iff_left hmode]
    · simp [hmode]
  cases r with
  | mmap r | mmap2 r =>
    unfold account
    dsimp only
    rw [hadd]
    simp [Record.mapped?]
  | _ => simp [account, Record.mapped?]

theorem mem_mappedFiles_foldl (rs : List Record) (s : RecordingStats) (file : String) :
    file ∈ (rs.foldl account s).mappedFiles.keys ↔
      file ∈ s.mappedFiles.keys ∨ MappedIn EvenMode rs file := by
  induction rs generalizing s with
  | nil => simp [MappedIn]
  | cons r rs ih =>
    rw [List.foldl_cons, ih, mem_mappedFiles_account, or_assoc, MappedIn, MappedIn,
      List.exists_mem_cons_iff]

/-- **Which user maps a recording notes.** Whatever records there are, it notes
the files that they map in an even mode. The files of the maps that a thread
tree takes for maps of processes are these and the ones that are mapped in one
of the other odd modes. So both are the same exactly if every file that is
mapped in such a mode is mapped in an even one as well. -/
theorem mappedFiles_iff_userFile (rs : List Record) :
    let noted := (rs.foldl account {}).mappedFiles.keys
    (∀ file, file ∈ noted ↔ MappedIn EvenMode rs file) ∧
    (∀ file, UserFile rs file ↔ file ∈ noted ∨ MappedIn OtherOddMode rs file) ∧
    ((∀ file, file ∈ noted ↔ UserFile rs file) ↔
      ∀ file, MappedIn OtherOddMode rs file → MappedIn EvenMode rs file) := by
  intro noted
  have hnoted : ∀ file, file ∈ noted ↔ MappedIn EvenMode rs file := by
    intro file
    have hnone : file ∉ ({} : RecordingStats).mappedFiles.keys := List.not_mem_nil
    exact (mem_mappedFiles_foldl rs {} file).trans (or_iff_right hnone)
  refine ⟨hnoted, fun file => by rw [hnoted, userFile_iff], ?_⟩
  constructor
  · intro hsame file hodd
    exact (hnoted file).mp ((hsame file).mpr (userFile_iff.mpr (.inr hodd)))
  · intro hodd file
    rw [hnoted, userFile_iff]
    constructor
    · exact .inl
    · rintro (h | h)
      · exact h
      · exact hodd file h

/-- A file that a program of a guest has mapped is not noted. -/
theorem not_noted_guest_map :
    let r : Record := .mmap { misc := 5, pid := 10, tid := 10, addr := 4194304, len := 4096,
                              filename := "/bin/app" }
    UserFile [r] "/bin/app" ∧ "/bin/app" ∉ ([r].foldl account {}).mappedFiles.keys := by
  intro r
  exact ⟨⟨r, List.mem_singleton_self r, 5, rfl, (Record.isUserMap_iff rfl).mpr rfl⟩, by decide⟩

end RecordingStats
end Profiler
