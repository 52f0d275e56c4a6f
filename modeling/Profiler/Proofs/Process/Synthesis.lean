/-
# What the recorder's own records tell

The records about a process that was running before the recording began name its
threads and add its mappings, in whatever order: a thread that is named is found
under its name as long as its number belongs to no other process
(`ThreadTree.Known.addThread`), and mappings that do not overlap are all kept
whole (`ThreadTree.Known.addThreadMap`). The records about other processes touch
nothing of it (`ProcessSnapshot.agreeOn_foldl_records`). So a tree that is told of a list
of processes shows each of them as it was found (`ThreadTree.shows_ofRecords`).

Key definitions: `ThreadTree.Shows`, `ProcessSnapshot.Separate`,
`ThreadTree.Known`, `ThreadTree.AgreeOn`.
Key theorems: `MapSet.insert_perm_of_apart`, `ThreadTree.Known.addThread`,
`ThreadTree.Known.addThreadMap`, `ThreadTree.shows_ofRecords`.
-/
import Mathlib.Data.List.Nodup
import Profiler.Recording.Synthesis
import Profiler.Proofs.Process.Inheritance
import Profiler.Proofs.Process.MapSet
import Profiler.Proofs.Process.Naming

namespace Profiler

/-! ### What was found and what is shown -/

namespace ProcessSnapshot

def thread (p : ProcessSnapshot) (thread : UInt32 × String) : Thread :=
  ⟨ThreadTree.pidOf p.pid, ThreadTree.pidOf thread.1, thread.2⟩

def entry (p : ProcessSnapshot) (time : UInt64) (m : Mapping) : MapEntry :=
  ⟨ThreadTree.pidOf p.pid, m.start, m.stop - m.start, m.offset, time,
    m.path.getD ThreadTree.anonymousName⟩

/-- Processes that were found at one time: they have different numbers, and so
have their threads, and no process has the number of another one's thread. The
mappings of a process are not empty and do not overlap. -/
structure Separate (ps : List ProcessSnapshot) : Prop where
  pids : (ps.map pid).Nodup
  tids : (ps.flatMap fun p => p.threads.map Prod.fst).Nodup
  foreign : ∀ p ∈ ps, ∀ q ∈ ps, p.pid ≠ q.pid → p.pid ∉ q.threads.map Prod.fst
  nonempty : ∀ p ∈ ps, ∀ m ∈ p.mappings, m.start < m.stop
  disjoint : ∀ p ∈ ps, p.mappings.Pairwise fun m m' => m.stop ≤ m'.start ∨ m'.stop ≤ m.start

end ProcessSnapshot

namespace ThreadTree

/-- The tree has these threads of a process, the name of the process if the main
thread is among them, and exactly these maps of it, by address. -/
structure Shows (t : ThreadTree) (pid : Pid) (threads : List Thread) (maps : List MapEntry) :
    Prop where
  thread : ∀ x ∈ threads, t.threads.get? x.tid = some x
  name : ∀ x ∈ threads, x.tid = pid → t.processes.get? pid = some x.comm
  maps : (t.mapsOf pid).Perm maps
  order : (t.mapsOf pid).Pairwise fun a b => a.start < b.start

end ThreadTree

/-! ### A map that overlaps no other -/

namespace MapSet

variable {s : MapSet} {m : MapEntry}

theorem place_perm (h : ∀ old ∈ s, old.start ≠ m.start) : (place m s).Perm (m :: s) := by
  induction s with
  | nil => exact List.Perm.refl _
  | cons old rest ih =>
    obtain ⟨hold, hrest⟩ := List.forall_mem_cons.mp h
    rw [place]
    split
    · exact List.Perm.refl _
    · rw [if_neg (Ne.symm hold)]
      exact ((ih hrest).cons old).trans (List.Perm.swap m old rest)

/-- A map that overlaps no other is added to them, and they are left whole. -/
theorem insert_perm_of_apart (hs : s.Live) (hm : m.start < m.stop)
    (h : ∀ old ∈ s, old.start < old.stop ∧ (old.stop ≤ m.start ∨ m.stop ≤ old.start)) :
    (s.insert m).Perm (m :: s) := by
  obtain ⟨apart, met, above, hsplit, hclear, -, hmet, -⟩ := clear_eq hs m.start m.stop
  have hnone : met = [] := by
    refine List.eq_nil_iff_forall_not_mem.mpr fun old hold => ?_
    obtain ⟨hstart, hstop⟩ := hmet old hold
    obtain ⟨-, hle | hle⟩ := h old (by simp [hsplit, hold])
    · exact UInt64.not_lt.mpr hle hstop
    · exact UInt64.not_lt.mpr hle hstart
  have hkept : s.clear m.start m.stop = s := by
    rw [hclear, hsplit, hnone]
    rfl
  rw [MapSet.insert, hkept]
  apply place_perm
  intro old hold heq
  obtain ⟨hlt, hle | hle⟩ := h old hold
  · exact UInt64.not_lt.mpr hle (heq ▸ hlt)
  · exact UInt64.not_lt.mpr hle (heq ▸ hm)

end MapSet

namespace ThreadTree

variable {t t' : ThreadTree} {pid tid n : Pid} {numbers : List Pid} {threads : List Thread}
  {maps : List MapEntry}

/-! ### What a record about a process changes -/

theorem processes_addThread_of_ne (t : ThreadTree) (tid : Pid) (comm : String) (h : pid ≠ n) :
    (t.addThread pid tid comm).processes.get? n = t.processes.get? n := by
  show OrderedMap.get? (if _ then _ else _) n = _
  split
  · exact OrderedMap.get?_insert_of_ne _ _ h
  · rfl

theorem processes_findThread_of_ne (t : ThreadTree) (tid : Pid) (h : pid ≠ n) :
    (t.findThread pid tid).2.processes.get? n = t.processes.get? n := by
  have hinsert := OrderedMap.get?_insert_of_ne t.processes unknownComm h
  unfold findThread
  cases t.processes.get? pid <;> cases t.threads.get? tid
  case none.none => exact hinsert
  case none.some known => dsimp only; split <;> exact hinsert
  case some.none => rfl
  case some.some known => dsimp only; split <;> rfl

theorem mapsOf_addUserMap (t : ThreadTree) {m : MapEntry} (hlen : m.len ≠ 0) :
    (t.addUserMap m.pid m.start m.len m.pgoff m.time m.filename).mapsOf n =
      if m.pid = n then (t.mapsOf n).insert m else t.mapsOf n := by
  rw [addUserMap, if_neg hlen]
  by_cases h : m.pid = n
  · rw [if_pos h, ← h, mapsOf, OrderedMap.get?_insert_self]
    rfl
  · rw [if_neg h, mapsOf, OrderedMap.get?_insert_of_ne _ _ h]
    rfl

theorem addUserMap_tables (t : ThreadTree) (pid : Pid) (start len pgoff time : UInt64)
    (filename : String) :
    (t.addUserMap pid start len pgoff time filename).threads = t.threads ∧
      (t.addUserMap pid start len pgoff time filename).processes = t.processes := by
  unfold addUserMap
  split <;> exact ⟨rfl, rfl⟩

theorem mapsOf_findThread (t : ThreadTree) (pid tid n : Pid) :
    (t.findThread pid tid).2.mapsOf n = t.mapsOf n := by
  rw [mapsOf, userMaps_findThread, mapsOf]

/-! ### A process that is being told of -/

/-- The trees agree on a process and on what has one of these numbers. -/
structure AgreeOn (t t' : ThreadTree) (pid : Pid) (numbers : List Pid) : Prop where
  threads : ∀ n ∈ numbers, t'.threads.get? n = t.threads.get? n
  processes : t'.processes.get? pid = t.processes.get? pid
  maps : t'.mapsOf pid = t.mapsOf pid

/-- These threads and maps of a process have been told of. Its numbers belong to
no other process. -/
structure Known (t : ThreadTree) (pid : Pid) (numbers : List Pid) (threads : List Thread)
    (maps : List MapEntry) : Prop where
  own : ∀ n ∈ numbers, ∀ known, t.threads.get? n = some known → known.pid = pid ∧ known.tid = n
  listed : ∀ x ∈ threads, x.tid ∈ numbers
  thread : ∀ x ∈ threads, t.threads.get? x.tid = some x
  name : ∀ x ∈ threads, x.tid = pid → t.processes.get? pid = some x.comm
  maps : (t.mapsOf pid).Perm maps
  live : (t.mapsOf pid).Live

theorem Known.shows (h : t.Known pid numbers threads maps) : t.Shows pid threads maps :=
  ⟨h.thread, h.name, h.maps, h.live.imp And.left⟩

theorem AgreeOn.refl (t : ThreadTree) (pid : Pid) (numbers : List Pid) : t.AgreeOn t pid numbers :=
  ⟨fun _ _ => rfl, rfl, rfl⟩

theorem AgreeOn.trans {t'' : ThreadTree} (h : t.AgreeOn t' pid numbers)
    (h' : t'.AgreeOn t'' pid numbers) : t.AgreeOn t'' pid numbers :=
  ⟨fun n hn => (h'.threads n hn).trans (h.threads n hn), h'.processes.trans h.processes,
    h'.maps.trans h.maps⟩

theorem Known.congr (h : t.Known pid numbers threads maps) (hagree : t.AgreeOn t' pid numbers) :
    t'.Known pid numbers threads maps where
  own n hn := hagree.threads n hn ▸ h.own n hn
  listed := h.listed
  thread x hx := (hagree.threads x.tid (h.listed x hx)).trans (h.thread x hx)
  name x hx hmain := hagree.processes.trans (h.name x hx hmain)
  maps := hagree.maps ▸ h.maps
  live := hagree.maps ▸ h.live

theorem known_empty (pid : Pid) (numbers : List Pid) :
    ({} : ThreadTree).Known pid numbers [] [] where
  own := nofun
  listed := nofun
  thread := nofun
  name := nofun
  maps := List.Perm.refl _
  live := List.Pairwise.nil

/-- **A thread that is named is found under its name**, and those that were named
before stay. -/
theorem Known.addThread (h : t.Known pid numbers threads maps) (htid : tid ∈ numbers)
    (hnew : ∀ x ∈ threads, x.tid ≠ tid) (comm : String) :
    (t.addThread pid tid comm).Known pid numbers (threads ++ [⟨pid, tid, comm⟩]) maps := by
  -- whatever is known under the number, the new name makes it the thread itself
  have hthread : ∀ n, (t.addThread pid tid comm).threads.get? n =
      if tid = n then some ⟨pid, tid, comm⟩ else t.threads.get? n := by
    intro n
    rw [threads_addThread]
    cases hknown : t.threads.get? tid with
    | none => rfl
    | some known =>
      obtain ⟨hpid, htid'⟩ := h.own tid htid known hknown
      simp only [Option.getD_some, hpid, htid']
  have hprocess : ∀ x ∈ threads, x.tid = pid →
      (t.addThread pid tid comm).processes.get? pid = some x.comm := by
    intro x hx hmain
    rw [processes_addThread, if_neg fun heq => hnew x hx (hmain.trans heq), h.name x hx hmain]
    rfl
  refine ⟨fun n hn known hknown => ?_, ?_, ?_, ?_, h.maps, h.live⟩
  · rw [hthread n] at hknown
    split at hknown
    · next heq =>
      obtain rfl := Option.some.inj hknown
      exact ⟨rfl, heq⟩
    · exact h.own n hn known hknown
  · rw [List.forall_mem_append, List.forall_mem_singleton]
    exact ⟨h.listed, htid⟩
  · rw [List.forall_mem_append, List.forall_mem_singleton]
    refine ⟨fun x hx => ?_, ?_⟩
    · rw [hthread, if_neg (Ne.symm (hnew x hx))]
      exact h.thread x hx
    · rw [hthread, if_pos rfl]
  · rw [List.forall_mem_append, List.forall_mem_singleton]
    refine ⟨hprocess, fun hmain => ?_⟩
    rw [processes_addThread, if_pos hmain.symm]

/-- Asking for a thread of the process changes nothing that was told. -/
theorem Known.findThread (h : t.Known pid numbers threads maps) (htid : tid ∈ numbers) :
    (t.findThread pid tid).2.Known pid numbers threads maps := by
  have hthreads := threads_findThread t pid tid
  have hfound : (t.findThread pid tid).1.pid = pid ∧ (t.findThread pid tid).1.tid = tid := by
    cases hknown : t.threads.get? tid with
    | none =>
      rw [findThread_of_new fun known hsome => by rw [hknown] at hsome; cases hsome]
      exact ⟨rfl, rfl⟩
    | some known =>
      have hown := h.own tid htid known hknown
      rwa [findThread_of_known hknown hown.1]
  refine ⟨fun n hn known hknown => ?_, h.listed, fun x hx => ?_, fun x hx hmain => ?_, ?_, ?_⟩
  · rw [hthreads] at hknown
    split at hknown
    · next heq =>
      obtain rfl := Option.some.inj hknown
      exact ⟨hfound.1, hfound.2.trans heq⟩
    · exact h.own n hn known hknown
  · rw [hthreads]
    split
    · next heq =>
      have hx' := h.thread x hx
      rw [← heq] at hx'
      rw [findThread_of_known hx' (h.own tid htid x hx').1]
    · exact h.thread x hx
  · rw [processes_findThread (h.name x hx hmain)]
    exact h.name x hx hmain
  · rw [mapsOf_findThread]
    exact h.maps
  · rw [mapsOf_findThread]
    exact h.live

/-- **A map that overlaps none of the others is kept with them.** -/
theorem Known.addThreadMap {m : MapEntry} (h : t.Known m.pid numbers threads maps)
    (hpid : m.pid ∈ numbers) (hlen : m.len ≠ 0) (hm : m.start < m.stop)
    (hapart : ∀ old ∈ maps, old.start < old.stop ∧ (old.stop ≤ m.start ∨ m.stop ≤ old.start)) :
    (t.addThreadMap m.pid m.pid m.start m.len m.pgoff m.time m.filename).Known m.pid numbers threads
      (maps ++ [m]) := by
  have hfound := h.findThread hpid
  have hmaps := mapsOf_addUserMap (n := m.pid) (t.findThread m.pid m.pid).2 hlen
  rw [if_pos rfl] at hmaps
  have hperm := MapSet.insert_perm_of_apart hfound.live hm fun old hold =>
    hapart old (hfound.maps.mem_iff.mp hold)
  obtain ⟨hthreads, hprocesses⟩ := (t.findThread m.pid m.pid).2.addUserMap_tables m.pid m.start
    m.len m.pgoff m.time m.filename
  rw [ThreadTree.addThreadMap]
  refine ⟨?_, hfound.listed, ?_, ?_, ?_, ?_⟩
  · rw [hthreads]
    exact hfound.own
  · rw [hthreads]
    exact hfound.thread
  · rw [hprocesses]
    exact hfound.name
  · rw [hmaps]
    exact hperm.trans ((hfound.maps.cons m).trans (List.perm_append_singleton m maps).symm)
  · rw [hmaps]
    exact MapSet.live_insert hfound.live m

/-! ### Records about other processes -/

theorem agreeOn_addThread (hpid : n ≠ pid) (htid : tid ∉ numbers) (comm : String) :
    t.AgreeOn (t.addThread n tid comm) pid numbers where
  threads k hk := by
    have hne : tid ≠ k := fun heq => htid (heq ▸ hk)
    rw [threads_addThread, if_neg hne]
  processes := processes_addThread_of_ne t tid comm hpid
  maps := rfl

theorem agreeOn_addThreadMap {m : MapEntry} (hpid : m.pid ≠ pid) (hnumber : m.pid ∉ numbers)
    (hlen : m.len ≠ 0) :
    t.AgreeOn (t.addThreadMap m.pid m.pid m.start m.len m.pgoff m.time m.filename) pid numbers := by
  have hmaps := mapsOf_addUserMap (n := pid) (t.findThread m.pid m.pid).2 hlen
  rw [if_neg hpid] at hmaps
  obtain ⟨hthreads, hprocesses⟩ := (t.findThread m.pid m.pid).2.addUserMap_tables m.pid m.start
    m.len m.pgoff m.time m.filename
  rw [ThreadTree.addThreadMap]
  refine ⟨fun k hk => ?_, ?_, ?_⟩
  · have hne : m.pid ≠ k := fun heq => hnumber (heq ▸ hk)
    rw [hthreads, threads_findThread, if_neg hne]
  · rw [hprocesses]
    exact processes_findThread_of_ne t m.pid hpid
  · rw [hmaps, mapsOf_findThread]

theorem agreeOn_foldl {rs : List Record}
    (h : ∀ r ∈ rs, ∀ t : ThreadTree, t.AgreeOn (t.update r) pid numbers) (t : ThreadTree) :
    t.AgreeOn (rs.foldl update t) pid numbers := by
  induction rs generalizing t with
  | nil => exact AgreeOn.refl t pid numbers
  | cons r rest ih =>
    obtain ⟨hr, hrest⟩ := List.forall_mem_cons.mp h
    exact (hr t).trans (ih hrest (t.update r))

theorem pidOf_injective : Function.Injective pidOf := fun _ _ h => congrArg Int32.toUInt32 h

end ThreadTree

/-! ### The records about a process -/

namespace ProcessSnapshot

open ThreadTree (pidOf pidOf_injective)

variable {p q : ProcessSnapshot} {t : ThreadTree} {threads : List Thread} {maps : List MapEntry}

def numbers (p : ProcessSnapshot) : List Pid := (p.pid :: p.threads.map Prod.fst).map pidOf

theorem update_threadRecord (p : ProcessSnapshot) (sampleId : SampleId) (x : UInt32 × String)
    (t : ThreadTree) : t.update (p.threadRecord sampleId x) =
      t.addThread (p.thread x).pid (p.thread x).tid (p.thread x).comm := rfl

theorem update_mappingRecord (p : ProcessSnapshot) (sampleId : SampleId) (m : Mapping)
    (t : ThreadTree) : t.update (p.mappingRecord sampleId m) =
      let e := p.entry sampleId.time m
      t.addThreadMap e.pid e.pid e.start e.len e.pgoff e.time e.filename := by
  have huser : ¬ isKernelMode userMode = true := by decide
  unfold mappingRecord ThreadTree.update ThreadTree.addRecordMap
  exact if_neg huser

theorem records_eq (p : ProcessSnapshot) (sampleId : SampleId) : p.records sampleId =
    (p.threads.filter fun x => x.1 == p.pid).map (p.threadRecord sampleId) ++
      p.mappings.map (p.mappingRecord sampleId) ++
      (p.threads.filter fun x => !(x.1 == p.pid)).map (p.threadRecord sampleId) := by
  rw [records, List.partition_eq_filter_filter]
  rfl

theorem len_entry_ne_zero {m : Mapping} (h : m.start < m.stop) (time : UInt64) :
    (p.entry time m).len ≠ 0 := by
  intro hzero
  have hlen : (m.stop - m.start).toNat = 0 := congrArg UInt64.toNat hzero
  rw [UInt64.toNat_sub_of_le _ _ (UInt64.le_of_lt h)] at hlen
  rw [UInt64.lt_iff_toNat_lt] at h
  omega

theorem stop_entry {m : Mapping} (h : m.start < m.stop) (time : UInt64) :
    (p.entry time m).stop = m.stop := by
  have hlt := m.stop.toNat_lt
  have hstop := (p.entry time m).toNat_stop
  rw [entry, UInt64.toNat_sub_of_le _ _ (UInt64.le_of_lt h)] at hstop
  rw [UInt64.lt_iff_toNat_lt] at h
  rw [← UInt64.toNat_inj, entry, hstop]
  simp only [UInt64.size]
  omega

theorem known_foldl_threads {l : List (UInt32 × String)}
    (h : t.Known (pidOf p.pid) p.numbers threads maps) (hl : ∀ x ∈ l, x ∈ p.threads)
    (hnodup : ((threads ++ l.map p.thread).map Thread.tid).Nodup) (sampleId : SampleId) :
    ((l.map (p.threadRecord sampleId)).foldl ThreadTree.update t).Known (pidOf p.pid) p.numbers
      (threads ++ l.map p.thread) maps := by
  induction l generalizing t threads with
  | nil =>
    simpa using h
  | cons x rest ih =>
    obtain ⟨hx, hrest⟩ := List.forall_mem_cons.mp hl
    have hnumber : (p.thread x).tid ∈ p.numbers :=
      List.mem_map_of_mem (List.mem_cons_of_mem _ (List.mem_map_of_mem hx))
    have hnew : ∀ y ∈ threads, y.tid ≠ (p.thread x).tid := by
      rw [List.map_append, List.nodup_append] at hnodup
      exact fun y hy => hnodup.2.2 y.tid (List.mem_map_of_mem hy) _ List.mem_cons_self
    have hassoc : threads ++ (x :: rest).map p.thread =
        threads ++ [p.thread x] ++ rest.map p.thread := by simp
    rw [hassoc] at hnodup ⊢
    rw [List.map_cons, List.foldl_cons, update_threadRecord]
    exact ih (h.addThread hnumber hnew x.2) hrest hnodup

theorem known_foldl_mappings (done : List Mapping) {l : List Mapping} (sampleId : SampleId)
    (h : t.Known (pidOf p.pid) p.numbers threads (done.map (p.entry sampleId.time)))
    (hne : ∀ m ∈ done ++ l, m.start < m.stop)
    (hdisjoint : (done ++ l).Pairwise fun m m' => m.stop ≤ m'.start ∨ m'.stop ≤ m.start) :
    ((l.map (p.mappingRecord sampleId)).foldl ThreadTree.update t).Known (pidOf p.pid) p.numbers
      threads ((done ++ l).map (p.entry sampleId.time)) := by
  induction l generalizing t done with
  | nil =>
    rw [List.append_nil]
    exact h
  | cons m rest ih =>
    have hm : m.start < m.stop := hne m (by simp)
    have hapart : ∀ old ∈ done.map (p.entry sampleId.time), old.start < old.stop ∧
        (old.stop ≤ (p.entry sampleId.time m).start ∨
          (p.entry sampleId.time m).stop ≤ old.start) := by
      rw [List.forall_mem_map]
      intro old hold
      have hold' : old.start < old.stop := hne old (by simp [hold])
      rw [stop_entry hold', stop_entry hm]
      exact ⟨hold', (List.pairwise_append.mp hdisjoint).2.2 old hold m List.mem_cons_self⟩
    have hnumber : (p.entry sampleId.time m).pid ∈ p.numbers := List.mem_cons_self
    have hstep := ThreadTree.Known.addThreadMap (m := p.entry sampleId.time m) h hnumber
      (len_entry_ne_zero hm _) (by rwa [stop_entry hm]) hapart
    have hassoc : done ++ m :: rest = done ++ [m] ++ rest := by simp
    rw [hassoc] at hne hdisjoint ⊢
    refine ih (done ++ [m]) ?_ hne hdisjoint
    rw [List.map_append, update_mappingRecord]
    exact hstep

/-- **The records about a process tell of all its threads and mappings.** -/
theorem known_foldl_records (h : t.Known (pidOf p.pid) p.numbers [] [])
    (htids : (p.threads.map Prod.fst).Nodup) (hne : ∀ m ∈ p.mappings, m.start < m.stop)
    (hdisjoint : p.mappings.Pairwise fun m m' => m.stop ≤ m'.start ∨ m'.stop ≤ m.start)
    (sampleId : SampleId) : ∃ threads : List (UInt32 × String), threads.Perm p.threads ∧
      ((p.records sampleId).foldl ThreadTree.update t).Known (pidOf p.pid) p.numbers
        (threads.map p.thread) (p.mappings.map (p.entry sampleId.time)) := by
  let main := p.threads.filter fun x => x.1 == p.pid
  let others := p.threads.filter fun x => !(x.1 == p.pid)
  have hperm : (main ++ others).Perm p.threads := List.filter_append_perm _ _
  have hnodup : ((main ++ others).map p.thread |>.map Thread.tid).Nodup := by
    have hpids : ((main ++ others).map p.thread).map Thread.tid =
        ((main ++ others).map Prod.fst).map pidOf := by
      rw [List.map_map, List.map_map]
      rfl
    rw [hpids]
    exact ((hperm.map Prod.fst).nodup_iff.mpr htids).map pidOf_injective
  refine ⟨main ++ others, hperm, ?_⟩
  rw [records_eq, List.foldl_append, List.foldl_append]
  rw [List.map_append] at hnodup ⊢
  have hmain := known_foldl_threads h (l := main) (fun x hx => List.mem_of_mem_filter hx)
    (hnodup.sublist ((List.sublist_append_left _ _).map _)) sampleId
  have hmaps := known_foldl_mappings [] sampleId hmain hne hdisjoint
  exact known_foldl_threads hmaps (fun x hx => List.mem_of_mem_filter hx) hnodup sampleId

/-- A record about another process touches nothing of this one. -/
theorem agreeOn_update (hpid : q.pid ≠ p.pid) (hnumbers : ∀ n ∈ q.numbers, n ∉ p.numbers)
    (hne : ∀ m ∈ q.mappings, m.start < m.stop) (sampleId : SampleId) :
    ∀ r ∈ q.records sampleId, ∀ t : ThreadTree, t.AgreeOn (t.update r) (pidOf p.pid) p.numbers := by
  have hpid' : pidOf q.pid ≠ pidOf p.pid := fun h => hpid (pidOf_injective h)
  have hthread : ∀ x ∈ q.threads, ∀ t : ThreadTree,
      t.AgreeOn (t.update (q.threadRecord sampleId x)) (pidOf p.pid) p.numbers := by
    intro x hx t
    rw [update_threadRecord]
    refine ThreadTree.agreeOn_addThread hpid' (hnumbers _ ?_) x.2
    exact List.mem_map_of_mem (List.mem_cons_of_mem _ (List.mem_map_of_mem hx))
  have hmapping : ∀ m ∈ q.mappings, ∀ t : ThreadTree,
      t.AgreeOn (t.update (q.mappingRecord sampleId m)) (pidOf p.pid) p.numbers := by
    intro m hm t
    rw [update_mappingRecord]
    exact ThreadTree.agreeOn_addThreadMap (m := q.entry sampleId.time m) hpid'
      (hnumbers _ List.mem_cons_self) (len_entry_ne_zero (hne m hm) _)
  rw [records_eq, List.forall_mem_append, List.forall_mem_append, List.forall_mem_map,
    List.forall_mem_map, List.forall_mem_map]
  exact ⟨⟨fun x hx => hthread x (List.mem_of_mem_filter hx), hmapping⟩,
    fun x hx => hthread x (List.mem_of_mem_filter hx)⟩

/-- Processes that were found at one time share no number. -/
theorem Separate.numbers_apart {ps : List ProcessSnapshot} (h : Separate ps) (hp : p ∈ ps)
    (hq : q ∈ ps) (hne : q.pid ≠ p.pid) : ∀ n ∈ q.numbers, n ∉ p.numbers := by
  -- a thread is listed once, so it is not listed of two processes
  have htids : ∀ tid ∈ q.threads.map Prod.fst, tid ∉ p.threads.map Prod.fst := by
    have : Std.Symm (Function.onFun List.Disjoint fun p : ProcessSnapshot =>
        p.threads.map Prod.fst) := ⟨fun _ _ hab _ hb ha => hab ha hb⟩
    have hpq : p ≠ q := fun heq => hne (heq ▸ rfl)
    exact fun tid hq' hp' => (List.nodup_flatMap.mp h.tids).2.forall hp hq hpq hp' hq'
  have hnumbers : ∀ n ∈ q.pid :: q.threads.map Prod.fst, n ∉ p.pid :: p.threads.map Prod.fst := by
    intro n hn hn'
    obtain rfl | hn := List.mem_cons.mp hn <;> obtain heq | hn' := List.mem_cons.mp hn'
    · exact hne heq
    · exact h.foreign q hq p hp hne hn'
    · exact h.foreign p hp q hq (Ne.symm hne) (heq ▸ hn)
    · exact htids n hn hn'
  intro n hn hn'
  obtain ⟨k, hk, rfl⟩ := List.mem_map.mp hn
  exact hnumbers k hk ((List.mem_map_of_injective pidOf_injective).mp hn')

/-- **What is told of other processes touches nothing of this one.** -/
theorem Separate.agreeOn_foldl {ps qs : List ProcessSnapshot} (h : Separate ps) (hp : p ∈ ps)
    (hqs : ∀ q ∈ qs, q ∈ ps ∧ q.pid ≠ p.pid) (sampleId : SampleId) (t : ThreadTree) :
    t.AgreeOn ((qs.flatMap fun q => q.records sampleId).foldl ThreadTree.update t) (pidOf p.pid)
      p.numbers := by
  refine ThreadTree.agreeOn_foldl (fun r hr => ?_) t
  obtain ⟨q, hq, hr⟩ := List.mem_flatMap.mp hr
  obtain ⟨hq', hne⟩ := hqs q hq
  exact agreeOn_update hne (h.numbers_apart hp hq' hne) (h.nonempty q hq') sampleId r hr

end ProcessSnapshot

namespace ThreadTree

open ProcessSnapshot

/-- **A tree that is told of processes shows each of them**: its threads under
their names, its own name if its main thread is listed, and its mappings by
address. -/
theorem shows_ofRecords (ps : List ProcessSnapshot) (sampleId : SampleId) (h : Separate ps) :
    ∀ p ∈ ps, (ofRecords (ps.flatMap fun p => p.records sampleId)).Shows (pidOf p.pid)
      (p.threads.map p.thread) (p.mappings.map (p.entry sampleId.time)) := by
  intro p hp
  obtain ⟨before, after, hps⟩ := List.append_of_mem hp
  have hpids := h.pids
  rw [hps, List.map_append, List.map_cons, List.nodup_append] at hpids
  obtain ⟨-, hafter, hbefore⟩ := hpids
  have hothers : ∀ q, q ∈ before ∨ q ∈ after → q ∈ ps ∧ q.pid ≠ p.pid := by
    rintro q (hq | hq)
    · exact ⟨by simp [hps, hq], hbefore _ (List.mem_map_of_mem hq) _ List.mem_cons_self⟩
    · refine ⟨by simp [hps, hq], fun heq => (List.nodup_cons.mp hafter).1 ?_⟩
      exact heq ▸ List.mem_map_of_mem hq
  have hnew := (known_empty (pidOf p.pid) p.numbers).congr
    (h.agreeOn_foldl hp (fun q hq => hothers q (.inl hq)) sampleId {})
  obtain ⟨threads, hperm, hknown⟩ := known_foldl_records hnew
    ((List.nodup_flatMap.mp h.tids).1 p hp) (h.nonempty p hp) (h.disjoint p hp) sampleId
  have hlast := hknown.congr (h.agreeOn_foldl hp (fun q hq => hothers q (.inr hq)) sampleId _)
  have hrecords : (ps.flatMap fun p => p.records sampleId) =
      (before.flatMap fun p => p.records sampleId) ++ p.records sampleId ++
        after.flatMap fun p => p.records sampleId := by
    rw [hps, List.flatMap_append, List.flatMap_cons, List.append_assoc]
  obtain ⟨hthread, hname, hmaps, horder⟩ := hlast.shows
  rw [ofRecords, hrecords, List.foldl_append, List.foldl_append]
  have hmem : ∀ x ∈ p.threads.map p.thread, x ∈ threads.map p.thread :=
    fun x hx => (hperm.map p.thread).mem_iff.mpr hx
  exact ⟨fun x hx => hthread x (hmem x hx), fun x hx => hname x (hmem x hx), hmaps, horder⟩

/-- Two processes: one with its mappings out of order and one that has no name,
with its main thread not among those that were listed. -/
theorem shows_ofRecords_two :
    let shell : ProcessSnapshot :=
      ⟨10, [(11, "worker"), (10, "sh")], [⟨0x5000, 0x6000, "r-xp", 0x1000, some "/lib/a.so"⟩,
        ⟨0x1000, 0x2000, "r-xp", 0, none⟩]⟩
    let other : ProcessSnapshot := ⟨20, [(21, "io")], [⟨0x1000, 0x2000, "r-xp", 0, some "/bin/b"⟩]⟩
    Separate [shell, other] ∧
      ((ofRecords ([shell, other].flatMap fun p => p.records {})).Shows 10
          [⟨10, 11, "worker"⟩, ⟨10, 10, "sh"⟩]
          [⟨10, 0x5000, 0x1000, 0x1000, 0, "/lib/a.so"⟩, ⟨10, 0x1000, 0x1000, 0, 0, "//anon"⟩] ∧
        (ofRecords ([shell, other].flatMap fun p => p.records {})).Shows 20
          [⟨20, 21, "io"⟩] [⟨20, 0x1000, 0x1000, 0, 0, "/bin/b"⟩]) := by
  intro shell other
  have h : Separate [shell, other] :=
    ⟨by decide, by decide, by decide, by decide, by decide⟩
  have hshows := shows_ofRecords [shell, other] {} h
  exact ⟨h, hshows shell (by simp), hshows other (by simp)⟩

end ThreadTree
end Profiler
