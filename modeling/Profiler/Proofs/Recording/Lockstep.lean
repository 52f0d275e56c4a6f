/-
# The members of a group keep in step

Whatever a recording is asked to do and whatever comes of it, the members of a
group have descriptors for the same threads and cpus, in the same order, and
each was opened in the group that the first member's descriptor leads
(`Lockstep`). With it goes what else is known of descriptors at any time
(`Session.Sound`): their numbers differ, and each was opened as the set has it.
Most steps leave alone what this is about (`Session.Passed`); opening groups and
forgetting the descriptors of cpus keeps it.

Key definitions: `EventFile.Led`, `Lockstep`, `Session.Sound`,
`Session.Passed`, `Host.Visits`.
Key theorems: `Lockstep.add`, `Session.Sound.tried`, `Recording.Call.keeps_sound`,
`Host.Visits.sound`, `Host.Visits.lockstep`.
-/
import Mathlib.Data.List.Forall2
import Profiler.Proofs.Recording.Upkeep
import Profiler.Recording.MemoryKernel

namespace Profiler

/-! ### Groups in step -/

/-- The second descriptor is for the thread and cpu of the first one, which
leads it. -/
structure EventFile.Led (lead f : EventFile) : Prop where
  tid : f.tid = lead.tid
  cpu : f.cpu = lead.cpu
  leader? : f.leader? = some lead.descriptor

/-- The descriptors of the members of a group: those of the first member lead
those of each other, one by one. -/
def Lockstep : List (List EventFile) → Prop
  | [] => True
  | leads :: rest => (∀ f ∈ leads, f.leader? = none) ∧
      ∀ files ∈ rest, List.Forall₂ EventFile.Led leads files

namespace Lockstep

variable {files : List (List EventFile)}

theorem map_unmapped_iff :
    Lockstep (files.map fun fs => fs.map EventFile.unmapped) ↔ Lockstep files := by
  cases files with
  | nil => exact Iff.rfl
  | cons leads rest =>
    have hled : ∀ f g : EventFile, EventFile.Led f.unmapped g.unmapped ↔ EventFile.Led f g :=
      fun _ _ => ⟨fun h => ⟨h.tid, h.cpu, h.leader?⟩, fun h => ⟨h.tid, h.cpu, h.leader?⟩⟩
    simp only [Lockstep, List.map_cons, List.forall_mem_map, List.forall₂_map_left_iff,
      List.forall₂_map_right_iff, hled]
    exact Iff.rfl

theorem filter_cpu (h : Lockstep files) (keep : Nat → Bool) :
    Lockstep (files.map fun fs => fs.filter fun f => keep f.cpu) := by
  cases files with
  | nil => trivial
  | cons leads rest =>
    refine ⟨fun f hf => h.1 f (List.mem_of_mem_filter hf), ?_⟩
    rw [List.forall_mem_map]
    intro fs hfs
    refine List.rel_filter ?_ (h.2 fs hfs)
    intro f g hled
    show keep f.cpu = true ↔ keep g.cpu = true
    rw [hled.cpu]

/-- One more descriptor for each member, of which the first leads. -/
theorem add {tid : Pid} {cpu : Nat} {d : Descriptor} {ids : List UInt64} (h : Lockstep files) :
    Lockstep (files.zipWith (fun fs f => fs ++ [f]) (EventFile.members tid cpu d none ids)) := by
  cases files with
  | nil => trivial
  | cons leads rest =>
    cases ids with
    | nil => trivial
    | cons id ids =>
      refine ⟨fun f hf => ?_, fun fs hfs => ?_⟩
      · rcases List.mem_append.mp hf with hf | hf
        · exact h.1 f hf
        · rw [List.mem_singleton.mp hf]
      · rw [← List.map_uncurry_zip_eq_zipWith] at hfs
        obtain ⟨p, hp, rfl⟩ := List.mem_map.mp hfs
        obtain ⟨hfs, hf⟩ := List.of_mem_zip hp
        obtain ⟨htid, hcpu, -⟩ := EventFile.of_mem_members hf
        have hleader := EventFile.leader?_of_mem_members hf
        exact List.rel_append (h.2 p.1 hfs)
          (.cons ⟨htid, hcpu, hleader⟩ .nil)

theorem of_nil (h : ∀ fs ∈ files, fs = []) : Lockstep files := by
  cases files with
  | nil => trivial
  | cons leads rest =>
    refine ⟨fun f hf => ?_, fun fs hfs => ?_⟩
    · rw [h leads List.mem_cons_self] at hf
      exact absurd hf List.not_mem_nil
    · rw [h leads List.mem_cons_self, h fs (List.mem_cons_of_mem _ hfs)]
      exact .nil

end Lockstep

/-! ### What is known of descriptors -/

namespace SelectionSet

/-- The descriptors of each member of each group, without their buffers. -/
def bare (s : SelectionSet) : List (List (List EventFile)) :=
  s.groups.map fun group => group.map fun x => x.files.map EventFile.unmapped

theorem files_map_unmapped (s : SelectionSet) :
    s.files.map EventFile.unmapped = s.bare.flatten.flatten := by
  rw [files, selections, bare, List.map_flatMap, ← List.map_flatten, List.flatMap]

theorem bare_mapSelections (s : SelectionSet) {f : Selection → Selection}
    (hf : ∀ x, (f x).files = x.files) : (s.mapSelections f).bare = s.bare := by
  rw [bare, mapSelections, List.map_map]
  refine List.map_congr_left fun group _ => ?_
  show List.map _ (group.map f) = _
  rw [List.map_map]
  exact List.map_congr_left fun x _ => congrArg (List.map _) (hf x)

def forget (s : SelectionSet) (keep : Nat → Bool) : SelectionSet :=
  s.mapSelections fun x => { x with files := x.files.filter fun f => keep f.cpu }

theorem files_forget (s : SelectionSet) (keep : Nat → Bool) :
    (s.forget keep).files = s.files.filter fun f => keep f.cpu := by
  rw [files, forget, selections_mapSelections, List.flatMap_map, files, List.filter_flatMap]

end SelectionSet

/-- **A group that is opened keeps in step.** -/
theorem lockstep_takeAll {set : SelectionSet}
    (h : ∀ group ∈ set.groups, Lockstep (group.map Selection.files)) (as : List Attempt) :
    ∀ group ∈ (set.takeAll as).groups, Lockstep (group.map Selection.files) := by
  induction as generalizing set with
  | nil => exact h
  | cons a as ih =>
    refine ih fun group hgroup => ?_
    unfold SelectionSet.take at hgroup
    split at hgroup
    · obtain ⟨g, hg⟩ := List.mem_iff_getElem?.mp hgroup
      rw [SelectionSet.addFiles, List.getElem?_modify] at hg
      obtain ⟨members, hmembers, rfl⟩ := Option.map_eq_some_iff.mp hg
      have hstep := h members (List.mem_of_getElem? hmembers)
      split
      · rw [List.map_zipWith]
        have hadd : Lockstep (List.zipWith _ (members.map Selection.files) a.files) := hstep.add
        rwa [List.zipWith_map_left] at hadd
      · exact hstep
    · exact h group hgroup

/-- What is known of the descriptors of a recording at any time. -/
structure Session.Sound {ω : Type} (s : Session (Traced ω)) : Prop where
  lockstep : ∀ group ∈ s.set.groups, Lockstep (group.map Selection.files)
  distinct : (s.set.files.map EventFile.descriptor).Nodup
  below : ∀ f ∈ s.set.files, f.descriptor < s.world.count
  opened : ∀ f ∈ s.set.files, s.world.trace.opening? f.descriptor = some f.unmapped
  threads : s.set.threads.Ascending

/-- The session has gone on without opening or forgetting descriptors. -/
structure Session.Passed {ω : Type} (s s' : Session (Traced ω)) : Prop where
  bare : s'.set.bare = s.set.bare
  threads : s'.set.threads = s.set.threads
  count : s'.world.count = s.world.count
  trace : ∃ τ, (∀ x ∈ τ, Happening.isOpening x = false) ∧ s'.world.trace = τ ++ s.world.trace

namespace Session.Sound

variable {ω : Type} {s s' : Session (Traced ω)}

theorem passed (h : s.Sound) (hpassed : s.Passed s') : s'.Sound := by
  have hfiles : s'.set.files.map EventFile.unmapped = s.set.files.map EventFile.unmapped := by
    rw [SelectionSet.files_map_unmapped, hpassed.bare, SelectionSet.files_map_unmapped]
  have hmem : ∀ f ∈ s'.set.files, ∃ g ∈ s.set.files, g.unmapped = f.unmapped := fun f hf =>
    List.mem_map.mp (hfiles ▸ List.mem_map_of_mem hf)
  obtain ⟨τ, hτ, htrace⟩ := hpassed.trace
  refine ⟨fun group hgroup => ?_, ?_, fun f hf => ?_, fun f hf => ?_, ?_⟩
  · have hbare : (group.map fun x => x.files.map EventFile.unmapped) ∈ s.set.bare :=
      hpassed.bare ▸ List.mem_map_of_mem hgroup
    obtain ⟨group', hgroup', heq⟩ := List.mem_map.mp hbare
    have hstep := h.lockstep group' hgroup'
    rw [← Lockstep.map_unmapped_iff, List.map_map] at hstep ⊢
    exact heq ▸ hstep
  · have hdistinct := h.distinct
    have hboth := congrArg (List.map EventFile.descriptor) hfiles
    rw [List.map_map, List.map_map] at hboth
    exact (show s'.set.files.map EventFile.descriptor = s.set.files.map EventFile.descriptor from
      hboth) ▸ hdistinct
  · obtain ⟨g, hg, heq⟩ := hmem f hf
    have hd : g.descriptor = f.descriptor := EventFile.descriptor_eq heq
    rw [← hd, hpassed.count]
    exact h.below g hg
  · obtain ⟨g, hg, heq⟩ := hmem f hf
    have hd : g.descriptor = f.descriptor := EventFile.descriptor_eq heq
    rw [htrace, Trace.opening?_append hτ, ← hd, h.opened g hg, heq]
  · rw [hpassed.threads]
    exact h.threads

/-- **What attempts have opened is sound.** -/
theorem tried {change : Attr → Attr} {as : List Attempt} (h : s.Sound)
    (htried : s.Tried change s' as) : s'.Sound := by
  obtain ⟨groups, hset⟩ := s.set.exists_takeAll_eq as
  have hperm := SelectionSet.files_takeAll htried.run
  have hnumbers := htried.run.sublist_descriptors
  obtain ⟨hnew, hold⟩ := htried.run.opening? s.world.trace
  have hlt : ∀ f ∈ Attempt.allKept as, s.world.count ≤ f.descriptor ∧
      f.descriptor < s.world.count + Attempt.count as := fun f hf =>
    List.mem_range'_1.mp (hnumbers.subset (List.mem_map_of_mem hf))
  rw [← htried.set] at hperm
  have hmem : ∀ f ∈ s'.set.files, f ∈ s.set.files ∨ f ∈ Attempt.allKept as := fun f hf =>
    List.mem_append.mp (hperm.mem_iff.mp hf)
  refine ⟨?_, ?_, fun f hf => ?_, fun f hf => ?_, ?_⟩
  · rw [htried.set]
    exact lockstep_takeAll h.lockstep as
  · refine (hperm.map _).nodup_iff.mpr ?_
    rw [List.map_append]
    refine List.nodup_append.mpr ⟨h.distinct, hnumbers.nodup List.nodup_range', ?_⟩
    intro d hd d' hd'
    obtain ⟨f, hf, rfl⟩ := List.mem_map.mp hd
    obtain ⟨f', hf', rfl⟩ := List.mem_map.mp hd'
    exact Nat.ne_of_lt (Nat.lt_of_lt_of_le (h.below f hf) (hlt f' hf').1)
  · rw [htried.went.count]
    rcases hmem f hf with hf | hf
    · exact Nat.lt_add_right _ (h.below f hf)
    · exact (hlt f hf).2
  · rw [htried.went.trace]
    rcases hmem f hf with hf | hf
    · rw [hold _ (h.below f hf), h.opened f hf]
    · rw [hnew f hf, Attempt.unmapped_of_mem_allKept hf]
  · rw [htried.set, hset]
    exact h.threads

end Session.Sound

namespace Session

variable {ω : Type} {s s' : Session (Traced ω)} {τ : Trace}

theorem Passed.of_went (hset : s'.set = s.set) (hwent : s.Went s' 0 τ)
    (hτ : ∀ x ∈ τ, Happening.isOpening x = false) : s.Passed s' :=
  ⟨by rw [hset], by rw [hset], hwent.count, τ, hτ, hwent.trace⟩

/-- The descriptors without their buffers, the threads, and what happened. -/
def outline (s : Session (Traced ω)) :
    (List (List (List EventFile)) × OrderedMap Pid Unit) × Nat × Trace :=
  ((s.set.bare, s.set.threads), s.world.count, s.world.trace)

theorem Passed.of_outline (h : s'.outline = s.outline) : s.Passed s' := by
  simp only [outline, Prod.mk.injEq] at h
  obtain ⟨⟨hbare, hthreads⟩, hcount, htrace⟩ := h
  exact ⟨hbare, hthreads, hcount, [], List.forall_mem_nil _, htrace⟩

theorem outline_of_account (h : s'.account = s.account) : s'.outline = s.outline := by
  have hbare : ∀ set : SelectionSet, set.bare = set.account.2.1.map (List.map Prod.fst) :=
    fun set => by
      simp only [SelectionSet.bare, SelectionSet.account, List.map_map, Function.comp_def]
  have hset := congrArg Prod.fst h
  have hthreads : s'.set.threads = s.set.threads := congrArg (·.2.2) hset
  rw [outline, outline, hthreads, hbare, hbare, show s'.set.account = s.set.account from hset]
  exact congrArg (_, ·) (congrArg Prod.snd h)

theorem Sound.forget (h : s.Sound) (keep : Nat → Bool) :
    ({ s with set := s.set.forget keep } : Session (Traced ω)).Sound := by
  have hfiles := s.set.files_forget keep
  have hmem : ∀ f ∈ (s.set.forget keep).files, f ∈ s.set.files := fun f hf =>
    List.mem_of_mem_filter (hfiles ▸ hf)
  refine ⟨fun group hgroup => ?_, ?_, fun f hf => h.below f (hmem f hf),
    fun f hf => h.opened f (hmem f hf), h.threads⟩
  · obtain ⟨members, hmembers, rfl⟩ := List.mem_map.mp hgroup
    have hstep := (h.lockstep members hmembers).filter_cpu keep
    rw [List.map_map] at hstep ⊢
    exact hstep
  · show ((s.set.forget keep).files.map _).Nodup
    rw [hfiles]
    exact (List.filter_sublist.map _).nodup h.distinct

theorem Sound.append (h : s.Sound) {group : List Selection} (hgroup : ∀ x ∈ group, x.files = []) :
    ({ s with set := { s.set with groups := s.set.groups ++ [group] } } :
      Session (Traced ω)).Sound := by
  have hfiles : ({ s.set with groups := s.set.groups ++ [group] } : SelectionSet).files =
      s.set.files := by
    have hnone : group.flatMap Selection.files = [] := List.flatMap_eq_nil_iff.mpr hgroup
    rw [SelectionSet.files, SelectionSet.selections, List.flatten_append, List.flatMap_append,
      List.flatten_singleton, hnone, List.append_nil]
    rfl
  have hmem : ∀ f ∈ ({ s.set with groups := s.set.groups ++ [group] } : SelectionSet).files,
      f ∈ s.set.files := fun f hf => hfiles ▸ hf
  refine ⟨fun members hmembers => ?_, hfiles ▸ h.distinct, fun f hf => h.below f (hmem f hf),
    fun f hf => h.opened f (hmem f hf), h.threads⟩
  rcases List.mem_append.mp hmembers with hmembers | hmembers
  · exact h.lockstep members hmembers
  · rw [List.mem_singleton.mp hmembers]
    exact Lockstep.of_nil (List.forall_mem_map.mpr hgroup)

theorem Sound.addThread (h : s.Sound) (tid : Pid) :
    ({ s with set := s.set.addThread tid } : Session (Traced ω)).Sound :=
  ⟨h.lockstep, h.distinct, h.below, h.opened, h.threads.insert tid ()⟩

end Session

/-! ### What calls keep -/

namespace Recording

open Effect (Keeps)

variable {ω : Type} (host : Host ω)

/-- **What is known of descriptors is kept** by the steps that calls are made
of. -/
theorem upkeep_sound : Upkeep (ω := ω) Session.Sound where
  of_account _ _ h hs := hs.passed (.of_outline (Session.outline_of_account h))
  happened _ _ _ hopening _ hset hwent hs :=
    hs.passed (.of_went hset hwent (List.forall_mem_singleton.mpr hopening))
  forget keep _ hs := hs.forget keep
  tried htried hs := hs.tried htried

theorem keeps_sound_readCounter (d : Descriptor) :
    Keeps Session.Sound (outside (host.traced.readCounter d)) := by
  intro s hs
  rcases readCounter_outcome host d s with ⟨value, s', heq, hset, hwent⟩ | ⟨e, s', heq, hset, hwent⟩
  · rw [heq]
    exact hs.passed (.of_went hset hwent (by simp [Happening.isOpening]))
  · rw [heq]
    exact hs.passed (.of_went hset hwent (List.forall_mem_nil _))

theorem keeps_sound_keepReading (d : Descriptor) (info : CounterInfo) :
    Keeps Session.Sound (modifySet (ω := Traced ω) (·.keepReading d info)) := by
  refine fun s hs => hs.passed ⟨s.set.bare_mapSelections fun x => ?_, rfl, rfl, [],
    List.forall_mem_nil _, rfl⟩
  split <;> rfl

theorem keeps_sound_drainCpu (cpu : Nat) : Keeps Session.Sound (drainCpu host.traced cpu) :=
  upkeep_sound.keeps_drainCpu host cpu

theorem keeps_sound_leaveCpu (cpu : Nat) : Keeps Session.Sound (leaveCpu host.traced cpu) :=
  upkeep_sound.keeps_leaveCpu host (keeps_sound_readCounter host) keeps_sound_keepReading cpu

theorem keeps_sound_announce (cpu : Nat) : Keeps Session.Sound (announce host.traced cpu) :=
  upkeep_sound.keeps_announce host cpu

theorem keeps_sound_enterCpu (cpu : Nat) : Keeps Session.Sound (enterCpu host.traced cpu) :=
  upkeep_sound.keeps_enterCpu host cpu

/-- **Every call keeps what is known of descriptors,** whatever comes of it. -/
theorem Call.keeps_sound (c : Call) : Keeps Session.Sound (c.run host.traced) := by
  refine upkeep_sound.keeps_call host (keeps_sound_readCounter host) (fun group hgroup s hs => ?_)
    (fun tid s hs => hs.addThread tid) fun _ =>
      upkeep_sound.keeps_followCpus host (keeps_sound_readCounter host) keeps_sound_keepReading
  exact hs.append fun x hx => (hgroup x hx).1

end Recording

/-! ### Opening the events of a set -/

/-- What opening the events has come to, where the set had no descriptors:
attempts that tried each group once for each thread and cpu. -/
structure Session.OpenedBy {ω : Type} (s s' : Session (Traced ω)) (threads : List Pid)
    (cpus : List Nat) (as : List Attempt) : Prop where
  targets : as.map Attempt.target =
    (Recording.pairs s.set.groups.length threads).flatMap fun p =>
      cpus.map fun cpu => (p.1, p.2, cpu)
  attrs : ∀ a ∈ as, a.attrs = s.set.attrsOf a.group
  /-- Nothing else has happened. -/
  trace : s'.world.trace = Attempt.trace as ++ s.world.trace
  /-- Where every member was accepted, each has one descriptor. -/
  accepted : ∀ a ∈ as, a.taken = true → ∀ (member : Nat) (x : Selection),
    (s'.set.groups.getD a.group [])[member]? = some x → ∃ f, a.files[member]? = some f ∧
      x.files.filter (fun f => f.tid == a.tid && f.cpu == a.cpu) = [f]
  /-- Where one was refused, those that were opened before it are closed and no
  member has a descriptor. -/
  refused : ∀ a ∈ as, a.taken = false →
    (∃ attr leader?, .refused attr a.tid a.cpu leader? ∈ s'.world.trace) ∧
    (∀ f ∈ a.files, .closed f.descriptor ∈ s'.world.trace) ∧
    ∀ x ∈ s'.set.groups.getD a.group [],
      x.files.filter (fun f => f.tid == a.tid && f.cpu == a.cpu) = []
  /-- There are no other descriptors. -/
  tried : ∀ group, ∀ x ∈ s'.set.groups.getD group [], ∀ f ∈ x.files,
    ∃ a ∈ as, a.taken = true ∧ a.target = (group, f.tid, f.cpu)
  /-- Each group was accepted for each thread on some cpu. -/
  somewhere : ∀ group < s.set.groups.length, ∀ tid ∈ threads,
    ∃ a ∈ as, a.taken = true ∧ a.group = group ∧ a.tid = tid

namespace Attempt

variable {a : Attempt} {as : List Attempt}

theorem mem_trace {x : Happening} (ha : a ∈ as) (hx : x ∈ a.happenings) : x ∈ trace as := by
  induction as with
  | nil => exact absurd ha List.not_mem_nil
  | cons b as ih =>
    rcases List.mem_cons.mp ha with rfl | ha
    · exact List.mem_append_right _ hx
    · exact List.mem_append_left _ (ih ha)

theorem mem_happenings_of_refused (h : a.taken = false) :
    (∃ attr leader?, .refused attr a.tid a.cpu leader? ∈ a.happenings) ∧
      ∀ f ∈ a.files, .closed f.descriptor ∈ a.happenings := by
  have hhappenings : a.happenings = _ := if_neg (Bool.eq_false_iff.mp h)
  rw [hhappenings]
  refine ⟨⟨_, _, List.mem_append_right _ List.mem_cons_self⟩, fun f hf => ?_⟩
  refine List.mem_append_left _ (List.mem_append_right _ ?_)
  exact List.mem_reverse.mpr (List.mem_map_of_mem hf)

end Attempt

/-- The descriptors of a member of a set that had none. -/
theorem SelectionSet.files_of_takeAll {s : SelectionSet} {as : List Attempt} {n : Nat}
    {change : Attr → Attr} (h : Attempt.Run change s n as) (hnone : s.files = [])
    {group member : Nat} {x : Selection}
    (hx : ((s.takeAll as).groups.getD group [])[member]? = some x) :
    x.files = Attempt.kept group member as := by
  rw [List.getD_eq_getElem?_getD, groups_takeAll h, mapMembers, List.getElem?_mapIdx] at hx
  cases hgroup : s.groups[group]? with
  | none =>
    rw [hgroup] at hx
    cases hx
  | some members =>
    rw [hgroup, Option.map_some, Option.getD_some, List.getElem?_mapIdx] at hx
    obtain ⟨y, hy, rfl⟩ := Option.map_eq_some_iff.mp hx
    have hfiles : y.files = [] := by
      refine List.flatMap_eq_nil_iff.mp hnone y ?_
      exact List.mem_flatten.mpr ⟨members, List.mem_of_getElem? hgroup, List.mem_of_getElem? hy⟩
    rw [Selection.add, hfiles, List.nil_append]

/-- **What opening comes to** where the set had no descriptors. -/
theorem Session.openedBy_of_outcome {ω : Type} {s s' : Session (Traced ω)} {threads : List Pid}
    {cpus : List Nat} {as : List Attempt} (hnone : s.set.files = [])
    (hrun : Attempt.Run id s.set s.world.count as)
    (htargets : as.map Attempt.target = (Recording.pairs s.set.groups.length threads).flatMap
      fun p => cpus.map fun cpu => (p.1, p.2, cpu))
    (hsome : ∀ p ∈ Recording.pairs s.set.groups.length threads,
      ∃ a ∈ as, a.taken = true ∧ a.group = p.1 ∧ a.tid = p.2)
    (hgroups : s'.set.groups = (s.set.takeAll as).groups)
    (hwent : s.Went s' (Attempt.count as) (Attempt.trace as))
    (hthreads : threads.Nodup) (hcpus : cpus.Nodup) : s.OpenedBy s' threads cpus as := by
  have hdistinct : (as.map Attempt.target).Nodup :=
    htargets ▸ Recording.nodup_targets (Recording.nodup_pairs hthreads) hcpus
  have hmade : ∀ a ∈ as, a.attrs = s.set.attrsOf a.group ∧ a.ids.length ≤ a.attrs.length :=
    fun a ha => List.map_id (s.set.attrsOf a.group) ▸ hrun.of_mem ha
  have hfiles : ∀ {group member x}, (s'.set.groups.getD group [])[member]? = some x →
      x.files = Attempt.kept group member as := fun hx =>
    SelectionSet.files_of_takeAll hrun hnone (hgroups ▸ hx)
  refine ⟨htargets, fun a ha => (hmade a ha).1, hwent.trace, fun a ha htaken member x hx => ?_,
    fun a ha htaken => ⟨?_, fun f hf => ?_, fun x hx => ?_⟩, fun group x hx f hf => ?_,
    fun group hgroup tid htid => ?_⟩
  · have hlength : member < a.files.length := by
      rw [a.length_files, beq_iff_eq.mp htaken, (hmade a ha).1, ← SelectionSet.attrsOf_takeAll hrun,
        SelectionSet.attrsOf, List.length_map, ← hgroups]
      exact (List.getElem?_eq_some_iff.mp hx).1
    refine ⟨a.files[member], List.getElem?_eq_getElem hlength, ?_⟩
    rw [hfiles hx, Attempt.filter_kept hdistinct ha, if_pos htaken,
      List.getElem?_eq_getElem hlength]
    rfl
  · obtain ⟨⟨attr, leader?, hrefused⟩, -⟩ := Attempt.mem_happenings_of_refused htaken
    exact ⟨attr, leader?, hwent.trace ▸ List.mem_append_left _ (Attempt.mem_trace ha hrefused)⟩
  · have hclosed := (Attempt.mem_happenings_of_refused htaken).2 f hf
    exact hwent.trace ▸ List.mem_append_left _ (Attempt.mem_trace ha hclosed)
  · obtain ⟨member, hmember⟩ := List.mem_iff_getElem?.mp hx
    rw [hfiles hmember, Attempt.filter_kept hdistinct ha, htaken]
    rfl
  · obtain ⟨member, hmember⟩ := List.mem_iff_getElem?.mp hx
    rw [hfiles hmember] at hf
    obtain ⟨a, ha, htaken, hgroup, hfile⟩ := Attempt.mem_kept hf
    obtain ⟨htid, hcpu, -⟩ := Attempt.of_mem_files (List.mem_of_getElem? hfile)
    exact ⟨a, ha, htaken, by rw [Attempt.target, hgroup, htid, hcpu]⟩
  · exact hsome (group, tid) (List.mem_flatMap.mpr
      ⟨group, List.mem_range.mpr hgroup, List.mem_map_of_mem htid⟩)

/-! ### At any time -/

section Histories

variable {ω : Type} {host : Host ω} {s : Session (Traced ω)}

/-- Where calls have brought a set, whatever came of them and whatever happened
outside. -/
inductive Host.Visits (host : Host ω) : Session (Traced ω) → Prop where
  | start (counting : Bool) (world : ω) (loop : EventLoop RecordingTask) :
    Visits host { set := { counting }, loop, world := { world } }
  | call {s : Session (Traced ω)} (h : Visits host s) (c : Recording.Call) :
    Visits host (c.run host.traced s).2
  | outside {s : Session (Traced ω)} (h : Visits host s) (world : ω)
    (loop : EventLoop RecordingTask) :
    Visits host { s with loop, world := { s.world with world := world } }

theorem Host.Visits.sound (h : host.Visits s) : s.Sound := by
  induction h with
  | start counting world loop =>
    exact ⟨List.forall_mem_nil _, List.nodup_nil, List.forall_mem_nil _, List.forall_mem_nil _,
      List.Pairwise.nil⟩
  | call h c ih => exact c.keeps_sound host _ ih
  | outside h world loop ih => exact ih.passed ⟨rfl, rfl, rfl, [], List.forall_mem_nil _, rfl⟩

/-- **The members of a group keep in step.** At any time they have descriptors
for the same threads and cpus, and each was opened as the set has it: by the
first member's descriptor as the leader. Where the events of a set without
descriptors have been opened on different cpus, each group was tried once for
each thread on each of them, and each member has a descriptor exactly where
all of the group were accepted; what was opened where one was refused is closed
again. -/
theorem Host.Visits.lockstep (h : host.Visits s) :
    (∀ group ∈ s.set.groups, Lockstep (group.map Selection.files)) ∧
    (∀ f ∈ s.set.files, s.world.trace.opening? f.descriptor = some f.unmapped) ∧
    ∀ requested s', s.set.files = [] →
      Recording.openEvents host.traced requested s = (.ok (), s') →
      ∃ online threads as, (host.onlineCpus s.world.world).1 = .ok online ∧
        (∃ s₁ s₂, s₁.set = s.set ∧ Recording.targetThreads host.traced s₁ = (.ok threads, s₂)) ∧
        ((if requested.isEmpty then online else requested).Nodup →
          s.OpenedBy s' threads (if requested.isEmpty then online else requested) as) := by
  have hsound := h.sound
  refine ⟨hsound.lockstep, hsound.opened, fun requested s' hnone hok => ?_⟩
  obtain ⟨online, threads, as, s₁, s₂, _, _, _, honline, hset, hthreads, hrun, htargets, hsome,
    hset', hwent⟩ := Recording.openEvents_outcome host hok
  refine ⟨online, threads, as, honline, ⟨s₁, s₂, hset, hthreads⟩, fun hcpus => ?_⟩
  have hascending : s₁.set.threads.Ascending := hset ▸ hsound.threads
  exact Session.openedBy_of_outcome hnone hrun htargets hsome (by rw [hset']) hwent
    (Recording.nodup_targetThreads hascending hthreads) hcpus

/-- The second member is refused on the second cpu: what was opened there for
the first one, descriptor 2, is closed. -/
theorem Host.Visits.lockstep_refused :
    let host := MemoryKernel.host
    let s : Session (Traced MemoryKernel) := [.addGroup ["cpu-cycles", "page-faults"],
      .addThread SelectionSet.everyThread].foldl
        (fun s (c : Recording.Call) => (c.run host.traced s).2)
        { world := { world := { rules := { refusals := [⟨2, 1, false⟩] } } } }
    let s' := (Recording.openEvents host.traced [] s).2
    host.Visits s ∧ s.set.files = [] ∧ (Recording.openEvents host.traced [] s).1 = .ok () ∧
      s'.set.files.map (fun f => (f.descriptor, f.cpu, f.leader?)) =
        [(0, 0, none), (1, 0, some 0)] ∧
      ∃ threads as, s.OpenedBy s' threads [0, 1] as := by
  intro host s s'
  have hchosen : host.Visits s := .call (.call (.start false _ _) _) _
  have hnone : s.set.files = [] := by decide +kernel
  have hok : (Recording.openEvents host.traced [] s).1 = .ok () := by decide +kernel
  have hcpus : (host.onlineCpus s.world.world).1 = .ok [0, 1] := by decide +kernel
  refine ⟨hchosen, hnone, hok, by decide +kernel, ?_⟩
  clear_value s
  obtain ⟨-, -, hopened⟩ := hchosen.lockstep
  obtain ⟨online, threads, as, honline, -, hopened⟩ := hopened [] s' hnone (Prod.ext hok rfl)
  obtain rfl : online = [0, 1] := Except.ok.inj (honline.symm.trans hcpus)
  exact ⟨threads, as, hopened (by decide)⟩

end Histories

end Profiler
