/-
# Sets whose events have been opened once

A set is ready when its events have been opened, and since then only mapped,
enabled, read and waited for (`Host.Ready`). Then the descriptors on each cpu
share one buffer or have none, no record has been taken and no reading is kept
(`Session.Fresh`), and the loop waits for a cpu's buffer at most once
(`Session.Waiting`). What comes later starts from here.

Key definitions: `SelectionSet.Single`, `Happening.isData`, `Session.Fresh`,
`Session.Waiting`, `Session.Unopened`, `Host.Ready`.
Key theorems: `Attempt.nodup_tids_kept`, `Session.fresh_of_openEvents`,
`Recording.prepared_call`, `Host.Ready.prepared`.
-/
import Profiler.Proofs.Recording.Mapping
import Profiler.Proofs.Recording.Sharing

namespace Profiler

/-! ### Descriptors of one selection -/

namespace SelectionSet

variable {s s' : SelectionSet} {cpu : Nat}

/-- No selection has two descriptors for one thread on a cpu. -/
def Single (s : SelectionSet) (cpu : Nat) : Prop :=
  ∀ x ∈ s.selections, ((x.filesOn cpu).map EventFile.tid).Nodup

/-- Whether descriptors have buffers does not matter. -/
theorem Single.of_bare (h : s.Single cpu) (hbare : s'.bare = s.bare) : s'.Single cpu := by
  have hflat : ∀ s : SelectionSet, s.bare.flatten =
      s.selections.map fun x => x.files.map EventFile.unmapped := fun s => by
    rw [bare, ← List.map_flatten]
    rfl
  have hon : ∀ x : Selection, (((x.files.map EventFile.unmapped).filter (·.cpu == cpu)).map
      EventFile.tid) = (x.filesOn cpu).map EventFile.tid := fun x => by
    rw [List.filter_map, List.map_map]
    rfl
  intro x hx
  have hmem : x.files.map EventFile.unmapped ∈
      s.selections.map fun x => x.files.map EventFile.unmapped := by
    rw [← hflat, ← hbare, hflat]
    exact List.mem_map_of_mem hx
  obtain ⟨y, hy, heq⟩ := List.mem_map.mp hmem
  rw [← hon, ← heq, hon]
  exact h y hy

theorem bare_updateFiles {g : EventFile → EventFile} (hg : ∀ f, (g f).unmapped = f.unmapped) :
    (s.updateFiles g).bare = s.bare := by
  simp only [bare, updateFiles, mapSelections, List.map_map, Function.comp_def, hg]

/-- A selection of a set that keeps what attempts have opened is one of the
set's, with more descriptors. -/
theorem mem_selections_takeAll {change : Attr → Attr} {as : List Attempt} {n : Nat}
    (h : Attempt.Run change s n as) {x' : Selection} (hx' : x' ∈ (s.takeAll as).selections) :
    ∃ group member, ∃ x ∈ s.selections, x' = x.add (Attempt.kept group member as) := by
  rw [selections, groups_takeAll h, List.mem_flatten] at hx'
  obtain ⟨members', hmembers', hx'⟩ := hx'
  obtain ⟨group, hgroup⟩ := List.mem_iff_getElem?.mp hmembers'
  rw [mapMembers, List.getElem?_mapIdx] at hgroup
  obtain ⟨members, hmembers, rfl⟩ := Option.map_eq_some_iff.mp hgroup
  obtain ⟨member, hmember⟩ := List.mem_iff_getElem?.mp hx'
  rw [List.getElem?_mapIdx] at hmember
  obtain ⟨x, hx, rfl⟩ := Option.map_eq_some_iff.mp hmember
  exact ⟨group, member, x, List.mem_flatten.mpr ⟨members, List.mem_of_getElem? hmembers,
    List.mem_of_getElem? hx⟩, rfl⟩

end SelectionSet

namespace Attempt

variable {as : List Attempt}

/-- Each descriptor that a member keeps was opened for a target of its own. -/
theorem sublist_targets_kept (group member : Nat) (as : List Attempt) :
    ((kept group member as).map fun f => (group, f.tid, f.cpu)).Sublist (as.map target) := by
  induction as with
  | nil => exact List.Sublist.refl _
  | cons a as ih =>
    rw [kept, List.map_append, List.map_cons]
    have hone : ∀ files : List EventFile, (files = [] ∨ ∃ f, files = [f] ∧
        (group, f.tid, f.cpu) = a.target) →
        (files.map (fun f => (group, f.tid, f.cpu)) ++
          (kept group member as).map fun f => (group, f.tid, f.cpu)).Sublist
            (a.target :: as.map target) := by
      rintro files (rfl | ⟨f, rfl, heq⟩)
      · exact ih.cons _
      · rw [List.map_singleton, heq]
        exact ih.cons_cons _
    refine hone _ ?_
    split
    · next hboth =>
      have hgroup : a.group = group := beq_iff_eq.mp (Bool.and_eq_true_iff.mp hboth).2
      cases hfile : a.files[member]? with
      | none => exact .inl rfl
      | some f =>
        obtain ⟨htid, hcpu, -⟩ := of_mem_files (List.mem_of_getElem? hfile)
        exact .inr ⟨f, rfl, by rw [target, hgroup, htid, hcpu]⟩
    · exact .inl rfl

/-- Where no target is tried twice, a member keeps one descriptor for each
thread on a cpu at most. -/
theorem nodup_tids_kept (hdistinct : (as.map target).Nodup) (group member cpu : Nat) :
    (((kept group member as).filter (·.cpu == cpu)).map EventFile.tid).Nodup := by
  have hnodup := (sublist_targets_kept group member as).nodup hdistinct
  have hon : (((kept group member as).filter (·.cpu == cpu)).map
      fun f => (group, f.tid, f.cpu)).Nodup := (List.filter_sublist.map _).nodup hnodup
  have hsame : (((kept group member as).filter (·.cpu == cpu)).map fun f => (group, f.tid, f.cpu)) =
      (((kept group member as).filter (·.cpu == cpu)).map EventFile.tid).map
        fun tid => (group, tid, cpu) := by
    rw [List.map_map]
    refine List.map_congr_left fun f hf => ?_
    have hcpu : f.cpu = cpu := by simpa using List.of_mem_filter hf
    rw [Function.comp_apply, hcpu]
  rw [hsame] at hon
  exact List.Nodup.of_map _ hon

end Attempt

/-! ### What is known of a set that has just been opened -/

/-- Whether it is about records: one is put into a buffer, taken from it, or
handed on. -/
def Happening.isData : Happening → Bool
  | appended .. | drained _ | delivered _ => true
  | _ => false

theorem Trace.isData_closes (files : List EventFile) : ∀ x ∈ closes files, x.isData = false :=
  forall_mem_closes (fun _ => rfl) files

/-- No record is taken or handed on in an attempt. -/
theorem Attempt.isData_trace (as : List Attempt) : ∀ x ∈ trace as, x.isData = false :=
  forall_mem_trace (fun _ _ _ _ _ _ => rfl) (fun _ _ _ _ => rfl) (fun _ => rfl) (fun _ => rfl) as

/-- What is known of the descriptors of a set before any record or reading was
taken: those on a cpu share a buffer or have none. -/
structure Session.Fresh {ω : Type} (cpus : List Nat) (s : Session (Traced ω)) : Prop where
  sound : s.Sound
  kept : ∀ x ∈ s.set.selections, x.kept = []
  single : cpus.Nodup → ∀ cpu, s.set.Single cpu
  buffered : ∀ cpu, Buffered (s.set.filesOn cpu)
  dataless : ∀ x ∈ s.world.trace, x.isData = false

/-- What is known of the loop: the set knows what waits for buffers, and
nothing does before someone takes records. -/
structure Session.Waiting {ω : Type} (s : Session ω) : Prop where
  numbered : s.loop.Numbered
  watches : ∀ cpu, s.Watches cpu
  detached : s.set.attached = false → ∀ cpu, s.loop.drains cpu = []

namespace Session

variable {ω : Type} {cpus : List Nat} {s s' : Session (Traced ω)} {τ : Trace}

theorem Fresh.of_groups (h : s.Fresh cpus) (hgroups : s'.set.groups = s.set.groups)
    (hthreads : s'.set.threads = s.set.threads) (hcount : s'.world.count = s.world.count)
    (htrace : s'.world.trace = τ ++ s.world.trace)
    (hτ : ∀ x ∈ τ, x.isOpening = false ∧ x.isData = false) : s'.Fresh cpus := by
  have hselections : s'.set.selections = s.set.selections := congrArg List.flatten hgroups
  have hbare : s'.set.bare = s.set.bare := congrArg (List.map _) hgroups
  refine ⟨h.sound.passed ⟨hbare, hthreads, hcount, τ, fun x hx => (hτ x hx).1, htrace⟩, ?_,
    fun hcpus cpu => (h.single hcpus cpu).of_bare hbare, fun cpu => ?_, ?_⟩
  · rw [hselections]
    exact h.kept
  · rw [SelectionSet.filesOn, SelectionSet.files, hselections]
    exact h.buffered cpu
  · rw [htrace, List.forall_mem_append]
    exact ⟨fun x hx => (hτ x hx).2, h.dataless⟩

theorem Fresh.went (h : s.Fresh cpus) (hset : s'.set = s.set) (hwent : s.Went s' 0 τ)
    (hτ : ∀ x ∈ τ, x.isOpening = false ∧ x.isData = false) : s'.Fresh cpus :=
  h.of_groups (by rw [hset]) (by rw [hset]) hwent.count hwent.trace hτ

theorem Waiting.went {s s' : Session (Traced ω)} {n : Nat} (h : s.Waiting) (hset : s'.set = s.set)
    (hwent : s.Went s' n τ) : s'.Waiting := by
  obtain ⟨set, loop, world⟩ := s'
  obtain rfl : set = s.set := hset
  obtain rfl : loop = s.loop := hwent.loop
  exact ⟨h.numbered, fun cpu => ⟨(h.watches cpu).known, (h.watches cpu).idle⟩, h.detached⟩

/-- Buffers have changed, and on each cpu they are shared as before. -/
theorem Fresh.updateFiles (h : s.Fresh cpus) {g : EventFile → EventFile} {pages : Nat}
    (hg : ∀ f, (g f).unmapped = f.unmapped)
    (hbuffered : ∀ cpu, Buffered ((s.set.filesOn cpu).map g))
    (hset : s'.set = { s.set.updateFiles g with pages }) (hwent : s.Went s' 0 []) :
    s'.Fresh cpus := by
  have hbare : s'.set.bare = s.set.bare := by
    rw [hset]
    exact SelectionSet.bare_updateFiles hg
  have hcpu : ∀ f, (g f).cpu = f.cpu := fun f => EventFile.cpu_eq (hg f)
  refine ⟨h.sound.passed ⟨hbare, by rw [hset]; rfl, hwent.count, [], List.forall_mem_nil _,
      hwent.trace⟩, fun x hx => ?_, fun hcpus cpu => (h.single hcpus cpu).of_bare hbare,
    fun cpu => ?_, ?_⟩
  · rw [hset] at hx
    have hmem : x ∈ (s.set.updateFiles g).selections := hx
    rw [SelectionSet.updateFiles, SelectionSet.selections_mapSelections] at hmem
    obtain ⟨y, hy, rfl⟩ := List.mem_map.mp hmem
    exact h.kept y hy
  · have hfiles : s'.set.filesOn cpu = (s.set.updateFiles g).filesOn cpu := by rw [hset]; rfl
    rw [hfiles, SelectionSet.filesOn_updateFiles hcpu]
    exact hbuffered cpu
  · rw [hwent.trace]
    exact h.dataless

theorem Waiting.updateFiles (h : s.Waiting) {g : EventFile → EventFile} {pages : Nat}
    (hg : ∀ f, (g f).unmapped = f.unmapped)
    (hset : s'.set = { s.set.updateFiles g with pages }) (hwent : s.Went s' 0 []) :
    s'.Waiting := by
  have hcpu : ∀ f, (g f).cpu = f.cpu := fun f => EventFile.cpu_eq (hg f)
  have hloop := hwent.loop
  refine ⟨hloop ▸ h.numbered, fun cpu => ⟨?_, fun hsampling hfiles => ?_⟩, fun hdetached cpu => ?_⟩
  · rw [hloop, hset]
    exact (h.watches cpu).known
  · rw [hset] at hsampling hfiles
    have hnone : (s.set.updateFiles g).filesOn cpu = [] := hfiles
    rw [SelectionSet.filesOn_updateFiles hcpu, List.map_eq_nil_iff] at hnone
    rw [hloop]
    exact (h.watches cpu).idle hsampling hnone
  · rw [hset] at hdetached
    rw [hloop]
    exact h.detached hdetached cpu

end Session

/-! ### Getting ready -/

/-- A set before its events are opened: it has no descriptors and no readings,
and the loop waits for no buffer. -/
structure Session.Unopened {ω : Type} (s : Session (Traced ω)) : Prop where
  bare : ∀ x ∈ s.set.selections, x.files = [] ∧ x.kept = []
  trace : s.world.trace = []
  numbered : s.loop.Numbered
  idle : ∀ cpu, s.loop.drains cpu = []

theorem Session.unopened_of_nil {ω : Type} {s : Session (Traced ω)}
    (hbare : ∀ x ∈ s.set.selections, x.files = [] ∧ x.kept = [])
    (htrace : s.world.trace.length = 0) (hloop : s.loop.events.entries.length = 0) :
    s.Unopened := by
  have hnone := List.length_eq_zero_iff.mp hloop
  refine ⟨hbare, List.length_eq_zero_iff.mp htrace, ⟨?_, ?_⟩, fun cpu => ?_⟩
  · rw [OrderedMap.Ascending, OrderedMap.keys, hnone]
    exact List.Pairwise.nil
  · rw [hnone]
    exact List.forall_mem_nil _
  · rw [EventLoop.drains, hnone]
    rfl

/-- The events of the set have been opened, on the given cpus. -/
theorem Session.fresh_of_openEvents {ω : Type} {host : Host ω} {s s' : Session (Traced ω)}
    {requested online : List Nat} (hvisits : host.Visits s) (hunopened : s.Unopened)
    (honline : (host.onlineCpus s.world.world).1 = .ok online)
    (hok : Recording.openEvents host.traced requested s = (.ok (), s')) :
    s'.Fresh (if requested.isEmpty then online else requested) ∧ s'.Waiting := by
  have hsound : s'.Sound := by
    have hcall := (hvisits.call (.openEvents requested)).sound
    rwa [show (Recording.Call.openEvents requested).run host.traced s = (.ok (), s') from hok]
      at hcall
  obtain ⟨online', threads, as, s₁, s₂, decodeAttrs, attrOfId, idPositions, honline', hset₁,
    hthreads, hrun, htargets, -, hset', hwent⟩ := Recording.openEvents_outcome host hok
  obtain rfl : online = online' := Except.ok.inj (honline.symm.trans honline')
  obtain ⟨groups, htake⟩ := s.set.exists_takeAll_eq as
  have hnone : s.set.files = [] :=
    List.flatMap_eq_nil_iff.mpr fun x hx => (hunopened.bare x hx).1
  have hselections : s'.set.selections = (s.set.takeAll as).selections := by rw [hset']; rfl
  have hadded : ∀ x' ∈ s'.set.selections, ∃ group member, x'.kept = [] ∧
      x'.files = Attempt.kept group member as := fun x' hx' => by
    obtain ⟨group, member, x, hx, rfl⟩ :=
      SelectionSet.mem_selections_takeAll hrun (hselections ▸ hx')
    refine ⟨group, member, (hunopened.bare x hx).2, ?_⟩
    rw [Selection.add, (hunopened.bare x hx).1, List.nil_append]
  refine ⟨⟨hsound, fun x hx => ?_, fun hcpus cpu x hx => ?_, fun cpu => ?_, ?_⟩,
    hwent.loop ▸ hunopened.numbered, fun cpu => ?_, fun _ => ?_⟩
  · obtain ⟨_, _, hkept, -⟩ := hadded x hx
    exact hkept
  · have hascending : s₁.set.threads.Ascending := hset₁ ▸ hvisits.sound.threads
    have hdistinct : (as.map Attempt.target).Nodup := htargets ▸ Recording.nodup_targets
      (Recording.nodup_pairs (Recording.nodup_targetThreads hascending hthreads)) hcpus
    obtain ⟨group, member, -, hfiles⟩ := hadded x hx
    rw [Selection.filesOn, hfiles]
    exact Attempt.nodup_tids_kept hdistinct group member cpu
  · refine Buffered.of_unmapped fun f hf => ?_
    have hmem : f ∈ (s.set.takeAll as).files := by
      have hfile := (SelectionSet.mem_filesOn.mp hf).1
      rwa [SelectionSet.files, hselections] at hfile
    have hkept := (SelectionSet.files_takeAll hrun).mem_iff.mp hmem
    rw [hnone, List.nil_append] at hkept
    exact Attempt.unmapped_of_mem_allKept hkept
  · rw [hwent.trace, hunopened.trace, List.append_nil]
    exact Attempt.isData_trace as
  · have hdrains : s'.loop.drains cpu = [] := hwent.loop ▸ hunopened.idle cpu
    exact ⟨by rw [hdrains]; exact List.forall_mem_nil _, fun _ _ => hdrains⟩
  · exact hwent.loop ▸ hunopened.idle

/-- Whether a call only readies a set whose events are open: it maps, enables,
reads or watches, or is the first that asks for records. -/
def Recording.Call.readies (set : SelectionSet) : Recording.Call → Bool
  | enableEvents | disableEvents | readCounters | mapEvents .. | watchCpus .. => true
  | attach => !set.attached
  | _ => false

/-- Where a set whose events were opened on the given cpus may be before any
record is taken from it. -/
inductive Host.Ready {ω : Type} (host : Host ω) :
    (cpus : List Nat) → Session (Traced ω) → Prop where
  | opened {s s' : Session (Traced ω)} {requested online : List Nat} (hvisits : host.Visits s)
      (hunopened : s.Unopened) (honline : (host.onlineCpus s.world.world).1 = .ok online)
      (hok : Recording.openEvents host.traced requested s = (.ok (), s')) :
      Ready host (if requested.isEmpty then online else requested) s'
  | call {cpus : List Nat} {s : Session (Traced ω)} (h : Ready host cpus s) (c : Recording.Call)
      (hc : c.readies s.set = true) : Ready host cpus (c.run host.traced s).2
  | outside {cpus : List Nat} {s : Session (Traced ω)} (h : Ready host cpus s) (world : ω) :
      Ready host cpus { s with world := { s.world with world } }

namespace Recording

open Effect (Keeps keeps_pure)

variable {ω : Type} (host : Host ω) {cpus : List Nat}

theorem watchBuffers_eq : ∀ (cpus : List Nat) (s : Session ω),
    watchBuffers cpus s = (.ok (), cpus.foldl Session.awaiting s)
  | [], _ => rfl
  | cpu :: rest, s => by
    rw [watchBuffers, Effect.bind_of_ok (watchBuffer_eq cpu s), watchBuffers_eq rest]
    rfl

theorem waiting_awaiting {s : Session ω} {cpu : Nat} (h : s.Waiting)
    (hattached : s.set.attached = true) (hnone : s.loop.drains cpu = []) :
    (s.awaiting cpu).Waiting where
  numbered := Session.numbered_awaiting h.numbered cpu
  watches other := by
    by_cases heq : other = cpu
    · rw [heq]
      exact Session.watches_awaiting_self h.numbered hnone
    · exact (h.watches other).awaiting_of_ne h.numbered heq
  detached hdetached := by
    rw [Session.set_awaiting] at hdetached
    have hnot : s.set.attached = false := hdetached
    rw [hattached] at hnot
    cases hnot

/-- What is known stays so while the loop comes to wait for one buffer after
the other. -/
theorem prepared_awaitAll : ∀ {buffers : List Nat} {s : Session (Traced ω)}, buffers.Nodup →
    s.Fresh cpus → s.Waiting → s.set.attached = true →
    (∀ cpu ∈ buffers, s.loop.drains cpu = []) →
    (buffers.foldl Session.awaiting s).Fresh cpus ∧ (buffers.foldl Session.awaiting s).Waiting
  | [], _, _, hfresh, hwaiting, _, _ => ⟨hfresh, hwaiting⟩
  | cpu :: rest, s, hnodup, hfresh, hwaiting, hattached, hnone => by
    obtain ⟨hcpu, hrest⟩ := List.nodup_cons.mp hnodup
    have hset := s.set_awaiting cpu
    have hworld := s.world_awaiting cpu
    have hfresh₁ : (s.awaiting cpu).Fresh cpus := hfresh.of_groups (by rw [hset]) (by rw [hset])
      (by rw [hworld]) (by rw [hworld]; exact (List.nil_append _).symm) (List.forall_mem_nil _)
    have hattached₁ : (s.awaiting cpu).set.attached = true := by rw [hset]; exact hattached
    have hwaiting₁ := waiting_awaiting hwaiting hattached (hnone cpu List.mem_cons_self)
    rw [List.foldl_cons]
    refine prepared_awaitAll hrest hfresh₁ hwaiting₁ hattached₁ fun other hother => ?_
    have hne : other ≠ cpu := fun heq => hcpu (heq ▸ hother)
    rw [Session.drains_awaiting_of_ne hwaiting.numbered hne]
    exact hnone other (List.mem_cons_of_mem _ hother)

theorem prepared_attach {s : Session (Traced ω)} (hfresh : s.Fresh cpus) (hwaiting : s.Waiting)
    (hdetached : s.set.attached = false) :
    (attach s).2.Fresh cpus ∧ (attach s).2.Waiting := by
  let s₁ : Session (Traced ω) := { s with set := { s.set with attached := true } }
  have hattach : attach s = watchBuffers s₁.set.bufferCpus s₁ := rfl
  have hnodup : s₁.set.bufferCpus.Nodup := by
    have hempty : (⟨[]⟩ : OrderedMap Nat Unit).Ascending := List.Pairwise.nil
    exact (hempty.foldl_insert ((s₁.set.files.filter (·.mapped)).map fun f => (f.cpu, ()))).imp
      Nat.ne_of_lt
  rw [hattach, watchBuffers_eq]
  refine prepared_awaitAll hnodup ?_ ?_ rfl fun cpu _ => hwaiting.detached hdetached cpu
  · exact hfresh.of_groups (τ := []) rfl rfl rfl rfl (List.forall_mem_nil _)
  · exact ⟨hwaiting.numbered,
      fun cpu => ⟨(hwaiting.watches cpu).known, (hwaiting.watches cpu).idle⟩, nofun⟩

theorem prepared_mapEvents (least most : Nat) {s : Session (Traced ω)} (hfresh : s.Fresh cpus)
    (hwaiting : s.Waiting) :
    (mapEvents host.traced least most s).2.Fresh cpus ∧
      (mapEvents host.traced least most s).2.Waiting := by
  obtain ⟨r, s', heq, hwent, set, hset, hcases⟩ :=
    mapEvents_outcome host least most hfresh.sound.distinct
  rw [heq]
  -- first buffers are taken away, if the kernel refuses some
  let s₁ : Session (Traced ω) := { s with set }
  have hfirst : s₁.Fresh cpus ∧ s₁.Waiting := by
    rcases hset with rfl | rfl
    · exact ⟨hfresh, hwaiting⟩
    · have hset₁ : s₁.set =
          { s.set.updateFiles EventFile.unmapped with pages := s.set.pages } := rfl
      have hwent₁ : s.Went s₁ 0 [] := ⟨rfl, rfl, rfl⟩
      have hkept := EventFile.unmapped_unmapped
      exact ⟨hfresh.updateFiles hkept (fun _ => Buffered.map_unmapped _) hset₁ hwent₁,
        hwaiting.updateFiles hkept hset₁ hwent₁⟩
  have hwent₁ : s₁.Went s' 0 [] := ⟨hwent.loop, hwent.count, hwent.trace⟩
  rcases hcases with ⟨-, pages, hset'⟩ | ⟨-, hset'⟩
  · have hplace : ∀ f : EventFile, (f.place (set.firstOn? f.cpu)).unmapped = f.unmapped :=
      fun f => f.unmapped_place _
    refine ⟨hfirst.1.updateFiles hplace (fun cpu => ?_) hset' hwent₁,
      hfirst.2.updateFiles hplace hset' hwent₁⟩
    have hon : (set.filesOn cpu).map (fun f => f.place (set.firstOn? f.cpu)) =
        (set.filesOn cpu).map (EventFile.place (set.firstOn? cpu)) :=
      List.map_congr_left fun f hf => by rw [(SelectionSet.mem_filesOn.mp hf).2]
    exact hon ▸ (hfirst.1.buffered cpu).place
  · exact ⟨hfirst.1.went hset' hwent₁ (List.forall_mem_nil _), hfirst.2.went hset' hwent₁⟩

theorem prepared_quiet {α : Type} {x : Recording (Traced ω) α}
    (hx : Effect.Leaves (fun s => (s.set, s.course)) x) :
    Keeps (fun s => s.Fresh cpus ∧ s.Waiting) x := by
  rintro s ⟨hfresh, hwaiting⟩
  obtain ⟨r, s', heq, hset, hwent⟩ := quiet_outcome hx s
  rw [heq]
  exact ⟨hfresh.went hset hwent (List.forall_mem_nil _), hwaiting.went hset hwent⟩

theorem prepared_readCounters :
    Keeps (fun s : Session (Traced ω) => s.Fresh cpus ∧ s.Waiting) (readCounters host.traced) := by
  refine keeps_readCounters fun d s ⟨hfresh, hwaiting⟩ => ?_
  rcases readCounter_outcome host d s with ⟨value, s', heq, hset, hwent⟩ | ⟨e, s', heq, hset, hwent⟩
  · rw [heq]
    refine ⟨hfresh.went hset hwent fun x hx => ?_, hwaiting.went hset hwent⟩
    rw [List.mem_singleton.mp hx]
    exact ⟨rfl, rfl⟩
  · rw [heq]
    exact ⟨hfresh.went hset hwent (List.forall_mem_nil _), hwaiting.went hset hwent⟩

theorem prepared_addTimer (interval : Nat) :
    Keeps (fun s : Session (Traced ω) => s.Fresh cpus ∧ s.Waiting)
      (addTimer host.traced interval .watchCpus) := by
  rintro s ⟨hfresh, hwaiting⟩
  rw [addTimer, Effect.get_bind, EventLoop.addTimer]
  by_cases hzero : interval = 0
  · rw [if_pos hzero]
    exact ⟨hfresh, hwaiting⟩
  · rw [if_neg hzero]
    let l := (s.loop.add (.timer interval (host.now s.world.world + interval)) .watchCpus).2
    have hdrains : ∀ cpu, l.drains cpu = s.loop.drains cpu := fun cpu =>
      EventLoop.drains_add_of_ne hwaiting.numbered _ (by rintro ⟨⟩)
    let s' : Session (Traced ω) := { s with loop := l }
    show s'.Fresh cpus ∧ s'.Waiting
    refine ⟨hfresh.of_groups (τ := []) rfl rfl rfl rfl (List.forall_mem_nil _),
      hwaiting.numbered.add _ _, fun cpu => ⟨fun e he => ?_, fun hsampling hfiles => ?_⟩,
      fun hdetached cpu => ?_⟩
    · exact (hwaiting.watches cpu).known e (hdrains cpu ▸ he)
    · exact (hdrains cpu).trans ((hwaiting.watches cpu).idle hsampling hfiles)
    · exact (hdrains cpu).trans (hwaiting.detached hdetached cpu)

theorem prepared_watchCpus (monitored : List Nat) (interval : Nat) :
    Keeps (fun s : Session (Traced ω) => s.Fresh cpus ∧ s.Waiting)
      (watchCpus host.traced monitored interval) := by
  have hset : ∀ f : SelectionSet → SelectionSet,
      (∀ set, ∃ monitoredCpus onlineCpus, f set = { set with monitoredCpus, onlineCpus }) →
      Keeps (fun s : Session (Traced ω) => s.Fresh cpus ∧ s.Waiting) (modifySet f) := by
    rintro f hf s ⟨hfresh, hwaiting⟩
    obtain ⟨monitoredCpus, onlineCpus, heq⟩ := hf s.set
    show Session.Fresh cpus { s with set := f s.set } ∧ Session.Waiting { s with set := f s.set }
    rw [heq]
    exact ⟨hfresh.of_groups (τ := []) rfl rfl rfl rfl (List.forall_mem_nil _), hwaiting.numbered,
      fun cpu => ⟨(hwaiting.watches cpu).known, (hwaiting.watches cpu).idle⟩, hwaiting.detached⟩
  rw [watchCpus]
  refine (hset _ fun set => ⟨_, _, rfl⟩).bind fun _ =>
    (prepared_quiet host.quiet_traced.onlineCpus).bind fun online =>
    (hset _ fun set => ⟨_, _, rfl⟩).bind fun _ => (prepared_addTimer host interval).bind fun _ =>
    keeps_pure ()

/-- **Getting ready keeps what is known of a set that was opened.** -/
theorem prepared_call {c : Call} {s : Session (Traced ω)} (hfresh : s.Fresh cpus)
    (hwaiting : s.Waiting) (hc : c.readies s.set = true) :
    (c.run host.traced s).2.Fresh cpus ∧ (c.run host.traced s).2.Waiting := by
  have hforFiles : ∀ {act : Descriptor → Effect (Traced ω) Unit},
      (∀ d, Effect.Leaves (fun s => (s.set, s.course)) (outside (act d))) →
      Keeps (fun s : Session (Traced ω) => s.Fresh cpus ∧ s.Waiting)
        (do forFiles act (← getSet).files) := fun hact =>
    keeps_getSet.bind fun _ => prepared_quiet (leaves_forFiles hact _)
  cases c with
  | enableEvents => exact hforFiles host.quiet_traced.enable s ⟨hfresh, hwaiting⟩
  | disableEvents => exact hforFiles host.quiet_traced.disable s ⟨hfresh, hwaiting⟩
  | readCounters =>
    exact (prepared_readCounters host).bind (fun _ => keeps_pure ()) s ⟨hfresh, hwaiting⟩
  | mapEvents least most => exact prepared_mapEvents host least most hfresh hwaiting
  | attach => exact prepared_attach hfresh hwaiting (Bool.not_eq_true' _ ▸ hc)
  | watchCpus monitored interval =>
    exact prepared_watchCpus host monitored interval s ⟨hfresh, hwaiting⟩
  | _ => cases hc

end Recording

/-- **What is known of a set whose events have been opened.** -/
theorem Host.Ready.prepared {ω : Type} {host : Host ω} {cpus : List Nat} {s : Session (Traced ω)}
    (h : host.Ready cpus s) : s.Fresh cpus ∧ s.Waiting := by
  induction h with
  | opened hvisits hunopened honline hok =>
    exact Session.fresh_of_openEvents hvisits hunopened honline hok
  | call h c hc ih => exact Recording.prepared_call host ih.1 ih.2 hc
  | @outside cpus s h world ih =>
    obtain ⟨hfresh, hwaiting⟩ := ih
    exact ⟨hfresh.of_groups (τ := []) rfl rfl rfl rfl (List.forall_mem_nil _), hwaiting.numbered,
      fun cpu => ⟨(hwaiting.watches cpu).known, (hwaiting.watches cpu).idle⟩, hwaiting.detached⟩

theorem Host.Ready.awaited {ω : Type} {host : Host ω} {cpus : List Nat} {s : Session (Traced ω)}
    (h : host.Ready cpus s) (hdetached : s.set.attached = false) (least most : Nat)
    (monitored : List Nat) (interval : Nat) :
    host.Ready cpus ([.mapEvents least most, .attach, .watchCpus monitored interval].foldl
      (fun s (c : Recording.Call) => (c.run host.traced s).2) s) := by
  have hmapped : ((Recording.Call.mapEvents least most).run host.traced s).2.set.attached =
      false := (Recording.attached_mapEvents host least most h.prepared.1.sound.distinct).trans
    hdetached
  refine .call (.call (.call h (.mapEvents least most) rfl) .attach ?_)
    (.watchCpus monitored interval) rfl
  rw [Recording.Call.readies, hmapped]
  rfl

/-! ### Recordings on a kernel in memory -/

namespace MemoryKernel

/-- A recording of a group of events on every thread, on a kernel with the given
rules. -/
def chosen (counting : Bool) (names : List String) (rules : Rules) :
    Session (Traced MemoryKernel) :=
  [.addGroup names, .addThread SelectionSet.everyThread].foldl
    (fun s (c : Recording.Call) => (c.run host.traced s).2)
    { set := { counting }, world := { world := { rules } } }

/-- The kernel has other rules now. -/
def ruled (rules : Rules) (s : Session (Traced MemoryKernel)) : Session (Traced MemoryKernel) :=
  { s with world := { s.world with world := { s.world.world with rules } } }

theorem visits_chosen (counting : Bool) (names : List String) (rules : Rules) :
    host.Visits (chosen counting names rules) := .call (.call (.start counting _ _) _) _

theorem ready_chosen {counting : Bool} {names : List String} {rules : Rules} {cpus : List Nat}
    (hunopened : (chosen counting names rules).Unopened)
    (honline : (host.onlineCpus (chosen counting names rules).world.world).1 = .ok cpus)
    (hopened : (Recording.openEvents host.traced [] (chosen counting names rules)).1 = .ok ()) :
    host.Ready cpus (Recording.openEvents host.traced [] (chosen counting names rules)).2 :=
  .opened (visits_chosen counting names rules) hunopened honline (Prod.ext hopened rfl)

end MemoryKernel

end Profiler
