/-
# What leaving and entering a cpu leads to

When a cpu has gone, its buffer is drained or its counters are read, and its
descriptors are forgotten. When a cpu has come, each group is tried on it, what
was opened is mapped, and the ids are announced; where mapping fails, the set has
no descriptors on the cpu. The two are described here by the sessions they lead
to, whatever comes of them.

Key definitions: `SelectionSet.onCpu`, `SelectionSet.keepAll`, `Session.Knows`,
`Session.Unturned`, `Session.unwatching`, `Session.awaiting`,
`Recording.activated`.
Key theorems: `Recording.closeOn_outcome`, `Recording.keepReadings_outcome`,
`Recording.leaveCpu_counting`, `Recording.leaveCpu_sampling`,
`Recording.enterCpu_outcome`, `Recording.announce_outcome`.
-/
import Profiler.Proofs.Recording.Lockstep
import Profiler.Proofs.Recording.Placing

namespace Profiler

/-! ### The descriptors on a cpu -/

namespace SelectionSet

variable {s s' : SelectionSet} {cpu other : Nat}

theorem filesOn_placeOn_self :
    (s.placeOn cpu).filesOn cpu = (s.filesOn cpu).map (EventFile.place (s.firstOn? cpu)) := by
  rw [placeOn, filesOn_updateFiles]
  · exact List.map_congr_left fun f hf => if_pos (mem_filesOn.mp hf).2
  · intro f
    split
    · exact f.cpu_place _
    · rfl

theorem files_dropFilesOn : (s.dropFilesOn cpu).files = s.files.filter (·.cpu != cpu) :=
  s.files_forget (· != cpu)

theorem filesOn_dropFilesOn_self : (s.dropFilesOn cpu).filesOn cpu = [] := by
  rw [filesOn, files_dropFilesOn, List.filter_filter]
  exact List.filter_eq_nil_iff.mpr fun f _ => by simp

theorem filesOn_dropFilesOn_of_ne (h : other ≠ cpu) :
    (s.dropFilesOn cpu).filesOn other = s.filesOn other := by
  rw [filesOn, files_dropFilesOn, List.filter_filter, filesOn]
  refine List.filter_congr fun f _ => ?_
  by_cases hcpu : f.cpu = other <;> simp [hcpu, h]

theorem dropFilesOn_updateFiles {g : EventFile → EventFile} (hcpu : ∀ f, (g f).cpu = f.cpu)
    (hg : ∀ f, f.cpu ≠ cpu → g f = f) : (s.updateFiles g).dropFilesOn cpu = s.dropFilesOn cpu := by
  have hfiles : ∀ files : List EventFile, (files.map g).filter (fun f => f.cpu != cpu) =
      files.filter (fun f => f.cpu != cpu) := fun files => by
    rw [List.filter_map]
    simp only [Function.comp_def, hcpu]
    refine (List.map_congr_left fun f hf => hg f ?_).trans (List.map_id' _)
    simpa using List.of_mem_filter hf
  simp only [updateFiles, dropFilesOn, mapSelections, List.map_map, Function.comp_def, hfiles]

/-- Forgetting a cpu forgets what attempts have opened on it. -/
theorem dropFilesOn_takeAll {change : Attr → Attr} {as : List Attempt} {n : Nat}
    (h : Attempt.Run change s n as) (hcpu : ∀ a ∈ as, a.cpu = cpu) :
    (s.takeAll as).dropFilesOn cpu = s.dropFilesOn cpu := by
  have hkept : ∀ g k, (Attempt.kept g k as).filter (fun f => f.cpu != cpu) = [] := fun g k => by
    refine List.filter_eq_nil_iff.mpr fun f hf => ?_
    obtain ⟨a, ha, -, -, hfile⟩ := Attempt.mem_kept hf
    have hon := (Attempt.of_mem_files (List.mem_of_getElem? hfile)).2.1
    simp [hon, hcpu a ha]
  obtain ⟨groups, htake⟩ := s.exists_takeAll_eq as
  have hgroups := groups_takeAll h
  rw [htake] at hgroups ⊢
  show ({ s with groups := groups.map _ } : SelectionSet) = { s with groups := s.groups.map _ }
  rw [show groups = _ from hgroups]
  congr 1
  refine List.ext_getElem? fun g => ?_
  simp only [mapMembers, List.getElem?_map, List.getElem?_mapIdx, Option.map_map]
  cases s.groups[g]? with
  | none => rfl
  | some members =>
    refine congrArg some (List.ext_getElem? fun k => ?_)
    simp only [Function.comp_def, List.getElem?_map, List.getElem?_mapIdx, Option.map_map]
    cases members[k]? with
    | none => rfl
    | some x => simp only [Option.map_some, Selection.add, List.filter_append, hkept,
        List.append_nil]

theorem dropFilesOn_placeOn : (s.placeOn cpu).dropFilesOn cpu = s.dropFilesOn cpu := by
  refine dropFilesOn_updateFiles (fun f => ?_) fun f hf => if_neg hf
  split
  · exact f.cpu_place _
  · rfl

theorem dropFilesOn_unplaceOn : (s.unplaceOn cpu).dropFilesOn cpu = s.dropFilesOn cpu := by
  refine dropFilesOn_updateFiles (fun f => ?_) fun f hf => if_neg hf
  split <;> rfl

/-- The descriptors of each selection. -/
def held (s : SelectionSet) : List (List EventFile) := s.selections.map Selection.files

def onCpu (s : SelectionSet) (cpu : Nat) : List (List EventFile) :=
  s.selections.map fun x => x.filesOn cpu

theorem filesOn_eq_flatten (s : SelectionSet) (cpu : Nat) :
    s.filesOn cpu = (s.onCpu cpu).flatten := by
  rw [filesOn, files, List.filter_flatMap, List.flatMap_def]
  rfl

theorem filesOn_of_onCpu (h : s'.onCpu cpu = s.onCpu cpu) : s'.filesOn cpu = s.filesOn cpu := by
  rw [filesOn_eq_flatten, h, ← filesOn_eq_flatten]

theorem onCpu_of_held (h : s'.held = s.held) (cpu : Nat) : s'.onCpu cpu = s.onCpu cpu := by
  have honCpu : ∀ s : SelectionSet, s.onCpu cpu = s.held.map (List.filter (·.cpu == cpu)) :=
    fun s => by
      rw [held, List.map_map]
      rfl
  rw [honCpu, h, ← honCpu]

theorem filesOn_of_held (h : s'.held = s.held) (cpu : Nat) : s'.filesOn cpu = s.filesOn cpu :=
  filesOn_of_onCpu (onCpu_of_held h cpu)

theorem held_dropFilesOn (s : SelectionSet) (cpu : Nat) :
    (s.dropFilesOn cpu).held = s.held.map fun files => files.filter (·.cpu != cpu) := by
  rw [held, dropFilesOn, selections_mapSelections, List.map_map, held, List.map_map]
  rfl

theorem held_dropFilesOn_congr (h : s'.held = s.held) :
    (s'.dropFilesOn cpu).held = (s.dropFilesOn cpu).held := by
  rw [held_dropFilesOn, h, ← held_dropFilesOn]

theorem onCpu_dropFilesOn_of_ne (h : other ≠ cpu) :
    (s.dropFilesOn cpu).onCpu other = s.onCpu other := by
  rw [onCpu, dropFilesOn, selections_mapSelections, List.map_map]
  refine List.map_congr_left fun x _ => ?_
  show (x.files.filter (·.cpu != cpu)).filter (·.cpu == other) = x.files.filter (·.cpu == other)
  rw [List.filter_filter]
  refine List.filter_congr fun f _ => ?_
  by_cases hcpu : f.cpu = other <;> simp [hcpu, h]

end SelectionSet

/-! ### Readings that are kept -/

def EventFile.reading (f : EventFile) (value : CounterValue) : CounterInfo :=
  { tid := f.tid, cpu := f.cpu, counter := value }

/-- What happens when counters are read in turn. -/
def Trace.counts (readings : List (EventFile × CounterValue)) : Trace :=
  (readings.map fun p => .counted p.1.descriptor p.2).reverse

theorem Trace.counts_cons (p : EventFile × CounterValue)
    (readings : List (EventFile × CounterValue)) :
    counts (p :: readings) = counts readings ++ [.counted p.1.descriptor p.2] := by
  rw [counts, List.map_cons, List.reverse_cons]
  rfl

namespace SelectionSet

def keepAll (s : SelectionSet) (readings : List (EventFile × CounterValue)) : SelectionSet :=
  readings.foldl (fun s p => s.keepReading p.1.descriptor (p.1.reading p.2)) s

/-- A selection keeps the readings of its descriptors, in their order. -/
theorem keepAll_eq (s : SelectionSet) (readings : List (EventFile × CounterValue)) :
    s.keepAll readings = s.mapSelections fun x => { x with
      kept := x.kept ++ (readings.filter fun p =>
        x.files.any (·.descriptor == p.1.descriptor)).map (fun p => p.1.reading p.2) } := by
  induction readings generalizing s with
  | nil =>
    have hsame : ∀ x : Selection, ({ x with kept := x.kept ++ [] } : Selection) = x := fun x => by
      rw [List.append_nil]
    simp only [keepAll, List.foldl_nil, mapSelections, List.filter_nil, List.map_nil, hsame,
      List.map_id']
  | cons p rest ih =>
    rw [keepAll, List.foldl_cons, ← keepAll, ih]
    simp only [keepReading, mapSelections, List.map_map]
    congr 1
    refine List.map_congr_left fun group _ => ?_
    show List.map _ (group.map _) = _
    rw [List.map_map]
    refine List.map_congr_left fun x _ => ?_
    show Selection.mk _ _ _ _ = Selection.mk _ _ _ _
    cases hany : x.files.any (·.descriptor == p.1.descriptor) with
    | false => simp [hany]
    | true => simp [hany]

theorem held_keepAll (s : SelectionSet) (readings : List (EventFile × CounterValue)) :
    (s.keepAll readings).held = s.held := by
  rw [keepAll_eq, held, selections_mapSelections, List.map_map]
  rfl

theorem filesOn_keepAll (s : SelectionSet) (readings : List (EventFile × CounterValue))
    (cpu : Nat) : (s.keepAll readings).filesOn cpu = s.filesOn cpu :=
  filesOn_of_held (s.held_keepAll readings) cpu

end SelectionSet

/-! ### Sessions between turns -/

/-- A cpu that is followed and has descriptors is known to be online. -/
def Session.Knows {ω : Type} (s : Session ω) (cpu : Nat) : Prop :=
  s.set.follows cpu = true → s.set.filesOn cpu ≠ [] → cpu ∈ s.set.onlineCpus

namespace Session.Knows

variable {ω : Type} {s : Session ω} {cpu : Nat} {online : List Nat}

/-- A cpu that comes was not known to be online, so it has no descriptors. -/
theorem filesOn_of_come (h : s.Knows cpu) (hcome : cpu ∈ s.set.come online) :
    s.set.filesOn cpu = [] := by
  obtain ⟨-, hboth⟩ := List.mem_filter.mp hcome
  obtain ⟨hoff, hfollows⟩ := Bool.and_eq_true_iff.mp hboth
  rw [Bool.not_eq_true', List.contains_eq_mem, decide_eq_false_iff_not] at hoff
  exact Decidable.byContradiction fun hfiles => hoff (h hfollows hfiles)

theorem mem_gone (h : s.Knows cpu) (hfollows : s.set.follows cpu = true)
    (hfiles : s.set.filesOn cpu ≠ []) (hoff : cpu ∉ online) : cpu ∈ s.set.gone online := by
  refine List.mem_filter.mpr ⟨h hfollows hfiles, ?_⟩
  rw [hfollows, Bool.and_true, Bool.not_eq_true', List.contains_eq_mem, decide_eq_false_iff_not]
  exact hoff

end Session.Knows

/-- What a recording is asked to do stays the same, and so do the cpus to follow
and those that are known to be online. -/
structure Session.Unturned {ω : Type} (s s' : Session (Traced ω)) : Prop where
  counting : s'.set.counting = s.set.counting
  attached : s'.set.attached = s.set.attached
  online : s'.set.onlineCpus = s.set.onlineCpus
  monitored : s'.set.monitoredCpus = s.set.monitoredCpus

namespace Session.Unturned

variable {ω : Type} {s s' s'' : Session (Traced ω)}

theorem refl (s : Session (Traced ω)) : s.Unturned s := ⟨rfl, rfl, rfl, rfl⟩

theorem trans (h : s.Unturned s') (h' : s'.Unturned s'') : s.Unturned s'' :=
  ⟨h'.counting.trans h.counting, h'.attached.trans h.attached, h'.online.trans h.online,
    h'.monitored.trans h.monitored⟩

theorem of_set (h : s'.set = s.set) : s.Unturned s' := by
  constructor <;> rw [h]

theorem follows (h : s.Unturned s') : s'.set.follows = s.set.follows := by
  funext cpu
  rw [SelectionSet.follows, SelectionSet.follows, h.monitored]

end Session.Unturned

/-! ### Single steps -/

namespace Recording

variable {ω : Type} (host : Host ω)

theorem closeOn_outcome (cpu : Nat) (s : Session (Traced ω)) :
    ∃ s', closeOn host.traced cpu s = (.ok (), s') ∧ s'.set = s.set.dropFilesOn cpu ∧
      s.Went s' 0 (Trace.closes (s.set.filesOn cpu)) := by
  obtain ⟨s₁, hclose, hset, hwent⟩ := closeAll_outcome host (s.set.filesOn cpu) s
  refine ⟨{ s₁ with set := s₁.set.dropFilesOn cpu }, ?_, by rw [hset],
    ⟨hwent.loop, hwent.count, hwent.trace⟩⟩
  rw [closeOn, getSet_bind, Effect.bind_of_ok hclose]
  rfl

/-- Counters are read until one cannot be, and what was read is kept. -/
theorem keepReadings_outcome : ∀ (files : List EventFile) (s : Session (Traced ω)),
    ∃ values r s', keepReadings host.traced files s = (r, s') ∧
      s'.set = s.set.keepAll (files.zip values) ∧ s.Went s' 0 (Trace.counts (files.zip values)) ∧
      (r = .ok () → values.length = files.length)
  | [], s => ⟨[], .ok (), s, rfl, rfl, Session.Went.refl s, fun _ => rfl⟩
  | file :: rest, s => by
    rw [keepReadings]
    rcases readCounter_outcome host file.descriptor s with
      ⟨value, s₁, hread, hset₁, hwent₁⟩ | ⟨e, s₁, hread, hset₁, hwent₁⟩
    · let s₂ : Session (Traced ω) :=
        { s₁ with set := s₁.set.keepReading file.descriptor (file.reading value) }
      obtain ⟨values, r, s', hrest, hset, hwent, hall⟩ := keepReadings_outcome rest s₂
      refine ⟨value :: values, r, s', ?_, ?_, ?_, fun hr => by
        rw [List.length_cons, hall hr, List.length_cons]⟩
      · rw [Effect.bind_of_ok hread]
        exact hrest
      · rw [hset, List.zip_cons_cons, SelectionSet.keepAll, SelectionSet.keepAll, List.foldl_cons,
          ← hset₁]
      · rw [List.zip_cons_cons, Trace.counts_cons]
        have hwent₂ : s.Went s₂ 0 [.counted file.descriptor value] :=
          ⟨hwent₁.loop, hwent₁.count, hwent₁.trace⟩
        exact hwent₂.trans hwent
    · exact ⟨[], .error e, s₁, Effect.bind_of_error hread, hset₁, hwent₁, nofun⟩

end Recording

namespace Session

variable {ω : Type}

/-- The loop no longer waits for the buffer of a cpu. -/
def unwatching (s : Session ω) (cpu : Nat) : Session ω :=
  match s.set.readEvents.get? cpu with
  | none => s
  | some handle => { s with
      loop := (s.loop.delete handle).2
      set := { s.set with readEvents := s.set.readEvents.erase cpu } }

/-- The loop waits for the buffer of a cpu, if it has one. -/
def awaiting (s : Session ω) (cpu : Nat) : Session ω :=
  match s.set.bufferOwner? cpu with
  | none => s
  | some owner => { s with
      loop := (s.loop.add (.descriptor owner) (.drain cpu)).2
      set := { s.set with
        readEvents :=
          s.set.readEvents.insert cpu (s.loop.add (.descriptor owner) (.drain cpu)).1 } }

theorem set_unwatching (s : Session ω) (cpu : Nat) :
    (s.unwatching cpu).set = { s.set with readEvents := (s.unwatching cpu).set.readEvents } := by
  unfold unwatching
  split <;> rfl

theorem set_awaiting (s : Session ω) (cpu : Nat) :
    (s.awaiting cpu).set = { s.set with readEvents := (s.awaiting cpu).set.readEvents } := by
  unfold awaiting
  split <;> rfl

theorem held_unwatching (s : Session ω) (cpu : Nat) :
    (s.unwatching cpu).set.held = s.set.held := by
  rw [set_unwatching]
  rfl

theorem held_awaiting (s : Session ω) (cpu : Nat) : (s.awaiting cpu).set.held = s.set.held := by
  rw [set_awaiting]
  rfl

theorem unturned_unwatching (s : Session (Traced ω)) (cpu : Nat) :
    s.Unturned (s.unwatching cpu) := by
  constructor <;> rw [set_unwatching]

theorem unturned_awaiting (s : Session (Traced ω)) (cpu : Nat) : s.Unturned (s.awaiting cpu) := by
  constructor <;> rw [set_awaiting]

theorem world_unwatching (s : Session ω) (cpu : Nat) : (s.unwatching cpu).world = s.world := by
  unfold unwatching
  split <;> rfl

theorem world_awaiting (s : Session ω) (cpu : Nat) : (s.awaiting cpu).world = s.world := by
  unfold awaiting
  split <;> rfl

end Session

namespace Recording

variable {ω : Type} (host : Host ω)

theorem unwatchBuffer_eq (cpu : Nat) (s : Session ω) :
    unwatchBuffer cpu s = (.ok (), s.unwatching cpu) := by
  rw [unwatchBuffer, getSet_bind, Session.unwatching]
  cases s.set.readEvents.get? cpu <;> rfl

theorem watchBuffer_eq (cpu : Nat) (s : Session ω) :
    watchBuffer cpu s = (.ok (), s.awaiting cpu) := by
  rw [watchBuffer, getSet_bind, Session.awaiting]
  cases s.set.bufferOwner? cpu <;> rfl

/-! ### Leaving a cpu -/

/-- **Leaving a cpu whose events are counted:** its counters are read, and its
descriptors are forgotten unless one cannot be read. -/
theorem leaveCpu_counting (cpu : Nat) {s : Session (Traced ω)} (hcounting : s.set.counting = true) :
    ∃ values r s', leaveCpu host.traced cpu s = (r, s') ∧
      ((r = .ok true ∧ values.length = (s.set.filesOn cpu).length ∧
          s'.set = (s.set.keepAll ((s.set.filesOn cpu).zip values)).dropFilesOn cpu ∧
          s.Went s' 0 (Trace.closes (s.set.filesOn cpu) ++
            Trace.counts ((s.set.filesOn cpu).zip values))) ∨
        (∃ e, r = .error e) ∧ s'.set = s.set.keepAll ((s.set.filesOn cpu).zip values) ∧
          s.Went s' 0 (Trace.counts ((s.set.filesOn cpu).zip values))) := by
  obtain ⟨values, r, s₁, hread, hset₁, hwent₁, hall⟩ :=
    keepReadings_outcome host (s.set.filesOn cpu) s
  rw [leaveCpu, getSet_bind, if_pos hcounting, getSet_bind]
  cases r with
  | error e =>
    exact ⟨values, .error e, s₁, Effect.bind_of_error hread, .inr ⟨⟨e, rfl⟩, hset₁, hwent₁⟩⟩
  | ok u =>
    obtain ⟨s₂, hclose, hset₂, hwent₂⟩ := closeOn_outcome host cpu s₁
    have hsame : s₁.set.filesOn cpu = s.set.filesOn cpu := by
      rw [hset₁, SelectionSet.filesOn_keepAll]
    refine ⟨values, .ok true, s₂, ?_, .inl ⟨rfl, hall rfl, ?_, ?_⟩⟩
    · rw [Effect.bind_of_ok hread, Effect.bind_of_ok hclose]
      rfl
    · rw [hset₂, hset₁]
    · rw [hsame] at hwent₂
      exact hwent₁.trans hwent₂

/-- **Leaving a cpu whose events are sampled:** the loop no longer waits for its
buffer, which is drained, and its descriptors are forgotten unless that fails or
a record is refused. -/
theorem leaveCpu_sampling (cpu : Nat) {s : Session (Traced ω)}
    (hcounting : s.set.counting = false) {r : Except Error Bool} {s₁ : Session (Traced ω)}
    (hdrain : drainCpu host.traced cpu (s.unwatching cpu) = (r, s₁)) :
    ∃ s', s₁.set = (s.unwatching cpu).set ∧ leaveCpu host.traced cpu s = (r, s') ∧
      ((r = .ok true ∧ s'.set = s₁.set.dropFilesOn cpu ∧
          s₁.Went s' 0 (Trace.closes (s.set.filesOn cpu))) ∨
        (r ≠ .ok true ∧ s' = s₁)) := by
  have hsame : s₁.set = (s.unwatching cpu).set := by
    have hleaves := leaves_drainCpu host.traced cpu (s.unwatching cpu)
    rwa [hdrain] at hleaves
  have hfiles : s₁.set.filesOn cpu = s.set.filesOn cpu := by
    rw [hsame, Session.set_unwatching]
    rfl
  rw [leaveCpu, getSet_bind, if_neg (by rw [hcounting]; exact Bool.false_ne_true),
    Effect.bind_of_ok (unwatchBuffer_eq cpu s)]
  cases r with
  | error e => exact ⟨s₁, hsame, Effect.bind_of_error hdrain, .inr ⟨by rintro ⟨⟩, rfl⟩⟩
  | ok more =>
    rw [Effect.bind_of_ok hdrain]
    cases more with
    | false => exact ⟨s₁, hsame, rfl, .inr ⟨by rintro ⟨⟩, rfl⟩⟩
    | true =>
      obtain ⟨s₂, hclose, hset₂, hwent₂⟩ := closeOn_outcome host cpu s₁
      refine ⟨s₂, hsame, ?_, .inl ⟨rfl, hset₂, hfiles ▸ hwent₂⟩⟩
      rw [if_pos rfl, Effect.bind_of_ok hclose]
      rfl

/-! ### Entering a cpu -/

/-- The descriptors on a cpu, as they are when they are active. -/
def activated (cpu : Nat) (set : SelectionSet) : SelectionSet :=
  if set.counting then set else set.placeOn cpu

theorem activated_takeAll (set : SelectionSet) (as : List Attempt) (cpu : Nat) :
    activated cpu (set.takeAll as) =
      if set.counting then set.takeAll as else (set.takeAll as).placeOn cpu := by
  obtain ⟨groups, htake⟩ := set.exists_takeAll_eq as
  rw [htake, activated]

theorem exists_activated_eq (set : SelectionSet) (as : List Attempt) (cpu : Nat) :
    ∃ groups, activated cpu (set.takeAll as) = { set with groups } := by
  obtain ⟨groups, htake⟩ := set.exists_takeAll_eq as
  rw [htake, activated]
  split
  · exact ⟨_, rfl⟩
  · exact ⟨_, rfl⟩

theorem onCpu_activated_of_ne {change : Attr → Attr} {set : SelectionSet} {as : List Attempt}
    {n cpu other : Nat} (h : Attempt.Run change set n as) (hcpu : ∀ a ∈ as, a.cpu = cpu)
    (hne : other ≠ cpu) : (activated cpu (set.takeAll as)).onCpu other = set.onCpu other := by
  have hdrop : (activated cpu (set.takeAll as)).dropFilesOn cpu = set.dropFilesOn cpu := by
    rw [← SelectionSet.dropFilesOn_takeAll h hcpu, activated]
    split
    · rfl
    · exact SelectionSet.dropFilesOn_placeOn
  rw [← SelectionSet.onCpu_dropFilesOn_of_ne hne, hdrop, SelectionSet.onCpu_dropFilesOn_of_ne hne]

/-- Descriptors on a cpu are mapped, if their events are sampled, and enabled.
Where that fails only their buffers have changed. -/
theorem activateCpu_outcome (cpu : Nat) {s : Session (Traced ω)} (hset : s.set.Distinct) :
    ∃ r s', activateCpu host.traced cpu s = (r, s') ∧ s.Went s' 0 [] ∧
      ((r = .ok () ∧ s'.set = activated cpu s.set) ∨
        (∃ e, r = .error e) ∧ s'.set.dropFilesOn cpu = s.set.dropFilesOn cpu) := by
  -- enabling leaves the set alone
  have henable : ∀ s₁ : Session (Traced ω), s.Went s₁ 0 [] → s₁.set = activated cpu s.set →
      ∃ r s', (do forFiles host.traced.enable ((← getSet).filesOn cpu)) s₁ = (r, s') ∧
        s.Went s' 0 [] ∧ ((r = .ok () ∧ s'.set = activated cpu s.set) ∨
          (∃ e, r = .error e) ∧ s'.set.dropFilesOn cpu = s.set.dropFilesOn cpu) := by
    intro s₁ hwent₁ hset₁
    obtain ⟨r, s₂, hforFiles, hset₂, hwent₂⟩ := quiet_outcome
      (leaves_forFiles host.quiet_traced.enable (s₁.set.filesOn cpu)) s₁
    refine ⟨r, s₂, hforFiles, hwent₁.trans hwent₂, ?_⟩
    rw [hset₂, hset₁]
    cases r with
    | ok u => exact .inl ⟨rfl, rfl⟩
    | error e =>
      refine .inr ⟨⟨e, rfl⟩, ?_⟩
      unfold activated
      split
      · rfl
      · exact SelectionSet.dropFilesOn_placeOn
  rw [activateCpu, getSet_bind]
  cases hcounting : s.set.counting with
  | true =>
    exact henable s (Session.Went.refl s) (by rw [activated, hcounting, if_pos rfl])
  | false =>
    obtain ⟨r, s₁, hmap, hwent₁, ⟨rfl, hset₁⟩ | ⟨⟨e, rfl⟩, hset₁⟩⟩ := mapCpu_outcome host cpu hset
    · have hactive : s₁.set = activated cpu s.set := by
        rw [activated, hcounting, if_neg Bool.false_ne_true, hset₁]
      obtain ⟨r, s₂, hrest, hboth⟩ := henable s₁ hwent₁ hactive
      exact ⟨r, s₂, (Effect.bind_of_ok hmap).trans hrest, hboth⟩
    · exact ⟨.error e, s₁, Effect.bind_of_error hmap, hwent₁,
        .inr ⟨⟨e, rfl⟩, by rw [hset₁, SelectionSet.dropFilesOn_unplaceOn]⟩⟩

/-- **Entering a cpu:** each group is tried on it, and what was opened is
activated and announced. If activating fails, nothing is known of the cpu's
descriptors any more. -/
theorem enterCpu_outcome (cpu : Nat) {s : Session (Traced ω)} (hsound : s.Sound) :
    ∃ r s', enterCpu host.traced cpu s = (r, s') ∧
      (((∃ e, r = .error e) ∧ s'.set = s.set ∧ s.Went s' 0 []) ∨
        ∃ threads as, threads.Nodup ∧ Attempt.Run reopenedAttr s.set s.world.count as ∧
          (as.map Attempt.target =
            (pairs s.set.groups.length threads).map fun p => (p.1, p.2, cpu)) ∧
          (((∃ e, r = .error e) ∧ s'.set = s.set.dropFilesOn cpu ∧ s'.loop = s.loop) ∨
            ∃ s₁, s₁.set = activated cpu (s.set.takeAll as) ∧
              s.Went s₁ (Attempt.count as) (Attempt.trace as) ∧
              announce host.traced cpu s₁ = (r, s'))) := by
  obtain ⟨r, s₁, hthreads, hset₁, hwent₁⟩ :=
    quiet_outcome (leaves_targetThreads host.quiet_traced) s
  rw [enterCpu_eq]
  cases r with
  | error e =>
    exact ⟨.error e, s₁, Effect.bind_of_error hthreads, .inl ⟨⟨e, rfl⟩, hset₁, hwent₁⟩⟩
  | ok threads =>
    obtain ⟨as, s₂, hreopen, htried, htargets⟩ :=
      reopenPairs_outcome host cpu (pairs s₁.set.groups.length threads) s₁
    have hsound₂ : s₂.Sound :=
      (hsound.passed (.of_went hset₁ hwent₁ (List.forall_mem_nil _))).tried htried
    have hwent₂ : s.Went s₂ (Attempt.count as) (Attempt.trace as) := by
      have hboth := hwent₁.trans htried.went
      rwa [Nat.zero_add, List.append_nil] at hboth
    have hset₂ : s₂.set = s.set.takeAll as := by rw [htried.set, hset₁]
    have hrun : Attempt.Run reopenedAttr s.set s.world.count as := by
      rw [← hset₁, ← show s₁.world.count = s.world.count from hwent₁.count]
      exact htried.run
    have hcpus := Attempt.cpu_eq_of_targets htargets
    rw [hset₁] at htargets
    obtain ⟨r, s₃, hactivate, hwent₃, hcases⟩ := activateCpu_outcome host cpu hsound₂.distinct
    rw [Effect.bind_of_ok hthreads, getSet_bind, Effect.bind_of_ok hreopen]
    rcases hcases with ⟨rfl, hset₃⟩ | ⟨⟨e, rfl⟩, hdropped⟩
    · rw [Effect.bind_of_ok (Effect.onFailure_of_ok hactivate)]
      refine ⟨_, _, rfl, .inr ⟨threads, as, nodup_targetThreads hsound.threads hthreads, hrun,
        htargets, .inr ⟨s₃, by rw [hset₃, hset₂], ?_, rfl⟩⟩⟩
      have hboth := hwent₂.trans hwent₃
      exact hboth
    · obtain ⟨s₄, hclose, hset₄, hwent₄⟩ := closeOn_outcome host cpu s₃
      refine ⟨.error e, s₄, Effect.bind_of_error (Effect.onFailure_of_error hactivate hclose),
        .inr ⟨threads, as, nodup_targetThreads hsound.threads hthreads, hrun, htargets,
          .inl ⟨⟨e, rfl⟩, ?_, ?_⟩⟩⟩
      · rw [hset₄, hdropped, hset₂, SelectionSet.dropFilesOn_takeAll hrun hcpus]
      · rw [hwent₄.loop, hwent₃.loop, hwent₂.loop]

/-- **Announcing the ids of a cpu:** the loop waits for its buffer, unless the
announcement is refused. -/
theorem announce_outcome (cpu : Nat) (s : Session (Traced ω)) :
    let ids := announcement s.set cpu
    let learned : Session (Traced ω) := { s with set := s.set.learnIds ids }
    ((s.set.counting = true ∨ ids = []) ∧ announce host.traced cpu s = (.ok true, learned)) ∨
      (s.set.counting = false ∧ ids ≠ []) ∧ ∃ more s₁, s₁.set = learned.set ∧
        s.Went s₁ 0 (if s.set.attached then [.delivered (.eventIds ids)] else []) ∧
        announce host.traced cpu s = (.ok more, if more then s₁.awaiting cpu else s₁) := by
  intro ids learned
  have hstep : announce host.traced cpu s = ((
      if s.set.counting || ids.isEmpty then pure true else do
      if ← deliver host.traced (.eventIds ids) then
        watchBuffer cpu
        return true
      else return false) : Recording (Traced ω) Bool) learned := rfl
  rw [hstep]
  by_cases hskip : (s.set.counting || ids.isEmpty) = true
  · rw [if_pos hskip]
    refine .inl ⟨?_, rfl⟩
    rw [Bool.or_eq_true, List.isEmpty_iff] at hskip
    exact hskip
  · rw [if_neg hskip]
    rw [Bool.or_eq_true, List.isEmpty_iff, not_or, Bool.not_eq_true] at hskip
    obtain ⟨more, s₁, hdeliver, hset, hwent⟩ := deliver_outcome host (.eventIds ids) learned
    refine .inr ⟨hskip, more, s₁, hset, ⟨hwent.loop, hwent.count, hwent.trace⟩, ?_⟩
    rw [Effect.bind_of_ok hdeliver]
    cases more with
    | false => rfl
    | true =>
      rw [if_pos rfl, Effect.bind_of_ok (watchBuffer_eq cpu s₁)]
      rfl

/-! ### Calls that succeed -/

section Ok

variable {host} {cpu : Nat} {rest : List Nat} {s s' : Session (Traced ω)}

theorem leaveCpus_eq_ok (h : leaveCpus host.traced (cpu :: rest) s = (.ok true, s')) :
    ∃ s₁ s₂, s₁.set = s.set ∧ s.Went s₁ 0 [.noted (.cpuOffline cpu)] ∧
      leaveCpu host.traced cpu s₁ = (.ok true, s₂) ∧
      leaveCpus host.traced rest s₂ = (.ok true, s') := by
  obtain ⟨s₁, hnote, hset, hwent⟩ := note_outcome host (.cpuOffline cpu) s
  rw [leaveCpus, Effect.bind_of_ok hnote] at h
  obtain ⟨more, s₂, hleave, hrest⟩ := Effect.bind_eq_ok h
  cases more with
  | true => exact ⟨s₁, s₂, hset, hwent, hleave, hrest⟩
  | false => cases hrest

theorem enterCpus_eq_ok (h : enterCpus host.traced (cpu :: rest) s = (.ok true, s')) :
    ∃ s₁ s₂, s₁.set = s.set ∧ s.Went s₁ 0 [.noted (.cpuOnline cpu)] ∧
      enterCpu host.traced cpu s₁ = (.ok true, s₂) ∧
      enterCpus host.traced rest s₂ = (.ok true, s') := by
  obtain ⟨s₁, hnote, hset, hwent⟩ := note_outcome host (.cpuOnline cpu) s
  rw [enterCpus, Effect.bind_of_ok hnote] at h
  obtain ⟨more, s₂, henter, hrest⟩ := Effect.bind_eq_ok h
  cases more with
  | true => exact ⟨s₁, s₂, hset, hwent, henter, hrest⟩
  | false => cases hrest

/-- A cpu that has come was entered as a whole. -/
theorem enterCpu_eq_ok (hsound : s.Sound) (h : enterCpu host.traced cpu s = (.ok true, s')) :
    ∃ threads as s₁, threads.Nodup ∧ Attempt.Run reopenedAttr s.set s.world.count as ∧
      (as.map Attempt.target = (pairs s.set.groups.length threads).map fun p => (p.1, p.2, cpu)) ∧
      s₁.set = activated cpu (s.set.takeAll as) ∧
      s.Went s₁ (Attempt.count as) (Attempt.trace as) ∧
      announce host.traced cpu s₁ = (.ok true, s') := by
  obtain ⟨r, s'', henter, hcases⟩ := enterCpu_outcome host cpu hsound
  cases h.symm.trans henter
  rcases hcases with ⟨⟨e, he⟩, -⟩ | ⟨threads, as, hthreads, hrun, htargets, hcases⟩
  · cases he
  rcases hcases with ⟨⟨e, he⟩, -⟩ | ⟨s₁, hset, hwent, hannounce⟩
  · cases he
  exact ⟨threads, as, s₁, hthreads, hrun, htargets, hset, hwent, hannounce⟩

/-- Every cpu that has gone was left and every one that has come was entered. -/
theorem followCpus_eq_ok (h : followCpus host.traced s = (.ok true, s')) :
    ∃ online s₁ s₂ s₃, (host.onlineCpus s.world.world).1 = .ok online ∧ s₁.set = s.set ∧
      s.Went s₁ 0 [] ∧ leaveCpus host.traced (s.set.gone online) s₁ = (.ok true, s₂) ∧
      enterCpus host.traced (s.set.come online) s₂ = (.ok true, s₃) ∧
      s' = { s₃ with set := { s₃.set with onlineCpus := online } } := by
  rw [followCpus_eq, getSet_bind] at h
  obtain ⟨online, s₁, honline, hturn⟩ := Effect.bind_eq_ok h
  obtain ⟨r, s₁', honline', hset, hwent⟩ :=
    quiet_outcome (x := outside host.traced.onlineCpus) host.quiet_traced.onlineCpus s
  cases honline.symm.trans honline'
  obtain ⟨more, s₂, hleave, hturn⟩ := Effect.bind_eq_ok hturn
  cases more with
  | false => cases hturn
  | true =>
    obtain ⟨more, s₃, henter, hturn⟩ := Effect.bind_eq_ok hturn
    cases more with
    | false => cases hturn
    | true =>
      cases hturn
      exact ⟨online, s₁, s₂, s₃, congrArg Prod.fst honline, hset, hwent, hleave, henter, rfl⟩

end Ok

end Recording

end Profiler
