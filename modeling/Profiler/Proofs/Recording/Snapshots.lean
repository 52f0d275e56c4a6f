/-
# Readings kept from a cpu that could not be left

The readings that a selection keeps are those that were taken from its
descriptors when the cpus were followed, whatever came of it
(`Host.Trail.kept`). A report lists an open descriptor once, but for those whose
counters were read before the counter of another could not be
(`Host.Trail.report_after_failure`).

Key definitions: `Host.Trail`, `Host.Snapshot`, `Host.KeptSnapshots`,
`Host.Readable`.
Key theorems: `Host.KeptSnapshots.step`, `Host.Trail.kept`, `Host.Trail.lists`,
`Host.Trail.report_after_failure`.
-/
import Profiler.Proofs.Recording.KeptReadings

namespace Profiler

/-! ### Runs -/

/-- The sessions that a set that counts has gone through, the last first:
whatever it is asked to do, whatever comes of it, and whatever happens
outside. -/
inductive Host.Trail {ω : Type} (host : Host ω) : List (Session (Traced ω)) → Prop where
  | start (world : ω) (loop : EventLoop RecordingTask) :
    Trail host [{ set := { counting := true }, loop, world := { world } }]
  | call {s : Session (Traced ω)} {past : List (Session (Traced ω))} (h : Trail host (s :: past))
      (c : Recording.Call) : Trail host ((c.run host.traced s).2 :: s :: past)
  | outside {s : Session (Traced ω)} {past : List (Session (Traced ω))}
      (h : Trail host (s :: past)) (world : ω) (loop : EventLoop RecordingTask) :
      Trail host ({ s with loop, world := { s.world with world } } :: s :: past)

/-- A reading that was taken from a descriptor of the selection at a place when
the cpus were followed. -/
def Host.Snapshot {ω : Type} (host : Host ω) (visited : List (Session (Traced ω))) (k : Nat)
    (p : EventFile × CounterValue) : Prop :=
  ∃ u u', [u', u] <:+: visited ∧ u' = (Recording.followCpus host.traced u).2 ∧ u.Holds k p.1 ∧
    u.Saw u' (.counted p.1.descriptor p.2)

/-- Each selection has kept the readings that were taken from its descriptors
when the cpus were followed, and nothing else. -/
def Host.KeptSnapshots {ω : Type} (host : Host ω) (visited : List (Session (Traced ω)))
    (s : SelectionSet) : Prop :=
  ∀ k, ∃ snapshots : List (EventFile × CounterValue),
    s.keptAt k = snapshots.map (fun p => p.1.reading p.2) ∧
    ∀ p, p ∈ snapshots ↔ host.Snapshot visited k p

section Runs

variable {ω : Type} {host : Host ω} {s s' : Session (Traced ω)} {past : List (Session (Traced ω))}
  {k : Nat} {p : EventFile × CounterValue}

theorem Host.not_snapshot_singleton : ¬ host.Snapshot [s] k p := by
  rintro ⟨u, u', hnext, -⟩
  exact absurd hnext.length_le (by simp)

theorem Host.snapshot_cons_iff : host.Snapshot (s' :: s :: past) k p ↔
    (s' = (Recording.followCpus host.traced s).2 ∧ s.Holds k p.1 ∧
      s.Saw s' (.counted p.1.descriptor p.2)) ∨ host.Snapshot (s :: past) k p := by
  constructor
  · rintro ⟨u, u', hnext, hrest⟩
    rcases List.infix_cons_iff.mp hnext with hfirst | hlater
    · obtain ⟨rfl, hsecond⟩ := List.cons_prefix_cons.mp hfirst
      obtain ⟨rfl, -⟩ := List.cons_prefix_cons.mp hsecond
      exact .inl hrest
    · exact .inr ⟨u, u', hlater, hrest⟩
  · rintro (hlast | ⟨u, u', hnext, hrest⟩)
    · exact ⟨s, s', List.infix_append' [] [s', s] past, hlast⟩
    · exact ⟨u, u', hnext.trans (List.suffix_cons s' (s :: past)).isInfix, hrest⟩

theorem Recording.Call.run_followCpus (host : Host ω) (s : Session ω) :
    (followCpus.run host s).2 = (Recording.followCpus host s).2 := by
  cases hfollow : Recording.followCpus host s with
  | mk r s' =>
    cases r with
    | ok more => exact congrArg Prod.snd (Effect.bind_of_ok hfollow)
    | error e => exact congrArg Prod.snd (Effect.bind_of_error hfollow)

theorem Host.Trail.followed (h : host.Trail (s :: past)) :
    host.Trail ((Recording.followCpus host.traced s).2 :: s :: past) :=
  Recording.Call.run_followCpus host.traced s ▸ h.call .followCpus

theorem Host.Trail.calls (h : host.Trail (s :: past)) (calls : List Recording.Call) :
    ∃ past', host.Trail (calls.foldl (fun s c => (c.run host.traced s).2) s :: past') := by
  induction calls generalizing s past with
  | nil => exact ⟨past, h⟩
  | cons c calls ih => exact ih (h.call c)

/-- In a step a selection keeps only what following the cpus has read. -/
theorem Host.KeptSnapshots.step (hsound : s.Sound) (hcounting : s.set.counting = true)
    (hother : s' ≠ (Recording.followCpus host.traced s).2 → s'.set.keptAt = s.set.keptAt)
    (h : host.KeptSnapshots (s :: past) s.set) : host.KeptSnapshots (s' :: s :: past) s'.set := by
  intro k
  obtain ⟨snapshots, hsnapshots, hmem⟩ := h k
  by_cases hturn : s' = (Recording.followCpus host.traced s).2
  · obtain ⟨taken, htaken, hmemTaken⟩ := Recording.followCpus_kept host hsound hcounting k
    refine ⟨snapshots ++ taken, ?_, fun p => ?_⟩
    · rw [hturn, htaken, hsnapshots, List.map_append]
    · rw [List.mem_append, hmem, hmemTaken, Host.snapshot_cons_iff, ← hturn, or_comm]
      exact or_congr_left (and_iff_right rfl).symm
  · refine ⟨snapshots, ?_, fun p => ?_⟩
    · rw [hother hturn, hsnapshots]
    · rw [hmem, Host.snapshot_cons_iff]
      exact (or_iff_right fun hlast => hturn hlast.1).symm

/-- **What a selection has kept** in a run, whatever the calls come to. -/
theorem Host.Trail.kept (h : host.Trail (s :: past)) :
    s.Sound ∧ s.set.counting = true ∧ host.KeptSnapshots (s :: past) s.set := by
  generalize hvisited : s :: past = visited at h
  induction h generalizing s past with
  | start world loop =>
    cases hvisited
    have hvisits : host.Visits _ := .start true world loop
    exact ⟨hvisits.sound, rfl, fun k => ⟨[], rfl, fun p =>
      ⟨fun hp => absurd hp List.not_mem_nil, fun hp => absurd hp Host.not_snapshot_singleton⟩⟩⟩
  | @call s₀ past' h c ih =>
    cases hvisited
    obtain ⟨hsound, hcounting, hkept⟩ := ih rfl
    refine ⟨c.keeps_sound host s₀ hsound, c.keeps_counting host s₀ hcounting,
      hkept.step hsound hcounting fun hother => ?_⟩
    refine c.leaves_keptAt host (fun hfollow => hother ?_) s₀
    rw [hfollow, Recording.Call.run_followCpus]
  | @outside s₀ past' h world loop ih =>
    cases hvisited
    obtain ⟨hsound, hcounting, hkept⟩ := ih rfl
    exact ⟨hsound.passed ⟨rfl, rfl, rfl, [], List.forall_mem_nil _, rfl⟩, hcounting,
      hkept.step hsound hcounting fun _ => rfl⟩

end Runs

/-! ### Reports -/

/-- The counters of some descriptors can be read, now and when some of them have
been read. -/
def Host.Readable {ω : Type} (host : Host ω) (ds : List Descriptor) (world : ω) : Prop :=
  ∃ Q : ω → Prop, Q world ∧ ∀ d ∈ ds, ∀ w, Q w →
    ∃ value w', host.readCounter d w = (.ok value, w') ∧ Q w'

namespace Recording

variable {ω : Type} {host : Host ω} {ds numbers : List Descriptor} {Q : ω → Prop}

section Readable

variable (hread : ∀ d ∈ ds, ∀ w, Q w → ∃ value w', host.readCounter d w = (.ok value, w') ∧ Q w')

include hread

theorem readCounter_of_readable {d : Descriptor} {s : Session (Traced ω)}
    (hd : s.world.number d ∈ ds) (hs : Q s.world.world) :
    ∃ value s', outside (host.traced.readCounter d) s = (.ok value, s') ∧
      s'.world.numbers = s.world.numbers ∧ Q s'.world.world := by
  obtain ⟨value, world, heq, hworld⟩ := hread _ hd _ hs
  have hlisted : Traced.listed (fun w => host.readCounter (w.number d)) (.counted d) s.world =
      (.ok value, { s.world with world }.happen (.counted d value)) := by
    simp only [Traced.listed, heq]
  exact ⟨value, _, outside_eq hlisted, rfl, hworld⟩

theorem readFiles_of_readable : ∀ {files : List EventFile} {s : Session (Traced ω)},
    s.world.numbers = numbers → (∀ f ∈ files, numbers.getD f.descriptor f.descriptor ∈ ds) →
    Q s.world.world → ∃ infos s', readFiles host.traced files s = (.ok infos, s') ∧
      s'.world.numbers = numbers ∧ Q s'.world.world
  | [], s, hnumbers, _, hs => ⟨[], s, rfl, hnumbers, hs⟩
  | file :: rest, s, hnumbers, hfiles, hs => by
    obtain ⟨hfile, hrest⟩ := List.forall_mem_cons.mp hfiles
    rw [← hnumbers] at hfile
    obtain ⟨value, s₁, hvalue, hnumbers₁, hs₁⟩ := readCounter_of_readable hread hfile hs
    obtain ⟨infos, s₂, hinfos, hs₂⟩ :=
      readFiles_of_readable (hnumbers₁.trans hnumbers) hrest hs₁
    refine ⟨{ tid := file.tid, cpu := file.cpu, counter := value } :: infos, s₂, ?_, hs₂⟩
    rw [readFiles, Effect.bind_of_ok hvalue, Effect.bind_of_ok hinfos]
    rfl

theorem readSelections_of_readable : ∀ {xs : List (Nat × Selection)} {s : Session (Traced ω)},
    s.world.numbers = numbers →
    (∀ x ∈ xs, ∀ f ∈ x.2.files, numbers.getD f.descriptor f.descriptor ∈ ds) →
    Q s.world.world → ∃ reports s', readSelections host.traced xs s = (.ok reports, s')
  | [], s, _, _, _ => ⟨[], s, rfl⟩
  | (group, x) :: rest, s, hnumbers, hxs, hs => by
    obtain ⟨hx, hrest⟩ := List.forall_mem_cons.mp hxs
    obtain ⟨infos, s₁, hinfos, hnumbers₁, hs₁⟩ := readFiles_of_readable hread hnumbers hx hs
    obtain ⟨reports, s₂, hreports⟩ := readSelections_of_readable hnumbers₁ hrest hs₁
    rw [readSelections, Effect.bind_of_ok hinfos, Effect.bind_of_ok hreports]
    exact ⟨_, s₂, rfl⟩

end Readable

/-- **Counters that can be read are reported.** -/
theorem readCounters_of_readable {s : Session (Traced ω)}
    (h : host.Readable (s.set.files.map fun f => s.world.number f.descriptor) s.world.world) :
    ∃ reports s', readCounters host.traced s = (.ok reports, s') := by
  obtain ⟨Q, hs, hread⟩ := h
  rw [readCounters, getSet_bind]
  refine readSelections_of_readable hread rfl (fun x hx f hf => ?_) hs
  obtain ⟨g, hg, hx⟩ := List.mem_flatMap.mp hx
  obtain ⟨y, hy, rfl⟩ := List.mem_map.mp hx
  have hfile : f ∈ s.set.files := List.mem_flatMap.mpr
    ⟨y, List.mem_flatten.mpr ⟨g.1, List.fst_mem_of_mem_zipIdx hg, hy⟩, hf⟩
  exact List.mem_map_of_mem (f := fun f => s.world.number f.descriptor) hfile

end Recording

/-- **What a report lists,** whenever it is asked for: of each selection the
readings that were taken when the cpus were followed, and then the current
reading of each of its descriptors, once. -/
theorem Host.Trail.lists {ω : Type} {host : Host ω} {s t : Session (Traced ω)}
    {past : List (Session (Traced ω))} {reports : List CounterReport} (h : host.Trail (s :: past))
    (world : ω) (loop : EventLoop RecordingTask)
    (hread : Recording.readCounters host.traced { s with loop, world := { s.world with world } } =
      (.ok reports, t)) :
    s.set.Distinct ∧ reports.length = s.set.selections.length ∧
    ∀ (k : Nat) (report : CounterReport), reports[k]? = some report →
      ∃ (x : Selection) (snapshots current : List (EventFile × CounterValue)),
      s.set.selections[k]? = some x ∧
      report.counters = (snapshots ++ current).map (fun p => p.1.reading p.2) ∧
      current.map Prod.fst = x.files ∧
      (∀ p ∈ current, s.Saw t (.counted p.1.descriptor p.2)) ∧
      ∀ p, p ∈ snapshots ↔ host.Snapshot (s :: past) k p := by
  obtain ⟨hsound, -, hkept⟩ := h.kept
  obtain ⟨τ, htrace, hreports⟩ := Recording.readCounters_eq_ok hread
  refine ⟨hsound.distinct, hreports.length_eq.symm, fun k report hk => ?_⟩
  obtain ⟨x, hx, group, values, hlength, rfl, hcounted⟩ := forall₂_getElem? hreports hk
  have hx' : s.set.selections[k]? = some x := hx
  obtain ⟨snapshots, hsnapshots, hmem⟩ := hkept k
  refine ⟨x, snapshots, x.files.zip values, hx', ?_, List.map_fst_zip (Nat.le_of_eq hlength.symm),
    fun p hp => ⟨τ, htrace, hcounted p hp⟩, hmem⟩
  rw [List.map_append, ← hsnapshots, SelectionSet.keptAt_of_getElem? hx']

/-- **A report after cpus could not be left.** If a counter on a cpu that has
gone cannot be read, following the cpus fails, and the descriptors on that cpu
stay. If counters can be read again, the next report lists each open descriptor
with its current reading, once, and before them the readings that were taken
when the cpus were followed, this time or before. So an open descriptor is
listed there, too, if its counter was read this time before the one that could
not be, or at an earlier time; and otherwise it is not. -/
theorem Host.Trail.report_after_failure {ω : Type} {host : Host ω}
    {s s₁ s' : Session (Traced ω)} {past : List (Session (Traced ω))} {online : List Nat}
    {e : Error} (h : host.Trail (s :: past))
    (honline : Recording.outside host.traced.onlineCpus s = (.ok online, s₁))
    (hfail : Recording.leaveCpus host.traced (s.set.gone online) s₁ = (.error e, s'))
    (world : ω) (loop : EventLoop RecordingTask)
    (hreadable : host.Readable (s'.set.files.map fun f => s'.world.number f.descriptor) world) :
    let later : Session (Traced ω) := { s' with loop, world := { s'.world with world } }
    Recording.followCpus host.traced s = (.error e, s') ∧
    ∃ cpu done file reports t, cpu ∈ s.set.gone online ∧
      Recording.StoppedAt host cpu done file e s' ∧ s'.set.filesOn cpu = s.set.filesOn cpu ∧
      Recording.readCounters host.traced later = (.ok reports, t) ∧
      s'.set.Distinct ∧ reports.length = s'.set.selections.length ∧
      ∀ (k : Nat) (report : CounterReport), reports[k]? = some report →
        ∃ (x : Selection) (snapshots current : List (EventFile × CounterValue)),
        s'.set.selections[k]? = some x ∧
        report.counters = (snapshots ++ current).map (fun p => p.1.reading p.2) ∧
        current.map Prod.fst = x.files ∧
        (∀ p ∈ current, later.Saw t (.counted p.1.descriptor p.2)) ∧
        (∀ p, p ∈ snapshots ↔ host.Snapshot (s' :: s :: past) k p) ∧
        ∀ f ∈ x.files, (∃ p ∈ snapshots, p.1.descriptor = f.descriptor) ↔
          f ∈ done ∨ ∃ p, host.Snapshot (s :: past) k p ∧ p.1.descriptor = f.descriptor := by
  intro later
  have hfollow : Recording.followCpus host.traced s = (.error e, s') := by
    rw [Recording.followCpus_eq, Recording.getSet_bind, Effect.bind_of_ok honline,
      Recording.turn, Effect.bind_of_error hfail]
  obtain ⟨hsound, hcounting, -⟩ := h.kept
  obtain ⟨r, s₁', honline', hset₁, hwent₁⟩ := Recording.quiet_outcome
    (x := Recording.outside host.traced.onlineCpus) host.quiet_traced.onlineCpus s
  cases honline.symm.trans honline'
  have hquiet : s.Took s₁ [] := .nothing hset₁ hwent₁ (List.forall_mem_nil _)
  have hsound₁ : s₁.Sound := hsound.passed (.of_went hset₁ hwent₁ (List.forall_mem_nil _))
  obtain ⟨readings, done, htook, hdone, ⟨hr, -⟩ | ⟨e', cpu, file, he, hcpu, hstopped⟩⟩ :=
    Recording.leaveCpus_outcome hsound₁ (hset₁ ▸ hcounting) hfail
  · cases hr
  cases he
  have hall : s.Took s' ([] ++ readings) := hquiet.trans htook hsound.distinct
  rw [List.nil_append] at hall
  have htrail : host.Trail (s' :: s :: past) := by
    have hfollowed := h.followed
    rwa [hfollow] at hfollowed
  obtain ⟨reports, t, hread⟩ := Recording.readCounters_of_readable (s := later) hreadable
  obtain ⟨hdistinct, hlength, hreports⟩ := htrail.lists world loop hread
  refine ⟨hfollow, cpu, done, file, reports, t, hcpu, hstopped, ?_, hread, hdistinct, hlength,
    fun k report hk => ?_⟩
  · obtain ⟨rest, hrest⟩ := hstopped.files
    exact hall.filesOn_eq (by simp [hrest])
  obtain ⟨x, snapshots, current, hx, hcounters, hcurrent, hsaw, hmem⟩ := hreports k report hk
  refine ⟨x, snapshots, current, hx, hcounters, hcurrent, hsaw, hmem, fun f hf => ?_⟩
  have hheld : s'.Holds k f := ⟨x, hx, hf⟩
  have hfile : f ∈ s'.set.files := List.mem_flatMap.mpr ⟨x, List.mem_of_getElem? hx, hf⟩
  have hlast : s' = (Recording.followCpus host.traced s).2 := by rw [hfollow]
  rw [← hdone f hfile, ← hall.read_iff hsound.distinct hheld]
  simp only [hmem, Host.snapshot_cons_iff, and_iff_right hlast, or_and_right, exists_or]

/-! ### A counter that cannot be read -/

namespace MemoryKernel

theorem readable_of_failing {k : MemoryKernel} (h : k.rules.failing .counter = [])
    (ds : List Descriptor) : host.Readable ds k := by
  refine ⟨fun k => k.rules.failing .counter = [], h, fun d _ k hk => ?_⟩
  have hcheck : check .counter d k = (.ok (), k) := by
    rw [check, Effect.get_bind, hk]
    rfl
  have hattempt : attempt .counter .counted d k = (.ok (), k.log (.counted d)) := by
    rw [attempt, Effect.bind_of_ok hcheck]
    rfl
  have hread : ∃ value, readCounter d k = (.ok value, k.log (.counted d)) := by
    rw [readCounter, Effect.bind_of_ok hattempt]
    exact ⟨_, rfl⟩
  obtain ⟨value, hvalue⟩ := hread
  exact ⟨value, k.log (.counted d), hvalue, hk⟩

/-- Two threads are counted on two cpus, of which the second one has gone; the
last counter there cannot be read. -/
def halfLeft : Session (Traced MemoryKernel) :=
  ruled { online := [0], failing := fun _ => [4] } <|
    [.addGroup ["cpu-clock"], .addThread 7, .addThread 8, .openEvents [], .watchCpus [] 1000].foldl
      (fun s (c : Recording.Call) => (c.run host.traced s).2)
      { set := { counting := true }, world := { world := {} } }

theorem trail_ruled {s : Session (Traced MemoryKernel)}
    {past : List (Session (Traced MemoryKernel))} (h : host.Trail (s :: past)) (rules : Rules) :
    host.Trail (ruled rules s :: s :: past) := h.outside _ _

theorem trail_halfLeft : ∃ past, host.Trail (halfLeft :: past) := by
  have hstart : host.Trail _ := .start {} {}
  obtain ⟨past, h⟩ := hstart.calls [.addGroup ["cpu-clock"], .addThread 7, .addThread 8,
    .openEvents [], .watchCpus [] 1000]
  exact ⟨_, trail_ruled h _⟩

end MemoryKernel

/-- Of the two counters on the second cpu one could be read before the other
could not. -/
theorem Host.Trail.report_after_failure_halfLeft :
    let host := MemoryKernel.host
    let s := MemoryKernel.halfLeft
    let s' := (Recording.followCpus host.traced s).2
    let later := MemoryKernel.ruled { online := [0] } s'
    let e : Error := .failedDescriptor "counter of 4 failed"
    ∃ past cpu done file reports t, host.Trail (s :: past) ∧
      Recording.followCpus host.traced s = (.error e, s') ∧
      Recording.StoppedAt host cpu done file e s' ∧
      Recording.readCounters host.traced later = (.ok reports, t) ∧ reports.length = 1 ∧
      ∀ report, reports[0]? = some report →
        ∃ (x : Selection) (snapshots current : List (EventFile × CounterValue)),
        report.counters = (snapshots ++ current).map (fun p => p.1.reading p.2) ∧
        current.map Prod.fst = x.files ∧ x.files.map EventFile.descriptor = [0, 1, 2, 3] ∧
        ∀ f ∈ x.files, (∃ p ∈ snapshots, p.1.descriptor = f.descriptor) ↔
          f ∈ done ∨ ∃ p, host.Snapshot (s :: past) 0 p ∧ p.1.descriptor = f.descriptor := by
  intro host s s' later e
  obtain ⟨past, htrail⟩ : ∃ past, host.Trail (s :: past) := MemoryKernel.trail_halfLeft
  let s₁ := (Recording.outside host.traced.onlineCpus s).2
  let left := (Recording.leaveCpus host.traced (s.set.gone [0]) s₁).2
  have honline : (Recording.outside host.traced.onlineCpus s).1 = .ok [0] := by decide +kernel
  have hfail : (Recording.leaveCpus host.traced (s.set.gone [0]) s₁).1 = .error e := by
    decide +kernel
  have hfiles : left.set.selections.map (fun x => x.files.map EventFile.descriptor) =
      [[0, 1, 2, 3]] := by decide +kernel
  clear_value s
  have honlineCpus : Recording.outside host.traced.onlineCpus s = (.ok [0], s₁) :=
    Prod.ext honline rfl
  have hleaveCpus : Recording.leaveCpus host.traced (s.set.gone [0]) s₁ = (.error e, left) :=
    Prod.ext hfail rfl
  clear_value left
  let world : MemoryKernel := { left.world.world with rules := { online := [0] } }
  have hreadable := MemoryKernel.readable_of_failing (k := world) rfl
    (left.set.files.map fun f => left.world.number f.descriptor)
  obtain ⟨hfollow, cpu, done, file, reports, t, -, hstopped, -, hread, -, hlength, hreports⟩ :=
    htrail.report_after_failure honlineCpus hleaveCpus world left.loop hreadable
  have hleft : s' = left := congrArg Prod.snd hfollow
  rw [List.map_eq_singleton_iff] at hfiles
  obtain ⟨x, hx, hdescriptors⟩ := hfiles
  refine ⟨past, cpu, done, file, reports, t, htrail, ?_, ?_, ?_, ?_, fun report hreport => ?_⟩
  · rw [hleft, hfollow]
  · rw [hleft]
    exact hstopped
  · show Recording.readCounters host.traced (MemoryKernel.ruled _ s') = _
    rw [hleft]
    exact hread
  · rw [hlength, hx]
    rfl
  · obtain ⟨y, snapshots, current, hy, hcounters, hcurrent, -, -, hlisted⟩ :=
      hreports 0 report hreport
    rw [hx] at hy
    cases hy
    exact ⟨x, snapshots, current, hcounters, hcurrent, hdescriptors, hlisted⟩

/-- The last counter on the cpu that has gone cannot be read, so the cpu cannot
be left: descriptor 2 stays open, and is in the next report twice. -/
theorem Host.Trail.open_counter_twice :
    let host := MemoryKernel.host
    let s := MemoryKernel.halfLeft
    let s' := (Recording.followCpus host.traced s).2
    let later := MemoryKernel.ruled { online := [0] } s'
    (∃ past, host.Trail (s :: past)) ∧
      (∃ online s₁, Recording.outside host.traced.onlineCpus s = (.ok online, s₁) ∧
        (Recording.leaveCpus host.traced (s.set.gone online) s₁).1 =
          .error (.failedDescriptor "counter of 4 failed")) ∧
      (Recording.followCpus host.traced s).1 =
        .error (.failedDescriptor "counter of 4 failed") ∧
      host.Readable (later.set.files.map fun f => later.world.number f.descriptor)
        later.world.world ∧
      later.set.files.map EventFile.id = [1, 2, 3, 4] ∧
      (later.set.keptAt 0).map (fun c => c.counter.id) = [2] ∧
      (Recording.readCounters host.traced later).1.map (fun reports =>
        reports.map fun r => r.counters.map fun c => c.counter.id) = .ok [[2, 1, 2, 3, 4]] := by
  intro host s s' later
  have honline : (Recording.outside host.traced.onlineCpus s).1 = .ok [0] := by decide +kernel
  have hleave : (Recording.leaveCpus host.traced (s.set.gone [0])
      (Recording.outside host.traced.onlineCpus s).2).1 =
        .error (.failedDescriptor "counter of 4 failed") := by decide +kernel
  refine ⟨MemoryKernel.trail_halfLeft, ⟨[0], _, Prod.ext honline rfl, hleave⟩, ?_,
    MemoryKernel.readable_of_failing rfl _, ?_, ?_, ?_⟩ <;> decide +kernel

end Profiler
