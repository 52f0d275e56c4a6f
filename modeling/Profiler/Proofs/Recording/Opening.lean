/-
# What opening groups leads to

Opening the events of a set, and opening them again on a cpu that has come, is
a run of attempts (`Session.Tried`). Each step that opens descriptors is
described by the attempts it made, whatever comes of it.

Key definitions: `Session.Tried`.
Key theorems: `Recording.openMembers_outcome`, `Recording.openGroup_outcome`,
`Recording.openPairs_outcome`, `Recording.reopenPairs_outcome`,
`Recording.openEvents_outcome`.
-/
import Mathlib.Data.List.Nodup
import Profiler.Proofs.OrderedMap
import Profiler.Proofs.Recording.Attempts
import Profiler.Proofs.Recording.Calls

namespace Profiler

/-! ### From one session to the next -/

/-- The session has gone on by attempts. -/
structure Session.Tried {ω : Type} (change : Attr → Attr) (s s' : Session (Traced ω))
    (as : List Attempt) : Prop where
  run : Attempt.Run change s.set s.world.count as
  set : s'.set = s.set.takeAll as
  went : s.Went s' (Attempt.count as) (Attempt.trace as)

namespace Session

variable {ω : Type} {change : Attr → Attr} {s s' s'' : Session (Traced ω)} {as bs : List Attempt}

theorem Tried.refl (s : Session (Traced ω)) : s.Tried change s [] :=
  ⟨trivial, rfl, Session.Went.refl s⟩

theorem Tried.trans (h : s.Tried change s' as) (h' : s'.Tried change s'' bs) :
    s.Tried change s'' (as ++ bs) where
  run := by
    refine Attempt.run_append.mpr ⟨h.run, ?_⟩
    have hattrs : s.set.attrsOf = s'.set.attrsOf := by
      rw [h.set, SelectionSet.attrsOf_takeAll h.run]
    rw [← h.went.count]
    exact h'.run.of_attrsOf hattrs
  set := by rw [h'.set, h.set, SelectionSet.takeAll_append]
  went := by
    rw [Attempt.count_append, Attempt.trace_append]
    exact h.went.trans h'.went

end Session

namespace Recording

variable {ω : Type} (host : Host ω)

theorem closeAll_outcome : ∀ (files : List EventFile) (s : Session (Traced ω)),
    ∃ s', closeAll host.traced files s = (.ok (), s') ∧ s'.set = s.set ∧
      s.Went s' 0 (Trace.closes files)
  | [], s => ⟨s, rfl, rfl, Session.Went.refl s⟩
  | file :: rest, s => by
    obtain ⟨s₁, hclose, hset₁, hwent₁⟩ := close_outcome host file.descriptor s
    obtain ⟨s₂, hrest, hset₂, hwent₂⟩ := closeAll_outcome rest s₁
    refine ⟨s₂, ?_, hset₂.trans hset₁, ?_⟩
    · rw [closeAll, Effect.bind_of_ok hclose, hrest]
    · rw [Trace.closes_cons]
      exact hwent₁.trans hwent₂

def newFile (tid : Pid) (cpu : Nat) (leader? : Option Descriptor) (p : Descriptor × UInt64) :
    EventFile := { descriptor := p.1, id := p.2, tid, cpu, leader? }

theorem openMembers_cons (host : Host ω) (tid : Pid) (cpu : Nat) (opened : List EventFile)
    (attr : Attr) (rest : List Attr) : openMembers host tid cpu opened (attr :: rest) = (do
      let leader? := opened.head?.map EventFile.descriptor
      let p ← Effect.onFailure (outside (host.openEvent attr tid cpu leader?))
        (closeAll host opened)
      openMembers host tid cpu (opened ++ [newFile tid cpu leader? p]) rest) := rfl

theorem head?_append_newFile (opened : List EventFile) (tid : Pid) (cpu : Nat)
    (p : Descriptor × UInt64) :
    ((opened ++ [newFile tid cpu (opened.head?.map EventFile.descriptor) p]).head?).map
      EventFile.descriptor = (opened.head?.map EventFile.descriptor).or (some p.1) := by
  cases opened <;> rfl

/-- **Members are opened one after the other, or one is refused** and those
before it are closed. -/
theorem openMembers_outcome (tid : Pid) (cpu : Nat) : ∀ (opened : List EventFile)
    (attrs : List Attr) (s : Session (Traced ω)), ∃ ids s',
      let leader? := opened.head?.map EventFile.descriptor
      let files := EventFile.members tid cpu s.world.count leader? ids
      s'.set = s.set ∧
      ((ids.length = attrs.length ∧
          openMembers host.traced tid cpu opened attrs s = (.ok (opened ++ files), s') ∧
          s.Went s' ids.length (Trace.opens files attrs)) ∨
        ∃ e, ids.length < attrs.length ∧
          openMembers host.traced tid cpu opened attrs s = (.error e, s') ∧
          s.Went s' ids.length (Trace.closes (opened ++ files) ++
            .refused (attrs.getD ids.length {}) tid cpu
              ((opened ++ files).head?.map EventFile.descriptor) :: Trace.opens files attrs))
  | opened, [], s => by
    refine ⟨[], s, rfl, .inl ⟨rfl, ?_, Session.Went.refl s⟩⟩
    rw [openMembers, EventFile.members, List.append_nil]
    rfl
  | opened, attr :: rest, s => by
    rcases openEvent_outcome host attr tid cpu (opened.head?.map EventFile.descriptor) s with
      ⟨id, s₁, hopen, hset₁, hwent₁⟩ | ⟨e, s₁, hopen, hset₁, hwent₁⟩
    · obtain ⟨ids, s₂, hset₂, hrest⟩ := openMembers_outcome tid cpu (opened ++
        [newFile tid cpu (opened.head?.map EventFile.descriptor) (s.world.count, id)]) rest s₁
      rw [head?_append_newFile, hwent₁.count, List.append_assoc] at hrest
      have hstep : Effect.onFailure (outside (host.traced.openEvent attr tid cpu
          (opened.head?.map EventFile.descriptor))) (closeAll host.traced opened) s = _ :=
        Effect.onFailure_of_ok hopen
      refine ⟨id :: ids, s₂, hset₂.trans hset₁, ?_⟩
      rw [openMembers_cons, Effect.bind_of_ok hstep, List.length_cons, List.length_cons,
        Nat.add_comm]
      rcases hrest with ⟨hlength, hok, hwent₂⟩ | ⟨e, hlength, herror, hwent₂⟩
      · refine .inl ⟨by rw [hlength, Nat.add_comm], hok, ?_⟩
        rw [EventFile.members, Trace.opens_cons]
        exact hwent₁.trans hwent₂
      · refine .inr ⟨e, by rw [Nat.add_comm]; exact Nat.succ_lt_succ hlength, herror, ?_⟩
        have hattr : (attr :: rest).getD (1 + ids.length) {} = rest.getD ids.length {} := by
          rw [Nat.add_comm, List.getD_cons_succ]
        rw [hattr, EventFile.members, Trace.opens_cons]
        simpa [newFile] using hwent₁.trans hwent₂
    · obtain ⟨s₂, hclose, hset₂, hwent₂⟩ := closeAll_outcome host opened s₁
      refine ⟨[], s₂, hset₂.trans hset₁, .inr ⟨e, Nat.succ_pos _, ?_, ?_⟩⟩
      · exact Effect.bind_of_error (Effect.onFailure_of_error hopen hclose)
      · rw [EventFile.members, List.append_nil]
        exact hwent₁.trans hwent₂

/-- **A group is opened as a whole or not at all.** -/
theorem openGroup_outcome (change : Attr → Attr) (group : Nat) (tid : Pid) (cpu : Nat)
    (s : Session (Traced ω)) : ∃ a s', a.target = (group, tid, cpu) ∧ s.Tried change s' [a] ∧
      ((a.taken = true ∧ openGroup host.traced change group tid cpu s = (.ok (), s')) ∨
        a.taken = false ∧ a.notes = [] ∧
          ∃ e, openGroup host.traced change group tid cpu s = (.error e, s')) := by
  let attrs := (s.set.groups.getD group []).map fun x => change x.attr
  have hattrs : attrs = (s.set.attrsOf group).map change := by
    rw [SelectionSet.attrsOf, List.map_map]
    rfl
  obtain ⟨ids, s', hset, hopen⟩ := openMembers_outcome host tid cpu [] attrs s
  let a : Attempt := { group, tid, cpu, attrs, first := s.world.count, ids }
  rcases hopen with ⟨hlength, hok, hwent⟩ | ⟨e, hlength, herror, hwent⟩
  · have htaken : a.taken = true := beq_iff_eq.mpr hlength
    refine ⟨a, { s' with set := s'.set.addFiles group a.files }, rfl, ⟨?_, ?_, ?_⟩,
      .inl ⟨htaken, ?_⟩⟩
    · exact ⟨⟨hattrs, rfl, Nat.le_of_eq hlength⟩, trivial⟩
    · show s'.set.addFiles group a.files = s.set.take a
      rw [SelectionSet.take, if_pos htaken, hset]
    · have hhappenings : a.happenings = Trace.opens a.files attrs := if_pos htaken
      rw [Attempt.trace, hhappenings]
      exact ⟨hwent.loop, hwent.count, hwent.trace⟩
    · rw [openGroup, getSet_bind, Effect.bind_of_ok hok]
      rfl
  · have htaken : ¬ a.taken = true := fun h => Nat.ne_of_lt hlength (beq_iff_eq.mp h)
    refine ⟨a, s', rfl, ⟨?_, ?_, ?_⟩, .inr ⟨Bool.eq_false_iff.mpr htaken, rfl, e, ?_⟩⟩
    · exact ⟨⟨hattrs, rfl, Nat.le_of_lt hlength⟩, trivial⟩
    · show s'.set = s.set.take a
      rw [SelectionSet.take, if_neg htaken, hset]
    · have hhappenings : a.happenings = _ := if_neg htaken
      rw [Attempt.trace, hhappenings]
      exact hwent
    · rw [openGroup, getSet_bind, Effect.bind_of_error herror]

/-- A group is tried on one cpu after the other. -/
theorem openOnCpus_outcome (group : Nat) (tid : Pid) : ∀ (taken : Bool) (refusal? : Option Error)
    (cpus : List Nat) (s : Session (Traced ω)), ∃ as refusal?' s', s.Tried id s' as ∧
      openOnCpus host.traced group tid taken refusal? cpus s =
        (.ok (taken || as.any Attempt.taken, refusal?'), s') ∧
      as.map Attempt.target = cpus.map fun cpu => (group, tid, cpu)
  | taken, refusal?, [], s =>
    ⟨[], refusal?, s, Session.Tried.refl s, by rw [List.any_nil, Bool.or_false]; rfl, rfl⟩
  | taken, refusal?, cpu :: rest, s => by
    obtain ⟨a, s₁, htarget, htried, hopen⟩ := openGroup_outcome host id group tid cpu s
    rw [openOnCpus]
    rcases hopen with ⟨htaken, hok⟩ | ⟨htaken, -, e, herror⟩
    · obtain ⟨as, refusal?', s₂, htried', hrest, htargets⟩ :=
        openOnCpus_outcome group tid true refusal? rest s₁
      refine ⟨a :: as, refusal?', s₂, htried.trans htried', ?_, ?_⟩
      · rw [Effect.bind_of_ok (Effect.observe_eq hok), List.any_cons, htaken, Bool.true_or,
          Bool.or_true]
        exact hrest
      · rw [List.map_cons, List.map_cons, htarget, htargets]
    · obtain ⟨as, refusal?', s₂, htried', hrest, htargets⟩ :=
        openOnCpus_outcome group tid taken (some e) rest s₁
      refine ⟨a :: as, refusal?', s₂, htried.trans htried', ?_, ?_⟩
      · rw [Effect.bind_of_ok (Effect.observe_eq herror), List.any_cons, htaken, Bool.false_or]
        exact hrest
      · rw [List.map_cons, List.map_cons, htarget, htargets]

/-- **Every group is tried for every thread on every cpu,** and taken on one of
them, or opening fails. -/
theorem openPairs_outcome (cpus : List Nat) : ∀ (pairs : List (Nat × Pid))
    (s : Session (Traced ω)), ∃ as s', s.Tried id s' as ∧
      ((openPairs host.traced cpus pairs s = (.ok (), s') ∧
          (as.map Attempt.target = pairs.flatMap fun p => cpus.map fun cpu => (p.1, p.2, cpu)) ∧
          ∀ p ∈ pairs, ∃ a ∈ as, a.taken = true ∧ a.group = p.1 ∧ a.tid = p.2) ∨
        ∃ e, openPairs host.traced cpus pairs s = (.error e, s'))
  | [], s => ⟨[], s, Session.Tried.refl s, .inl ⟨rfl, rfl, List.forall_mem_nil _⟩⟩
  | (group, tid) :: rest, s => by
    obtain ⟨as, refusal?, s₁, htried, hopen, htargets⟩ :=
      openOnCpus_outcome host group tid false none cpus s
    rw [openPairs, Effect.bind_of_ok hopen, Bool.false_or]
    dsimp only
    cases hany : as.any Attempt.taken with
    | false =>
      refine ⟨as, s₁, htried, .inr ?_⟩
      cases refusal? with
      | none => exact ⟨_, rfl⟩
      | some e => exact ⟨_, rfl⟩
    | true =>
      obtain ⟨bs, s₂, htried', hrest⟩ := openPairs_outcome cpus rest s₁
      refine ⟨as ++ bs, s₂, htried.trans htried', ?_⟩
      rcases hrest with ⟨hok, htargets', hall⟩ | ⟨e, herror⟩
      · refine .inl ⟨hok, ?_, ?_⟩
        · rw [List.map_append, List.flatMap_cons, htargets, htargets']
        · refine List.forall_mem_cons.mpr ⟨?_, fun p hp => ?_⟩
          · obtain ⟨a, ha, htaken⟩ := List.any_eq_true.mp hany
            have htarget : a.target ∈ as.map Attempt.target := List.mem_map_of_mem ha
            rw [htargets] at htarget
            obtain ⟨cpu, -, heq⟩ := List.mem_map.mp htarget
            have hparts := Prod.mk.inj heq
            exact ⟨a, List.mem_append_left _ ha, htaken, hparts.1.symm,
              (Prod.mk.inj hparts.2).1.symm⟩
          · obtain ⟨a, ha, htaken⟩ := hall p hp
            exact ⟨a, List.mem_append_right _ ha, htaken⟩
      · exact .inr ⟨e, herror⟩

/-- **Every group is tried again on a cpu,** and what is refused is noted. -/
theorem reopenPairs_outcome (cpu : Nat) : ∀ (pairs : List (Nat × Pid)) (s : Session (Traced ω)),
    ∃ as s', reopenPairs host.traced cpu pairs s = (.ok (), s') ∧ s.Tried reopenedAttr s' as ∧
      as.map Attempt.target = pairs.map fun p => (p.1, p.2, cpu)
  | [], s => ⟨[], s, rfl, Session.Tried.refl s, rfl⟩
  | (group, tid) :: rest, s => by
    obtain ⟨a, s₁, htarget, htried, hopen⟩ :=
      openGroup_outcome host reopenedAttr group tid cpu s
    rw [reopenPairs]
    rcases hopen with ⟨htaken, hok⟩ | ⟨htaken, hnotes, e, herror⟩
    · obtain ⟨as, s₂, hrest, htried', htargets⟩ := reopenPairs_outcome cpu rest s₁
      refine ⟨a :: as, s₂, ?_, htried.trans htried', ?_⟩
      · rw [Effect.bind_of_ok (Effect.observe_eq hok)]
        exact hrest
      · rw [List.map_cons, List.map_cons, htarget, htargets]
    · let n : Notice := .reopenRefused
        (SelectionSet.groupName (s₁.set.groups.getD group [])) tid cpu e
      obtain ⟨s₂, hnote, hset, hwent⟩ := note_outcome host n s₁
      obtain ⟨as, s₃, hrest, htried', htargets⟩ := reopenPairs_outcome cpu rest s₂
      let b : Attempt := { a with notes := [n] }
      have hnoted : s.Tried reopenedAttr s₂ [b] := by
        refine ⟨⟨⟨htried.run.1.attrs, htried.run.1.first, htried.run.1.length_le⟩, trivial⟩, ?_, ?_⟩
        · rw [hset, htried.set]
          rfl
        · have ha : a.happenings = _ := if_neg (Bool.eq_false_iff.mp htaken)
          have hb : b.happenings = _ := if_neg (Bool.eq_false_iff.mp htaken)
          have hboth := htried.went.trans hwent
          rw [Attempt.trace, ha, hnotes] at hboth
          rw [Attempt.trace, hb]
          exact hboth
      refine ⟨b :: as, s₃, ?_, hnoted.trans htried', ?_⟩
      · rw [Effect.bind_of_ok (Effect.observe_eq herror)]
        dsimp only
        rw [getSet_bind, Effect.bind_of_ok hnote]
        exact hrest
      · rw [List.map_cons, List.map_cons, htargets]
        exact congrArg (· :: _) htarget

theorem routeIds_outcome (s : Session ω) : ∃ r decodeAttrs attrOfId idPositions,
    routeIds s = (r, { s with set := { s.set with decodeAttrs, attrOfId, idPositions } }) := by
  rw [routeIds_eq]
  split
  · cases hpositions : commonIdPositions s.set.attrs with
    | ok p => exact ⟨_, _, _, some p, rfl⟩
    | error e => exact ⟨_, _, _, s.set.idPositions, rfl⟩
  · exact ⟨_, _, _, none, rfl⟩

theorem gives_addThreadsOf (host : Host ω) : ∀ {threads : OrderedMap Pid Unit},
    threads.Ascending → ∀ pids, (addThreadsOf host threads pids).Gives fun m _ => m.Ascending
  | _, h, [] => Effect.gives_pure fun _ => h
  | threads, h, pid :: rest => by
    rw [addThreadsOf]
    refine Effect.gives_bind fun tids => gives_addThreadsOf host ?_ rest
    have hinsert := h.foldl_insert (tids.map fun tid => (Int32.ofNat tid, ()))
    rwa [List.foldl_map] at hinsert

theorem nodup_targetThreads {host : Host ω} {s s' : Session ω} {threads : List Pid}
    (h : s.set.threads.Ascending) (hok : targetThreads host s = (.ok threads, s')) :
    threads.Nodup := by
  obtain ⟨set, s₁, hset, hok⟩ := Effect.bind_eq_ok hok
  cases hset
  obtain ⟨m, s₂, hadd, hpure⟩ := Effect.bind_eq_ok hok
  cases hpure
  have hgives := gives_addThreadsOf host h s.set.processes.keys s
  rw [hadd] at hgives
  exact (hgives m rfl).imp fun hlt => Int32.ne_of_lt hlt

theorem nodup_pairs {groups : Nat} {threads : List Pid} (h : threads.Nodup) :
    (pairs groups threads).Nodup := by
  refine List.nodup_flatMap.mpr ⟨fun g _ => h.map fun _ _ heq => (Prod.mk.inj heq).2, ?_⟩
  refine List.nodup_range.imp fun {g g'} hne p hp hp' => hne ?_
  obtain ⟨_, -, rfl⟩ := List.mem_map.mp hp
  obtain ⟨_, -, heq⟩ := List.mem_map.mp hp'
  exact (Prod.mk.inj heq).1.symm

theorem nodup_targets {pairs : List (Nat × Pid)} {cpus : List Nat} (hpairs : pairs.Nodup)
    (hcpus : cpus.Nodup) :
    (pairs.flatMap fun p => cpus.map fun cpu => (p.1, p.2, cpu)).Nodup := by
  refine List.nodup_flatMap.mpr ⟨fun p _ => hcpus.map fun _ _ heq => ?_, ?_⟩
  · exact (Prod.mk.inj (Prod.mk.inj heq).2).2
  · refine hpairs.imp fun {p q} hne t hp hq => hne ?_
    obtain ⟨_, -, rfl⟩ := List.mem_map.mp hp
    obtain ⟨_, -, heq⟩ := List.mem_map.mp hq
    have hparts := Prod.mk.inj heq
    exact Prod.ext hparts.1.symm (Prod.mk.inj hparts.2).1.symm

/-- **Opening the events of a set:** every group was tried for every thread on
every cpu, or opening failed. -/
theorem openEvents_outcome {requested : List Nat} {s s' : Session (Traced ω)}
    (hok : openEvents host.traced requested s = (.ok (), s')) :
    ∃ online threads as s₁ s₂ decodeAttrs attrOfId idPositions,
      (host.onlineCpus s.world.world).1 = .ok online ∧ s₁.set = s.set ∧
      targetThreads host.traced s₁ = (.ok threads, s₂) ∧
      Attempt.Run id s.set s.world.count as ∧
      (as.map Attempt.target = (pairs s.set.groups.length threads).flatMap fun p =>
        (if requested.isEmpty then online else requested).map fun cpu => (p.1, p.2, cpu)) ∧
      (∀ p ∈ pairs s.set.groups.length threads,
        ∃ a ∈ as, a.taken = true ∧ a.group = p.1 ∧ a.tid = p.2) ∧
      s'.set = { s.set.takeAll as with decodeAttrs, attrOfId, idPositions } ∧
      s.Went s' (Attempt.count as) (Attempt.trace as) := by
  rw [openEvents_eq] at hok
  obtain ⟨online, s₁, honline, hok⟩ := Effect.bind_eq_ok hok
  obtain ⟨r, s₁', honline', hset₁, hwent₁⟩ :=
    quiet_outcome (x := outside host.traced.onlineCpus) host.quiet_traced.onlineCpus s
  cases honline.symm.trans honline'
  have hopen : openOn host.traced (if requested.isEmpty then online else requested) s₁ =
      (.ok (), s') := by
    cases hfind : requested.find? fun c => !online.contains c with
    | none => rwa [hfind] at hok
    | some cpu =>
      rw [hfind] at hok
      cases hok
  obtain ⟨threads, s₂, hthreads, hopen⟩ := Effect.bind_eq_ok hopen
  obtain ⟨r, s₂', hthreads', hset₂, hwent₂⟩ :=
    quiet_outcome (leaves_targetThreads host.quiet_traced) s₁
  cases hthreads.symm.trans hthreads'
  have hsame : s₂.set = s.set := hset₂.trans hset₁
  have hcount : s₂.world.count = s.world.count := hwent₂.count.trans hwent₁.count
  dsimp only at hopen
  split at hopen
  · cases hopen
  · obtain ⟨set, s₂', hset, hopen⟩ := Effect.bind_eq_ok hopen
    cases hset
    obtain ⟨done, s₃, hpairs, hroute⟩ := Effect.bind_eq_ok hopen
    obtain ⟨as, s₃', htried, hpairs'⟩ := openPairs_outcome host
      (if requested.isEmpty then online else requested) (pairs s₂.set.groups.length threads) s₂
    rcases hpairs' with ⟨hpairs', htargets, htaken⟩ | ⟨e, hpairs'⟩
    · cases hpairs.symm.trans hpairs'
      obtain ⟨r, decodeAttrs, attrOfId, idPositions, hroute'⟩ := routeIds_outcome s₃
      cases hroute.symm.trans hroute'
      rw [hsame] at htargets htaken
      refine ⟨online, threads, as, s₁, s₂, decodeAttrs, attrOfId, idPositions, ?_, hset₁,
        hthreads, ?_, htargets, htaken, ?_, ?_⟩
      · exact congrArg Prod.fst honline
      · rw [← hsame, ← hcount]
        exact htried.run
      · rw [← hsame, ← htried.set]
      · have hboth := (hwent₁.trans hwent₂).trans htried.went
        rw [Nat.zero_add, List.append_nil, List.append_nil] at hboth
        exact ⟨hboth.loop, hboth.count, hboth.trace⟩
    · cases hpairs.symm.trans hpairs'

end Recording

end Profiler
