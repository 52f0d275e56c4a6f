/-
# Following the cpus again after a failure

Following the cpus may stop half way: a buffer cannot be mapped, a descriptor
cannot be enabled, a record or an announcement is refused. Which cpus are online
is taken as known only when all is done, so the next call tries again every cpu
that had come. For one cpu at a time that is sound as long as a call that failed
has left no descriptors on it (`Session.Settled`): then the cpu has one
descriptor for each thread and selection at most, one buffer, and one event of
the loop (`Host.Retries.at_most_one`). A call that fails on a later cpu keeps the
descriptors of the cpus before it, and the next one opens them once more
(`Host.Retries.opened_twice`).

Key definitions: `Session.Tidy`, `Session.Settled`, `Host.Retries`.
Key theorems: `Recording.tidy_leaveCpu`, `Recording.tidy_enterCpu`,
`Recording.tidy_followCpus`, `Host.Retries.at_most_one`.
-/
import Profiler.Proofs.Recording.Prepared

namespace Profiler

/-! ### One cpu -/

/-- What is known of a cpu at any time: each selection has at most one
descriptor for a thread there, they share a buffer, and the set knows what waits
for it. -/
structure Session.Tidy {ω : Type} (s : Session (Traced ω)) (cpu : Nat) : Prop where
  sound : s.Sound
  single : s.set.Single cpu
  buffered : Buffered (s.set.filesOn cpu)
  numbered : s.loop.Numbered
  watches : s.Watches cpu

namespace SelectionSet

variable {s s' : SelectionSet} {cpu other : Nat}

theorem Single.of_held (hsingle : s.Single cpu) (h : s'.held = s.held) : s'.Single cpu := by
  intro x hx
  have hmem : x.files ∈ s.held := h ▸ List.mem_map_of_mem hx
  obtain ⟨y, hy, heq⟩ := List.mem_map.mp hmem
  have hy' := hsingle y hy
  rwa [Selection.filesOn, heq] at hy'

theorem Single.dropFilesOn (hsingle : s.Single cpu) (other : Nat) :
    (s.dropFilesOn other).Single cpu := by
  intro x hx
  rw [SelectionSet.dropFilesOn, selections_mapSelections] at hx
  obtain ⟨y, hy, rfl⟩ := List.mem_map.mp hx
  exact ((List.filter_sublist.filter _).map _).nodup (hsingle y hy)

end SelectionSet

namespace Session

variable {ω : Type} {s s' s'' : Session (Traced ω)} {cpu : Nat} {τ : Trace}

theorem Tidy.went (h : s.Tidy cpu) (hset : s'.set = s.set) (hwent : s.Went s' 0 τ)
    (hτ : ∀ x ∈ τ, x.isOpening = false) : s'.Tidy cpu := by
  have hsound := h.sound.passed (.of_went hset hwent hτ)
  obtain ⟨set, loop, world⟩ := s'
  obtain rfl : set = s.set := hset
  obtain rfl : loop = s.loop := hwent.loop
  exact ⟨hsound, h.single, h.buffered, h.numbered, ⟨h.watches.known, h.watches.idle⟩⟩

/-- Descriptors were forgotten on one cpu at most. -/
theorem Tidy.drop (h : s.Tidy cpu) (gone : Nat) (hsound : s'.Sound)
    (hheld : s'.set.held = s.set.held ∨ s'.set.held = (s.set.dropFilesOn gone).held)
    (hnumbered : s'.loop.Numbered)
    (hknown : ∀ e ∈ s'.loop.drains cpu, s'.set.readEvents.get? cpu = some e.1)
    (hidle : s'.set.counting = false → (s.set.filesOn cpu = [] ∨ gone = cpu) →
      s'.loop.drains cpu = []) :
    s'.Tidy cpu ∧ (s.set.filesOn cpu = [] → s'.set.filesOn cpu = []) := by
  have hfiles : s'.set.filesOn cpu = s.set.filesOn cpu ∨
      gone = cpu ∧ s'.set.filesOn cpu = [] := by
    rcases hheld with hheld | hheld
    · exact .inl (SelectionSet.filesOn_of_held hheld cpu)
    · rw [SelectionSet.filesOn_of_held hheld]
      by_cases heq : gone = cpu
      · exact .inr ⟨heq, heq ▸ SelectionSet.filesOn_dropFilesOn_self⟩
      · exact .inl (SelectionSet.filesOn_dropFilesOn_of_ne (Ne.symm heq))
  refine ⟨⟨hsound, ?_, ?_, hnumbered, hknown, fun hsampling hnone => ?_⟩, fun hnone => ?_⟩
  · rcases hheld with hheld | hheld
    · exact h.single.of_held hheld
    · exact (h.single.dropFilesOn gone).of_held hheld
  · rcases hfiles with hfiles | ⟨-, hfiles⟩
    · exact hfiles ▸ h.buffered
    · rw [hfiles]
      exact .of_unmapped (List.forall_mem_nil _)
  · refine hidle hsampling (hfiles.imp (fun hsame => ?_) And.left)
    rw [← hsame, hnone]
  · rcases hfiles with hfiles | ⟨-, hfiles⟩
    · rw [hfiles, hnone]
    · exact hfiles

/-- A cpu was left, and if that succeeded its descriptors were forgotten. -/
theorem Tidy.left (h : s.Tidy cpu) (gone : Nat) {r : Except Error Bool} (hsound : s'.Sound)
    (hheld : (r = .ok true ∧ s'.set.held = (s.set.dropFilesOn gone).held) ∨
      r ≠ .ok true ∧ s'.set.held = s.set.held)
    (hnumbered : s'.loop.Numbered)
    (hknown : ∀ e ∈ s'.loop.drains cpu, s'.set.readEvents.get? cpu = some e.1)
    (hidle : s'.set.counting = false → (s.set.filesOn cpu = [] ∨ gone = cpu) →
      s'.loop.drains cpu = []) :
    s'.Tidy cpu ∧ (s.set.filesOn cpu = [] → s'.set.filesOn cpu = []) ∧
      (r = .ok true → gone = cpu → s'.set.filesOn cpu = []) := by
  obtain ⟨htidy, hnone⟩ :=
    h.drop gone hsound (hheld.symm.imp And.right And.right) hnumbered hknown hidle
  refine ⟨htidy, hnone, fun hr hgone => ?_⟩
  rcases hheld with ⟨-, hheld⟩ | ⟨hne, -⟩
  · rw [SelectionSet.filesOn_of_held hheld, hgone, SelectionSet.filesOn_dropFilesOn_self]
  · exact absurd hr hne

end Session

namespace Recording

variable {ω : Type} (host : Host ω) {cpu : Nat}

/-- Leaving a cpu whose events are counted: the loop is as before, and it waits
for no buffer. -/
theorem tidy_leaveCpu_counting (gone : Nat) {s : Session (Traced ω)} (h : s.Tidy cpu)
    (hcounting : s.set.counting = true) :
    ∃ r s', leaveCpu host.traced gone s = (r, s') ∧ s'.Tidy cpu ∧ s.Unturned s' ∧
      (s.set.filesOn cpu = [] → s'.set.filesOn cpu = []) ∧
      (r = .ok true → gone = cpu → s'.set.filesOn cpu = []) := by
  have hsound := keeps_sound_leaveCpu host gone s h.sound
  obtain ⟨values, r, s', heq, hcases⟩ := leaveCpu_counting host gone hcounting
  rw [heq] at hsound
  have hkeep := SelectionSet.keepAll_eq s.set ((s.set.filesOn gone).zip values)
  have hkept := SelectionSet.held_keepAll s.set ((s.set.filesOn gone).zip values)
  obtain ⟨hloop, hevents, hunturned, hheld⟩ :
      s'.loop = s.loop ∧ s'.set.readEvents = s.set.readEvents ∧ s.Unturned s' ∧
        ((r = .ok true ∧ s'.set.held = (s.set.dropFilesOn gone).held) ∨
          r ≠ .ok true ∧ s'.set.held = s.set.held) := by
    rcases hcases with ⟨hr, -, hset, hwent⟩ | ⟨⟨e, rfl⟩, hset, hwent⟩
    · refine ⟨hwent.loop, by rw [hset, hkeep]; rfl, ?_, .inl ⟨hr, ?_⟩⟩
      · constructor <;> rw [hset, hkeep] <;> rfl
      · rw [hset]
        exact SelectionSet.held_dropFilesOn_congr hkept
    · refine ⟨hwent.loop, by rw [hset, hkeep]; rfl, ?_, .inr ⟨by rintro ⟨⟩, hset ▸ hkept⟩⟩
      constructor <;> rw [hset, hkeep] <;> rfl
  have hknown : ∀ e ∈ s'.loop.drains cpu, s'.set.readEvents.get? cpu = some e.1 := by
    rw [hloop, hevents]
    exact h.watches.known
  obtain ⟨htidy, hnone, hgone⟩ := h.left gone hsound hheld (hloop ▸ h.numbered) hknown
    fun hsampling => by rw [hunturned.counting, hcounting] at hsampling; cases hsampling
  exact ⟨r, s', heq, htidy, hunturned, hnone, hgone⟩

/-- Leaving a cpu whose events are sampled: the loop has come to wait for one
buffer less. -/
theorem tidy_leaveCpu_sampling (gone : Nat) {s : Session (Traced ω)} (h : s.Tidy cpu)
    (hsampling : s.set.counting = false) :
    ∃ r s', leaveCpu host.traced gone s = (r, s') ∧ s'.Tidy cpu ∧ s.Unturned s' ∧
      (s.set.filesOn cpu = [] → s'.set.filesOn cpu = []) ∧
      (r = .ok true → gone = cpu → s'.set.filesOn cpu = []) := by
  have hsound := keeps_sound_leaveCpu host gone s h.sound
  obtain ⟨r, s₁, hdrain⟩ : ∃ r s₁, drainCpu host.traced gone (s.unwatching gone) = (r, s₁) :=
    ⟨_, _, rfl⟩
  have hloop₁ := leaves_drainCpu_loop host.traced gone (s.unwatching gone)
  rw [hdrain] at hloop₁
  obtain ⟨s', hset₁, heq, hcases⟩ := leaveCpu_sampling host gone hsampling hdrain
  rw [heq] at hsound
  have hheld₁ : s₁.set.held = s.set.held := by rw [hset₁, s.held_unwatching gone]
  have hunturned₁ : s.Unturned s₁ := (s.unturned_unwatching gone).trans (.of_set hset₁)
  obtain ⟨hloop, hevents, hunturned, hheld⟩ : s'.loop = (s.unwatching gone).loop ∧
      s'.set.readEvents = (s.unwatching gone).set.readEvents ∧ s.Unturned s' ∧
        ((r = .ok true ∧ s'.set.held = (s.set.dropFilesOn gone).held) ∨
          r ≠ .ok true ∧ s'.set.held = s.set.held) := by
    rcases hcases with ⟨hr, hset', hwent⟩ | ⟨hr, rfl⟩
    · refine ⟨hwent.loop.trans hloop₁, ?_, hunturned₁.trans ?_, .inl ⟨hr, ?_⟩⟩
      · rw [hset', hset₁]
        rfl
      · constructor <;> rw [hset'] <;> rfl
      · rw [hset']
        exact SelectionSet.held_dropFilesOn_congr hheld₁
    · exact ⟨hloop₁, by rw [hset₁], hunturned₁, .inr ⟨hr, hheld₁⟩⟩
  have hwatches := h.watches.unwatching gone
  have hknown : ∀ e ∈ s'.loop.drains cpu, s'.set.readEvents.get? cpu = some e.1 := by
    rw [hloop, hevents]
    exact hwatches.known
  have hidle : s.set.filesOn cpu = [] ∨ gone = cpu → s'.loop.drains cpu = [] := by
    rw [hloop]
    rintro (hnone | rfl)
    · refine hwatches.idle ?_ ((s.filesOn_unwatching gone cpu).trans hnone)
      rw [s.counting_unwatching gone, hsampling]
    · exact Session.drains_unwatching_self h.watches
  obtain ⟨htidy, hnone, hgone⟩ := h.left gone hsound hheld
    (hloop ▸ Session.numbered_unwatching h.numbered gone) hknown fun _ => hidle
  exact ⟨r, s', heq, htidy, hunturned, hnone, hgone⟩

/-- **Leaving a cpu,** whatever comes of it. If it succeeds there are no
descriptors on the cpu any more. -/
theorem tidy_leaveCpu (gone : Nat) {s : Session (Traced ω)} (h : s.Tidy cpu) :
    ∃ r s', leaveCpu host.traced gone s = (r, s') ∧ s'.Tidy cpu ∧ s.Unturned s' ∧
      (s.set.filesOn cpu = [] → s'.set.filesOn cpu = []) ∧
      (r = .ok true → gone = cpu → s'.set.filesOn cpu = []) := by
  cases hcounting : s.set.counting with
  | true => exact tidy_leaveCpu_counting host gone h hcounting
  | false => exact tidy_leaveCpu_sampling host gone h hcounting

theorem tidy_leaveCpus : ∀ (gone : List Nat) {s : Session (Traced ω)}, s.Tidy cpu →
    ∃ r s', leaveCpus host.traced gone s = (r, s') ∧ s'.Tidy cpu ∧ s.Unturned s' ∧
      (s.set.filesOn cpu = [] → s'.set.filesOn cpu = []) ∧
      (r = .ok true → cpu ∈ gone → s'.set.filesOn cpu = [])
  | [], s, h => ⟨_, s, rfl, h, .refl s, id, fun _ hmem => absurd hmem List.not_mem_nil⟩
  | first :: rest, s, h => by
    obtain ⟨s₁, hnote, hset₁, hwent₁⟩ := note_outcome host (.cpuOffline first) s
    have htidy₁ := h.went hset₁ hwent₁ (by simp [Happening.isOpening])
    obtain ⟨r, s₂, hleave, htidy₂, hunturned₂, hnone₂, hgone₂⟩ := tidy_leaveCpu host first htidy₁
    have hunturned := (Session.Unturned.of_set hset₁).trans hunturned₂
    have hnone : s.set.filesOn cpu = [] → s₂.set.filesOn cpu = [] := fun hnone =>
      hnone₂ (by rw [hset₁, hnone])
    rw [leaveCpus, Effect.bind_of_ok hnote]
    cases r with
    | error e =>
      exact ⟨_, s₂, Effect.bind_of_error hleave, htidy₂, hunturned, hnone, by rintro ⟨⟩⟩
    | ok more =>
      cases more with
      | false => exact ⟨_, s₂, Effect.bind_of_ok hleave, htidy₂, hunturned, hnone, by rintro ⟨⟩⟩
      | true =>
        obtain ⟨r', s', hrest, htidy, hunturned', hnone', hgone⟩ := tidy_leaveCpus rest htidy₂
        refine ⟨r', s', (Effect.bind_of_ok hleave).trans hrest, htidy, hunturned.trans hunturned',
          fun h => hnone' (hnone h), fun hr hmem => ?_⟩
        rcases List.mem_cons.mp hmem with heq | hmem
        · exact hnone' (hgone₂ rfl heq.symm)
        · exact hgone hr hmem

end Recording

/-! ### A cpu that has come -/

namespace SelectionSet

variable {s : SelectionSet} {cpu come : Nat} {as : List Attempt} {n : Nat} {change : Attr → Attr}

/-- Groups that are tried once for each thread on a cpu without descriptors
give each selection one for a thread at most. -/
theorem Single.takeAll (hsingle : s.Single cpu) (hrun : Attempt.Run change s n as)
    (hdistinct : (as.map Attempt.target).Nodup) (hcome : ∀ a ∈ as, a.cpu = come)
    (hfresh : come = cpu → s.filesOn cpu = []) : (s.takeAll as).Single cpu := by
  intro x' hx'
  obtain ⟨group, member, x, hx, rfl⟩ := mem_selections_takeAll hrun hx'
  have hfiles : (x.add (Attempt.kept group member as)).filesOn cpu =
      x.filesOn cpu ++ (Attempt.kept group member as).filter (·.cpu == cpu) := List.filter_append ..
  rw [hfiles, List.map_append]
  by_cases heq : come = cpu
  · have hnone : x.filesOn cpu = [] := by
      refine List.eq_nil_iff_forall_not_mem.mpr fun f hf => ?_
      obtain ⟨hmem, hcpu⟩ := List.mem_filter.mp hf
      have hon : f ∈ s.filesOn cpu :=
        List.mem_filter.mpr ⟨List.mem_flatMap.mpr ⟨x, hx, hmem⟩, hcpu⟩
      rw [hfresh heq] at hon
      exact absurd hon List.not_mem_nil
    rw [hnone]
    exact Attempt.nodup_tids_kept hdistinct group member cpu
  · have hnone : (Attempt.kept group member as).filter (·.cpu == cpu) = [] := by
      refine List.filter_eq_nil_iff.mpr fun f hf hcpu => heq ?_
      obtain ⟨a, ha, -, -, hfile⟩ := Attempt.mem_kept hf
      obtain ⟨-, hon, -⟩ := Attempt.of_mem_files (List.mem_of_getElem? hfile)
      rw [← hcome a ha, ← hon]
      exact beq_iff_eq.mp hcpu
    rw [hnone, List.map_nil, List.append_nil]
    exact hsingle x hx

theorem buffered_takeAll (hrun : Attempt.Run change s n as) (hnone : s.filesOn cpu = []) :
    Buffered ((s.takeAll as).filesOn cpu) := by
  refine .of_unmapped fun f hf => ?_
  obtain ⟨hmem, hcpu⟩ := mem_filesOn.mp hf
  rcases List.mem_append.mp ((files_takeAll hrun).mem_iff.mp hmem) with hold | hnew
  · have hon : f ∈ s.filesOn cpu := mem_filesOn.mpr ⟨hold, hcpu⟩
    rw [hnone] at hon
    exact absurd hon List.not_mem_nil
  · exact Attempt.unmapped_of_mem_allKept hnew

end SelectionSet

namespace Recording

variable {ω : Type} (host : Host ω) {cpu : Nat}

theorem bare_activated (cpu : Nat) (set : SelectionSet) :
    (activated cpu set).bare = set.bare := by
  rw [activated]
  split
  · rfl
  · refine SelectionSet.bare_updateFiles fun f => ?_
    split
    · exact f.unmapped_place _
    · rfl

/-- What was opened on a cpu without descriptors shares a buffer once it is
active. -/
theorem buffered_activated {set : SelectionSet} {as : List Attempt} {n : Nat}
    {change : Attr → Attr} (hrun : Attempt.Run change set n as) (hnone : set.filesOn cpu = []) :
    Buffered ((activated cpu (set.takeAll as)).filesOn cpu) := by
  have htaken := SelectionSet.buffered_takeAll hrun hnone
  rw [activated]
  split
  · exact htaken
  · rw [SelectionSet.filesOn_placeOn_self]
    exact htaken.place

/-- What is known of a cpu once the descriptors that were opened are active. -/
theorem tidy_activated {come : Nat} {s s₁ : Session (Traced ω)} {threads : List Pid}
    {as : List Attempt} (h : s.Tidy cpu) (hfresh : come = cpu → s.set.filesOn cpu = [])
    (hthreads : threads.Nodup) (hrun : Attempt.Run reopenedAttr s.set s.world.count as)
    (htargets : as.map Attempt.target =
      (pairs s.set.groups.length threads).map fun p => (p.1, p.2, come))
    (hset : s₁.set = activated come (s.set.takeAll as))
    (hwent : s.Went s₁ (Attempt.count as) (Attempt.trace as)) :
    s₁.Tidy cpu ∧ s.Unturned s₁ ∧ (come ≠ cpu → s₁.set.filesOn cpu = s.set.filesOn cpu) := by
  have hcome := Attempt.cpu_eq_of_targets htargets
  have hdistinct : (as.map Attempt.target).Nodup := by
    rw [htargets]
    exact (nodup_pairs hthreads).map fun p q heq =>
      Prod.ext (Prod.mk.inj heq).1 (Prod.mk.inj (Prod.mk.inj heq).2).1
  have hbare : s₁.set.bare = (s.set.takeAll as).bare := by rw [hset, bare_activated]
  have hfiles : come ≠ cpu → s₁.set.filesOn cpu = s.set.filesOn cpu := fun hne => by
    rw [hset]
    exact SelectionSet.filesOn_of_onCpu (onCpu_activated_of_ne hrun hcome hne.symm)
  have hbuffered : Buffered (s₁.set.filesOn cpu) := by
    by_cases heq : come = cpu
    · rw [hset, heq]
      exact buffered_activated hrun (hfresh heq)
    · rw [hfiles heq]
      exact h.buffered
  obtain ⟨groups, hgroups⟩ := exists_activated_eq s.set as come
  rw [← hset] at hgroups
  let taken : Session (Traced ω) := { s₁ with set := s.set.takeAll as }
  have htried : s.Tried reopenedAttr taken as := ⟨hrun, rfl, hwent.loop, hwent.count, hwent.trace⟩
  obtain ⟨groups', htake⟩ := s.set.exists_takeAll_eq as
  have hthreads' : s₁.set.threads = taken.set.threads := by
    rw [hgroups]
    show _ = (s.set.takeAll as).threads
    rw [htake]
  refine ⟨⟨(h.sound.tried htried).passed ⟨hbare, hthreads', rfl, [], List.forall_mem_nil _, rfl⟩,
    (h.single.takeAll hrun hdistinct hcome hfresh).of_bare hbare, hbuffered,
    hwent.loop ▸ h.numbered, ?_, fun hsampling hnone => ?_⟩, ?_, hfiles⟩
  · rw [hwent.loop, hgroups]
    exact h.watches.known
  · rw [hgroups] at hsampling
    rw [hwent.loop]
    refine h.watches.idle hsampling ?_
    by_cases heq : come = cpu
    · exact hfresh heq
    · exact hfiles heq ▸ hnone
  · constructor <;> rw [hgroups]

/-- What is known of a cpu once its ids are announced, or another's are. -/
theorem tidy_announce {come : Nat} {s₁ : Session (Traced ω)} (h : s₁.Tidy cpu)
    (hidle : s₁.set.counting = false → come = cpu → s₁.loop.drains cpu = []) :
    ∃ r s', announce host.traced come s₁ = (r, s') ∧ s'.Tidy cpu ∧ s₁.Unturned s' ∧
      s'.set.filesOn cpu = s₁.set.filesOn cpu := by
  have hsound := keeps_sound_announce host come s₁ h.sound
  have hset : ∀ s₂ : Session (Traced ω),
      (∃ readEvents attrOfId, s₂.set = { s₁.set with readEvents, attrOfId }) → s₂.Sound →
      s₂.loop.Numbered → s₂.Watches cpu → s₂.Tidy cpu ∧ s₁.Unturned s₂ ∧
        s₂.set.filesOn cpu = s₁.set.filesOn cpu := by
    rintro s₂ ⟨readEvents, attrOfId, hset₂⟩ hsound₂ hnumbered₂ hwatches₂
    have hheld : s₂.set.held = s₁.set.held := by rw [hset₂]; rfl
    have hfiles := SelectionSet.filesOn_of_held hheld cpu
    refine ⟨⟨hsound₂, h.single.of_held hheld, hfiles ▸ h.buffered, hnumbered₂, hwatches₂⟩, ?_,
      hfiles⟩
    constructor <;> rw [hset₂]
  have hlearned : ∀ s₂ : Session (Traced ω), s₂.set = s₁.set.learnIds (announcement s₁.set come) →
      s₂.loop = s₁.loop → s₂.Watches cpu := fun s₂ hset₂ hloop₂ => by
    constructor <;> rw [hset₂, hloop₂]
    · exact h.watches.known
    · exact h.watches.idle
  rcases announce_outcome host come s₁ with
    ⟨-, heq⟩ | ⟨⟨hsampling, -⟩, more, s₂, hset₂, hwent₂, heq⟩
  · rw [heq] at hsound
    exact ⟨_, _, heq, hset _ ⟨_, _, rfl⟩ hsound h.numbered (hlearned _ rfl rfl)⟩
  · rw [heq] at hsound
    refine ⟨_, _, heq, ?_⟩
    have hwatches₂ := hlearned s₂ hset₂ hwent₂.loop
    have hnumbered₂ : s₂.loop.Numbered := hwent₂.loop ▸ h.numbered
    cases more with
    | false => exact hset s₂ ⟨_, _, hset₂⟩ hsound hnumbered₂ hwatches₂
    | true =>
      have hawaiting : (s₂.awaiting come).set = { s₁.set with
          readEvents := (s₂.awaiting come).set.readEvents, attrOfId := s₂.set.attrOfId } := by
        rw [Session.set_awaiting, hset₂]
        rfl
      refine hset (s₂.awaiting come) ⟨_, _, hawaiting⟩ hsound
        (Session.numbered_awaiting hnumbered₂ come) ?_
      by_cases hne : come = cpu
      · subst hne
        refine Session.watches_awaiting_self hnumbered₂ ?_
        rw [hwent₂.loop]
        exact hidle hsampling rfl
      · exact hwatches₂.awaiting_of_ne hnumbered₂ (Ne.symm hne)

/-- **Entering a cpu,** whatever comes of it, if it has no descriptors. -/
theorem tidy_enterCpu (come : Nat) {s : Session (Traced ω)} (h : s.Tidy cpu)
    (hfresh : come = cpu → s.set.filesOn cpu = []) :
    ∃ r s', enterCpu host.traced come s = (r, s') ∧ s'.Tidy cpu ∧ s.Unturned s' ∧
      (come ≠ cpu → s'.set.filesOn cpu = s.set.filesOn cpu) := by
  have hsound := keeps_sound_enterCpu host come s h.sound
  obtain ⟨r, s', heq, hcases⟩ := enterCpu_outcome host come h.sound
  rw [heq] at hsound
  refine ⟨r, s', heq, ?_⟩
  have hidle : s.set.counting = false → (s.set.filesOn cpu = [] ∨ come = cpu) →
      s.loop.drains cpu = [] := fun hsampling hor =>
    h.watches.idle hsampling (hor.elim id hfresh)
  rcases hcases with ⟨-, hset, hwent⟩ | ⟨threads, as, hthreads, hrun, htargets, hcases⟩
  · exact ⟨h.went hset hwent (List.forall_mem_nil _), .of_set hset, fun _ => by rw [hset]⟩
  rcases hcases with ⟨-, hset, hloop⟩ | ⟨s₁, hset₁, hwent₁, hannounce⟩
  · have hunturned : s.Unturned s' := by constructor <;> rw [hset] <;> rfl
    obtain ⟨htidy, -⟩ := h.drop come hsound (.inr (congrArg SelectionSet.held hset))
      (hloop ▸ h.numbered) (by rw [hloop, hset]; exact h.watches.known)
      (fun hsampling hor => hloop ▸ hidle (hunturned.counting ▸ hsampling) hor)
    refine ⟨htidy, hunturned, fun hne => ?_⟩
    rw [hset, SelectionSet.filesOn_dropFilesOn_of_ne hne.symm]
  · obtain ⟨htidy₁, hunturned₁, hfiles₁⟩ :=
      tidy_activated h hfresh hthreads hrun htargets hset₁ hwent₁
    obtain ⟨r', s'', hannounce', htidy', hunturned', hfiles'⟩ :=
      tidy_announce host htidy₁ fun hsampling hcome => by
        rw [hwent₁.loop]
        exact hidle (hunturned₁.counting ▸ hsampling) (.inr hcome)
    cases hannounce.symm.trans hannounce'
    exact ⟨htidy', hunturned₁.trans hunturned', fun hne => hfiles'.trans (hfiles₁ hne)⟩

/-- Cpus are entered in turn, the one that has no descriptors at most once. -/
theorem tidy_enterCpus : ∀ (come : List Nat) {s : Session (Traced ω)}, s.Tidy cpu →
    come.count cpu ≤ 1 → (cpu ∈ come → s.set.filesOn cpu = []) →
    ∃ r s', enterCpus host.traced come s = (r, s') ∧ s'.Tidy cpu ∧ s.Unturned s' ∧
      (cpu ∉ come → s'.set.filesOn cpu = s.set.filesOn cpu)
  | [], s, h, _, _ => ⟨_, s, rfl, h, .refl s, fun _ => rfl⟩
  | first :: rest, s, h, honce, hfresh => by
    obtain ⟨s₁, hnote, hset₁, hwent₁⟩ := note_outcome host (.cpuOnline first) s
    have htidy₁ := h.went hset₁ hwent₁ (by simp [Happening.isOpening])
    have hfresh₁ : first = cpu → s₁.set.filesOn cpu = [] := fun heq => by
      rw [hset₁]
      exact hfresh (heq ▸ List.mem_cons_self)
    obtain ⟨r, s₂, henter, htidy₂, hunturned₂, hsame₂⟩ := tidy_enterCpu host first htidy₁ hfresh₁
    have hunturned := (Session.Unturned.of_set hset₁).trans hunturned₂
    have hsame : first ≠ cpu → s₂.set.filesOn cpu = s.set.filesOn cpu := fun hne => by
      rw [hsame₂ hne, hset₁]
    have hother : cpu ∉ first :: rest → first ≠ cpu := fun hmem heq =>
      hmem (heq ▸ List.mem_cons_self)
    rw [enterCpus, Effect.bind_of_ok hnote]
    cases r with
    | error e =>
      exact ⟨_, s₂, Effect.bind_of_error henter, htidy₂, hunturned, fun hmem => hsame (hother hmem)⟩
    | ok more =>
      cases more with
      | false =>
        exact ⟨_, s₂, Effect.bind_of_ok henter, htidy₂, hunturned, fun hmem => hsame (hother hmem)⟩
      | true =>
        have honce' : rest.count cpu ≤ 1 :=
          Nat.le_trans ((List.sublist_cons_self first rest).count_le cpu) honce
        have hfresh' : cpu ∈ rest → s₂.set.filesOn cpu = [] := fun hmem => by
          have hne : first ≠ cpu := by
            rintro rfl
            rw [List.count_cons_self] at honce
            have hpos := List.count_pos_iff.mpr hmem
            omega
          rw [hsame hne]
          exact hfresh (List.mem_cons_of_mem _ hmem)
        obtain ⟨r', s', hrest, htidy, hunturned', hsame'⟩ :=
          tidy_enterCpus rest htidy₂ honce' hfresh'
        refine ⟨r', s', (Effect.bind_of_ok henter).trans hrest, htidy, hunturned.trans hunturned',
          fun hmem => ?_⟩
        rw [hsame' fun hmem' => hmem (List.mem_cons_of_mem _ hmem'), hsame (hother hmem)]

end Recording

/-! ### One call after another -/

/-- A call has left nothing half done on a cpu: it has succeeded, or the cpu did
not come, or the cpu has no descriptors. -/
def Session.Settled {ω : Type} (s s' : Session ω) (cpu : Nat) (online : List Nat)
    (r : Except Error Bool) : Prop :=
  r = .ok true ∨ cpu ∉ s.set.come online ∨ s'.set.filesOn cpu = []

namespace Recording

variable {ω : Type} (host : Host ω) {cpu : Nat}

/-- Where a turn stops early and has left nothing half done on a cpu, only a cpu
that was known to be online can have descriptors. -/
theorem knows_of_stopped {s s' : Session (Traced ω)} {online : List Nat} {r : Except Error Bool}
    (hknows : s.Knows cpu) (hunturned : s.Unturned s') (hr : r ≠ .ok true)
    (hsame : cpu ∉ s.set.come online → s.set.filesOn cpu = [] → s'.set.filesOn cpu = [])
    (hsettled : s.Settled s' cpu online r) : s'.Knows cpu := by
  intro hfollows hfiles
  rw [hunturned.online]
  have hcome : cpu ∉ s.set.come online := (hsettled.resolve_left hr).resolve_right hfiles
  exact hknows (congrFun hunturned.follows cpu ▸ hfollows) fun hnone => hfiles (hsame hcome hnone)

/-- A turn that succeeds notes which cpus are online: descriptors are on a cpu
that has come, or on one that has stayed. -/
theorem knows_of_noted {s s' : Session (Traced ω)} {online : List Nat} (hknows : s.Knows cpu)
    (hunturned : s.Unturned s')
    (hsame : cpu ∉ s.set.come online → s'.set.filesOn cpu ≠ [] →
      s.set.filesOn cpu ≠ [] ∧ cpu ∉ s.set.gone online) :
    ({ s' with set := { s'.set with onlineCpus := online } } : Session (Traced ω)).Knows cpu := by
  intro hfollows hfiles
  show cpu ∈ online
  have hfollows' : s.set.follows cpu = true := congrFun hunturned.follows cpu ▸ hfollows
  by_cases hcome : cpu ∈ s.set.come online
  · exact List.mem_of_mem_filter hcome
  · obtain ⟨hfiles', hstayed⟩ := hsame hcome hfiles
    exact Decidable.byContradiction fun hoff => hstayed (hknows.mem_gone hfollows' hfiles' hoff)

/-- What a turn comes to on a cpu that does not come twice. -/
theorem tidy_turn {s s₁ : Session (Traced ω)} {online : List Nat} (h : s₁.Tidy cpu)
    (hknows : s.Knows cpu) (hset : s₁.set = s.set) (honce : online.count cpu ≤ 1) :
    ∃ r s', turn host.traced (s.set.gone online) (s.set.come online) online s₁ = (r, s') ∧
      s'.Tidy cpu ∧ (s.Settled s' cpu online r → s'.Knows cpu) := by
  obtain ⟨r, s₂, hleave, htidy₂, hunturned₂, hnone₂, hgone₂⟩ :=
    tidy_leaveCpus host (s.set.gone online) h
  have hunturned : s.Unturned s₂ := (Session.Unturned.of_set hset).trans hunturned₂
  rw [hset] at hnone₂
  rw [turn]
  cases r with
  | error e =>
    exact ⟨_, s₂, Effect.bind_of_error hleave, htidy₂,
      knows_of_stopped hknows hunturned (by rintro ⟨⟩) fun _ => hnone₂⟩
  | ok left =>
    cases left with
    | false =>
      exact ⟨_, s₂, Effect.bind_of_ok hleave, htidy₂,
        knows_of_stopped hknows hunturned (by rintro ⟨⟩) fun _ => hnone₂⟩
    | true =>
      have hcount : (s.set.come online).count cpu ≤ 1 :=
        Nat.le_trans (List.filter_sublist.count_le cpu) honce
      obtain ⟨r, s₃, henter, htidy₃, hunturned₃, hsame₃⟩ := tidy_enterCpus host
        (s.set.come online) htidy₂ hcount fun hcome => hnone₂ (hknows.filesOn_of_come hcome)
      have hunturned₃ := hunturned.trans hunturned₃
      have hnone₃ : cpu ∉ s.set.come online → s.set.filesOn cpu = [] → s₃.set.filesOn cpu = [] :=
        fun hcome hnone => by rw [hsame₃ hcome, hnone₂ hnone]
      rw [Effect.bind_of_ok hleave, if_pos rfl]
      cases r with
      | error e =>
        exact ⟨_, s₃, Effect.bind_of_error henter, htidy₃,
          knows_of_stopped hknows hunturned₃ (by rintro ⟨⟩) hnone₃⟩
      | ok entered =>
        cases entered with
        | false =>
          exact ⟨_, s₃, Effect.bind_of_ok henter, htidy₃,
            knows_of_stopped hknows hunturned₃ (by rintro ⟨⟩) hnone₃⟩
        | true =>
          refine ⟨.ok true, { s₃ with set := { s₃.set with onlineCpus := online } },
            Effect.bind_of_ok henter, ⟨?_, htidy₃.single, htidy₃.buffered, htidy₃.numbered,
              htidy₃.watches.known, htidy₃.watches.idle⟩, fun _ => knows_of_noted hknows hunturned₃
                fun hcome hfiles => ?_⟩
          · exact htidy₃.sound.passed ⟨rfl, rfl, rfl, [], List.forall_mem_nil _, rfl⟩
          · rw [hsame₃ hcome] at hfiles
            exact ⟨fun hnone => hfiles (hnone₂ hnone), fun hgone => hfiles (hgone₂ rfl hgone)⟩

/-- **Following the cpus,** whatever comes of it, where the list of those that
are online does not name the cpu twice. -/
theorem tidy_followCpus {s : Session (Traced ω)} (h : s.Tidy cpu) (hknows : s.Knows cpu)
    (honce : ∀ online, (host.onlineCpus s.world.world).1 = .ok online → online.count cpu ≤ 1) :
    ∃ r s', followCpus host.traced s = (r, s') ∧ s'.Tidy cpu ∧
      ((∀ online, (host.onlineCpus s.world.world).1 = .ok online →
        s.Settled s' cpu online r) → s'.Knows cpu) := by
  obtain ⟨r, s₁, honline, hset, hwent⟩ :=
    quiet_outcome (x := outside host.traced.onlineCpus) host.quiet_traced.onlineCpus s
  have htidy₁ := h.went hset hwent (List.forall_mem_nil _)
  rw [followCpus_eq, getSet_bind]
  cases r with
  | error e =>
    refine ⟨_, s₁, Effect.bind_of_error honline, htidy₁, fun _ => ?_⟩
    rw [Session.Knows, hset]
    exact hknows
  | ok online =>
    have hanswer : (host.onlineCpus s.world.world).1 = .ok online := congrArg Prod.fst honline
    obtain ⟨r, s', hturn, htidy', hknows'⟩ :=
      tidy_turn host htidy₁ hknows hset (honce online hanswer)
    exact ⟨r, s', (Effect.bind_of_ok honline).trans hturn, htidy',
      fun hsettled => hknows' (hsettled online hanswer)⟩

end Recording

/-- Where a recording may be between calls that follow the cpus, seen from one
cpu: its events were opened once, on different cpus, and each call has left
nothing half done on the cpu, whatever came of it. -/
inductive Host.Retries {ω : Type} (host : Host ω) (cpu : Nat) : Session (Traced ω) → Prop where
  | ready {cpus : List Nat} {s : Session (Traced ω)} (h : host.Ready cpus s) (hcpus : cpus.Nodup)
      (hknows : s.Knows cpu) : Retries host cpu s
  | followed {s s' : Session (Traced ω)} {r : Except Error Bool} (h : Retries host cpu s)
      (hcall : Recording.followCpus host.traced s = (r, s'))
      (honce : ∀ online, (host.onlineCpus s.world.world).1 = .ok online → online.count cpu ≤ 1)
      (hsettled : ∀ online, (host.onlineCpus s.world.world).1 = .ok online →
        s.Settled s' cpu online r) : Retries host cpu s'
  | outside {s : Session (Traced ω)} (h : Retries host cpu s) (world : ω) :
      Retries host cpu { s with world := { s.world with world } }

section Histories

variable {ω : Type} {host : Host ω} {cpu : Nat} {s s' : Session (Traced ω)}

theorem Host.Retries.tidy (h : host.Retries cpu s) : s.Tidy cpu ∧ s.Knows cpu := by
  induction h with
  | ready hready hcpus hknows =>
    obtain ⟨hfresh, hwaiting⟩ := hready.prepared
    exact ⟨⟨hfresh.sound, hfresh.single hcpus cpu, hfresh.buffered cpu, hwaiting.numbered,
      hwaiting.watches cpu⟩, hknows⟩
  | followed h hcall honce hsettled ih =>
    obtain ⟨r, s'', hcall', htidy, hknows⟩ := Recording.tidy_followCpus host ih.1 ih.2 honce
    cases hcall.symm.trans hcall'
    exact ⟨htidy, hknows hsettled⟩
  | outside h world ih =>
    obtain ⟨htidy, hknows⟩ := ih
    exact ⟨⟨htidy.sound.passed ⟨rfl, rfl, rfl, [], List.forall_mem_nil _, rfl⟩, htidy.single,
      htidy.buffered, htidy.numbered, htidy.watches.known, htidy.watches.idle⟩, hknows⟩

/-- **A call may follow others that have failed.** Whatever comes of it, each
selection has at most one descriptor for a thread on the cpu, at most one of its
descriptors has a buffer, and the loop waits for it at most once. -/
theorem Host.Retries.at_most_one {r : Except Error Bool} (h : host.Retries cpu s)
    (hcall : Recording.followCpus host.traced s = (r, s'))
    (honce : ∀ online, (host.onlineCpus s.world.world).1 = .ok online → online.count cpu ≤ 1) :
    (∀ x ∈ s'.set.selections, ((x.filesOn cpu).map EventFile.tid).Nodup) ∧
      ((s'.set.filesOn cpu).filter (·.mapped)).length ≤ 1 ∧ (s'.loop.drains cpu).length ≤ 1 := by
  obtain ⟨htidy, hknows⟩ := h.tidy
  obtain ⟨r', s'', hcall', htidy', -⟩ := Recording.tidy_followCpus host htidy hknows honce
  cases hcall.symm.trans hcall'
  have hdistinct : ((s'.set.filesOn cpu).map EventFile.descriptor).Nodup :=
    (List.filter_sublist.map _).nodup htidy'.sound.distinct
  exact ⟨htidy'.single, htidy'.buffered.length_mapped_le hdistinct,
    EventLoop.length_drains_le htidy'.numbered htidy'.watches.known⟩

/-- The buffer of cpu 1 cannot be mapped at first; then the cpu is tried again,
and has one descriptor. -/
theorem Host.Retries.at_most_one_mapped_later :
    let host := MemoryKernel.host
    let unmappable (d : Descriptor) (op : MemoryKernel.Operation) : List Descriptor :=
      if op = .map then [d] else []
    let chosen := MemoryKernel.chosen false ["cpu-clock"] { online := [0] }
    let opened := (Recording.openEvents host.traced [] chosen).2
    let watched := [.mapEvents 8 8, .attach, .watchCpus [] 1000].foldl
      (fun s (c : Recording.Call) => (c.run host.traced s).2) opened
    let failed := Recording.followCpus host.traced
      (MemoryKernel.ruled { online := [0, 1], failing := unmappable 2 } watched)
    let later := MemoryKernel.ruled { online := [0, 1] } failed.2
    let retried := Recording.followCpus host.traced later
    host.Retries 1 later ∧
      failed.1 = .error (.failedDescriptor "map of 2 failed") ∧ retried.1 = .ok true ∧
      retried.2.set.files.map (fun f => (f.descriptor, f.cpu)) = [(0, 0), (2, 1)] ∧
      (∀ x ∈ retried.2.set.selections, ((x.filesOn 1).map EventFile.tid).Nodup) ∧
      ((retried.2.set.filesOn 1).filter (·.mapped)).length ≤ 1 ∧
      (retried.2.loop.drains 1).length ≤ 1 := by
  intro host unmappable chosen opened watched failed later retried
  have hunopened : chosen.Unopened := Session.unopened_of_nil (by decide +kernel)
    (by decide +kernel) (by decide +kernel)
  have honline : (host.onlineCpus chosen.world.world).1 = .ok [0] := by decide +kernel
  have hopened : (Recording.openEvents host.traced [] chosen).1 = .ok () := by decide +kernel
  have hdetached : opened.set.attached = false := by decide +kernel
  have hknown : watched.set.filesOn 1 = [] := by decide +kernel
  have hfailed : failed.1 = .error (.failedDescriptor "map of 2 failed") := by decide +kernel
  have hsettled : failed.2.set.filesOn 1 = [] := by decide +kernel
  have hretried : retried.1 = .ok true := by decide +kernel
  have hfiles : retried.2.set.files.map (fun f => (f.descriptor, f.cpu)) = [(0, 0), (2, 1)] := by
    decide +kernel
  have hready : host.Ready [0] watched :=
    (MemoryKernel.ready_chosen hunopened honline hopened).awaited hdetached 8 8 [] 1000
  clear_value watched
  have hfirst : host.Retries 1
      (MemoryKernel.ruled { online := [0, 1], failing := unmappable 2 } watched) :=
    .outside (.ready hready (by decide) fun _ hfiles => absurd hknown hfiles) _
  have hsecond : host.Retries 1 failed.2 := by
    refine .followed hfirst rfl (fun online hlist => ?_) fun _ _ => .inr (.inr hsettled)
    obtain rfl : [0, 1] = online := Except.ok.inj hlist
    decide
  have hlast : host.Retries 1 later := .outside hsecond _
  refine ⟨hlast, hfailed, hretried, hfiles, hlast.at_most_one rfl fun online hlist => ?_⟩
  obtain rfl : [0, 1] = online := Except.ok.inj hlist
  decide

/-- The buffer of cpu 2 cannot be mapped at first. Cpu 1, which was entered
before it, is entered again by the next call, though it has not gone: its thread
has two descriptors, which are both waited for. -/
theorem Host.Retries.opened_twice :
    let host := MemoryKernel.host
    let unmappable (d : Descriptor) (op : MemoryKernel.Operation) : List Descriptor :=
      if op = .map then [d] else []
    let chosen := MemoryKernel.chosen false ["cpu-clock"] { online := [0] }
    let opened := (Recording.openEvents host.traced [] chosen).2
    let watched := [.mapEvents 8 8, .attach, .watchCpus [] 1000].foldl
      (fun s (c : Recording.Call) => (c.run host.traced s).2) opened
    let failed := Recording.followCpus host.traced
      (MemoryKernel.ruled { online := [0, 1, 2], failing := unmappable 3 } watched)
    let retried := Recording.followCpus host.traced
      (MemoryKernel.ruled { online := [0, 1, 2] } failed.2)
    host.Ready [0] watched ∧ watched.set.onlineCpus = [0] ∧
      failed.1 = .error (.failedDescriptor "map of 3 failed") ∧ retried.1 = .ok true ∧
      retried.2.set.files.map (fun f => (f.descriptor, f.tid, f.cpu)) =
        [(0, -1, 0), (1, -1, 1), (3, -1, 1), (4, -1, 2)] ∧
      (¬ ∀ x ∈ retried.2.set.selections, ((x.filesOn 1).map EventFile.tid).Nodup) ∧
      (retried.2.loop.drains 1).length = 2 := by
  intro host unmappable chosen opened watched failed retried
  have hunopened : chosen.Unopened := Session.unopened_of_nil (by decide +kernel)
    (by decide +kernel) (by decide +kernel)
  have honline : (host.onlineCpus chosen.world.world).1 = .ok [0] := by decide +kernel
  have hopened : (Recording.openEvents host.traced [] chosen).1 = .ok () := by decide +kernel
  have hdetached : opened.set.attached = false := by decide +kernel
  refine ⟨(MemoryKernel.ready_chosen hunopened honline hopened).awaited hdetached 8 8 [] 1000,
    ?_, ?_, ?_, ?_, ?_, ?_⟩ <;> decide +kernel

end Histories

end Profiler
