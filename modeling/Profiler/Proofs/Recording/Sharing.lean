/-
# Buffers that are shared and waited for

The descriptors on a cpu share one buffer or have none (`Buffered`), which
mapping them keeps. The loop of a recording waits for the buffers by events
whose handles ascend (`EventLoop.Numbered`), and the set knows the event of each
cpu (`Session.Watches`), so that no more than one waits for it.

Key definitions: `EventLoop.Numbered`, `EventLoop.drains`, `Session.Watches`,
`Buffered`.
Key theorems: `EventLoop.length_drains_le`, `Session.watches_awaiting_self`,
`Session.drains_unwatching_self`, `Buffered.place`, `Buffered.length_mapped_le`.
-/
import Profiler.Proofs.Recording.Turns

namespace Profiler

/-! ### What the loop waits for -/

namespace EventLoop

variable {l : EventLoop RecordingTask} {cpu : Nat}

/-- Events are listed by their handles, and the next handle is behind them. -/
structure Numbered (l : EventLoop RecordingTask) : Prop where
  ascending : l.events.Ascending
  below : ∀ e ∈ l.events.entries, e.1 < l.nextHandle

/-- The events that wait for the buffer of a cpu. -/
def drains (l : EventLoop RecordingTask) (cpu : Nat) :
    List (EventHandle × LoopEvent RecordingTask) :=
  l.events.entries.filter fun e => e.2.callback = .drain cpu

theorem Numbered.entries_add (h : l.Numbered) (source : EventSource) (task : RecordingTask) :
    (l.add source task).2.events.entries =
      l.events.entries ++ [(l.nextHandle, { source, callback := task })] :=
  congrArg OrderedMap.entries (OrderedMap.insert_of_forall_lt h.below)

theorem Numbered.add (h : l.Numbered) (source : EventSource) (task : RecordingTask) :
    (l.add source task).2.Numbered where
  ascending := h.ascending.insert _ _
  below e he := by
    rw [h.entries_add, List.mem_append, List.mem_singleton] at he
    rcases he with he | rfl
    · exact Nat.lt_succ_of_lt (h.below e he)
    · exact Nat.lt_succ_self _

theorem Numbered.delete (h : l.Numbered) (handle : EventHandle) : (l.delete handle).2.Numbered where
  ascending := h.ascending.sublist (List.filter_sublist.map Prod.fst)
  below e he := h.below e (List.mem_of_mem_filter he)

theorem drains_add_self (h : l.Numbered) (source : EventSource) (cpu : Nat) :
    (l.add source (.drain cpu)).2.drains cpu =
      l.drains cpu ++ [(l.nextHandle, { source, callback := .drain cpu })] := by
  rw [drains, h.entries_add, List.filter_append, drains]
  simp

theorem drains_add_of_ne (h : l.Numbered) (source : EventSource) {task : RecordingTask}
    (hne : task ≠ .drain cpu) : (l.add source task).2.drains cpu = l.drains cpu := by
  rw [drains, h.entries_add, List.filter_append, drains]
  simp [hne]

theorem mem_drains_delete {handle : EventHandle} {e : EventHandle × LoopEvent RecordingTask}
    (he : e ∈ (l.delete handle).2.drains cpu) : e ∈ l.drains cpu ∧ e.1 ≠ handle := by
  obtain ⟨hmem, htask⟩ := List.mem_filter.mp he
  obtain ⟨hmem, hne⟩ := List.mem_filter.mp hmem
  exact ⟨List.mem_filter.mpr ⟨hmem, htask⟩, of_decide_eq_true hne⟩

/-- Where all events that wait for a cpu have one handle, there is at most
one. -/
theorem length_drains_le (h : l.Numbered) {handle? : Option EventHandle}
    (hknown : ∀ e ∈ l.drains cpu, handle? = some e.1) : (l.drains cpu).length ≤ 1 := by
  have hpairwise : (l.drains cpu).Pairwise fun e e' => e.1 < e'.1 :=
    (List.pairwise_map.mp h.ascending).filter _
  cases hdrains : l.drains cpu with
  | nil => exact Nat.zero_le 1
  | cons e rest =>
    cases rest with
    | nil => exact Nat.le_refl 1
    | cons e' rest =>
      rw [hdrains] at hknown hpairwise
      have hlt : e.1 < e'.1 := (List.pairwise_cons.mp hpairwise).1 e' List.mem_cons_self
      have hfirst := hknown e List.mem_cons_self
      have hsecond := hknown e' (List.mem_cons_of_mem _ List.mem_cons_self)
      exact absurd (Option.some.inj (hfirst.symm.trans hsecond)) (Nat.ne_of_lt hlt)

end EventLoop

/-- The set knows the event that waits for the buffer of a cpu. Where events
are sampled there is none for a cpu without descriptors. -/
structure Session.Watches {ω : Type} (s : Session ω) (cpu : Nat) : Prop where
  known : ∀ e ∈ s.loop.drains cpu, s.set.readEvents.get? cpu = some e.1
  idle : s.set.counting = false → s.set.filesOn cpu = [] → s.loop.drains cpu = []

namespace Session

variable {ω : Type} {s : Session ω} {cpu other : Nat}

theorem numbered_awaiting (h : s.loop.Numbered) (cpu : Nat) : (s.awaiting cpu).loop.Numbered := by
  unfold awaiting
  split
  · exact h
  · exact h.add _ _

theorem numbered_unwatching (h : s.loop.Numbered) (cpu : Nat) :
    (s.unwatching cpu).loop.Numbered := by
  unfold unwatching
  split
  · exact h
  · exact h.delete _

theorem filesOn_awaiting (s : Session ω) (cpu other : Nat) :
    (s.awaiting cpu).set.filesOn other = s.set.filesOn other := by
  rw [set_awaiting]
  rfl

theorem filesOn_unwatching (s : Session ω) (cpu other : Nat) :
    (s.unwatching cpu).set.filesOn other = s.set.filesOn other := by
  rw [set_unwatching]
  rfl

theorem counting_awaiting (s : Session ω) (cpu : Nat) :
    (s.awaiting cpu).set.counting = s.set.counting := by
  rw [set_awaiting]

theorem counting_unwatching (s : Session ω) (cpu : Nat) :
    (s.unwatching cpu).set.counting = s.set.counting := by
  rw [set_unwatching]

theorem watches_awaiting_self (hloop : s.loop.Numbered) (hnone : s.loop.drains cpu = []) :
    (s.awaiting cpu).Watches cpu := by
  unfold awaiting
  cases howner : s.set.bufferOwner? cpu with
  | none => exact ⟨by rw [hnone]; exact List.forall_mem_nil _, fun _ _ => hnone⟩
  | some owner =>
    refine ⟨fun e he => ?_, fun _ hfiles => ?_⟩
    · have hmem : e ∈ (s.loop.add (.descriptor owner) (.drain cpu)).2.drains cpu := he
      rw [EventLoop.drains_add_self hloop, hnone, List.nil_append, List.mem_singleton] at hmem
      rw [hmem]
      exact OrderedMap.get?_insert_self _ _ _
    · have hnofiles : s.set.filesOn cpu = [] := hfiles
      rw [SelectionSet.bufferOwner?, hnofiles] at howner
      cases howner

theorem drains_awaiting_of_ne (hloop : s.loop.Numbered) (h : other ≠ cpu) :
    (s.awaiting cpu).loop.drains other = s.loop.drains other := by
  unfold awaiting
  split
  · rfl
  · exact EventLoop.drains_add_of_ne hloop _ fun heq => h (RecordingTask.drain.inj heq).symm

theorem Watches.awaiting_of_ne (hwatches : s.Watches other) (hloop : s.loop.Numbered)
    (h : other ≠ cpu) : (s.awaiting cpu).Watches other := by
  have hdrains := drains_awaiting_of_ne hloop h
  refine ⟨fun e he => ?_, fun hsampling hfiles => ?_⟩
  · have hknown := hwatches.known e (hdrains ▸ he)
    unfold awaiting
    split
    · exact hknown
    · exact (OrderedMap.get?_insert_of_ne _ _ h.symm).trans hknown
  · rw [hdrains]
    exact hwatches.idle (counting_awaiting s cpu ▸ hsampling)
      (filesOn_awaiting s cpu other ▸ hfiles)

theorem drains_unwatching_self (hwatches : s.Watches cpu) :
    (s.unwatching cpu).loop.drains cpu = [] := by
  unfold unwatching
  cases hhandle : s.set.readEvents.get? cpu with
  | none =>
    refine List.eq_nil_iff_forall_not_mem.mpr fun e he => ?_
    have hknown := hwatches.known e he
    rw [hhandle] at hknown
    cases hknown
  | some handle =>
    refine List.eq_nil_iff_forall_not_mem.mpr fun e he => ?_
    obtain ⟨hmem, hne⟩ := EventLoop.mem_drains_delete he
    exact hne (Option.some.inj (hhandle.symm.trans (hwatches.known e hmem))).symm

theorem mem_drains_unwatching {e : EventHandle × LoopEvent RecordingTask}
    (he : e ∈ (s.unwatching cpu).loop.drains other) : e ∈ s.loop.drains other := by
  unfold unwatching at he
  split at he
  · exact he
  · exact (EventLoop.mem_drains_delete he).1

theorem Watches.unwatching (hwatches : s.Watches other) (cpu : Nat) :
    (s.unwatching cpu).Watches other := by
  refine ⟨fun e he => ?_, fun hsampling hfiles => List.eq_nil_iff_forall_not_mem.mpr fun e he => ?_⟩
  · by_cases heq : other = cpu
    · subst heq
      rw [drains_unwatching_self hwatches] at he
      exact absurd he List.not_mem_nil
    · have hknown := hwatches.known e (mem_drains_unwatching he)
      unfold Session.unwatching
      split
      · exact hknown
      · exact (OrderedMap.get?_erase_of_ne _ (Ne.symm heq)).trans hknown
  · have hmem := mem_drains_unwatching he
    rw [hwatches.idle (counting_unwatching s cpu ▸ hsampling)
      (filesOn_unwatching s cpu other ▸ hfiles)] at hmem
    exact absurd hmem List.not_mem_nil

end Session

/-! ### Buffers that are shared -/

/-- The descriptors share the buffer of the first one, which alone is mapped,
or none of them has a buffer. -/
def Buffered (files : List EventFile) : Prop :=
  ∃ owner? : Option Descriptor, (owner? = none ∨ owner? = files.head?.map EventFile.descriptor) ∧
    ∀ f ∈ files, f.buffer? = owner? ∧ (f.mapped = true ↔ owner? = some f.descriptor)

namespace Buffered

variable {files : List EventFile}

theorem of_unmapped (h : ∀ f ∈ files, f.unmapped = f) : Buffered files :=
  ⟨none, .inl rfl, fun f hf => by rw [← h f hf]; exact ⟨rfl, nofun, nofun⟩⟩

theorem map_unmapped (files : List EventFile) : Buffered (files.map EventFile.unmapped) :=
  of_unmapped (List.forall_mem_map.mpr fun _ _ => rfl)

/-- **Descriptors that are mapped share a buffer.** -/
theorem place (h : Buffered files) :
    Buffered (files.map (EventFile.place (files.head?.map EventFile.descriptor))) := by
  obtain ⟨owner?, howner, hall⟩ := h
  cases files with
  | nil => exact ⟨none, .inl rfl, List.forall_mem_nil _⟩
  | cons lead rest =>
    refine ⟨some lead.descriptor, .inr ?_, List.forall_mem_map.mpr fun f hf => ?_⟩
    · exact congrArg some (lead.descriptor_place _).symm
    · have hplace : f.place ((lead :: rest).head?.map EventFile.descriptor) =
          if lead.descriptor = f.descriptor then f.own else f.sendTo lead.descriptor := rfl
      rw [EventFile.descriptor_place, hplace]
      by_cases hlead : lead.descriptor = f.descriptor
      · rw [if_pos hlead]
        exact ⟨congrArg some hlead.symm, fun _ => congrArg some hlead, fun _ => rfl⟩
      · rw [if_neg hlead]
        refine ⟨rfl, fun hmapped => ?_, fun heq => absurd (Option.some.inj heq) hlead⟩
        have hsome := (hall f hf).2.mp hmapped
        rcases howner with rfl | rfl
        · cases hsome
        · exact hsome

/-- At most one of them is mapped. -/
theorem length_mapped_le (h : Buffered files) (hdistinct : (files.map EventFile.descriptor).Nodup) :
    (files.filter (·.mapped)).length ≤ 1 := by
  obtain ⟨owner?, -, hall⟩ := h
  have hnodup : ((files.filter (·.mapped)).map EventFile.descriptor).Nodup :=
    (List.filter_sublist.map _).nodup hdistinct
  have hone : ∀ f ∈ files.filter (·.mapped), owner? = some f.descriptor := fun f hf =>
    (hall f (List.mem_of_mem_filter hf)).2.mp (List.of_mem_filter hf)
  generalize files.filter (·.mapped) = mapped at hnodup hone
  match mapped, hnodup, hone with
  | [], _, _ => exact Nat.zero_le 1
  | [_], _, _ => exact Nat.le_refl 1
  | f :: f' :: rest, hnodup, hone =>
    have hne := (List.nodup_cons.mp hnodup).1
    have heq : f.descriptor = f'.descriptor := Option.some.inj
      ((hone f List.mem_cons_self).symm.trans
        (hone f' (List.mem_cons_of_mem _ List.mem_cons_self)))
    exact absurd (heq ▸ List.mem_cons_self) hne

theorem find?_mapped (h : Buffered files) {f : EventFile} (hf : f ∈ files) {b : Descriptor}
    (hb : f.buffer? = some b) : (files.find? (·.mapped)).map EventFile.descriptor = some b := by
  obtain ⟨owner?, howner, hall⟩ := h
  obtain rfl : owner? = some b := (hall f hf).1.symm.trans hb
  cases files with
  | nil => exact absurd hf List.not_mem_nil
  | cons lead rest =>
    have hlead : some b = some lead.descriptor := howner.resolve_left nofun
    have hmapped : lead.mapped = true := (hall lead List.mem_cons_self).2.mpr hlead
    rw [List.find?_cons_of_pos hmapped]
    exact hlead.symm

end Buffered

end Profiler
