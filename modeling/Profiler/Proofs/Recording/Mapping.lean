/-
# Which buffers are mapped, and who owns them

An attempt to map the buffers of a set asks the outside for one thing per
descriptor, in the order of the selections: a buffer for the first on a cpu,
and for every other that its records go to the first. The first refusal ends
the attempt, and then every descriptor is unmapped (`Host.attempt`). Mapping
makes attempts with half as many pages each time until one succeeds
(`Recording.mapEvents_attempts`).

The first attempt starts from what the set had before: a descriptor that owned
a buffer and is not the first on its cpu now keeps it, although its records go
elsewhere. A cpu has one owner afterwards exactly if there was no such
descriptor, or an attempt was refused.

Key definitions: `BufferCall`, `SelectionSet.mappingCalls`, `Host.attempt`,
`Host.Refused`, `PageRange`, `SelectionSet.Owned`, `SelectionSet.SoleOwners`,
`SelectionSet.Bufferless`.
Key theorems: `Recording.asks_mapAll`, `Recording.mapFirst_outcome`,
`PageRange.pageCounts_eq`, `Recording.mapEvents_attempts`.
-/
import Profiler.Proofs.Recording.Placing
import Profiler.Recording.MemoryKernel

namespace Profiler

/-! ### What the outside is asked -/

def EventFile.unmappingCall (f : EventFile) : BufferCall := .unmap f.descriptor

namespace SelectionSet

/-- What is asked to give every cpu a buffer: the first descriptor on it is
mapped and the others are sent to the first. -/
def mappingCalls (s : SelectionSet) (pages : Nat) : List BufferCall :=
  s.files.map fun f => f.mappingCall (s.firstOn? f.cpu) pages

def unmappingCalls (s : SelectionSet) : List BufferCall := s.files.map EventFile.unmappingCall

end SelectionSet

namespace Host

variable {ω : Type} (host : Host ω)

/-- Ask for one thing after another until something is refused. -/
def askAll : List BufferCall → Effect ω Unit
  | [] => return
  | c :: rest => do
    host.ask c
    askAll rest

/-- Map the buffers of a set, or unmap all of them. -/
def attempt (set : SelectionSet) (pages : Nat) : Effect ω Unit :=
  Effect.onFailure (host.askAll (set.mappingCalls pages)) (host.askAll set.unmappingCalls)

/-- Attempts with these page counts were made one after another, from one
state of the outside to another, and refused for these reasons. -/
inductive Refused (set : SelectionSet) : List (Nat × Error) → ω → ω → Prop where
  | nil (w : ω) : Refused set [] w w
  | cons {pages : Nat} {e : Error} {rest : List (Nat × Error)} {w w₁ w₂ : ω} :
      host.attempt set pages w = (.error e, w₁) → Refused set rest w₁ w₂ →
      Refused set ((pages, e) :: rest) w w₂

end Host

namespace Recording

variable {ω α β : Type} {x : Recording ω α} {y : Effect ω α}

/-- To the outside the step is this, and it leaves the loop alone. -/
def Asks (x : Recording ω α) (y : Effect ω α) : Prop :=
  ∀ s, ∃ set, x s = ((y s.world).1, { s with world := (y s.world).2, set })

theorem asks_pure (a : α) : Asks (pure a : Recording ω α) (pure a) := fun s => ⟨s.set, rfl⟩

theorem asks_throw (e : Error) : Asks (throw e : Recording ω α) (throw e) := fun s => ⟨s.set, rfl⟩

theorem asks_outside (y : Effect ω α) : Asks (outside y) y := fun s => ⟨s.set, outside_eq rfl⟩

theorem Asks.bind {f : α → Recording ω β} {g : α → Effect ω β} (hx : Asks x y)
    (hf : ∀ a, Asks (f a) (g a)) : Asks (x >>= f) (y >>= g) := by
  intro s
  obtain ⟨set, hset⟩ := hx s
  cases hy : y s.world with
  | mk r w =>
    rw [hy] at hset
    cases r with
    | ok a =>
      obtain ⟨set', hset'⟩ := hf a { s with world := w, set }
      exact ⟨set', by rw [Effect.bind_of_ok hset, Effect.bind_of_ok hy, hset']⟩
    | error e => exact ⟨set, by rw [Effect.bind_of_error hset, Effect.bind_of_error hy]⟩

theorem Asks.observe (hx : Asks x y) : Asks (Effect.observe x) (Effect.observe y) := by
  intro s
  obtain ⟨set, hset⟩ := hx s
  exact ⟨set, Effect.observe_eq hset⟩

theorem Asks.modifySet (hx : Asks x y) (f : SelectionSet → SelectionSet) :
    Asks (do Recording.modifySet f; x) y := fun s => hx { s with set := f s.set }

theorem Asks.onFailure {cleanup : Recording ω Unit} {cleanup' : Effect ω Unit} (hx : Asks x y)
    (hcleanup : Asks cleanup cleanup') :
    Asks (Effect.onFailure x cleanup) (Effect.onFailure y cleanup') := by
  refine hx.observe.bind fun r => ?_
  cases r with
  | ok a => exact asks_pure a
  | error e => exact hcleanup.bind fun _ => asks_throw e

variable (host : Host ω)

/-- **Descriptors are mapped by one call each**, in their order. -/
theorem asks_mapFiles (pages : Nat) (owners : OrderedMap Nat Descriptor) (files : List EventFile)
    (hnodup : (files.map EventFile.descriptor).Nodup) (hunowned : Unowned owners files) :
    Asks (mapFiles host pages owners files)
      (host.askAll (files.map fun f => f.mappingCall (ownerOf? owners files f.cpu) pages)) := by
  induction files generalizing owners with
  | nil => exact asks_pure ()
  | cons file rest ih =>
    obtain ⟨hfirst, hrest⟩ := List.nodup_cons.mp hnodup
    obtain ⟨op, owners', hcons, -, -, howners, hunowned'⟩ :=
      mapFiles_cons host pages hfirst hunowned
    rw [hcons, List.map_cons, Host.askAll]
    refine (asks_outside _).bind fun _ => Asks.modifySet ?_ _
    rw [howners]
    exact ih owners' hrest hunowned'

theorem asks_unmapFiles : ∀ files : List EventFile,
    Asks (unmapFiles host files) (host.askAll (files.map EventFile.unmappingCall))
  | [] => asks_pure ()
  | _ :: rest => (asks_outside _).bind fun _ => (asks_unmapFiles rest).modifySet _

/-- **Mapping the descriptors of a set is one attempt.** -/
theorem asks_mapAll (pages : Nat) {set : SelectionSet} (hset : set.Distinct) :
    Asks (mapAll host pages set.files) (host.attempt set pages) := by
  have hmap := asks_mapFiles host pages ⟨[]⟩ set.files hset fun _ _ h => nomatch h
  simp only [SelectionSet.ownerOf?_files] at hmap
  exact hmap.onFailure (asks_unmapFiles host set.files)

end Recording

/-! ### Sets that differ in their buffers only -/

theorem EventFile.mappingCall_eq {f g : EventFile} (h : f.unmapped = g.unmapped)
    (owner? : Option Descriptor) (pages : Nat) :
    f.mappingCall owner? pages = g.mappingCall owner? pages := by
  unfold mappingCall
  rw [descriptor_eq h]

theorem EventFile.unmappingCall_eq {f g : EventFile} (h : f.unmapped = g.unmapped) :
    f.unmappingCall = g.unmappingCall := by
  rw [unmappingCall, unmappingCall, descriptor_eq h]

namespace SelectionSet

variable {s : SelectionSet} {g : EventFile → EventFile}

theorem firstOn?_updateFiles (hg : ∀ f, (g f).unmapped = f.unmapped) (cpu : Nat) :
    (s.updateFiles g).firstOn? cpu = s.firstOn? cpu := by
  rw [firstOn?, filesOn_updateFiles fun f => EventFile.cpu_eq (hg f), List.head?_map,
    Option.map_map, firstOn?]
  exact congrArg (Option.map · _) (funext fun f => EventFile.descriptor_eq (hg f))

theorem mappingCalls_updateFiles (hg : ∀ f, (g f).unmapped = f.unmapped) (pages : Nat) :
    (s.updateFiles g).mappingCalls pages = s.mappingCalls pages := by
  rw [mappingCalls, files_updateFiles, List.map_map, mappingCalls]
  refine List.map_congr_left fun f _ => ?_
  show (g f).mappingCall _ pages = _
  rw [EventFile.mappingCall_eq (hg f), EventFile.cpu_eq (hg f), firstOn?_updateFiles hg]

theorem unmappingCalls_updateFiles (hg : ∀ f, (g f).unmapped = f.unmapped) :
    (s.updateFiles g).unmappingCalls = s.unmappingCalls := by
  rw [unmappingCalls, files_updateFiles, List.map_map, unmappingCalls]
  exact List.map_congr_left fun f _ => EventFile.unmappingCall_eq (hg f)

theorem unplaceAll_updateFiles (hg : ∀ f, (g f).unmapped = f.unmapped) :
    (s.updateFiles g).unplaceAll = s.unplaceAll := by
  rw [unplaceAll, updateFiles_updateFiles]
  exact updateFiles_congr fun f _ => hg f

theorem unplaceAll_unplaceAll (s : SelectionSet) : s.unplaceAll.unplaceAll = s.unplaceAll :=
  unplaceAll_updateFiles EventFile.unmapped_unmapped

end SelectionSet

namespace Host

variable {ω : Type} {host : Host ω} {set : SelectionSet} {refused : List (Nat × Error)} {w w' : ω}

theorem attempt_unplaceAll (host : Host ω) (set : SelectionSet) :
    host.attempt set.unplaceAll = host.attempt set := by
  funext pages
  rw [attempt, attempt, SelectionSet.unplaceAll,
    SelectionSet.mappingCalls_updateFiles EventFile.unmapped_unmapped,
    SelectionSet.unmappingCalls_updateFiles EventFile.unmapped_unmapped]

theorem Refused.of_unplaceAll (h : host.Refused set.unplaceAll refused w w') :
    host.Refused set refused w w' := by
  induction h with
  | nil w => exact .nil w
  | cons hattempt _ ih => exact .cons (attempt_unplaceAll host set ▸ hattempt) ih

end Host

/-- The set that an attempt finds after these refusals. -/
def SelectionSet.afterRefusals (s : SelectionSet) (refused : List (Nat × Error)) : SelectionSet :=
  if refused = [] then s else s.unplaceAll

namespace SelectionSet

variable {s : SelectionSet} {refused : List (Nat × Error)}

theorem afterRefusals_cases (s : SelectionSet) (refused : List (Nat × Error)) :
    s.afterRefusals refused = s ∨ s.afterRefusals refused = s.unplaceAll := ite_eq_or_eq _ _ _

theorem afterRefusals_unplaceAll (s : SelectionSet) (refused : List (Nat × Error)) :
    s.unplaceAll.afterRefusals refused = s.unplaceAll := by
  rw [afterRefusals, s.unplaceAll_unplaceAll, ite_self]

theorem unplaceAll_afterRefusals (s : SelectionSet) (refused : List (Nat × Error)) :
    (s.afterRefusals refused).unplaceAll = s.unplaceAll := by
  unfold afterRefusals
  split
  · rfl
  · exact s.unplaceAll_unplaceAll

theorem firstOn?_afterRefusals (refused : List (Nat × Error)) (cpu : Nat) :
    (s.afterRefusals refused).firstOn? cpu = s.firstOn? cpu := by
  unfold afterRefusals
  split
  · rfl
  · exact firstOn?_updateFiles EventFile.unmapped_unmapped cpu

theorem afterRefusals_of_ne (h : refused ≠ []) : s.afterRefusals refused = s.unplaceAll := if_neg h

end SelectionSet

namespace Recording

variable {ω : Type} (host : Host ω)

/-- An attempt to map a set places its descriptors or leaves none of them
mapped. -/
theorem mapAll_attempt (pages : Nat) {s : Session ω} (hset : s.set.Distinct) :
    (∃ world, host.attempt s.set pages s.world = (.ok (), world) ∧
        mapAll host pages s.set.files s = (.ok (), { s with world, set := s.set.placeAll })) ∨
      ∃ e world, host.attempt s.set pages s.world = (.error e, world) ∧
        mapAll host pages s.set.files s =
          (.error e, { s with world, set := s.set.unplaceAll }) := by
  obtain ⟨set, hasks⟩ := asks_mapAll host pages hset s
  obtain ⟨r, s', hmap, hcases⟩ := mapAll_files_outcome host pages hset
  rw [hmap, Prod.mk.injEq] at hasks
  obtain ⟨hr, rfl⟩ := hasks
  cases hattempt : host.attempt s.set pages s.world with
  | mk r' world =>
    rw [hattempt] at hr hmap
    subst hr
    rcases hcases with ⟨rfl, hset'⟩ | ⟨⟨e, rfl⟩, hset'⟩
    · exact .inl ⟨world, rfl, by rw [hmap, ← hset']⟩
    · exact .inr ⟨e, world, rfl, by rw [hmap, ← hset']⟩

/-- **Page counts are tried in turn until one is not refused.** -/
theorem mapFirst_outcome (failure? : Option Error) (counts : List Nat) {s : Session ω}
    (hset : s.set.Distinct) :
    ∃ refused rest world, counts = refused.map Prod.fst ++ rest ∧
      host.Refused s.set refused s.world world ∧
      ((rest = [] ∧ mapFirst host failure? counts s =
          (.error (((refused.getLast?.map Prod.snd).or failure?).getD (.misuse .noPages)),
            { s with world, set := s.set.afterRefusals refused })) ∨
        ∃ pages more world', rest = pages :: more ∧
          host.attempt s.set pages world = (.ok (), world') ∧
          mapFirst host failure? counts s = (.ok (), { s with
            world := world'
            set := { (s.set.afterRefusals refused).placeAll with pages } })) := by
  induction counts generalizing failure? s with
  | nil => exact ⟨[], [], s.world, rfl, .nil _, .inl ⟨rfl, rfl⟩⟩
  | cons pages rest ih =>
    rw [mapFirst, getSet_bind]
    rcases mapAll_attempt host pages hset with ⟨world, hattempt, hmap⟩ |
      ⟨e, world, hattempt, hmap⟩
    · refine ⟨[], pages :: rest, s.world, rfl, .nil _, .inr ⟨pages, rest, world, rfl, hattempt, ?_⟩⟩
      rw [Effect.bind_of_ok (Effect.observe_eq hmap)]
      rfl
    · rw [Effect.bind_of_ok (Effect.observe_eq hmap)]
      obtain ⟨refused, left, world', hcounts, hrefused, hcases⟩ :=
        ih (some e) (s := { s with world, set := s.set.unplaceAll })
          (hset.updateFiles EventFile.unmapped_unmapped)
      refine ⟨(pages, e) :: refused, left, world', by rw [hcounts]; rfl,
        .cons hattempt hrefused.of_unplaceAll, ?_⟩
      rw [SelectionSet.afterRefusals_of_ne (List.cons_ne_nil _ _)]
      simp only [SelectionSet.afterRefusals_unplaceAll, Host.attempt_unplaceAll] at hcases
      have hlast : (((pages, e) :: refused).getLast?.map Prod.snd).or failure? =
          (refused.getLast?.map Prod.snd).or (some e) := by
        rw [List.getLast?_cons]
        cases refused.getLast? <;> rfl
      rwa [hlast]

end Recording

/-! ### The page counts that are tried -/

/-- The page counts that may be asked for. -/
structure PageRange (least most : Nat) : Prop where
  least_power : isPowerOfTwo least
  most_power : isPowerOfTwo most
  le : least ≤ most

theorem pageCounts_of_lt {least most : Nat} (h : most < least) : pageCounts least most = [] := by
  rw [pageCounts, dif_pos (.inr h)]

/-- As many halves are tried as `least` can be doubled. -/
theorem pageCounts_of_between {least : Nat} (hpos : 0 < least) :
    ∀ (k most : Nat), least <<< k ≤ most → most < least <<< (k + 1) →
      pageCounts least most = (List.range (k + 1)).map (most >>> ·)
  | 0, most, hle, hlt => by
    rw [Nat.shiftLeft_zero] at hle
    rw [Nat.shiftLeft_succ, Nat.shiftLeft_zero] at hlt
    rw [pageCounts, dif_neg (by omega), pageCounts_of_lt (by omega)]
    rfl
  | k + 1, most, hle, hlt => by
    rw [Nat.shiftLeft_succ] at hle hlt
    have hleast : least ≤ least <<< k := Nat.le_shiftLeft
    rw [pageCounts, dif_neg (by omega), pageCounts_of_between hpos k (most / 2) (by omega)
      (by omega), List.range_succ_eq_map (n := k + 1), List.map_cons, List.map_map]
    exact congrArg (most :: ·) (List.map_congr_left fun i _ =>
      (Nat.shiftRight_succ_inside most i).symm)

theorem eq_of_isPowerOfTwo {n : Nat} (h : isPowerOfTwo n) : n = 1 <<< n.log2 :=
  (beq_iff_eq.mp h).symm

theorem pos_of_isPowerOfTwo {n : Nat} (h : isPowerOfTwo n) : 0 < n := by
  rw [eq_of_isPowerOfTwo h]
  exact Nat.lt_of_lt_of_le Nat.one_pos Nat.le_shiftLeft

namespace PageRange

variable {least most : Nat}

theorem least_pos (h : PageRange least most) : 0 < least := pos_of_isPowerOfTwo h.least_power

theorem most_pos (h : PageRange least most) : 0 < most := Nat.lt_of_lt_of_le h.least_pos h.le

theorem shiftLeft_eq (h : PageRange least most) :
    least <<< (most.log2 - least.log2) = most := by
  have hlog : least.log2 ≤ most.log2 := (Nat.le_log2 (Nat.ne_of_gt h.most_pos)).mpr
    (Nat.le_trans (Nat.log2_self_le (Nat.ne_of_gt h.least_pos)) h.le)
  calc least <<< (most.log2 - least.log2)
      = 1 <<< least.log2 <<< (most.log2 - least.log2) := by
        rw [← eq_of_isPowerOfTwo h.least_power]
    _ = 1 <<< most.log2 := by rw [← Nat.shiftLeft_add, Nat.add_sub_cancel' hlog]
    _ = most := (eq_of_isPowerOfTwo h.most_power).symm

/-- **`most` is tried, its half, the half of that and so on.** -/
theorem pageCounts_eq (h : PageRange least most) :
    pageCounts least most = (List.range (most.log2 - least.log2 + 1)).map (most >>> ·) := by
  refine pageCounts_of_between h.least_pos _ most (Nat.le_of_eq h.shiftLeft_eq) ?_
  rw [Nat.shiftLeft_succ, h.shiftLeft_eq]
  have hmost := h.most_pos
  omega

theorem getLast?_pageCounts (h : PageRange least most) :
    (pageCounts least most).getLast? = some least := by
  have hlast : most >>> (most.log2 - least.log2) = least :=
    (congrArg (· >>> (most.log2 - least.log2)) h.shiftLeft_eq).symm.trans
      (Nat.shiftLeft_shiftRight least _)
  rw [h.pageCounts_eq, List.getLast?_map, List.getLast?_range, if_neg (Nat.succ_ne_zero _),
    Option.map_some, Nat.add_sub_cancel, hlast]

end PageRange

/-! ### Owners -/

theorem EventFile.buffer?_place (f : EventFile) (owner : Descriptor) :
    (f.place (some owner)).buffer? = some owner := by
  rw [place_some]
  split
  · next hself => rw [hself]; rfl
  · rfl

theorem EventFile.mapped_place (f : EventFile) (owner : Descriptor) :
    (f.place (some owner)).mapped = (decide (owner = f.descriptor) || f.mapped) := by
  rw [place_some]
  split
  · next hself => rw [decide_eq_true hself]; rfl
  · next hother => rw [decide_eq_false hother]; rfl

namespace SelectionSet

/-- On every cpu the first descriptor has a buffer, and the records of all go
there. -/
def Owned (s : SelectionSet) : Prop :=
  ∀ f ∈ s.files, f.buffer? = s.firstOn? f.cpu ∧
    (s.firstOn? f.cpu = some f.descriptor → f.mapped = true)

/-- No descriptor but the first on a cpu has a buffer. -/
def SoleOwners (s : SelectionSet) : Prop :=
  ∀ f ∈ s.files, f.mapped = true → s.firstOn? f.cpu = some f.descriptor

instance (s : SelectionSet) : Decidable s.SoleOwners :=
  inferInstanceAs (Decidable (∀ f ∈ s.files, f.mapped = true → _))

/-- No descriptor has a buffer or sends its records to one. -/
def Bufferless (s : SelectionSet) : Prop :=
  ∀ f ∈ s.files, f.mapped = false ∧ f.buffer? = none

variable {s : SelectionSet} {cpu : Nat} {f : EventFile}

theorem bufferless_unplaceAll (s : SelectionSet) : s.unplaceAll.Bufferless := by
  intro f hf
  rw [unplaceAll, files_updateFiles] at hf
  obtain ⟨f', -, rfl⟩ := List.mem_map.mp hf
  exact ⟨rfl, rfl⟩

theorem Bufferless.soleOwners (h : s.Bufferless) : s.SoleOwners := by
  intro f hf hmapped
  rw [(h f hf).1] at hmapped
  cases hmapped

theorem firstOn?_of_mem (hf : f ∈ s.files) : ∃ owner, s.firstOn? f.cpu = some owner := by
  have hmem : f ∈ s.filesOn f.cpu := mem_filesOn.mpr ⟨hf, rfl⟩
  cases hfiles : s.filesOn f.cpu with
  | nil =>
    rw [hfiles] at hmem
    cases hmem
  | cons first rest => exact ⟨first.descriptor, by rw [firstOn?, hfiles]; rfl⟩

theorem files_placeAll (s : SelectionSet) :
    s.placeAll.files = s.files.map fun f => f.place (s.firstOn? f.cpu) := s.files_updateFiles _

theorem firstOn?_placeAll (s : SelectionSet) (cpu : Nat) :
    s.placeAll.firstOn? cpu = s.firstOn? cpu := firstOn?_updateFiles (fun f => f.unmapped_place _) cpu

theorem unplaceAll_placeAll (s : SelectionSet) : s.placeAll.unplaceAll = s.unplaceAll :=
  unplaceAll_updateFiles fun f => f.unmapped_place _

theorem owned_placeAll (s : SelectionSet) : s.placeAll.Owned := by
  intro f hf
  rw [files_placeAll] at hf
  obtain ⟨f', hmem, rfl⟩ := List.mem_map.mp hf
  obtain ⟨owner, howner⟩ := firstOn?_of_mem hmem
  rw [firstOn?_placeAll, EventFile.cpu_place, EventFile.descriptor_place, howner,
    EventFile.buffer?_place, EventFile.mapped_place]
  refine ⟨rfl, fun hself => ?_⟩
  rw [decide_eq_true (Option.some.inj hself), Bool.true_or]

theorem Owned.bufferOwner? (h : s.Owned) (cpu : Nat) : s.bufferOwner? cpu = s.firstOn? cpu := by
  unfold SelectionSet.bufferOwner? firstOn?
  cases hfiles : s.filesOn cpu with
  | nil => rfl
  | cons first rest =>
    obtain ⟨hmem, rfl⟩ := mem_filesOn.mp (hfiles ▸ List.mem_cons_self : first ∈ s.filesOn cpu)
    have hmapped : first.mapped = true := (h first hmem).2 (by rw [firstOn?, hfiles]; rfl)
    rw [List.find?_cons_of_pos hmapped]
    rfl

/-- Placing leaves the owners that are not the first on their cpu, and makes no
others. -/
theorem soleOwners_placeAll_iff : s.placeAll.SoleOwners ↔ s.SoleOwners := by
  unfold SoleOwners
  rw [files_placeAll, List.forall_mem_map]
  refine forall₂_congr fun f hf => ?_
  obtain ⟨owner, howner⟩ := firstOn?_of_mem hf
  rw [firstOn?_placeAll, EventFile.cpu_place, EventFile.descriptor_place, howner,
    EventFile.mapped_place, Bool.or_eq_true, decide_eq_true_eq, Option.some_inj]
  exact ⟨fun h hmapped => h (.inr hmapped), fun h => Or.rec id h⟩

/-- After a refusal the set has no owners to begin with. -/
theorem soleOwners_afterRefusals_iff (refused : List (Nat × Error)) :
    (s.afterRefusals refused).SoleOwners ↔ refused ≠ [] ∨ s.SoleOwners := by
  unfold afterRefusals
  split
  · next hnone => exact ⟨.inr, fun h => h.resolve_left fun hsome => hsome hnone⟩
  · next hsome => exact ⟨fun _ => .inl hsome, fun _ => s.bufferless_unplaceAll.soleOwners⟩

end SelectionSet

namespace Recording

variable {ω : Type}

theorem mapEvents_of_range (host : Host ω) {least most : Nat} (h : PageRange least most) :
    mapEvents host least most = mapFirst host none (pageCounts least most) := by
  rw [mapEvents, h.least_power, h.most_power, decide_eq_false (Nat.not_lt.mpr h.le)]
  rfl

theorem mapEvents_of_not_range (host : Host ω) {least most : Nat} (h : ¬PageRange least most)
    (s : Session ω) :
    mapEvents host least most s = (.error (.misuse (.pageRange least most)), s) := by
  have hguard : (!isPowerOfTwo least || !isPowerOfTwo most || decide (most < least)) = true := by
    by_contra hnot
    simp only [Bool.or_eq_true, not_or, Bool.not_eq_true', Bool.not_eq_false, decide_eq_true_eq,
      Nat.not_lt] at hnot
    exact h ⟨hnot.1.1, hnot.1.2, hnot.2⟩
  rw [mapEvents, if_pos hguard]
  rfl

/-- **Mapping** places every descriptor, with or without the buffers there were
before, or leaves none of them mapped, or changes nothing. -/
theorem mapEvents_outcome (host : Host ω) (least most : Nat) {s : Session (Traced ω)}
    (hset : s.set.Distinct) :
    ∃ r s', mapEvents host.traced least most s = (r, s') ∧ s.Went s' 0 [] ∧
      ∃ set, (set = s.set ∨ set = s.set.unplaceAll) ∧
        ((r = .ok () ∧ ∃ pages, s'.set = { set.placeAll with pages }) ∨
          (∃ e, r = .error e) ∧ s'.set = set) := by
  obtain ⟨r, s', hrun⟩ : ∃ r s', mapEvents host.traced least most s = (r, s') := ⟨_, _, rfl⟩
  have hwent : s.Went s' 0 [] := Session.went_of_course (by
    rw [← leaves_mapEvents (bufferless_course host) least most s, hrun])
  refine ⟨r, s', hrun, hwent, ?_⟩
  by_cases hrange : PageRange least most
  · rw [mapEvents_of_range host.traced hrange] at hrun
    obtain ⟨refused, _, world, -, -, hcases⟩ :=
      mapFirst_outcome host.traced none (pageCounts least most) hset
    refine ⟨s.set.afterRefusals refused, s.set.afterRefusals_cases refused, ?_⟩
    rcases hcases with ⟨-, hmap⟩ | ⟨pages, more, world', -, -, hmap⟩
    · obtain ⟨rfl, rfl⟩ := Prod.mk.inj (hrun.symm.trans hmap)
      exact .inr ⟨⟨_, rfl⟩, rfl⟩
    · obtain ⟨rfl, rfl⟩ := Prod.mk.inj (hrun.symm.trans hmap)
      exact .inl ⟨rfl, pages, rfl⟩
  · rw [mapEvents_of_not_range host.traced hrange] at hrun
    obtain ⟨rfl, rfl⟩ := Prod.mk.inj hrun
    exact ⟨s.set, .inl rfl, .inr ⟨⟨_, rfl⟩, rfl⟩⟩

theorem attached_mapEvents (host : Host ω) (least most : Nat) {s : Session (Traced ω)}
    (hset : s.set.Distinct) :
    (mapEvents host.traced least most s).2.set.attached = s.set.attached := by
  obtain ⟨r, s', heq, -, set, hkept, hcases⟩ := mapEvents_outcome host least most hset
  have hattached : set.attached = s.set.attached := by
    rcases hkept with rfl | rfl <;> rfl
  rw [heq, ← hattached]
  rcases hcases with ⟨-, pages, hset'⟩ | ⟨-, hset'⟩ <;> rw [hset']
  rfl

/-- **Every cpu has a buffer or none has.** In a range of page counts, `most`
and its halves down to `least` are tried, each by asking for the buffers of all
descriptors, until one is not refused. Then the first descriptor on every cpu
owns the buffer that the records of all there go to; and it is the sole owner,
unless another owned one before and nothing was refused. If all are refused, the
last with `least` pages, then no descriptor has a buffer. Outside a range nothing
is asked. -/
theorem mapEvents_attempts (host : Host ω) (least most : Nat) {s : Session ω}
    (hset : s.set.Distinct) :
    ∃ r s', mapEvents host least most s = (r, s') ∧
      (¬PageRange least most → r = .error (.misuse (.pageRange least most)) ∧ s' = s) ∧
      (PageRange least most → ∃ refused rest world,
        (List.range (most.log2 - least.log2 + 1)).map (most >>> ·) =
          refused.map Prod.fst ++ rest ∧
        host.Refused s.set refused s.world world ∧
        s'.loop = s.loop ∧
        s'.set.unplaceAll = { s.set with pages := s'.set.pages }.unplaceAll ∧
        ((rest = [] ∧ s'.world = world ∧
            (∃ e, refused.getLast? = some (least, e) ∧ r = .error e) ∧
            s'.set.Bufferless ∧ s'.set.pages = s.set.pages) ∨
          ∃ pages more, rest = pages :: more ∧
            host.attempt s.set pages world = (.ok (), s'.world) ∧
            r = .ok () ∧ s'.set.pages = pages ∧ s'.set.Owned ∧
            (∀ cpu, s'.set.bufferOwner? cpu = s.set.firstOn? cpu) ∧
            (s'.set.SoleOwners ↔ refused ≠ [] ∨ s.set.SoleOwners))) := by
  by_cases hrange : PageRange least most
  · rw [mapEvents_of_range host hrange]
    obtain ⟨refused, rest, world, hcounts, hrefused, hcases⟩ :=
      mapFirst_outcome host none (pageCounts least most) hset
    have htried := hrange.pageCounts_eq.symm.trans hcounts
    rcases hcases with ⟨rfl, hmap⟩ | ⟨pages, more, world', rfl, hattempt, hmap⟩
    · have hlast := hrange.getLast?_pageCounts
      rw [hcounts, List.append_nil, List.getLast?_map, Option.map_eq_some_iff] at hlast
      obtain ⟨⟨_, e⟩, hlast, rfl⟩ := hlast
      have hsome : refused ≠ [] := List.ne_nil_of_mem (List.mem_of_getLast? hlast)
      rw [SelectionSet.afterRefusals_of_ne hsome, hlast] at hmap
      exact ⟨_, _, hmap, absurd hrange, fun _ => ⟨refused, [], world, htried, hrefused, rfl,
        s.set.unplaceAll_unplaceAll, .inl ⟨rfl, rfl, ⟨e, hlast, rfl⟩,
          s.set.bufferless_unplaceAll, rfl⟩⟩⟩
    · refine ⟨_, _, hmap, absurd hrange, fun _ => ⟨refused, pages :: more, world, htried, hrefused,
        rfl, ?_, .inr ⟨pages, more, rfl, hattempt, rfl, rfl, ?_, ?_, ?_⟩⟩⟩
      · show { (s.set.afterRefusals refused).placeAll.unplaceAll with pages } =
          { s.set.unplaceAll with pages }
        rw [SelectionSet.unplaceAll_placeAll, SelectionSet.unplaceAll_afterRefusals]
      · exact SelectionSet.owned_placeAll _
      · intro cpu
        exact (SelectionSet.owned_placeAll _).bufferOwner? cpu |>.trans
          (SelectionSet.firstOn?_placeAll _ cpu) |>.trans
          (SelectionSet.firstOn?_afterRefusals refused cpu)
      · exact SelectionSet.soleOwners_placeAll_iff.trans
          (SelectionSet.soleOwners_afterRefusals_iff refused)
  · rw [mapEvents_of_not_range host hrange]
    exact ⟨_, _, rfl, fun _ => ⟨rfl, rfl⟩, fun h => absurd h hrange⟩

/-- Sixteen pages are refused, and eight are taken. -/
theorem mapEvents_attempts_halved :
    let host := MemoryKernel.host
    let choose : Recording MemoryKernel Unit := do
      addGroup host ["cpu-clock"]
      addGroup host ["task-clock"]
      modifySet (·.addThread SelectionSet.everyThread)
      openEvents host []
    let s := (choose { world := { rules := { maxPages := 8 } } }).2
    let s' := (mapEvents host 8 16 s).2
    s.set.Distinct ∧ PageRange 8 16 ∧ (mapEvents host 8 16 s).1 = .ok () ∧
      s'.set.pages = 8 ∧ s'.set.Owned ∧ s'.set.SoleOwners ∧
      ∀ cpu, s'.set.bufferOwner? cpu = s.set.firstOn? cpu := by
  intro host choose s s'
  have hdistinct : s.set.Distinct := by decide +kernel
  have hrange : PageRange 8 16 := ⟨by decide, by decide, by decide⟩
  have hok : (mapEvents host 8 16 s).1 = .ok () := by decide +kernel
  have hpages : s'.set.pages = 8 := by decide +kernel
  have hbefore : s.set.SoleOwners := by decide +kernel
  clear_value s
  refine ⟨hdistinct, hrange, hok, hpages, ?_⟩
  obtain ⟨r, t, hmap, -, htried⟩ := mapEvents_attempts host 8 16 hdistinct
  obtain ⟨refused, rest, world, -, -, -, -, hcases⟩ := htried hrange
  have hs' : s' = t := congrArg Prod.snd hmap
  rw [hmap] at hok
  rw [hs']
  rcases hcases with ⟨-, -, ⟨e, -, herror⟩, -⟩ |
    ⟨pages, more, -, -, -, -, howned, howner, hsole⟩
  · rw [herror] at hok
    cases hok
  · exact ⟨howned, hsole.mpr (.inr hbefore), howner⟩

/-- **A second mapping leaves an owner.** The first event is refused on cpu 1
and the second one, descriptor 3, owns the buffer there; when the first is opened
there too, descriptor 4 comes to own a buffer, and descriptor 3 still does. -/
theorem not_soleOwners_mapEvents :
    let host := MemoryKernel.host
    let choose : Recording MemoryKernel Unit := do
      addGroup host ["cpu-clock"]
      addGroup host ["task-clock"]
      modifySet (·.addThread SelectionSet.everyThread)
      openEvents host []
      mapEvents host 8 8
    let mapped := (choose { world := { rules := { refusals := [⟨0, 1, false⟩] } } }).2
    let s := (openEvents host [1] { mapped with world := { mapped.world with rules := {} } }).2
    let s' := (mapEvents host 8 8 s).2
    s.set.Distinct ∧ PageRange 8 8 ∧ (mapEvents host 8 8 s).1 = .ok () ∧
      (s'.set.filesOn 1).map (fun f => (f.descriptor, f.mapped, f.buffer?)) =
        [(4, true, some 4), (3, true, some 4), (5, false, some 4)] ∧ ¬s'.set.SoleOwners := by
  intro host choose mapped s s'
  exact ⟨by decide +kernel, ⟨by decide, by decide, by decide⟩, by decide +kernel,
    by decide +kernel, by decide +kernel⟩

end Recording
end Profiler
