/-
# Readings that leaving a cpu takes

Where events are only counted, leaving a cpu reads its counters one by one and
keeps each reading at once, and closes the descriptors when all are read. Where
a counter cannot be read, the readings before it have been kept, although their
descriptors stay open (`Recording.leaveCpus_outcome`). So whatever comes of
following the cpus, each selection keeps exactly the readings that were taken
from its descriptors (`Recording.followCpus_kept`).

Key definitions: `SelectionSet.keptAt`, `Session.Took`, `Session.Spares`,
`Recording.StoppedAt`.
Key theorems: `Session.Took.trans`, `Session.Took.kept`,
`Recording.leaveCpus_outcome`, `Recording.followCpus_took`,
`Recording.followCpus_kept`.
-/
import Profiler.Proofs.Recording.Counting

namespace Profiler

/-! ### The readings that are kept -/

namespace SelectionSet

variable {s s' : SelectionSet} {k : Nat}

/-- The readings that the selection at a place has kept. -/
def keptAt (s : SelectionSet) (k : Nat) : List CounterInfo :=
  (s.selections[k]?.map Selection.kept).getD []

theorem keptAt_of_getElem? {x : Selection} (hx : s.selections[k]? = some x) :
    s.keptAt k = x.kept := by
  rw [keptAt, hx]
  rfl

theorem keptAt_congr
    (h : s'.selections.map Selection.kept = s.selections.map Selection.kept) :
    s'.keptAt = s.keptAt := by
  funext k
  rw [keptAt, keptAt, ← List.getElem?_map, h, List.getElem?_map]

theorem keptAt_mapSelections {f : Selection → Selection} (hf : ∀ x, (f x).kept = x.kept) :
    (s.mapSelections f).keptAt = s.keptAt := by
  refine keptAt_congr ?_
  rw [selections_mapSelections, List.map_map]
  exact List.map_congr_left fun x _ => hf x

theorem keptAt_of_account (h : s'.account = s.account) : s'.keptAt = s.keptAt := by
  have hkept : ∀ set : SelectionSet,
      set.selections.map Selection.kept = set.account.2.1.flatten.map Prod.snd := fun set => by
    simp only [selections, account, List.map_flatten, List.map_map, Function.comp_def]
  exact keptAt_congr (by rw [hkept, h, ← hkept])

theorem keptAt_takeAll {change : Attr → Attr} {as : List Attempt} {n : Nat}
    (h : Attempt.Run change s n as) : (s.takeAll as).keptAt = s.keptAt := by
  have hsame : s.selections.map Selection.kept = (s.takeAll as).selections.map Selection.kept := by
    rw [← List.forall₂_eq_eq_eq, List.forall₂_map_left_iff, List.forall₂_map_right_iff]
    refine (forall₂_takeAll h).imp fun x x' hentered => ?_
    obtain ⟨new, rfl, -⟩ := hentered
    rfl
  exact (keptAt_congr hsame).symm

/-- A group that has kept nothing. -/
theorem keptAt_append {group : List Selection} (hgroup : ∀ x ∈ group, x.kept = []) :
    ({ s with groups := s.groups ++ [group] } : SelectionSet).keptAt = s.keptAt := by
  funext k
  have hselections : ({ s with groups := s.groups ++ [group] } : SelectionSet).selections =
      s.selections ++ group := by
    rw [selections, List.flatten_append, List.flatten_singleton]
    rfl
  rw [keptAt, keptAt, hselections]
  by_cases hk : k < s.selections.length
  · rw [List.getElem?_append_left hk]
  · have hle := Nat.le_of_not_lt hk
    rw [List.getElem?_append_right hle, List.getElem?_eq_none hle]
    cases hx : group[k - s.selections.length]? with
    | none => rfl
    | some x => exact hgroup x (List.mem_of_getElem? hx)

/-! ### Readings and cpus that are forgotten -/

theorem forget_true (s : SelectionSet) : s.forget (fun _ => true) = s := by
  simp only [forget, mapSelections, List.filter_true, List.map_id']

theorem forget_forget (s : SelectionSet) (keep keep' : Nat → Bool) :
    (s.forget keep).forget keep' = s.forget fun cpu => keep cpu && keep' cpu := by
  simp only [forget, mapSelections, List.map_map, Function.comp_def, List.filter_filter,
    Bool.and_comm]

theorem files_keepAll (s : SelectionSet) (readings : List (EventFile × CounterValue)) :
    (s.keepAll readings).files = s.files := by
  have hheld : ∀ set : SelectionSet, set.files = set.held.flatten := fun _ => List.flatMap_def
  rw [hheld, held_keepAll, ← hheld]

theorem keepAll_append (s : SelectionSet) (readings readings' : List (EventFile × CounterValue)) :
    s.keepAll (readings ++ readings') = (s.keepAll readings).keepAll readings' := List.foldl_append

/-- Readings of descriptors that stay may be kept before others are
forgotten. -/
theorem keepAll_forget (hdistinct : s.Distinct) {keep : Nat → Bool}
    {readings : List (EventFile × CounterValue)}
    (hheld : ∀ p ∈ readings, p.1 ∈ (s.forget keep).files) :
    (s.forget keep).keepAll readings = (s.keepAll readings).forget keep := by
  rw [keepAll_eq, keepAll_eq, forget, forget]
  simp only [mapSelections, List.map_map]
  congr 1
  refine List.map_congr_left fun group hgroup => ?_
  show List.map _ (group.map _) = List.map _ (group.map _)
  rw [List.map_map, List.map_map]
  refine List.map_congr_left fun x hx => ?_
  have hfile : ∀ f ∈ x.files, f ∈ s.files := fun f hf =>
    List.mem_flatMap.mpr ⟨x, List.mem_flatten.mpr ⟨group, hgroup, hx⟩, hf⟩
  have hsame : ∀ p ∈ readings, ((x.files.filter fun f => keep f.cpu).any
      (·.descriptor == p.1.descriptor)) = x.files.any (·.descriptor == p.1.descriptor) := by
    intro p hp
    have hboth := hheld p hp
    rw [files_forget, List.mem_filter] at hboth
    rw [Bool.eq_iff_iff, List.any_eq_true, List.any_eq_true]
    constructor
    · rintro ⟨f, hf, hd⟩
      exact ⟨f, List.mem_of_mem_filter hf, hd⟩
    · rintro ⟨f, hf, hd⟩
      obtain rfl : f = p.1 := hdistinct.eq (hfile f hf) hboth.1 (beq_iff_eq.mp hd)
      exact ⟨p.1, List.mem_filter.mpr ⟨hf, hboth.2⟩, hd⟩
  show Selection.mk _ _ _ _ = Selection.mk _ _ _ _
  congr 2
  exact congrArg _ (List.filter_congr hsame)

end SelectionSet

/-! ### From one session to another -/

theorem Trace.mem_counts_iff {readings : List (EventFile × CounterValue)} {d : Descriptor}
    {v : CounterValue} :
    .counted d v ∈ counts readings ↔ ∃ p ∈ readings, p.1.descriptor = d ∧ p.2 = v := by
  simp only [counts, List.mem_reverse, List.mem_map, Happening.counted.injEq]

namespace Session

variable {ω : Type} {s s' s'' : Session (Traced ω)} {k : Nat}

theorem saw_iff {τ : Trace} (h : s'.world.trace = τ ++ s.world.trace) (x : Happening) :
    s.Saw s' x ↔ x ∈ τ := by
  constructor
  · rintro ⟨τ', htrace, hx⟩
    rwa [List.append_cancel_right (htrace.symm.trans h)] at hx
  · exact fun hx => ⟨τ, h, hx⟩

/-- The counters of descriptors were read and the readings kept, and some cpus
were forgotten. -/
structure Took (s s' : Session (Traced ω)) (readings : List (EventFile × CounterValue)) :
    Prop where
  set : ∃ keep, s'.set = (s.set.keepAll readings).forget keep
  held : ∀ p ∈ readings, p.1 ∈ s.set.files
  trace : ∃ τ, s'.world.trace = τ ++ s.world.trace ∧
    ∀ d v, .counted d v ∈ τ ↔ ∃ p ∈ readings, p.1.descriptor = d ∧ p.2 = v

/-- No reading was kept or dropped, and no counter was read. -/
structure Spares (s s' : Session (Traced ω)) : Prop where
  kept : s'.set.keptAt = s.set.keptAt
  trace : ∃ τ, s'.world.trace = τ ++ s.world.trace ∧ ∀ x ∈ τ, Happening.isReading x = false

namespace Took

variable {readings readings' : List (EventFile × CounterValue)}

theorem nothing {n : Nat} {τ : Trace} (hset : s'.set = s.set) (hwent : s.Went s' n τ)
    (hτ : ∀ x ∈ τ, Happening.isReading x = false) : s.Took s' [] := by
  refine ⟨⟨fun _ => true, ?_⟩, List.forall_mem_nil _, τ, hwent.trace, fun d v => ?_⟩
  · rw [hset, SelectionSet.forget_true]
    rfl
  · refine ⟨fun hx => ?_, fun ⟨p, hp, _⟩ => absurd hp List.not_mem_nil⟩
    cases hτ _ hx

theorem of_keepAll {n : Nat} (τ : Trace) (keep : Nat → Bool)
    (hset : s'.set = (s.set.keepAll readings).forget keep)
    (hheld : ∀ p ∈ readings, p.1 ∈ s.set.files)
    (hwent : s.Went s' n (τ ++ Trace.counts readings))
    (hτ : ∀ x ∈ τ, Happening.isReading x = false) : s.Took s' readings := by
  refine ⟨⟨keep, hset⟩, hheld, _, hwent.trace, fun d v => ?_⟩
  rw [List.mem_append, Trace.mem_counts_iff, or_iff_right]
  intro hx
  cases hτ _ hx

theorem mem_files (h : s.Took s' readings) {f : EventFile} (hf : f ∈ s'.set.files) :
    f ∈ s.set.files := by
  obtain ⟨keep, hset⟩ := h.set
  rw [hset, SelectionSet.files_forget, SelectionSet.files_keepAll] at hf
  exact List.mem_of_mem_filter hf

theorem filesOn_eq (h : s.Took s' readings) {cpu : Nat} (hleft : s'.set.filesOn cpu ≠ []) :
    s'.set.filesOn cpu = s.set.filesOn cpu := by
  obtain ⟨keep, hset⟩ := h.set
  have hfiles : s'.set.filesOn cpu = (s.set.filesOn cpu).filter fun f => keep f.cpu := by
    rw [hset, SelectionSet.filesOn, SelectionSet.files_forget, SelectionSet.files_keepAll,
      SelectionSet.filesOn, List.filter_filter, List.filter_filter]
    exact List.filter_congr fun f _ => Bool.and_comm _ _
  obtain ⟨f, hf⟩ := List.exists_mem_of_ne_nil _ hleft
  rw [hfiles, List.mem_filter, SelectionSet.mem_filesOn] at hf
  rw [hfiles, List.filter_eq_self]
  intro g hg
  rw [(SelectionSet.mem_filesOn.mp hg).2, ← hf.1.2]
  exact hf.2

theorem trans (h : s.Took s' readings) (h' : s'.Took s'' readings') (hdistinct : s.set.Distinct) :
    s.Took s'' (readings ++ readings') := by
  obtain ⟨keep, hset⟩ := h.set
  obtain ⟨keep', hset'⟩ := h'.set
  obtain ⟨τ, htrace, hτ⟩ := h.trace
  obtain ⟨τ', htrace', hτ'⟩ := h'.trace
  have hdistinct' : (s.set.keepAll readings).Distinct := by
    rw [SelectionSet.Distinct, SelectionSet.files_keepAll]
    exact hdistinct
  refine ⟨⟨fun cpu => keep cpu && keep' cpu, ?_⟩, ?_, τ' ++ τ, ?_, fun d v => ?_⟩
  · rw [hset', hset, SelectionSet.keepAll_forget hdistinct' fun p hp => hset ▸ h'.held p hp,
      SelectionSet.forget_forget, SelectionSet.keepAll_append]
  · rw [List.forall_mem_append]
    exact ⟨h.held, fun p hp => h.mem_files (h'.held p hp)⟩
  · rw [htrace', htrace, List.append_assoc]
  · simp only [List.mem_append, hτ, hτ', or_and_right, exists_or]
    exact or_comm

theorem saw_iff (h : s.Took s' readings) {d : Descriptor} {v : CounterValue} :
    s.Saw s' (.counted d v) ↔ ∃ p ∈ readings, p.1.descriptor = d ∧ p.2 = v := by
  obtain ⟨τ, htrace, hτ⟩ := h.trace
  rw [Session.saw_iff htrace, hτ]

theorem mem_readings_iff (h : s.Took s' readings) (hdistinct : s.set.Distinct)
    {p : EventFile × CounterValue} :
    p ∈ readings ↔ p.1 ∈ s.set.files ∧ s.Saw s' (.counted p.1.descriptor p.2) := by
  rw [h.saw_iff]
  constructor
  · exact fun hp => ⟨h.held p hp, p, hp, rfl, rfl⟩
  · rintro ⟨hfile, q, hq, hd, hv⟩
    obtain rfl : q = p := Prod.ext (hdistinct.eq (h.held q hq) hfile hd) hv
    exact hq

/-- **A selection keeps the readings of its descriptors,** and no other. -/
theorem kept (h : s.Took s' readings) (hdistinct : s.set.Distinct) (k : Nat) :
    ∃ taken : List (EventFile × CounterValue),
      s'.set.keptAt k = s.set.keptAt k ++ taken.map (fun p => p.1.reading p.2) ∧
      ∀ p, p ∈ taken ↔ s.Holds k p.1 ∧ s.Saw s' (.counted p.1.descriptor p.2) := by
  obtain ⟨keep, hset⟩ := h.set
  have hkept : s'.set.keptAt = (s.set.keepAll readings).keptAt := by
    rw [hset]
    exact SelectionSet.keptAt_mapSelections fun _ => rfl
  have hselection : (s.set.keepAll readings).selections[k]? = s.set.selections[k]?.map fun x =>
      { x with kept := x.kept ++ (readings.filter fun p =>
        x.files.any (·.descriptor == p.1.descriptor)).map (fun p => p.1.reading p.2) } := by
    rw [SelectionSet.keepAll_eq, SelectionSet.selections_mapSelections, List.getElem?_map]
  rw [hkept, SelectionSet.keptAt, SelectionSet.keptAt, hselection]
  cases hx : s.set.selections[k]? with
  | none =>
    refine ⟨[], rfl, fun p => ⟨fun hp => absurd hp List.not_mem_nil, ?_⟩⟩
    rintro ⟨⟨x, hx', -⟩, -⟩
    rw [hx] at hx'
    cases hx'
  | some x =>
    refine ⟨_, rfl, fun p => ?_⟩
    have hfile : ∀ f ∈ x.files, f ∈ s.set.files := fun f hf =>
      List.mem_flatMap.mpr ⟨x, List.mem_of_getElem? hx, hf⟩
    rw [List.mem_filter, List.any_eq_true, h.mem_readings_iff hdistinct, holds_iff hx]
    constructor
    · rintro ⟨⟨hheld, hsaw⟩, f, hf, hd⟩
      obtain rfl : f = p.1 := hdistinct.eq (hfile f hf) hheld (beq_iff_eq.mp hd)
      exact ⟨hf, hsaw⟩
    · exact fun ⟨hf, hsaw⟩ => ⟨⟨hfile _ hf, hsaw⟩, p.1, hf, beq_self_eq_true _⟩

theorem holds (h : s.Took s' readings) {f : EventFile} (hf : s'.Holds k f) : s.Holds k f := by
  obtain ⟨keep, hset⟩ := h.set
  obtain ⟨x', hx', hf⟩ := hf
  rw [hset, SelectionSet.keepAll_eq, SelectionSet.forget, SelectionSet.selections_mapSelections,
    SelectionSet.selections_mapSelections, List.getElem?_map, List.getElem?_map,
    Option.map_map, Option.map_eq_some_iff] at hx'
  obtain ⟨x, hx, rfl⟩ := hx'
  exact ⟨x, hx, List.mem_of_mem_filter hf⟩

/-- Whether the counter of a descriptor that is still there was read. -/
theorem read_iff (h : s.Took s' readings) (hdistinct : s.set.Distinct) {f : EventFile}
    (hf : s'.Holds k f) :
    (∃ p : EventFile × CounterValue, (s.Holds k p.1 ∧ s.Saw s' (.counted p.1.descriptor p.2)) ∧
      p.1.descriptor = f.descriptor) ↔ f ∈ readings.map Prod.fst := by
  have hheld := h.holds hf
  have hfile : f ∈ s.set.files := by
    obtain ⟨x, hx, hf⟩ := hheld
    exact List.mem_flatMap.mpr ⟨x, List.mem_of_getElem? hx, hf⟩
  constructor
  · rintro ⟨p, ⟨-, hsaw⟩, hd⟩
    obtain ⟨q, hq, hsame, -⟩ := h.saw_iff.mp hsaw
    obtain rfl : q.1 = f := hdistinct.eq (h.held q hq) hfile (hsame.trans hd)
    exact List.mem_map_of_mem hq
  · intro hread
    obtain ⟨q, hq, rfl⟩ := List.mem_map.mp hread
    exact ⟨q, ⟨hheld, h.saw_iff.mpr ⟨q, hq, rfl, rfl⟩⟩, rfl⟩

end Took

theorem Spares.refl (s : Session (Traced ω)) : s.Spares s :=
  ⟨rfl, [], rfl, List.forall_mem_nil _⟩

theorem Spares.saw_iff (h : s'.Spares s'') {τ : Trace}
    (htrace : s'.world.trace = τ ++ s.world.trace) (d : Descriptor) (v : CounterValue) :
    s.Saw s'' (.counted d v) ↔ s.Saw s' (.counted d v) := by
  obtain ⟨τ', htrace', hτ'⟩ := h.trace
  have hboth : s''.world.trace = (τ' ++ τ) ++ s.world.trace := by
    rw [htrace', htrace, List.append_assoc]
  rw [Session.saw_iff hboth, Session.saw_iff htrace, List.mem_append, or_iff_right]
  intro hx
  cases hτ' _ hx

end Session

namespace Recording

open Effect (Keeps)

variable {ω : Type} {host : Host ω}

/-! ### What keeps no reading -/

theorem upkeep_keptAt (kept : Nat → List CounterInfo) :
    Upkeep fun s : Session (Traced ω) => s.set.keptAt = kept where
  of_account _ _ h hs := (SelectionSet.keptAt_of_account (congrArg Prod.fst h)).trans hs
  happened _ _ _ _ _ hset _ hs := hset ▸ hs
  forget keep s hs := by
    have hkept : (s.set.forget keep).keptAt = s.set.keptAt :=
      SelectionSet.keptAt_mapSelections fun _ => rfl
    exact hkept.trans hs
  tried htried hs := by
    rw [htried.set, SelectionSet.keptAt_takeAll htried.run, hs]

theorem upkeep_spares (s : Session (Traced ω)) : Upkeep s.Spares where
  of_account _ _ h hs := by
    obtain ⟨τ, htrace, hτ⟩ := hs.trace
    exact ⟨(upkeep_keptAt _).of_account _ _ h hs.kept, τ,
      (congrArg (·.2.2) h).trans htrace, hτ⟩
  happened _ _ x hopening hreading hset hwent hs := by
    obtain ⟨τ, htrace, hτ⟩ := hs.trace
    refine ⟨hset ▸ hs.kept, x :: τ, ?_, List.forall_mem_cons.mpr ⟨hreading, hτ⟩⟩
    rw [hwent.trace, htrace]
    rfl
  forget keep _ hs := ⟨(upkeep_keptAt _).forget keep _ hs.kept, hs.trace⟩
  tried {_ _ _ as} htried hs := by
    obtain ⟨τ, htrace, hτ⟩ := hs.trace
    refine ⟨(upkeep_keptAt _).tried htried hs.kept, Attempt.trace as ++ τ, ?_, ?_⟩
    · rw [htried.went.trace, htrace, List.append_assoc]
    · rw [List.forall_mem_append]
      exact ⟨Attempt.forall_mem_trace (fun _ _ _ _ _ _ => rfl) (fun _ _ _ _ => rfl)
        (fun _ => rfl) (fun _ => rfl) as, hτ⟩

theorem upkeep_counting : Upkeep fun s : Session (Traced ω) => s.set.counting = true where
  of_account _ _ h hs := (congrArg (·.1.1) h).trans hs
  happened _ _ _ _ _ hset _ hs := hset ▸ hs
  forget _ _ hs := hs
  tried htried hs := by
    obtain ⟨groups, htake⟩ := SelectionSet.exists_takeAll_eq _ _
    rw [htried.set, htake]
    exact hs

theorem keeps_set_readCounter (host : Host ω) (P : SelectionSet → Prop) (d : Descriptor) :
    Keeps (fun s : Session (Traced ω) => P s.set) (outside (host.traced.readCounter d)) := by
  intro s hs
  rcases readCounter_outcome host d s with ⟨value, s', heq, hset, -⟩ | ⟨e, s', heq, hset, -⟩
  · rw [heq]
    exact hset ▸ hs
  · rw [heq]
    exact hset ▸ hs

/-- **A set that counts goes on counting.** -/
theorem Call.keeps_counting (host : Host ω) (c : Call) :
    Keeps (fun s : Session (Traced ω) => s.set.counting = true) (c.run host.traced) := by
  have hread := keeps_set_readCounter host fun set => set.counting = true
  exact upkeep_counting.keeps_call host hread (fun _ _ _ hs => hs) (fun _ _ hs => hs) fun _ =>
    upkeep_counting.keeps_followCpus host hread fun _ _ _ hs => hs

/-- **Only following the cpus keeps readings.** -/
theorem Call.leaves_keptAt (host : Host ω) {c : Call} (hc : c ≠ .followCpus) :
    Effect.Leaves (fun s : Session (Traced ω) => s.set.keptAt) (c.run host.traced) := by
  refine Effect.leaves_iff.mpr fun kept => ?_
  refine (upkeep_keptAt kept).keeps_call host (keeps_set_readCounter host (·.keptAt = kept))
    (fun group hgroup s hs => ?_) (fun _ _ hs => hs) fun h => absurd h hc
  exact (SelectionSet.keptAt_append fun x hx => (hgroup x hx).2).trans hs

/-! ### Leaving cpus, whatever comes of it -/

/-- Leaving a cpu stopped at a counter that could not be read, when those before
it had been read. -/
structure StoppedAt (host : Host ω) (cpu : Nat) (done : List EventFile) (file : EventFile)
    (e : Error) (s : Session (Traced ω)) : Prop where
  files : ∃ rest, s.set.filesOn cpu = done ++ file :: rest
  failed : ∃ u, outside (host.traced.readCounter file.descriptor) u = (.error e, s)

theorem keepReadings_eq_error : ∀ {files : List EventFile} {s s' : Session (Traced ω)} {e : Error},
    keepReadings host.traced files s = (.error e, s') →
    ∃ done file rest values, files = done ++ file :: rest ∧ values.length = done.length ∧
      s'.set = s.set.keepAll (done.zip values) ∧ s.Went s' 0 (Trace.counts (done.zip values)) ∧
      ∃ u, outside (host.traced.readCounter file.descriptor) u = (.error e, s')
  | [], _, _, _, h => by cases h
  | file :: rest, s, s', e, h => by
    rw [keepReadings] at h
    rcases readCounter_outcome host file.descriptor s with
      ⟨value, s₁, hread, hset₁, hwent₁⟩ | ⟨e₁, s₁, hread, hset₁, hwent₁⟩
    · let s₂ : Session (Traced ω) :=
        { s₁ with set := s₁.set.keepReading file.descriptor (file.reading value) }
      have hwent₂ : s.Went s₂ 0 [.counted file.descriptor value] :=
        ⟨hwent₁.loop, hwent₁.count, hwent₁.trace⟩
      rw [Effect.bind_of_ok hread] at h
      have hrest : keepReadings host.traced rest s₂ = (.error e, s') := h
      obtain ⟨done, stop, after, values, rfl, hlength, hset, hwent, hfailed⟩ :=
        keepReadings_eq_error hrest
      refine ⟨file :: done, stop, after, value :: values, rfl, congrArg (· + 1) hlength, ?_, ?_,
        hfailed⟩
      · rw [hset, List.zip_cons_cons, SelectionSet.keepAll, SelectionSet.keepAll, List.foldl_cons,
          ← hset₁]
      · rw [List.zip_cons_cons, Trace.counts_cons]
        exact hwent₂.trans hwent
    · rw [Effect.bind_of_error hread] at h
      cases h
      exact ⟨[], file, rest, [], rfl, rfl, hset₁, hwent₁, s, hread⟩

/-- **A cpu that could be left:** its counters have been read, and its descriptors
are not there any more. -/
theorem leaveCpu_eq_ok {cpu : Nat} {s s' : Session (Traced ω)} {more : Bool}
    (hcounting : s.set.counting = true) (h : leaveCpu host.traced cpu s = (.ok more, s')) :
    more = true ∧ s'.set.counting = true ∧ ∃ readings, s.Took s' readings ∧
      ∀ f ∈ s'.set.files, f ∉ readings.map Prod.fst := by
  obtain ⟨values, r, s₁, hleave, ⟨rfl, hlength, hset, hwent⟩ | ⟨⟨e, rfl⟩, -⟩⟩ :=
    leaveCpu_counting host cpu hcounting
  · cases h.symm.trans hleave
    refine ⟨rfl, ?_, (s.set.filesOn cpu).zip values, ?_, fun f hf => ?_⟩
    · rw [hset, SelectionSet.keepAll_eq]
      exact hcounting
    · exact .of_keepAll _ (· != cpu) hset
        (fun p hp => (SelectionSet.mem_filesOn.mp (List.of_mem_zip hp).1).1) hwent
        (Trace.forall_mem_closes (fun _ => rfl) _)
    · rw [hset, SelectionSet.files_dropFilesOn, List.mem_filter] at hf
      rw [List.map_fst_zip (Nat.le_of_eq hlength.symm)]
      intro hon
      simp [(SelectionSet.mem_filesOn.mp hon).2] at hf
  · cases h.symm.trans hleave

/-- **A cpu that could not be left:** the readings before the counter that could
not be read have been kept, and every descriptor is still there. -/
theorem leaveCpu_eq_error {cpu : Nat} {s s' : Session (Traced ω)} {e : Error}
    (hcounting : s.set.counting = true) (h : leaveCpu host.traced cpu s = (.error e, s')) :
    ∃ done file readings, readings.map Prod.fst = done ∧ StoppedAt host cpu done file e s' ∧
      s.Took s' readings := by
  rw [leaveCpu, getSet_bind, if_pos hcounting, getSet_bind] at h
  cases hkeep : keepReadings host.traced (s.set.filesOn cpu) s with
  | mk r s₁ =>
    cases r with
    | ok u =>
      obtain ⟨s₂, hclose, -, -⟩ := closeOn_outcome host cpu s₁
      rw [Effect.bind_of_ok hkeep, Effect.bind_of_ok hclose] at h
      cases h
    | error e₁ =>
      rw [Effect.bind_of_error hkeep] at h
      cases h
      obtain ⟨done, file, rest, values, hfiles, hlength, hset, hwent, hfailed⟩ :=
        keepReadings_eq_error hkeep
      have hfirst : (done.zip values).map Prod.fst = done :=
        List.map_fst_zip (Nat.le_of_eq hlength.symm)
      refine ⟨done, file, done.zip values, hfirst, ⟨⟨rest, ?_⟩, hfailed⟩, ?_⟩
      · rw [hset, SelectionSet.filesOn_keepAll, hfiles]
      · refine .of_keepAll [] (fun _ => true) ?_ (fun p hp => ?_) hwent
          (List.forall_mem_nil _)
        · rw [hset, SelectionSet.forget_true]
        · have hmem : p.1 ∈ s.set.filesOn cpu := by
            rw [hfiles]
            exact List.mem_append_left _ (List.of_mem_zip hp).1
          exact (SelectionSet.mem_filesOn.mp hmem).1

/-- **Cpus that have gone,** whether or not they could all be left: of the
descriptors that are still there, those have been read that come before the
counter where it stopped. -/
theorem leaveCpus_outcome : ∀ {cpus : List Nat} {s s' : Session (Traced ω)} {r : Except Error Bool},
    s.Sound → s.set.counting = true → leaveCpus host.traced cpus s = (r, s') →
    ∃ readings done, s.Took s' readings ∧
      (∀ f ∈ s'.set.files, f ∈ readings.map Prod.fst ↔ f ∈ done) ∧
      ((r = .ok true ∧ done = []) ∨
        ∃ e cpu file, r = .error e ∧ cpu ∈ cpus ∧ StoppedAt host cpu done file e s')
  | [], s, _, _, _, _, h => by
    cases h
    exact ⟨[], [], .nothing rfl (Session.Went.refl s) (List.forall_mem_nil _), fun _ _ => Iff.rfl,
      .inl ⟨rfl, rfl⟩⟩
  | cpu :: rest, s, s', r, hsound, hcounting, h => by
    obtain ⟨s₁, hnote, hset₁, hwent₁⟩ := note_outcome host (.cpuOffline cpu) s
    have hnoted : s.Took s₁ [] :=
      .nothing hset₁ hwent₁ (List.forall_mem_singleton.mpr rfl)
    have hsound₁ : s₁.Sound :=
      hsound.passed (.of_went hset₁ hwent₁ (by simp [Happening.isOpening]))
    have hcounting₁ : s₁.set.counting = true := hset₁ ▸ hcounting
    rw [leaveCpus, Effect.bind_of_ok hnote] at h
    cases hleave : leaveCpu host.traced cpu s₁ with
    | mk r₁ s₂ =>
      cases r₁ with
      | ok more =>
        obtain ⟨rfl, hcounting₂, left, hleft, hgone⟩ := leaveCpu_eq_ok hcounting₁ hleave
        rw [Effect.bind_of_ok hleave] at h
        have hsound₂ := keeps_sound_leaveCpu host cpu s₁ hsound₁
        rw [hleave] at hsound₂
        obtain ⟨readings, done, htook, hdone, hcases⟩ := leaveCpus_outcome hsound₂ hcounting₂ h
        refine ⟨[] ++ (left ++ readings), done,
          hnoted.trans (hleft.trans htook hsound₁.distinct) hsound.distinct, fun f hf => ?_,
          hcases.imp_right ?_⟩
        · -- What was read on this cpu is gone, and plays no role any more.
          rw [List.nil_append, List.map_append, List.mem_append,
            or_iff_right (hgone f (htook.mem_files hf))]
          exact hdone f hf
        · rintro ⟨e, cpu', file, hr, hcpu', hstopped⟩
          exact ⟨e, cpu', file, hr, List.mem_cons_of_mem _ hcpu', hstopped⟩
      | error e =>
        obtain ⟨done, file, readings, hfirst, hstopped, htook⟩ :=
          leaveCpu_eq_error hcounting₁ hleave
        rw [Effect.bind_of_error hleave] at h
        cases h
        exact ⟨[] ++ readings, done, hnoted.trans htook hsound.distinct,
          fun f _ => by rw [List.nil_append, hfirst],
          .inr ⟨e, cpu, file, rfl, List.mem_cons_self, hstopped⟩⟩

/-- Following the cpus reads counters only when it leaves cpus. -/
theorem followCpus_took (host : Host ω) {s : Session (Traced ω)} (hsound : s.Sound)
    (hcounting : s.set.counting = true) :
    ∃ readings t, s.Took t readings ∧ t.Spares (followCpus host.traced s).2 := by
  obtain ⟨r, s₁, honline, hset₁, hwent₁⟩ :=
    quiet_outcome (x := outside host.traced.onlineCpus) host.quiet_traced.onlineCpus s
  have hquiet : s.Took s₁ [] := .nothing hset₁ hwent₁ (List.forall_mem_nil _)
  rw [followCpus_eq, getSet_bind]
  cases r with
  | error e =>
    rw [Effect.bind_of_error honline]
    exact ⟨[], s₁, hquiet, .refl s₁⟩
  | ok online =>
    rw [Effect.bind_of_ok honline, turn]
    have hsound₁ : s₁.Sound := hsound.passed (.of_went hset₁ hwent₁ (List.forall_mem_nil _))
    cases hleave : leaveCpus host.traced (s.set.gone online) s₁ with
    | mk r t =>
      obtain ⟨readings, done, htook, -, -⟩ :=
        leaveCpus_outcome hsound₁ (hset₁ ▸ hcounting) hleave
      refine ⟨[] ++ readings, t, hquiet.trans htook hsound.distinct, ?_⟩
      have hspares := upkeep_spares t
      cases r with
      | error e =>
        rw [Effect.bind_of_error hleave]
        exact .refl t
      | ok more =>
        rw [Effect.bind_of_ok hleave]
        cases more with
        | false => exact .refl t
        | true =>
          refine Keeps.bind (hspares.keeps_enterCpus host _) (fun more => ?_) t (.refl t)
          split
          · refine Keeps.bind ?_ fun _ => Effect.keeps_pure true
            exact hspares.keeps_modifySet fun _ => rfl
          · exact Effect.keeps_pure false

/-- **Following the cpus,** whatever comes of it: each selection keeps the
readings that were taken from its descriptors. -/
theorem followCpus_kept (host : Host ω) {s : Session (Traced ω)} (hsound : s.Sound)
    (hcounting : s.set.counting = true) (k : Nat) :
    ∃ taken : List (EventFile × CounterValue),
      (followCpus host.traced s).2.set.keptAt k =
        s.set.keptAt k ++ taken.map (fun p => p.1.reading p.2) ∧
      ∀ p, p ∈ taken ↔
        s.Holds k p.1 ∧ s.Saw (followCpus host.traced s).2 (.counted p.1.descriptor p.2) := by
  obtain ⟨readings, t, htook, hspares⟩ := followCpus_took host hsound hcounting
  obtain ⟨taken, hkept, htaken⟩ := htook.kept hsound.distinct k
  obtain ⟨τ, htrace, -⟩ := htook.trace
  refine ⟨taken, (congrFun hspares.kept k).trans hkept, fun p => ?_⟩
  rw [htaken, hspares.saw_iff htrace]

end Recording

end Profiler
