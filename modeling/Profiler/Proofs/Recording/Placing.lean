/-
# Which descriptors have buffers

Mapping gives the first descriptor on a cpu a buffer and sends the records of
the others to it. Step by step that is a change of one descriptor after the
other; in the end every descriptor is placed by which one is the first on its
cpu (`EventFile.place`), or, where a step failed, none of them has a buffer.

Key definitions: `SelectionSet.updateFiles`, `SelectionSet.firstOn?`,
`EventFile.place`, `BufferCall`, `SelectionSet.placeOn`,
`SelectionSet.unplaceOn`, `SelectionSet.placeAll`, `SelectionSet.unplaceAll`.
Key theorems: `Recording.mapFiles_cons`, `Recording.places_mapFiles`,
`Recording.mapAll_outcome`, `Recording.mapCpu_outcome`.
-/
import Mathlib.Data.List.Nodup
import Profiler.Proofs.Recording.Traced

namespace Profiler

/-! ### Changes of descriptors -/

namespace SelectionSet

variable {s : SelectionSet} {cpu : Nat} {g g' : EventFile → EventFile}

def updateFiles (s : SelectionSet) (g : EventFile → EventFile) : SelectionSet :=
  s.mapSelections fun x => { x with files := x.files.map g }

theorem files_updateFiles (s : SelectionSet) (g : EventFile → EventFile) :
    (s.updateFiles g).files = s.files.map g := by
  rw [files, updateFiles, selections_mapSelections, List.flatMap_map, files, List.map_flatMap]

theorem updateFiles_updateFiles (s : SelectionSet) (g g' : EventFile → EventFile) :
    (s.updateFiles g).updateFiles g' = s.updateFiles (g' ∘ g) := by
  simp only [updateFiles, mapSelections, List.map_map, Function.comp_def]

theorem updateFiles_congr (h : ∀ f ∈ s.files, g f = g' f) : s.updateFiles g = s.updateFiles g' := by
  show ({ s with groups := _ } : SelectionSet) = { s with groups := _ }
  congr 1
  refine List.map_congr_left fun group hgroup => List.map_congr_left fun x hx => ?_
  have hfiles : x.files.map g = x.files.map g' := List.map_congr_left fun f hf =>
    h f (List.mem_flatMap.mpr ⟨x, List.mem_flatten.mpr ⟨group, hgroup, hx⟩, hf⟩)
  rw [hfiles]

theorem updateFiles_id (s : SelectionSet) : s.updateFiles id = s := by
  show ({ s with groups := _ } : SelectionSet) = { s with groups := _ }
  congr 1
  have hselection : ∀ x : Selection, ({ x with files := x.files.map id } : Selection) = x :=
    fun x => by rw [List.map_id]
  simp only [hselection, List.map_id']

theorem mem_filesOn {f : EventFile} : f ∈ s.filesOn cpu ↔ f ∈ s.files ∧ f.cpu = cpu := by
  rw [filesOn, List.mem_filter, beq_iff_eq]

theorem filesOn_updateFiles (hg : ∀ f, (g f).cpu = f.cpu) :
    (s.updateFiles g).filesOn cpu = (s.filesOn cpu).map g := by
  rw [filesOn, files_updateFiles, List.filter_map]
  simp only [Function.comp_def, hg]
  rfl

def firstOn? (s : SelectionSet) (cpu : Nat) : Option Descriptor :=
  (s.filesOn cpu).head?.map EventFile.descriptor

end SelectionSet

/-! ### Where descriptors are placed -/

/-- The descriptor has a buffer if it is the owner, and sends its records to
the owner otherwise. -/
def EventFile.place (owner? : Option Descriptor) (f : EventFile) : EventFile :=
  match owner? with
  | some owner => if owner = f.descriptor then f.own else f.sendTo owner
  | none => f

theorem EventFile.unmapped_unmapped (f : EventFile) : f.unmapped.unmapped = f.unmapped := rfl

theorem EventFile.place_some (f : EventFile) (owner : Descriptor) :
    f.place (some owner) = if owner = f.descriptor then f.own else f.sendTo owner := rfl

theorem EventFile.unmapped_place (f : EventFile) (owner? : Option Descriptor) :
    (f.place owner?).unmapped = f.unmapped := by
  unfold place
  split
  · split <;> rfl
  · rfl

theorem EventFile.cpu_place (f : EventFile) (owner? : Option Descriptor) :
    (f.place owner?).cpu = f.cpu := cpu_eq (f.unmapped_place owner?)

theorem EventFile.descriptor_place (f : EventFile) (owner? : Option Descriptor) :
    (f.place owner?).descriptor = f.descriptor := descriptor_eq (f.unmapped_place owner?)

/-- What the outside is asked to do with buffers. -/
inductive BufferCall where
  | map (d : Descriptor) (pages : Nat)
  | share (d owner : Descriptor)
  | unmap (d : Descriptor)
  deriving DecidableEq, Repr

def Host.ask {ω : Type} (host : Host ω) : BufferCall → Effect ω Unit
  | .map d pages => host.map d pages
  | .share d owner => host.share d owner
  | .unmap d => Effect.ofState (host.unmap d)

/-- The owner is mapped, and the records of the others are sent to it. -/
def EventFile.mappingCall (owner? : Option Descriptor) (pages : Nat) (f : EventFile) : BufferCall :=
  match owner? with
  | some owner => if owner = f.descriptor then .map f.descriptor pages else .share f.descriptor owner
  | none => .map f.descriptor pages

/-- Who owns the buffer of a cpu when descriptors are mapped: whoever does
already, or the first of them. -/
def ownerOf? (owners : OrderedMap Nat Descriptor) (files : List EventFile) (cpu : Nat) :
    Option Descriptor :=
  (owners.get? cpu).or ((files.find? fun f => f.cpu == cpu).map EventFile.descriptor)

section Owners

variable {owners : OrderedMap Nat Descriptor} {file : EventFile} {rest : List EventFile}

theorem ownerOf?_cons_of_some {owner : Descriptor} (h : owners.get? file.cpu = some owner)
    (cpu : Nat) : ownerOf? owners (file :: rest) cpu = ownerOf? owners rest cpu := by
  unfold ownerOf?
  by_cases hcpu : file.cpu = cpu
  · rw [← hcpu, h, Option.some_or, Option.some_or]
  · rw [List.find?_cons_of_neg (by simpa using hcpu)]

theorem ownerOf?_cons_of_none (h : owners.get? file.cpu = none) (cpu : Nat) :
    ownerOf? owners (file :: rest) cpu =
      ownerOf? (owners.insert file.cpu file.descriptor) rest cpu := by
  unfold ownerOf?
  by_cases hcpu : file.cpu = cpu
  · rw [← hcpu, h, OrderedMap.get?_insert_self, Option.some_or, Option.none_or, List.find?_cons,
      beq_self_eq_true]
    rfl
  · rw [OrderedMap.get?_insert_of_ne _ _ hcpu, List.find?_cons_of_neg (by simpa using hcpu)]

/-- None of the descriptors owns a buffer already. -/
def Unowned (owners : OrderedMap Nat Descriptor) (files : List EventFile) : Prop :=
  ∀ cpu owner, owners.get? cpu = some owner → owner ∉ files.map EventFile.descriptor

theorem Unowned.tail (h : Unowned owners (file :: rest)) : Unowned owners rest :=
  fun cpu owner howner hmem => h cpu owner howner (List.mem_cons_of_mem _ hmem)

theorem Unowned.insert (h : Unowned owners (file :: rest))
    (hfirst : file.descriptor ∉ rest.map EventFile.descriptor) :
    Unowned (owners.insert file.cpu file.descriptor) rest := by
  intro cpu owner howner hmem
  by_cases hcpu : file.cpu = cpu
  · rw [hcpu, OrderedMap.get?_insert_self] at howner
    exact hfirst (Option.some.inj howner ▸ hmem)
  · rw [OrderedMap.get?_insert_of_ne _ _ hcpu] at howner
    exact h.tail cpu owner howner hmem

end Owners

/-- Of the set only what is known of some descriptors has changed, and only
their buffers. -/
structure Session.Changed {ω : Type} (s s' : Session ω) (files : List EventFile)
    (g : EventFile → EventFile) : Prop where
  set : s'.set = s.set.updateFiles g
  unmapped : ∀ f, (g f).unmapped = f.unmapped
  others : ∀ f, f.descriptor ∉ files.map EventFile.descriptor → g f = f

namespace Session

variable {ω : Type} {s s' s'' : Session ω} {files : List EventFile} {file : EventFile}
  {g g' : EventFile → EventFile}

theorem Changed.refl (s : Session ω) (files : List EventFile) : s.Changed s files id :=
  ⟨s.set.updateFiles_id.symm, fun _ => rfl, fun _ _ => rfl⟩

theorem Changed.cons (h : s.Changed s' [file] g) (h' : s'.Changed s'' files g') :
    s.Changed s'' (file :: files) (g' ∘ g) where
  set := by rw [h'.set, h.set, SelectionSet.updateFiles_updateFiles]
  unmapped f := (h'.unmapped _).trans (h.unmapped f)
  others f hf := by
    rw [List.map_cons, List.mem_cons, not_or] at hf
    have hfirst : g f = f := h.others f (by simpa using hf.1)
    show g' (g f) = f
    rw [hfirst, h'.others f hf.2]

end Session

namespace Recording

variable {ω : Type} (host : Host ω)

/-- What a step changes of one descriptor. -/
theorem changeFile_outcome {α : Type} {x : Recording ω α} (file : EventFile)
    (op : EventFile → EventFile) (hx : Effect.Leaves Session.set x)
    (hop : ∀ f, (op f).unmapped = f.unmapped) (s : Session ω) :
    (∃ a s₁ s', x s = (.ok a, s₁) ∧
        modifySet (·.updateFile file.descriptor op) s₁ = (.ok (), s') ∧
        s.Changed s' [file] fun f => if f.descriptor = file.descriptor then op f else f) ∨
      ∃ e s', x s = (.error e, s') ∧ s.Changed s' [file] id := by
  obtain ⟨r, s₁, heq, hset⟩ : ∃ r s₁, x s = (r, s₁) ∧ s₁.set = s.set := ⟨_, _, rfl, hx s⟩
  cases r with
  | error e =>
    refine .inr ⟨e, s₁, heq, ?_, fun _ => rfl, fun _ _ => rfl⟩
    rw [hset, SelectionSet.updateFiles_id]
  | ok a =>
    refine .inl ⟨a, s₁, _, heq, rfl, ?_, fun f => ?_, fun f hf => ?_⟩
    · show s₁.set.updateFile _ _ = _
      rw [hset]
      rfl
    · split
      · exact hop f
      · rfl
    · exact if_neg (by simpa using hf)

/-- Mapping descriptors asks one thing for the first of them, places it, and
goes on with the others. -/
theorem mapFiles_cons (pages : Nat) {owners : OrderedMap Nat Descriptor} {file : EventFile}
    {rest : List EventFile} (hfirst : file.descriptor ∉ rest.map EventFile.descriptor)
    (hunowned : Unowned owners (file :: rest)) :
    ∃ (op : EventFile → EventFile) (owners' : OrderedMap Nat Descriptor),
      mapFiles host pages owners (file :: rest) = (do
        outside (host.ask (file.mappingCall (ownerOf? owners (file :: rest) file.cpu) pages))
        modifySet (·.updateFile file.descriptor op)
        mapFiles host pages owners' rest) ∧
      (∀ f, (op f).unmapped = f.unmapped) ∧
      (∀ f, f.descriptor = file.descriptor → f.cpu = file.cpu →
        op f = f.place (ownerOf? owners (file :: rest) f.cpu)) ∧
      ownerOf? owners (file :: rest) = ownerOf? owners' rest ∧ Unowned owners' rest := by
  rw [mapFiles]
  cases howner : owners.get? file.cpu with
  | some owner =>
    have hother : owner ≠ file.descriptor := fun h =>
      hunowned _ _ howner (h ▸ List.mem_cons_self)
    have hplaced : ownerOf? owners (file :: rest) file.cpu = some owner := by
      rw [ownerOf?, howner, Option.some_or]
    refine ⟨.sendTo owner, owners, ?_, fun _ => rfl, fun f hd hcpu => ?_,
      funext (ownerOf?_cons_of_some howner), hunowned.tail⟩
    · rw [hplaced, EventFile.mappingCall, if_neg hother]
      rfl
    · rw [hcpu, hplaced, EventFile.place, if_neg (hd ▸ hother)]
  | none =>
    have hplaced : ownerOf? owners (file :: rest) file.cpu = some file.descriptor := by
      rw [ownerOf?_cons_of_none howner, ownerOf?, OrderedMap.get?_insert_self, Option.some_or]
    refine ⟨.own, owners.insert file.cpu file.descriptor, ?_, fun _ => rfl, fun f hd hcpu => ?_,
      funext (ownerOf?_cons_of_none howner), hunowned.insert hfirst⟩
    · rw [hplaced, EventFile.mappingCall, if_pos rfl]
      rfl
    · rw [hcpu, hplaced, EventFile.place, if_pos hd.symm]

/-- Whatever comes of a step, only some descriptors change; if it succeeds,
they are placed by who owns the buffer of each cpu. -/
def Places (x : Recording ω Unit) (files : List EventFile)
    (owner? : Nat → Option Descriptor) (s : Session ω) : Prop :=
  ∃ r s' g, x s = (r, s') ∧ s.Changed s' files g ∧
    (r = .ok () → ∀ f, f.descriptor ∈ files.map EventFile.descriptor →
      (∀ file ∈ files, f.descriptor = file.descriptor → f.cpu = file.cpu) →
      g f = f.place (owner? f.cpu))

/-- One descriptor is placed, and then the others. -/
theorem places_cons {x : Recording ω Unit} {op : EventFile → EventFile}
    {next : Recording ω Unit} {file : EventFile} {rest : List EventFile}
    {owner? : Nat → Option Descriptor} {s : Session ω} (hx : Effect.Leaves Session.set x)
    (hop : ∀ f, (op f).unmapped = f.unmapped)
    (hfirst : file.descriptor ∉ rest.map EventFile.descriptor)
    (hplace : ∀ f : EventFile, f.descriptor = file.descriptor → f.cpu = file.cpu →
      op f = f.place (owner? f.cpu))
    (hnext : ∀ s₁, Places next rest owner? s₁) :
    Places (do x; modifySet (·.updateFile file.descriptor op); next) (file :: rest) owner? s := by
  rcases changeFile_outcome file op hx hop s with ⟨a, s₁, s₂, hstep, hset, hchanged⟩ |
    ⟨e, s', hstep, hchanged⟩
  · obtain ⟨r, s', g, hmap, hchanged', hplaced⟩ := hnext s₂
    refine ⟨r, s', _, ?_, hchanged.cons hchanged', fun hr f hf hcpu => ?_⟩
    · rw [Effect.bind_of_ok hstep, Effect.bind_of_ok hset, hmap]
    · show g (if _ then _ else _) = _
      by_cases hd : f.descriptor = file.descriptor
      · have hsame : (op f).descriptor = f.descriptor := EventFile.descriptor_eq (hop f)
        have hlast : g (op f) = op f := hchanged'.others _ fun hmem => hfirst (by
          rwa [hsame, hd] at hmem)
        rw [if_pos hd, hlast, hplace f hd (hcpu file List.mem_cons_self hd)]
      · rw [if_neg hd]
        exact hplaced hr f ((List.mem_cons.mp hf).resolve_left hd)
          fun file' hfile' => hcpu file' (List.mem_cons_of_mem _ hfile')
  · refine ⟨.error e, s', _, Effect.bind_of_error hstep,
      hchanged.cons (Session.Changed.refl s' rest), nofun⟩

/-- **Where mapping succeeds every descriptor is placed.** -/
theorem places_mapFiles (pages : Nat) (owners : OrderedMap Nat Descriptor) (files : List EventFile)
    (hnodup : (files.map EventFile.descriptor).Nodup) (hunowned : Unowned owners files)
    (s : Session ω) :
    Places (mapFiles host pages owners files) files (ownerOf? owners files) s := by
  induction files generalizing owners s with
  | nil =>
    exact ⟨.ok (), s, id, rfl, Session.Changed.refl s [], fun _ _ hf _ =>
      absurd hf List.not_mem_nil⟩
  | cons file rest ih =>
    obtain ⟨hfirst, hrest⟩ := List.nodup_cons.mp hnodup
    obtain ⟨op, owners', hcons, hop, hplace, howners, hunowned'⟩ :=
      mapFiles_cons host pages hfirst hunowned
    rw [hcons]
    refine places_cons ?_ hop hfirst hplace fun s₁ => ?_
    · exact fun _ => rfl
    · rw [howners]
      exact ih owners' hrest hunowned' s₁

theorem unmapFiles_outcome : ∀ (files : List EventFile) (s : Session ω),
    ∃ s' g, unmapFiles host files s = (.ok (), s') ∧ s.Changed s' files g ∧
      ∀ f, f.descriptor ∈ files.map EventFile.descriptor → g f = f.unmapped
  | [], s => ⟨s, id, rfl, Session.Changed.refl s [], fun _ hf => absurd hf List.not_mem_nil⟩
  | file :: rest, s => by
    obtain ⟨a, s₁, s₂, hstep, hset, hchanged⟩ | ⟨e, s₁, hstep, -⟩ :=
      changeFile_outcome file .unmapped (host.quiet_set.unmap file.descriptor) (fun _ => rfl) s
    · obtain ⟨s', g, hrest, hchanged', hplaced⟩ := unmapFiles_outcome rest s₂
      refine ⟨s', _, ?_, hchanged.cons hchanged', fun f hf => ?_⟩
      · rw [unmapFiles, Effect.bind_of_ok hstep, Effect.bind_of_ok hset, hrest]
      · show g (if _ then _ else _) = _
        by_cases hd : f.descriptor = file.descriptor
        · rw [if_pos hd]
          by_cases hmem : f.descriptor ∈ rest.map EventFile.descriptor
          · exact hplaced f.unmapped hmem
          · exact hchanged'.others f.unmapped hmem
        · rw [if_neg hd]
          exact hplaced f ((List.mem_cons.mp hf).resolve_left hd)
    · cases hstep

end Recording

/-! ### Cpus whose descriptors are placed -/

namespace SelectionSet

variable {s : SelectionSet} {cpu : Nat}

def Distinct (s : SelectionSet) : Prop := (s.files.map EventFile.descriptor).Nodup

instance (s : SelectionSet) : Decidable s.Distinct := inferInstanceAs (Decidable (List.Nodup _))

def placeOn (s : SelectionSet) (cpu : Nat) : SelectionSet :=
  s.updateFiles fun f => if f.cpu = cpu then f.place (s.firstOn? cpu) else f

def unplaceOn (s : SelectionSet) (cpu : Nat) : SelectionSet :=
  s.updateFiles fun f => if f.cpu = cpu then f.unmapped else f

def placeAll (s : SelectionSet) : SelectionSet := s.updateFiles fun f => f.place (s.firstOn? f.cpu)

def unplaceAll (s : SelectionSet) : SelectionSet := s.updateFiles EventFile.unmapped

theorem Distinct.eq {f f' : EventFile} (h : s.Distinct) (hf : f ∈ s.files) (hf' : f' ∈ s.files)
    (hd : f.descriptor = f'.descriptor) : f = f' := List.inj_on_of_nodup_map h hf hf' hd

theorem Distinct.mem_filesOn_iff (h : s.Distinct) {f : EventFile} (hf : f ∈ s.files) (cpu : Nat) :
    f.descriptor ∈ (s.filesOn cpu).map EventFile.descriptor ↔ f.cpu = cpu := by
  refine ⟨fun hmem => ?_, fun hcpu =>
    List.mem_map_of_mem (List.mem_filter.mpr ⟨hf, beq_iff_eq.mpr hcpu⟩)⟩
  obtain ⟨f', hf', hd⟩ := List.mem_map.mp hmem
  obtain ⟨hmem', hcpu⟩ := List.mem_filter.mp hf'
  rw [← h.eq hmem' hf hd]
  exact beq_iff_eq.mp hcpu

theorem Distinct.updateFiles (h : s.Distinct) {g : EventFile → EventFile}
    (hg : ∀ f, (g f).unmapped = f.unmapped) : (s.updateFiles g).Distinct := by
  unfold Distinct
  rw [files_updateFiles, List.map_map]
  have hsame : EventFile.descriptor ∘ g = EventFile.descriptor := funext fun f =>
    EventFile.descriptor_eq (hg f)
  rwa [hsame]

theorem ownerOf?_files (s : SelectionSet) (cpu : Nat) :
    ownerOf? ⟨[]⟩ s.files cpu = s.firstOn? cpu := by
  rw [firstOn?, filesOn, List.head?_filter]
  rfl

theorem ownerOf?_filesOn (s : SelectionSet) (cpu : Nat) :
    ownerOf? ⟨[]⟩ (s.filesOn cpu) cpu = s.firstOn? cpu := by
  rw [firstOn?, ownerOf?, filesOn, ← List.head?_filter, List.filter_filter]
  simp only [Bool.and_self]
  rfl

end SelectionSet

namespace Recording

variable {ω : Type} (host : Host ω)

/-- **Descriptors are mapped, or none of them is.** -/
theorem mapAll_outcome (pages : Nat) {files : List EventFile} {s : Session ω}
    (hset : s.set.Distinct) (hfiles : files.Sublist s.set.files) :
    ∃ r s', mapAll host pages files s = (r, s') ∧
      ((r = .ok () ∧ s'.set = s.set.updateFiles fun f =>
          if f.descriptor ∈ files.map EventFile.descriptor then f.place (ownerOf? ⟨[]⟩ files f.cpu)
          else f) ∨
        (∃ e, r = .error e) ∧ s'.set = s.set.updateFiles fun f =>
          if f.descriptor ∈ files.map EventFile.descriptor then f.unmapped else f) := by
  have hnodup := (hfiles.map EventFile.descriptor).nodup hset
  obtain ⟨r, s₁, g, hmap, hchanged, hplaced⟩ :=
    places_mapFiles host pages ⟨[]⟩ files hnodup (fun _ _ h => nomatch h) s
  cases r with
  | ok u =>
    refine ⟨.ok (), s₁, Effect.onFailure_of_ok hmap, .inl ⟨rfl, ?_⟩⟩
    rw [hchanged.set]
    refine SelectionSet.updateFiles_congr fun f hf => ?_
    split
    · next hmem =>
      exact hplaced rfl f hmem fun file hfile hd =>
        congrArg EventFile.cpu (hset.eq hf (hfiles.subset hfile) hd)
    · next hmem => exact hchanged.others f hmem
  | error e =>
    obtain ⟨s₂, g', hunmap, hchanged', hunplaced⟩ := unmapFiles_outcome host files s₁
    refine ⟨.error e, s₂, Effect.onFailure_of_error hmap hunmap, .inr ⟨⟨e, rfl⟩, ?_⟩⟩
    rw [hchanged'.set, hchanged.set, SelectionSet.updateFiles_updateFiles]
    refine SelectionSet.updateFiles_congr fun f hf => ?_
    show g' (g f) = _
    split
    · next hmem =>
      have hsame : (g f).descriptor = f.descriptor :=
        EventFile.descriptor_eq (hchanged.unmapped f)
      rw [hunplaced _ (hsame ▸ hmem), hchanged.unmapped]
    · next hmem =>
      rw [hchanged.others f hmem]
      exact hchanged'.others f hmem

theorem bufferless_course (host : Host ω) : host.traced.Bufferless Session.course where
  toQuiet := host.quiet_traced.of Prod.snd
  updateFile _ _ _ _ := rfl
  pages _ _ := rfl

/-- **Mapping a cpu** places its descriptors, or leaves none of them mapped. -/
theorem mapCpu_outcome (cpu : Nat) {s : Session (Traced ω)} (hset : s.set.Distinct) :
    ∃ r s', mapCpu host.traced cpu s = (r, s') ∧ s.Went s' 0 [] ∧
      ((r = .ok () ∧ s'.set = s.set.placeOn cpu) ∨
        (∃ e, r = .error e) ∧ s'.set = s.set.unplaceOn cpu) := by
  obtain ⟨r, s', hmap, hcases⟩ := mapAll_outcome host.traced (max s.set.pages leastPages) hset
    (List.filter_sublist (p := fun f => f.cpu == cpu))
  have hrun : mapCpu host.traced cpu s = (r, s') := by
    rw [mapCpu, getSet_bind]
    exact hmap
  have hwent : s.Went s' 0 [] := Session.went_of_course (by
    rw [← leaves_mapCpu (bufferless_course host) cpu s, hrun])
  refine ⟨r, s', hrun, hwent, hcases.imp (fun h => ⟨h.1, h.2.trans ?_⟩) fun h => ⟨h.1, h.2.trans ?_⟩⟩
  · refine SelectionSet.updateFiles_congr fun f hf => ?_
    have hiff := hset.mem_filesOn_iff hf cpu
    unfold SelectionSet.filesOn at hiff
    simp only [hiff]
    split
    · next hcpu => rw [hcpu, ← SelectionSet.ownerOf?_filesOn]; rfl
    · rfl
  · refine SelectionSet.updateFiles_congr fun f hf => ?_
    have hiff := hset.mem_filesOn_iff hf cpu
    unfold SelectionSet.filesOn at hiff
    simp only [hiff]

theorem mapAll_files_outcome (pages : Nat) {s : Session ω} (hset : s.set.Distinct) :
    ∃ r s', mapAll host pages s.set.files s = (r, s') ∧
      ((r = .ok () ∧ s'.set = s.set.placeAll) ∨
        (∃ e, r = .error e) ∧ s'.set = s.set.unplaceAll) := by
  obtain ⟨r, s', hmap, hcases⟩ :=
    mapAll_outcome host pages hset (List.Sublist.refl s.set.files)
  refine ⟨r, s', hmap, hcases.imp (fun h => ⟨h.1, h.2.trans ?_⟩) fun h => ⟨h.1, h.2.trans ?_⟩⟩
  · refine SelectionSet.updateFiles_congr fun f hf => ?_
    rw [if_pos (List.mem_map_of_mem hf), SelectionSet.ownerOf?_files]
  · exact SelectionSet.updateFiles_congr fun f hf => if_pos (List.mem_map_of_mem hf)

end Recording

end Profiler
