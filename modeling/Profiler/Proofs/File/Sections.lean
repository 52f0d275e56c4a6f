/-
# Which files are accepted

A file is opened by a row of checks over ranges. Each check is given here as
what it lets pass: ranges that end within the file, ranges without a byte in
common, id lists of whole words, a table that is the encoding of its places.
Put together they say of the whole reader when it accepts a file and what it
then knows (`RecordFile.ofBytes_eq_ok_iff`), so that what accepted files are
like and that a finished file is accepted both come from one statement.

Key definitions: `Section.stop`, `Section.Apart`, `FileHeader.Valid`,
`FileAttr.Readable`, `Section.Placed`, `RecordFile.OpenedFrom`.
Key theorems: `Section.fits_iff`, `Section.overlaps_eq_false_iff`,
`FileHeader.check_eq_ok_iff`, `RecordFile.readAttrs_eq_ok_iff`,
`RecordFile.readFeatures_eq_ok_iff`, `RecordFile.ofBytes_eq_ok_iff`.
-/
import Profiler.File.Opened
import Profiler.Proofs.File.Tables
import Profiler.Proofs.OrderedMap

namespace Profiler

/-! ### Ranges -/

namespace Section

def stop (s : Section) : Nat := s.offset.toNat + s.size.toNat

/-- No byte is in both ranges. -/
def Apart (s t : Section) : Prop :=
  s.size = 0 ∨ t.size = 0 ∨ s.stop ≤ t.offset.toNat ∨ t.stop ≤ s.offset.toNat

instance (s t : Section) : Decidable (s.Apart t) := inferInstanceAs (Decidable (_ ∨ _))

theorem Apart.symm {s t : Section} (h : s.Apart t) : t.Apart s := by
  rcases h with h | h | h | h
  · exact .inr (.inl h)
  · exact .inl h
  · exact .inr (.inr (.inr h))
  · exact .inr (.inr (.inl h))

theorem fits_iff {s : Section} {n : Nat} : s.fits n = true ↔ s.stop < UInt64.size ∧ s.stop ≤ n := by
  unfold fits end? stop
  by_cases h : s.offset.toNat + s.size.toNat < UInt64.size
  · have hend : (s.offset + s.size).toNat = s.offset.toNat + s.size.toNat := by
      rw [UInt64.toNat_add, Nat.mod_eq_of_lt h]
    simp [h, hend]
  · simp [h]

/-- Where no range runs over the last word, two of them overlap unless they
are apart. -/
theorem overlaps_eq_false_iff {s t : Section} (hs : s.stop < UInt64.size)
    (ht : t.stop < UInt64.size) : s.overlaps t = false ↔ s.Apart t := by
  have hclamped : ∀ u : Section, u.stop < UInt64.size → u.endClamped = u.stop := by
    intro u hu
    exact Nat.min_eq_left (Nat.le_sub_one_of_lt hu)
  unfold overlaps Apart
  rw [hclamped s hs, hclamped t ht]
  simp only [Bool.and_eq_false_iff, bne_eq_false_iff_eq, decide_eq_false_iff_not, Nat.not_lt]
  constructor
  · rintro (((h | h) | h) | h)
    · exact .inl h
    · exact .inr (.inl h)
    · exact .inr (.inr (.inr h))
    · exact .inr (.inr (.inl h))
  · rintro (h | h | h | h)
    · exact .inl (.inl (.inl h))
    · exact .inl (.inl (.inr h))
    · exact .inr h
    · exact .inl (.inr h)

theorem stop_lt_of_fits {s : Section} {n : Nat} (h : s.fits n = true) : s.stop < UInt64.size :=
  (fits_iff.mp h).1

theorem stop_le_of_fits {s : Section} {n : Nat} (h : s.fits n = true) : s.stop ≤ n :=
  (fits_iff.mp h).2

/-- Ranges of one file overlap unless they are apart. -/
theorem overlaps_eq_false_iff_of_fits {s t : Section} {n : Nat} (hs : s.fits n = true)
    (ht : t.fits n = true) : s.overlaps t = false ↔ s.Apart t :=
  overlaps_eq_false_iff (stop_lt_of_fits hs) (stop_lt_of_fits ht)

theorem length_slice_le (s : Section) (file : Bytes) : (s.slice file).length ≤ file.length := by
  simp [slice]

theorem length_slice {s : Section} {file : Bytes} (h : s.fits file.length = true) :
    (s.slice file).length = s.size.toNat := by
  have hstop := stop_le_of_fits h
  unfold stop at hstop
  unfold slice
  rw [List.length_take, List.length_drop]
  omega

end Section

/-! ### The header -/

namespace FileHeader

variable {sections : List (String × Section)} {fileSize : Nat}

theorem forall_mem_fixedSections {h : FileHeader} {P : Section → Prop} :
    (∀ x ∈ h.fixedSections, P x.2) ↔ P h.own ∧ P h.attrs ∧ P h.data := by
  unfold fixedSections
  simp

theorem pairwise_fixedSections {h : FileHeader} {R : Section → Section → Prop} :
    h.fixedSections.Pairwise (fun x y => R x.2 y.2) ↔
      R h.own h.attrs ∧ R h.own h.data ∧ R h.attrs h.data := by
  unfold fixedSections
  simp [and_assoc]

theorem checkRanges_eq_ok_iff :
    checkRanges fileSize sections = .ok () ↔ ∀ x ∈ sections, x.2.fits fileSize = true := by
  induction sections with
  | nil => exact ⟨fun _ => nofun, fun _ => rfl⟩
  | cons x rest ih =>
    obtain ⟨name, s⟩ := x
    rw [checkRanges, List.forall_mem_cons, ← ih]
    by_cases h : s.fits fileSize = true
    · simp [h]
    · simp [h]

theorem checkDisjoint_eq_ok_iff :
    checkDisjoint sections = .ok () ↔ sections.Pairwise fun x y => x.2.overlaps y.2 = false := by
  induction sections with
  | nil => exact ⟨fun _ => List.Pairwise.nil, fun _ => rfl⟩
  | cons x rest ih =>
    obtain ⟨name, s⟩ := x
    rw [checkDisjoint, List.pairwise_cons, ← ih]
    cases hfind : rest.find? fun y => s.overlaps y.2 with
    | none =>
      have hnone : ∀ y ∈ rest, s.overlaps y.2 = false := by simpa using hfind
      exact ⟨fun h => ⟨hnone, h⟩, fun h => h.2⟩
    | some y =>
      have hy : s.overlaps y.2 = true := List.find?_some (p := fun y : String × Section => s.overlaps y.2) hfind
      have hmem := List.mem_of_find?_eq_some hfind
      refine ⟨nofun, fun h => ?_⟩
      rw [h.1 y hmem] at hy
      cases hy

/-- The header can describe a file of this size. -/
structure Valid (h : FileHeader) (fileSize : Nat) : Prop where
  headerSize_ge : fileHeaderSize ≤ h.headerSize.toNat
  attrSize_gt : Section.byteSize < h.attrSize.toNat
  fits : ∀ x ∈ h.fixedSections, x.2.fits fileSize = true
  disjoint : h.fixedSections.Pairwise fun x y => x.2.overlaps y.2 = false
  wholeEntries : h.attrs.size % h.attrSize = 0

theorem Valid.fixed_fit {h : FileHeader} (hvalid : h.Valid fileSize) : h.own.fits fileSize = true ∧
    h.attrs.fits fileSize = true ∧ h.data.fits fileSize = true :=
  (forall_mem_fixedSections (P := fun s => s.fits fileSize = true)).mp hvalid.fits

theorem Valid.fixed_disjoint {h : FileHeader} (hvalid : h.Valid fileSize) :
    h.own.overlaps h.attrs = false ∧ h.own.overlaps h.data = false ∧
      h.attrs.overlaps h.data = false :=
  (pairwise_fixedSections (R := fun s t => s.overlaps t = false)).mp hvalid.disjoint

theorem check_eq_ok_iff {h : FileHeader} : h.check fileSize = .ok () ↔ h.Valid fileSize := by
  unfold check
  simp only [throwIf_bind_eq_ok_iff, throwIf_eq_ok_iff, bind_eq_ok_iff, Nat.not_lt, Nat.not_le,
    not_not]
  constructor
  · rintro ⟨hheader, hattr, _, hranges, _, hdisjoint, hentries⟩
    exact ⟨hheader, hattr, checkRanges_eq_ok_iff.mp hranges,
      checkDisjoint_eq_ok_iff.mp hdisjoint, hentries⟩
  · rintro ⟨hheader, hattr, hranges, hdisjoint, hentries⟩
    exact ⟨hheader, hattr, (), checkRanges_eq_ok_iff.mpr hranges, (),
      checkDisjoint_eq_ok_iff.mpr hdisjoint, hentries⟩

end FileHeader

/-! ### The attrs -/

/-- The id list of the entry can be read from the file. -/
structure FileAttr.Readable (h : FileHeader) (file : Bytes) (entry : FileAttr) : Prop where
  wholeIds : entry.ids.size % 8 = 0
  disjoint : ∀ x ∈ h.fixedSections, x.2.overlaps entry.ids = false
  fits : entry.ids.fits file.length = true

theorem FileAttr.Readable.fixed_disjoint {h : FileHeader} {file : Bytes} {entry : FileAttr}
    (hreadable : entry.Readable h file) : h.own.overlaps entry.ids = false ∧
      h.attrs.overlaps entry.ids = false ∧ h.data.overlaps entry.ids = false :=
  (FileHeader.forall_mem_fixedSections (P := fun s => s.overlaps entry.ids = false)).mp
    hreadable.disjoint

/-- The attr with the ids that the file holds for it. -/
def FileAttr.withIds (file : Bytes) (entry : FileAttr) : AttrWithIds :=
  ⟨entry.attr, (entry.ids.slice file).words ((entry.ids.slice file).length / 8)⟩

namespace RecordFile

variable {h : FileHeader} {file : Bytes}

theorem range_eq_ok_iff {s : Section} {bs : Bytes} :
    range file s = .ok bs ↔ s.fits file.length = true ∧ bs = s.slice file := by
  unfold range
  by_cases hs : s.fits file.length = true
  · simp [hs, eq_comm]
  · simp [hs]

/-- The entries of a table that was written with entries of our size. -/
theorem readEntries_eq_ok {entries : List FileAttr} (hfits : h.attrs.fits file.length = true)
    (hsize : h.attrSize.toNat = FileAttr.byteSize)
    (htable : h.attrs.slice file = entries.flatMap FileAttr.encode) :
    readEntries h file = .ok entries := by
  have hchunks : Bytes.chunks FileAttr.byteSize (entries.flatMap FileAttr.encode) =
      entries.map FileAttr.encode :=
    Bytes.chunks_flatMap (by decide) fun e _ => e.length_encode
  have hwhole : (entries.map FileAttr.encode).filter (fun c => c.length = FileAttr.byteSize) =
      entries.map FileAttr.encode := by
    refine List.filter_eq_self.mpr ?_
    rw [List.forall_mem_map]
    exact fun e _ => decide_eq_true e.length_encode
  unfold readEntries
  refine bind_eq_ok_iff.mpr ⟨_, range_eq_ok_iff.mpr ⟨hfits, rfl⟩, ?_⟩
  simp only [htable, hsize, hchunks, hwhole, FileAttr.mapM_decode_encode]

theorem readIds_eq_ok_iff {earlier : List FileAttr} {number : Nat} {entry : FileAttr}
    {ids : List UInt64} : readIds h file earlier number entry = .ok ids ↔
      entry.Readable h file ∧ (∀ f ∈ earlier, f.ids.overlaps entry.ids = false) ∧
        ids = (entry.withIds file).ids := by
  unfold readIds
  by_cases hwhole : entry.ids.size % 8 = 0
  · rw [if_neg (not_not.mpr hwhole)]
    cases hfixed : h.fixedSections.find? fun x => x.2.overlaps entry.ids with
    | some x =>
      have hx : x.2.overlaps entry.ids = true :=
        List.find?_some (p := fun x : String × Section => x.2.overlaps entry.ids) hfixed
      have hmem := List.mem_of_find?_eq_some hfixed
      refine ⟨nofun, fun hok => ?_⟩
      rw [hok.1.disjoint x hmem] at hx
      cases hx
    | none =>
      have hdisjoint : ∀ x ∈ h.fixedSections, x.2.overlaps entry.ids = false := by
        simpa using hfixed
      cases hearlier : earlier.findIdx? fun f => f.ids.overlaps entry.ids with
      | some other =>
        refine ⟨nofun, fun hok => ?_⟩
        have hnone : earlier.findIdx? (fun f => f.ids.overlaps entry.ids) = none :=
          List.findIdx?_eq_none_iff.mpr hok.2.1
        rw [hnone] at hearlier
        cases hearlier
      | none =>
        have happart : ∀ f ∈ earlier, f.ids.overlaps entry.ids = false :=
          List.findIdx?_eq_none_iff.mp hearlier
        constructor
        · intro hok
          obtain ⟨bs, hbs, hok⟩ := bind_eq_ok_iff.mp hok
          obtain ⟨hfits, rfl⟩ := range_eq_ok_iff.mp hbs
          cases hok
          exact ⟨⟨hwhole, hdisjoint, hfits⟩, happart, rfl⟩
        · rintro ⟨hreadable, -, rfl⟩
          exact bind_eq_ok_iff.mpr ⟨_, range_eq_ok_iff.mpr ⟨hreadable.fits, rfl⟩, rfl⟩
  · rw [if_pos hwhole]
    exact ⟨nofun, fun hok => absurd hok.1.wholeIds hwhole⟩

theorem readAttrsAfter_eq_ok_iff {doneRev entries : List FileAttr} {attrs : List AttrWithIds} :
    readAttrsAfter h file doneRev entries = .ok attrs ↔
      (∀ e ∈ entries, e.Readable h file) ∧
        (∀ d ∈ doneRev, ∀ e ∈ entries, d.ids.overlaps e.ids = false) ∧
        entries.Pairwise (fun d e => d.ids.overlaps e.ids = false) ∧
        attrs = entries.map (FileAttr.withIds file) := by
  induction entries generalizing doneRev attrs with
  | nil =>
    refine ⟨fun hok => ?_, fun hok => ?_⟩
    · cases hok
      exact ⟨nofun, nofun, List.Pairwise.nil, rfl⟩
    · rw [hok.2.2.2]
      rfl
  | cons entry rest ih =>
    rw [readAttrsAfter, bind_eq_ok_iff]
    constructor
    · rintro ⟨ids, hids, hok⟩
      obtain ⟨others, hothers, hok⟩ := bind_eq_ok_iff.mp hok
      cases hok
      obtain ⟨hreadable, hearlier, rfl⟩ := readIds_eq_ok_iff.mp hids
      obtain ⟨hreadables, hdone, hpairwise, rfl⟩ := ih.mp hothers
      obtain ⟨hentry, hdone⟩ := List.forall_mem_cons.mp hdone
      refine ⟨List.forall_mem_cons.mpr ⟨hreadable, hreadables⟩, fun d hd => ?_,
        List.pairwise_cons.mpr ⟨hentry, hpairwise⟩, rfl⟩
      exact List.forall_mem_cons.mpr ⟨hearlier d (List.mem_reverse.mpr hd), hdone d hd⟩
    · rintro ⟨hreadable, hdone, hpairwise, rfl⟩
      obtain ⟨hreadable, hreadables⟩ := List.forall_mem_cons.mp hreadable
      obtain ⟨hentry, hpairwise⟩ := List.pairwise_cons.mp hpairwise
      refine ⟨_, readIds_eq_ok_iff.mpr ⟨hreadable, fun f hf => ?_, rfl⟩, ?_⟩
      · exact hdone f (List.mem_reverse.mp hf) entry List.mem_cons_self
      · refine bind_eq_ok_iff.mpr ⟨_, ih.mpr ⟨hreadables, ?_, hpairwise, rfl⟩, rfl⟩
        exact List.forall_mem_cons.mpr
          ⟨hentry, fun d hd e he => hdone d hd e (List.mem_cons_of_mem entry he)⟩

theorem readAttrs_eq_ok_iff {attrs : List AttrWithIds} : readAttrs h file = .ok attrs ↔
    ∃ entries, readEntries h file = .ok entries ∧ entries ≠ [] ∧
      (∀ e ∈ entries, e.Readable h file) ∧
      entries.Pairwise (fun d e => d.ids.overlaps e.ids = false) ∧
      attrs = entries.map (FileAttr.withIds file) := by
  unfold readAttrs
  rw [bind_eq_ok_iff]
  refine exists_congr fun entries => and_congr_right fun _ => ?_
  cases entries with
  | nil => exact ⟨nofun, fun hok => absurd rfl hok.1⟩
  | cons entry rest =>
    refine readAttrsAfter_eq_ok_iff.trans ?_
    exact ⟨fun ⟨hreadable, _, hpairwise, hattrs⟩ => ⟨nofun, hreadable, hpairwise, hattrs⟩,
      fun ⟨_, hreadable, hpairwise, hattrs⟩ => ⟨hreadable, nofun, hpairwise, hattrs⟩⟩

end RecordFile

/-! ### The features -/

/-- A feature may be at this place: it is in the file and behind the table,
which ends at `tableEnd`, unless it is empty. -/
structure Section.Placed (file : Bytes) (tableEnd : Nat) (s : Section) : Prop where
  fits : s.fits file.length = true
  behind : s.size = 0 ∨ tableEnd ≤ s.offset.toNat

namespace RecordFile

variable {h : FileHeader} {file : Bytes} {tableEnd : Nat}

theorem addFeature_eq_ok_iff {known fs : OrderedMap Feature Section} {f : Feature} {s : Section} :
    addFeature file tableEnd known f s = .ok fs ↔
      s.Placed file tableEnd ∧ (∀ e ∈ known.entries, e.2.overlaps s = false) ∧
        fs = known.insert f s := by
  unfold addFeature
  simp only [throwIf_bind_eq_ok_iff, bind_eq_ok_iff, range_eq_ok_iff, not_and, Nat.not_lt]
  have hbehind : (s.size ≠ 0 → tableEnd ≤ s.offset.toNat) ↔
      (s.size = 0 ∨ tableEnd ≤ s.offset.toNat) := by
    rw [← not_imp_not, ne_eq, not_not, imp_iff_not_or, not_not, or_comm]
  rw [hbehind]
  cases hfind : known.entries.find? fun e => e.2.overlaps s with
  | none =>
    have hnone : ∀ e ∈ known.entries, e.2.overlaps s = false := by simpa using hfind
    constructor
    · rintro ⟨hplace, bs, ⟨hfits, -⟩, hok⟩
      cases hok
      exact ⟨⟨hfits, hplace⟩, hnone, rfl⟩
    · rintro ⟨⟨hfits, hplace⟩, -, rfl⟩
      exact ⟨hplace, _, ⟨hfits, rfl⟩, rfl⟩
  | some e =>
    have he : e.2.overlaps s = true :=
      List.find?_some (p := fun e : Feature × Section => e.2.overlaps s) hfind
    constructor
    · rintro ⟨-, bs, -, hok⟩
      cases hok
    · rintro ⟨-, hnone, -⟩
      rw [hnone e (List.mem_of_find?_eq_some hfind)] at he
      cases he

/-- Features come in the order of their numbers, so each is added behind the
ones before it. -/
theorem foldlM_addFeature_eq_ok_iff {known l : List (Feature × Section)}
    {fs : OrderedMap Feature Section} (hsorted : ((known ++ l).map Prod.fst).Pairwise (· < ·)) :
    l.foldlM (fun m e => addFeature file tableEnd m e.1 e.2) ⟨known⟩ = .ok fs ↔
      (∀ e ∈ l, e.2.Placed file tableEnd) ∧
        (∀ d ∈ known, ∀ e ∈ l, d.2.overlaps e.2 = false) ∧
        l.Pairwise (fun d e => d.2.overlaps e.2 = false) ∧ fs = ⟨known ++ l⟩ := by
  induction l generalizing known with
  | nil =>
    refine ⟨fun hok => ?_, fun hok => ?_⟩
    · cases hok
      exact ⟨nofun, nofun, List.Pairwise.nil, by rw [List.append_nil]⟩
    · rw [hok.2.2.2, List.append_nil]
      rfl
  | cons e rest ih =>
    have happend : known ++ e :: rest = known ++ [e] ++ rest := by simp
    have hlast : (⟨known⟩ : OrderedMap Feature Section).insert e.1 e.2 = ⟨known ++ [e]⟩ := by
      refine OrderedMap.insert_of_forall_lt fun d hd => ?_
      rw [List.map_append, List.pairwise_append] at hsorted
      exact hsorted.2.2 d.1 (List.mem_map_of_mem hd) e.1 (List.mem_map_of_mem List.mem_cons_self)
    rw [happend] at hsorted ⊢
    rw [List.foldlM_cons, bind_eq_ok_iff]
    constructor
    · rintro ⟨m, hm, hok⟩
      obtain ⟨hplaced, hknown, rfl⟩ := addFeature_eq_ok_iff.mp hm
      rw [hlast] at hok
      obtain ⟨hrest, hdone, hpairwise, rfl⟩ := (ih hsorted).mp hok
      refine ⟨List.forall_mem_cons.mpr ⟨hplaced, hrest⟩, fun d hd => ?_,
        List.pairwise_cons.mpr ⟨hdone e (List.mem_append_right known List.mem_cons_self),
          hpairwise⟩, rfl⟩
      exact List.forall_mem_cons.mpr ⟨hknown d hd, hdone d (List.mem_append_left [e] hd)⟩
    · rintro ⟨hplaced, hknown, hpairwise, rfl⟩
      obtain ⟨hplaced, hrest⟩ := List.forall_mem_cons.mp hplaced
      obtain ⟨he, hpairwise⟩ := List.pairwise_cons.mp hpairwise
      refine ⟨_, addFeature_eq_ok_iff.mpr ⟨hplaced, fun d hd => ?_, rfl⟩, ?_⟩
      · exact hknown d hd e List.mem_cons_self
      · rw [hlast]
        refine (ih hsorted).mpr ⟨hrest, fun d hd => ?_, hpairwise, rfl⟩
        rcases List.mem_append.mp hd with hd | hd
        · exact fun g hg => hknown d hd g (List.mem_cons_of_mem e hg)
        · rw [List.mem_singleton.mp hd]
          exact he

/-- The table of feature places holds one for each feature of the header. The
places are in the file, behind the table, and apart. -/
theorem readFeatures_eq_ok_iff {fs : OrderedMap Feature Section} :
    readFeatures h file = .ok fs ↔ h.featureTable.fits file.length = true ∧
      ∃ places : List Section, places.length = h.featureIds.length ∧
        h.featureTable.slice file = places.flatMap Section.encode ∧
        (∀ s ∈ places, s.Placed file h.featureTable.stop) ∧
        places.Pairwise (fun s t => s.overlaps t = false) ∧
        fs = ⟨h.featureIds.zip places⟩ := by
  have hsorted : h.featureIds.Pairwise (· < ·) := List.pairwise_lt_range.filter _
  unfold readFeatures
  rw [bind_eq_ok_iff]
  -- reading the places of a table that is the encoding of places
  have hread : ∀ places : List Section, places.length = h.featureIds.length →
      ((h.featureIds.zip (Bytes.chunks Section.byteSize (places.flatMap Section.encode))).foldlM
          (fun known e => do
            let s ← Section.parse.value e.2
            addFeature file (h.featureTable.offset.toNat + h.featureTable.size.toNat) known e.1 s)
          ⟨[]⟩ = .ok fs ↔
        (∀ s ∈ places, s.Placed file h.featureTable.stop) ∧
          places.Pairwise (fun s t => s.overlaps t = false) ∧ fs = ⟨h.featureIds.zip places⟩) := by
    intro places hlen
    have hids : (h.featureIds.zip places).map Prod.fst = h.featureIds :=
      List.map_fst_zip (Nat.le_of_eq hlen.symm)
    have hplaces : (h.featureIds.zip places).map Prod.snd = places :=
      List.map_snd_zip (Nat.le_of_eq hlen)
    have hchunks : Bytes.chunks Section.byteSize (places.flatMap Section.encode) =
        places.map Section.encode :=
      Bytes.chunks_flatMap (by decide) fun s _ => s.length_encode
    rw [hchunks, List.zip_map_right, List.foldlM_map]
    simp only [Prod.map, id_eq, Section.parse_encode]
    refine (foldlM_addFeature_eq_ok_iff (by rwa [List.nil_append, hids])).trans ?_
    rw [List.nil_append, ← hplaces, List.forall_mem_map, List.pairwise_map, hplaces]
    constructor
    · rintro ⟨hplaced, -, hpairwise, hfs⟩
      exact ⟨hplaced, hpairwise, hfs⟩
    · rintro ⟨hplaced, hpairwise, hfs⟩
      exact ⟨hplaced, List.forall_mem_nil _, hpairwise, hfs⟩
  constructor
  · rintro ⟨table, htable, hok⟩
    obtain ⟨hfits, rfl⟩ := range_eq_ok_iff.mp htable
    have hlen : (h.featureTable.slice file).length = h.featureIds.length * Section.byteSize := by
      rw [Section.length_slice hfits, h.toNat_featureTable_size]
    obtain ⟨places, hplaces, heq⟩ := Section.exists_flatMap_encode hlen
    rw [heq] at hok
    exact ⟨hfits, places, hplaces, heq, (hread places hplaces).mp hok⟩
  · rintro ⟨hfits, places, hplaces, heq, hok⟩
    refine ⟨_, range_eq_ok_iff.mpr ⟨hfits, rfl⟩, ?_⟩
    rw [heq]
    exact (hread places hplaces).mpr hok

/-! ### The whole file -/

/-- The file is what opening these bytes by this name gives. -/
structure OpenedFrom (path : String) (file : Bytes) (f : RecordFile) : Prop where
  path_eq : f.path = path
  bytes_eq : f.bytes = file
  size_ge : fileHeaderSize ≤ file.length
  header_eq : FileHeader.parse.value file = .ok f.header
  valid : f.header.Valid file.length
  attrs_eq : readAttrs f.header file = .ok f.attrs
  positions : if 1 < f.attrs.length
    then ∃ p, commonIdPositions (f.attrs.map AttrWithIds.attr) = .ok p ∧ f.idPositions? = some p
    else f.idPositions? = none
  features_eq : readFeatures f.header file = .ok f.features
  idToAttr_eq : f.idToAttr = tableOfIds f.attrs

/-- **A file is accepted with what its bytes say**, or not at all. -/
theorem ofBytes_eq_ok_iff {path : String} {f : RecordFile} :
    ofBytes path file = .ok f ↔ f.OpenedFrom path file := by
  unfold ofBytes
  simp only [throwIf_bind_eq_ok_iff, bind_eq_ok_iff, liftM_eq_ok_iff, Nat.not_lt]
  constructor
  · rintro ⟨hsize, header, hheader, _, hvalid, attrs, hattrs, hok⟩
    have hvalid := FileHeader.check_eq_ok_iff.mp hvalid
    by_cases hmany : 1 < attrs.length
    · rw [if_pos hmany] at hok
      obtain ⟨positions?, hpositions, hok⟩ := bind_eq_ok_iff.mp hok
      obtain ⟨features, hfeatures, hok⟩ := bind_eq_ok_iff.mp hok
      cases hcommon : commonIdPositions (attrs.map AttrWithIds.attr) with
      | error e =>
        rw [hcommon] at hpositions
        cases hpositions
      | ok p =>
        rw [hcommon] at hpositions
        cases hpositions
        cases hok
        refine ⟨rfl, rfl, hsize, hheader, hvalid, hattrs, ?_, liftM_eq_ok_iff.mp hfeatures, rfl⟩
        rw [if_pos hmany]
        exact ⟨p, hcommon, rfl⟩
    · rw [if_neg hmany] at hok
      obtain ⟨positions?, hpositions, hok⟩ := bind_eq_ok_iff.mp hok
      obtain ⟨features, hfeatures, hok⟩ := bind_eq_ok_iff.mp hok
      cases hpositions
      cases hok
      refine ⟨rfl, rfl, hsize, hheader, hvalid, hattrs, ?_, liftM_eq_ok_iff.mp hfeatures, rfl⟩
      rw [if_neg hmany]
  · obtain ⟨path', bytes, header, attrs, features, idToAttr, positions?⟩ := f
    rintro ⟨hpath, hbytes, hsize, hheader, hvalid, hattrs, hpositions, hfeatures, hids⟩
    dsimp only at hpath hbytes hheader hvalid hattrs hpositions hfeatures hids
    subst hpath hbytes hids
    refine ⟨hsize, header, hheader, (), FileHeader.check_eq_ok_iff.mpr hvalid, attrs, hattrs, ?_⟩
    by_cases hmany : 1 < attrs.length
    · rw [if_pos hmany] at hpositions ⊢
      obtain ⟨p, hcommon, rfl⟩ := hpositions
      rw [hcommon]
      refine bind_eq_ok_iff.mpr ⟨some p, rfl, ?_⟩
      exact bind_eq_ok_iff.mpr ⟨features, liftM_eq_ok_iff.mpr hfeatures, rfl⟩
    · rw [if_neg hmany] at hpositions ⊢
      rw [hpositions]
      refine bind_eq_ok_iff.mpr ⟨none, rfl, ?_⟩
      exact bind_eq_ok_iff.mpr ⟨features, liftM_eq_ok_iff.mpr hfeatures, rfl⟩

end RecordFile
end Profiler
