/-
# A finished file is opened as it was written

The parts of a finished file lie one behind another: the header, the id lists,
the attr table, the data, the places of the features, and the features. The
header and the tables say so in numbers, which is all that the reader checks
and follows (`FileDraft.Closed.ofBytes_eq`). So whatever calls wrote a file, it
is opened with the attrs, the data and the features of the calls that were
accepted (`RecordFile.ofBytes_close`).

Key definitions: `FileDraft.Closed`, `FileDraft.Closed.opened`,
`FileDraft.lastPayload?`.
Key theorems: `FileDraft.map_slice_featurePlaces`, `FileDraft.pairwise_featurePlaces`,
`FileDraft.Closed.valid`, `FileDraft.Closed.readAttrs_eq`,
`FileDraft.Closed.readFeatures_eq`, `FileDraft.Closed.ofBytes_eq`,
`RecordFile.ofBytes_close`.
-/
import Profiler.Proofs.File.DraftCalls
import Profiler.Proofs.File.Sections

namespace Profiler

theorem Section.slice_append {s : Section} {before bs after : Bytes}
    (hoffset : s.offset.toNat = before.length) (hsize : s.size.toNat = bs.length) :
    s.slice (before ++ (bs ++ after)) = bs := by
  unfold slice
  rw [hoffset, hsize, List.drop_left, List.take_left]

namespace FileDraft

/-! ### Pieces one behind another -/

section Pieces

variable {offset : Nat} {pieces : List Bytes} {before after : Bytes} {s : Section}

theorem length_featurePlaces (offset : Nat) (pieces : List Bytes) :
    (featurePlaces offset pieces).length = pieces.length := by
  induction pieces generalizing offset with
  | nil => rfl
  | cons p rest ih => rw [featurePlaces, List.length_cons, ih, List.length_cons]

theorem toNat_place (offset size : Nat) (h : offset + size < UInt64.size) :
    (UInt64.ofNat offset).toNat = offset ∧ (UInt64.ofNat size).toNat = size :=
  ⟨UInt64.toNat_ofNat_of_lt' (by omega), UInt64.toNat_ofNat_of_lt' (by omega)⟩

/-- Every place holds its piece. -/
theorem map_slice_featurePlaces (h : before.length + pieces.flatten.length < UInt64.size) :
    (featurePlaces before.length pieces).map
      (fun s => s.slice (before ++ (pieces.flatten ++ after))) = pieces := by
  induction pieces generalizing before with
  | nil => rfl
  | cons p rest ih =>
    rw [List.flatten_cons, List.length_append] at h
    obtain ⟨hoffset, hsize⟩ := toNat_place before.length p.length (by omega)
    have hfile : before ++ ((p :: rest).flatten ++ after) =
        (before ++ p) ++ (rest.flatten ++ after) := by
      rw [List.flatten_cons, List.append_assoc, List.append_assoc]
    have hbefore : (before ++ p).length + rest.flatten.length < UInt64.size := by
      rw [List.length_append]
      omega
    have hrest := ih hbefore
    rw [List.length_append, ← hfile] at hrest
    rw [featurePlaces, List.map_cons, hrest, List.flatten_cons, List.append_assoc,
      Section.slice_append hoffset hsize]

/-- The places are between the first and the end of the last. -/
theorem bounds_of_mem_featurePlaces (h : offset + pieces.flatten.length < UInt64.size)
    (hs : s ∈ featurePlaces offset pieces) :
    offset ≤ s.offset.toNat ∧ s.stop ≤ offset + pieces.flatten.length := by
  induction pieces generalizing offset with
  | nil => exact nomatch hs
  | cons p rest ih =>
    rw [List.flatten_cons, List.length_append] at h ⊢
    obtain ⟨hoffset, hsize⟩ := toNat_place offset p.length (by omega)
    rw [featurePlaces] at hs
    rcases List.mem_cons.mp hs with rfl | hs
    · unfold Section.stop
      rw [hoffset, hsize]
      omega
    · have hbehind : offset + p.length + rest.flatten.length < UInt64.size := by omega
      obtain ⟨hfirst, hlast⟩ := ih hbehind hs
      omega

theorem exists_length_of_mem_featurePlaces (h : offset + pieces.flatten.length < UInt64.size)
    (hs : s ∈ featurePlaces offset pieces) : ∃ p ∈ pieces, s.size.toNat = p.length := by
  induction pieces generalizing offset with
  | nil => exact nomatch hs
  | cons p rest ih =>
    rw [List.flatten_cons, List.length_append] at h
    obtain ⟨-, hsize⟩ := toNat_place offset p.length (by omega)
    rw [featurePlaces] at hs
    rcases List.mem_cons.mp hs with rfl | hs
    · exact ⟨p, List.mem_cons_self, hsize⟩
    · have hbehind : offset + p.length + rest.flatten.length < UInt64.size := by omega
      obtain ⟨q, hq, hlen⟩ := ih hbehind hs
      exact ⟨q, List.mem_cons_of_mem p hq, hlen⟩

theorem pairwise_featurePlaces (h : offset + pieces.flatten.length < UInt64.size) :
    (featurePlaces offset pieces).Pairwise fun s t => s.stop ≤ t.offset.toNat := by
  induction pieces generalizing offset with
  | nil => exact List.Pairwise.nil
  | cons p rest ih =>
    rw [List.flatten_cons, List.length_append] at h
    obtain ⟨hoffset, hsize⟩ := toNat_place offset p.length (by omega)
    rw [featurePlaces]
    refine List.pairwise_cons.mpr ⟨fun t ht => ?_, ih (by omega)⟩
    obtain ⟨hfirst, -⟩ := bounds_of_mem_featurePlaces (by omega) ht
    unfold Section.stop
    rw [hoffset, hsize]
    exact hfirst

end Pieces

/-! ### The attr table -/

theorem map_ids_attrEntries (offset : Nat) (attrs : List AttrWithIds) :
    (attrEntries offset attrs).map FileAttr.ids =
      featurePlaces offset (attrs.map fun a => Bytes.u64s a.ids) := by
  induction attrs generalizing offset with
  | nil => rfl
  | cons a rest ih =>
    rw [attrEntries, List.map_cons, List.map_cons, featurePlaces, Bytes.length_u64s, ih]

theorem length_attrEntries (offset : Nat) (attrs : List AttrWithIds) :
    (attrEntries offset attrs).length = attrs.length := by
  induction attrs generalizing offset with
  | nil => rfl
  | cons a rest ih => rw [attrEntries, List.length_cons, ih, List.length_cons]

theorem idLists_eq_flatten (attrs : List AttrWithIds) :
    idLists attrs = (attrs.map fun a => Bytes.u64s a.ids).flatten := List.flatMap_def

theorem length_attrTable (offset : Nat) (attrs : List AttrWithIds) :
    ((attrEntries offset attrs).flatMap FileAttr.encode).length =
      FileAttr.byteSize * attrs.length := by
  induction attrs generalizing offset with
  | nil => rfl
  | cons a rest ih =>
    rw [attrEntries, List.flatMap_cons, List.length_append, FileAttr.length_encode, ih,
      List.length_cons, Nat.mul_succ, Nat.add_comm]

theorem map_withIds_attrEntries {file before after : Bytes} {attrs : List AttrWithIds}
    (hfile : file = before ++ (idLists attrs ++ after))
    (h : before.length + (idLists attrs).length < UInt64.size) :
    (attrEntries before.length attrs).map (FileAttr.withIds file) = attrs := by
  induction attrs generalizing before with
  | nil => rfl
  | cons a rest ih =>
    have hcons : idLists (a :: rest) = Bytes.u64s a.ids ++ idLists rest := List.flatMap_cons
    rw [hcons, List.length_append, Bytes.length_u64s] at h
    rw [hcons, List.append_assoc] at hfile
    obtain ⟨hoffset, hsize⟩ :=
      toNat_place before.length (8 * a.ids.length) (by omega)
    have hslice : Section.slice ⟨UInt64.ofNat before.length, UInt64.ofNat (8 * a.ids.length)⟩ file =
        Bytes.u64s a.ids := by
      rw [hfile]
      exact Section.slice_append hoffset (by rw [hsize, Bytes.length_u64s])
    have hids : Bytes.words ((Bytes.u64s a.ids).length / 8) (Bytes.u64s a.ids) = a.ids := by
      have hwords := Bytes.words_u64s a.ids []
      rw [List.append_nil] at hwords
      rwa [Bytes.length_u64s, Nat.mul_div_cancel_left _ (by decide)]
    have hbehind : file = (before ++ Bytes.u64s a.ids) ++ (idLists rest ++ after) := by
      rw [hfile, List.append_assoc]
    have hfits : (before ++ Bytes.u64s a.ids).length + (idLists rest).length < UInt64.size := by
      rw [List.length_append, Bytes.length_u64s]
      omega
    have hrest := ih hbehind hfits
    rw [List.length_append, Bytes.length_u64s] at hrest
    rw [attrEntries, List.map_cons, hrest, FileAttr.withIds, hslice, hids]

/-! ### The finished file -/

/-- Closing the draft gives this file. Its features have valid numbers, and a
word holds the length of the file. -/
structure Closed (d : FileDraft) (attrs : List AttrWithIds) (file : Bytes) : Prop where
  attrs_eq : d.attrs? = some attrs
  attrs_ne_nil : attrs ≠ []
  ascending : d.features.Ascending
  bounded : ∀ f ∈ d.features.keys, f < Feature.bound
  close_eq : d.close = .ok file
  size_lt : file.length < UInt64.size

def places (d : FileDraft) (attrs : List AttrWithIds) : List Section :=
  featurePlaces (d.header attrs).featureTable.stop d.features.values

namespace Closed

variable {d : FileDraft} {attrs : List AttrWithIds} {file : Bytes}

theorem header_eq (d : FileDraft) (attrs : List AttrWithIds) : d.header attrs =
    { attrs := attrTable attrs
      data := ⟨(attrTable attrs).offset + (attrTable attrs).size, UInt64.ofNat d.data.length⟩
      features := d.features.keys.foldl (fun bits f => bits ||| BitVec.twoPow 256 f) 0 } := by
  unfold header
  rw [FileHeader.foldl_setFeature]

theorem featureIds_eq (h : d.Closed attrs file) :
    (d.header attrs).featureIds = d.features.keys :=
  FileHeader.featureIds_foldl_setFeature rfl h.bounded h.ascending

theorem length_keys (d : FileDraft) : d.features.keys.length = d.features.values.length := by
  unfold OrderedMap.keys OrderedMap.values
  rw [List.length_map, List.length_map]

theorem toNat_featureTable_size (h : d.Closed attrs file) :
    (d.header attrs).featureTable.size.toNat = Section.byteSize * d.features.values.length := by
  rw [FileHeader.toNat_featureTable_size, h.featureIds_eq, length_keys, Nat.mul_comm]

theorem file_eq (h : d.Closed attrs file) : file =
    (d.header attrs).encode ++ (idLists attrs ++
      ((attrEntries fileHeaderSize attrs).flatMap FileAttr.encode ++ (d.data ++
        ((d.places attrs).flatMap Section.encode ++ d.features.values.flatten)))) := by
  have hentries : d.features.entries.length = d.features.values.length := by
    unfold OrderedMap.values
    rw [List.length_map]
  have hclose := h.close_eq
  unfold close at hclose
  rw [h.attrs_eq] at hclose
  have hoffset : (d.header attrs).featureTable.offset = (d.header attrs).featureTableOffset := rfl
  unfold places Section.stop
  rw [h.toNat_featureTable_size, ← hentries, hoffset]
  simpa [attrBytes, List.append_assoc] using (Except.ok.inj hclose).symm

theorem length_eq (h : d.Closed attrs file) : file.length =
    fileHeaderSize + (idLists attrs).length + FileAttr.byteSize * attrs.length + d.data.length +
      Section.byteSize * d.features.values.length + d.features.values.flatten.length := by
  have hplaces : (d.places attrs).length = d.features.values.length := length_featurePlaces _ _
  rw [h.file_eq]
  simp only [List.length_append]
  rw [FileHeader.length_encode, length_attrTable, Section.length_flatMap_encode, hplaces,
    Nat.mul_comm d.features.values.length]
  omega

/-! The places of the parts, as numbers. -/

theorem attrs_range (h : d.Closed attrs file) :
    (d.header attrs).attrs.offset.toNat = fileHeaderSize + (idLists attrs).length ∧
      (d.header attrs).attrs.size.toNat = FileAttr.byteSize * attrs.length := by
  have hlength := h.length_eq
  have hsize := h.size_lt
  rw [header_eq]
  exact toNat_place _ _ (by omega)

theorem data_range (h : d.Closed attrs file) :
    (d.header attrs).data.offset.toNat =
        fileHeaderSize + (idLists attrs).length + FileAttr.byteSize * attrs.length ∧
      (d.header attrs).data.size.toNat = d.data.length := by
  have hlength := h.length_eq
  have hsize := h.size_lt
  obtain ⟨hoffset, hattrSize⟩ := h.attrs_range
  rw [header_eq] at hoffset hattrSize ⊢
  refine ⟨?_, UInt64.toNat_ofNat_of_lt' (by omega)⟩
  dsimp only at hoffset hattrSize ⊢
  rw [UInt64.toNat_add, hoffset, hattrSize, Nat.mod_eq_of_lt (by
    show _ < UInt64.size
    omega)]

theorem featureTable_range (h : d.Closed attrs file) :
    (d.header attrs).featureTable.offset.toNat =
        fileHeaderSize + (idLists attrs).length + FileAttr.byteSize * attrs.length +
          d.data.length ∧
      (d.header attrs).featureTable.size.toNat =
        Section.byteSize * d.features.values.length := by
  have hlength := h.length_eq
  have hsize := h.size_lt
  obtain ⟨hoffset, hdata⟩ := h.data_range
  refine ⟨?_, h.toNat_featureTable_size⟩
  show ((d.header attrs).data.offset + (d.header attrs).data.size).toNat = _
  rw [UInt64.toNat_add, hoffset, hdata, Nat.mod_eq_of_lt (by
    show _ < UInt64.size
    omega)]

/-! What the reader finds there. -/

theorem slice_attrs (h : d.Closed attrs file) : (d.header attrs).attrs.slice file =
    (attrEntries fileHeaderSize attrs).flatMap FileAttr.encode := by
  obtain ⟨hoffset, hsize⟩ := h.attrs_range
  rw [h.file_eq, ← List.append_assoc]
  refine Section.slice_append ?_ ?_
  · rw [hoffset, List.length_append, FileHeader.length_encode]
  · rw [hsize, length_attrTable]

theorem slice_data (h : d.Closed attrs file) : (d.header attrs).data.slice file = d.data := by
  obtain ⟨hoffset, hsize⟩ := h.data_range
  rw [h.file_eq, ← List.append_assoc, ← List.append_assoc]
  refine Section.slice_append ?_ hsize
  rw [hoffset, List.length_append, List.length_append, FileHeader.length_encode, length_attrTable]

theorem slice_featureTable (h : d.Closed attrs file) : (d.header attrs).featureTable.slice file =
    (d.places attrs).flatMap Section.encode := by
  obtain ⟨hoffset, hsize⟩ := h.featureTable_range
  have hplaces : (d.places attrs).length = d.features.values.length := length_featurePlaces _ _
  rw [h.file_eq, ← List.append_assoc, ← List.append_assoc, ← List.append_assoc]
  refine Section.slice_append ?_ ?_
  · rw [hoffset, List.length_append, List.length_append, List.length_append,
      FileHeader.length_encode, length_attrTable]
  · rw [hsize, Section.length_flatMap_encode, hplaces, Nat.mul_comm]

/-- The features are behind the table of their places, up to the end of the
file. -/
theorem featureTable_stop (h : d.Closed attrs file) :
    (d.header attrs).featureTable.stop + d.features.values.flatten.length = file.length := by
  obtain ⟨hoffset, hsize⟩ := h.featureTable_range
  unfold Section.stop
  rw [hoffset, hsize, h.length_eq]

theorem map_slice_places (h : d.Closed attrs file) :
    (d.places attrs).map (fun s => s.slice file) = d.features.values := by
  have hstop := h.featureTable_stop
  have hsize := h.size_lt
  obtain ⟨before, hbefore⟩ : ∃ before, file = before ++ (d.features.values.flatten ++ []) := by
    refine ⟨(d.header attrs).encode ++ (idLists attrs ++
      ((attrEntries fileHeaderSize attrs).flatMap FileAttr.encode ++ (d.data ++
        (d.places attrs).flatMap Section.encode))), ?_⟩
    rw [List.append_nil]
    simpa [List.append_assoc] using h.file_eq
  have hlen : (d.header attrs).featureTable.stop = before.length := by
    have hlength := congrArg List.length hbefore
    rw [List.append_nil, List.length_append] at hlength
    omega
  unfold places
  rw [hlen, hbefore]
  exact map_slice_featurePlaces (by omega)

theorem fits_of_stop_le (h : d.Closed attrs file) {s : Section} (hs : s.stop ≤ file.length) :
    s.fits file.length = true :=
  Section.fits_iff.mpr ⟨Nat.lt_of_le_of_lt hs h.size_lt, hs⟩

theorem overlaps_eq_false (h : d.Closed attrs file) {s t : Section}
    (hst : s.stop ≤ t.offset.toNat) (ht : t.stop ≤ file.length) :
    s.overlaps t = false ∧ t.overlaps s = false := by
  have hle : t.offset.toNat ≤ t.stop := Nat.le_add_right _ _
  have hs := h.fits_of_stop_le (Nat.le_trans hst (Nat.le_trans hle ht))
  have hapart : s.Apart t := .inr (.inr (.inl hst))
  exact ⟨(Section.overlaps_eq_false_iff_of_fits hs (h.fits_of_stop_le ht)).mpr hapart,
    (Section.overlaps_eq_false_iff_of_fits (h.fits_of_stop_le ht) hs).mpr hapart.symm⟩

/-- The fixed sections are one behind another, with the id lists between the
first two. -/
theorem stops (h : d.Closed attrs file) :
    (d.header attrs).own.stop = fileHeaderSize ∧
      (d.header attrs).attrs.offset.toNat = fileHeaderSize + (idLists attrs).length ∧
      (d.header attrs).attrs.stop = (d.header attrs).data.offset.toNat ∧
      (d.header attrs).data.stop = (d.header attrs).featureTable.offset.toNat ∧
      (d.header attrs).featureTable.stop ≤ file.length := by
  obtain ⟨hattrsOffset, hattrsSize⟩ := h.attrs_range
  obtain ⟨hdataOffset, hdataSize⟩ := h.data_range
  obtain ⟨htableOffset, htableSize⟩ := h.featureTable_range
  have hstop := h.featureTable_stop
  have hown : (d.header attrs).own.stop = fileHeaderSize := by
    rw [header_eq]
    rfl
  refine ⟨hown, hattrsOffset, ?_, ?_, by omega⟩
  · unfold Section.stop
    omega
  · unfold Section.stop
    omega

theorem attrSize_eq (d : FileDraft) (attrs : List AttrWithIds) :
    (d.header attrs).attrSize.toNat = FileAttr.byteSize := by
  rw [header_eq]
  rfl

theorem valid (h : d.Closed attrs file) : (d.header attrs).Valid file.length := by
  obtain ⟨hown, hattrsOffset, hattrs, hdata, htable⟩ := h.stops
  have htableOffset : (d.header attrs).featureTable.offset.toNat ≤
      (d.header attrs).featureTable.stop := Nat.le_add_right _ _
  have hdataOffset : (d.header attrs).data.offset.toNat ≤ (d.header attrs).data.stop :=
    Nat.le_add_right _ _
  have hattrsFirst : (d.header attrs).attrs.offset.toNat ≤ (d.header attrs).attrs.stop :=
    Nat.le_add_right _ _
  refine ⟨?_, ?_, ?_, ?_, ?_⟩
  · rw [header_eq]
    exact Nat.le_refl _
  · rw [attrSize_eq]
    decide
  · refine (FileHeader.forall_mem_fixedSections (P := fun s => s.fits file.length = true)).mpr ?_
    exact ⟨h.fits_of_stop_le (by omega), h.fits_of_stop_le (by omega), h.fits_of_stop_le (by omega)⟩
  · refine (FileHeader.pairwise_fixedSections (R := fun s t => s.overlaps t = false)).mpr ?_
    exact ⟨(h.overlaps_eq_false (by omega) (by omega)).1,
      (h.overlaps_eq_false (by omega) (by omega)).1, (h.overlaps_eq_false (by omega) (by omega)).1⟩
  · rw [← UInt64.toNat_inj, UInt64.toNat_mod, h.attrs_range.2, attrSize_eq]
    exact Nat.mul_mod_right _ _

theorem idLists_fit (h : d.Closed attrs file) :
    fileHeaderSize + (attrs.map fun a => Bytes.u64s a.ids).flatten.length < UInt64.size := by
  have hlength := h.length_eq
  have hsize := h.size_lt
  rw [← idLists_eq_flatten]
  omega

theorem of_mem_attrEntries (h : d.Closed attrs file) {e : FileAttr}
    (he : e ∈ attrEntries fileHeaderSize attrs) :
    fileHeaderSize ≤ e.ids.offset.toNat ∧ e.ids.stop ≤ (d.header attrs).attrs.offset.toNat ∧
      e.ids.size % 8 = 0 := by
  have hids : e.ids ∈ featurePlaces fileHeaderSize (attrs.map fun a => Bytes.u64s a.ids) := by
    rw [← map_ids_attrEntries]
    exact List.mem_map_of_mem he
  obtain ⟨hfirst, hlast⟩ := bounds_of_mem_featurePlaces h.idLists_fit hids
  obtain ⟨p, hp, hlen⟩ := exists_length_of_mem_featurePlaces h.idLists_fit hids
  obtain ⟨a, -, rfl⟩ := List.mem_map.mp hp
  rw [← idLists_eq_flatten] at hlast
  refine ⟨hfirst, by rw [h.attrs_range.1]; exact hlast, ?_⟩
  rw [← UInt64.toNat_inj, UInt64.toNat_mod, hlen, Bytes.length_u64s]
  exact Nat.mul_mod_right _ _

theorem readable_of_mem_attrEntries (h : d.Closed attrs file) {e : FileAttr}
    (he : e ∈ attrEntries fileHeaderSize attrs) : e.Readable (d.header attrs) file := by
  obtain ⟨hown, hattrsOffset, hattrs, hdata, htable⟩ := h.stops
  obtain ⟨hfirst, hlast, hwhole⟩ := h.of_mem_attrEntries he
  have hattrsFirst : (d.header attrs).attrs.offset.toNat ≤ (d.header attrs).attrs.stop :=
    Nat.le_add_right _ _
  have hdataFirst : (d.header attrs).data.offset.toNat ≤ (d.header attrs).data.stop :=
    Nat.le_add_right _ _
  have htableFirst : (d.header attrs).featureTable.offset.toNat ≤
      (d.header attrs).featureTable.stop := Nat.le_add_right _ _
  refine ⟨hwhole, ?_, h.fits_of_stop_le (by omega)⟩
  refine (FileHeader.forall_mem_fixedSections (P := fun s => s.overlaps e.ids = false)).mpr ?_
  exact ⟨(h.overlaps_eq_false (by omega) (by omega)).1,
    (h.overlaps_eq_false (by omega) (by omega)).2, (h.overlaps_eq_false (by omega) (by omega)).2⟩

theorem readEntries_eq (h : d.Closed attrs file) :
    RecordFile.readEntries (d.header attrs) file = .ok (attrEntries fileHeaderSize attrs) :=
  RecordFile.readEntries_eq_ok h.valid.fixed_fit.2.1 (attrSize_eq d attrs) h.slice_attrs

theorem readAttrs_eq (h : d.Closed attrs file) :
    RecordFile.readAttrs (d.header attrs) file = .ok attrs := by
  have hhead : (d.header attrs).encode.length = fileHeaderSize := FileHeader.length_encode _
  have hids : (d.header attrs).encode.length + (idLists attrs).length < UInt64.size := by
    rw [hhead, idLists_eq_flatten]
    exact h.idLists_fit
  have hsome : attrEntries fileHeaderSize attrs ≠ [] := by
    intro hnil
    have hnone := congrArg List.length hnil
    rw [length_attrEntries] at hnone
    exact h.attrs_ne_nil (List.length_eq_zero_iff.mp hnone)
  have hpairwise := pairwise_featurePlaces h.idLists_fit
  rw [← map_ids_attrEntries, List.pairwise_map] at hpairwise
  refine RecordFile.readAttrs_eq_ok_iff.mpr ⟨_, h.readEntries_eq, hsome,
    fun e he => h.readable_of_mem_attrEntries he, ?_, ?_⟩
  · exact hpairwise.imp_of_mem fun _ ht hst =>
      (h.overlaps_eq_false hst (Section.stop_le_of_fits (h.readable_of_mem_attrEntries ht).fits)).1
  · rw [← hhead]
    exact (map_withIds_attrEntries h.file_eq hids).symm

theorem readFeatures_eq (h : d.Closed attrs file) :
    RecordFile.readFeatures (d.header attrs) file =
      .ok ⟨d.features.keys.zip (d.places attrs)⟩ := by
  have hsize := h.size_lt
  have hstop := h.featureTable_stop
  have hplaces : (d.places attrs).length = d.features.values.length := length_featurePlaces _ _
  have hfits : (d.header attrs).featureTable.stop + d.features.values.flatten.length <
      UInt64.size := by omega
  refine RecordFile.readFeatures_eq_ok_iff.mpr ⟨h.fits_of_stop_le (by omega), d.places attrs, ?_,
    h.slice_featureTable, fun s hs => ?_, ?_, ?_⟩
  · rw [h.featureIds_eq, length_keys, hplaces]
  · obtain ⟨hfirst, hlast⟩ := bounds_of_mem_featurePlaces hfits hs
    exact ⟨h.fits_of_stop_le (by omega), .inr hfirst⟩
  · refine (pairwise_featurePlaces hfits).imp_of_mem fun {s t} hs ht hst => ?_
    obtain ⟨-, hlast⟩ := bounds_of_mem_featurePlaces hfits ht
    exact (h.overlaps_eq_false hst (by omega)).1
  · rw [h.featureIds_eq]

def opened (path : String) (d : FileDraft) (attrs : List AttrWithIds) (file : Bytes)
    (positions? : Option IdPositions) : RecordFile where
  path := path
  bytes := file
  header := d.header attrs
  attrs := attrs
  features := ⟨d.features.keys.zip (d.places attrs)⟩
  idToAttr := RecordFile.tableOfIds attrs
  idPositions? := positions?

/-- **A finished file is accepted.** Several attrs must have their ids at a
common position. -/
theorem ofBytes_eq (h : d.Closed attrs file) (path : String)
    (hpositions : attrs.length = 1 ∨
      ∃ p, commonIdPositions (attrs.map AttrWithIds.attr) = .ok p) :
    ∃ positions?, RecordFile.ofBytes path file = .ok (opened path d attrs file positions?) := by
  have hlength := h.length_eq
  have hheader : FileHeader.parse.value file = .ok (d.header attrs) := by
    rw [h.file_eq]
    exact FileHeader.parse_encode _ _
  by_cases hmany : 1 < attrs.length
  · obtain ⟨p, hp⟩ := hpositions.resolve_left (by omega)
    refine ⟨some p, RecordFile.ofBytes_eq_ok_iff.mpr ⟨rfl, rfl, by omega, hheader, h.valid,
      h.readAttrs_eq, ?_, h.readFeatures_eq, rfl⟩⟩
    show if 1 < attrs.length then _ else _
    rw [if_pos hmany]
    exact ⟨p, hp, rfl⟩
  · refine ⟨none, RecordFile.ofBytes_eq_ok_iff.mpr ⟨rfl, rfl, by omega, hheader, h.valid,
      h.readAttrs_eq, ?_, h.readFeatures_eq, rfl⟩⟩
    show if 1 < attrs.length then _ else _
    rw [if_neg hmany]
    rfl

theorem keys_opened (path : String) (d : FileDraft) (attrs : List AttrWithIds) (file : Bytes)
    (positions? : Option IdPositions) :
    (opened path d attrs file positions?).features.keys = d.features.keys := by
  have hplaces : (d.places attrs).length = d.features.values.length := length_featurePlaces _ _
  exact List.map_fst_zip (Nat.le_of_eq (by rw [length_keys, hplaces]))

theorem featurePayload?_opened (h : d.Closed attrs file) (path : String)
    (positions? : Option IdPositions) (feature : Feature) :
    (opened path d attrs file positions?).featurePayload? feature = d.features.get? feature := by
  have hmap : (opened path d attrs file positions?).features.mapValues (fun s => s.slice file) =
      d.features := by
    have hslices : d.features.keys.zip ((d.places attrs).map fun s => s.slice file) = _ :=
      List.zip_map_right
    have hentries : d.features.entries = d.features.keys.zip d.features.values :=
      List.zip_of_prod rfl rfl
    rw [h.map_slice_places, ← hentries] at hslices
    exact congrArg OrderedMap.mk hslices.symm
  unfold RecordFile.featurePayload?
  rw [← hmap, OrderedMap.get?_mapValues]
  rfl

end Closed

/-- What a feature was last given. -/
def lastPayload? (calls : List Call) (feature : Feature) : Option Bytes :=
  ((calls.flatMap Call.bindings).reverse.find? fun e => decide (e.1 = feature)).map Prod.snd

/-- Calls that bring attrs can be closed. -/
theorem closed_run {calls : List Call} {attrs : List AttrWithIds} {file : Bytes}
    (hattrs : .attrs attrs ∈ accepted {} calls) (hclose : (run {} calls).close = .ok file)
    (hsize : file.length < UInt64.size) : (run {} calls).Closed attrs file := by
  obtain ⟨hopened, hsome⟩ := attrs?_run_of_mem hattrs
  have hfeatures : (run {} calls).features = ((accepted {} calls).flatMap Call.bindings).foldl
      (fun (m : OrderedMap Feature Bytes) e => m.insert e.1 e.2) ⟨[]⟩ := by
    rw [run_eq, features_foldl_apply]
  have hempty : (⟨[]⟩ : OrderedMap Feature Bytes).Ascending := List.Pairwise.nil
  refine ⟨hopened, hsome, ?_, fun f hf => ?_, hclose, hsize⟩
  · rw [hfeatures]
    exact hempty.foldl_insert _
  · rw [hfeatures, OrderedMap.mem_keys_foldl_insert] at hf
    rcases hf with hf | hf
    · exact nomatch hf
    · obtain ⟨e, he, rfl⟩ := List.mem_map.mp hf
      exact lt_bound_of_mem_bindings he

end FileDraft

/-- **A file is opened as it was written.** Whatever calls write it, of which
attrs must be accepted, it has these attrs, the data and the features of the
accepted calls in their order, and it would be the same file without the
rejected calls. -/
theorem RecordFile.ofBytes_close (path : String) {calls : List FileDraft.Call}
    {attrs : List AttrWithIds} {file : Bytes}
    (hattrs : .attrs attrs ∈ FileDraft.accepted {} calls)
    (hclose : (FileDraft.run {} calls).close = .ok file) (hsize : file.length < UInt64.size)
    (hpositions : attrs.length = 1 ∨
      ∃ p, commonIdPositions (attrs.map AttrWithIds.attr) = .ok p) :
    (∃ f, ofBytes path file = .ok f ∧ f.attrs = attrs ∧
      f.header.data.slice f.bytes = (FileDraft.accepted {} calls).flatMap FileDraft.Call.bytes ∧
      f.features.keys.Pairwise (· < ·) ∧
      (∀ feature, feature ∈ f.features.keys ↔
        ∃ payload, (feature, payload) ∈
          (FileDraft.accepted {} calls).flatMap FileDraft.Call.bindings) ∧
      ∀ feature, f.featurePayload? feature =
        FileDraft.lastPayload? (FileDraft.accepted {} calls) feature) ∧
    (FileDraft.run {} (FileDraft.accepted {} calls)).close = .ok file ∧
    ∀ before c after, calls = before ++ c :: after →
      ((∃ e, c.run (FileDraft.run {} before) = .error e) ↔
        c.Refused (∃ as, .attrs as ∈ FileDraft.accepted {} before)) := by
  have hclosed := FileDraft.closed_run hattrs hclose hsize
  obtain ⟨positions?, hok⟩ := hclosed.ofBytes_eq path hpositions
  have hfeatures := FileDraft.features_foldl_apply {} (FileDraft.accepted {} calls)
  rw [← FileDraft.run_eq] at hfeatures
  refine ⟨⟨_, hok, rfl, ?_, ?_, fun feature => ?_, fun feature => ?_⟩, ?_, ?_⟩
  · have hdata := FileDraft.data_foldl_apply {} (FileDraft.accepted {} calls)
    rw [← FileDraft.run_eq] at hdata
    exact hclosed.slice_data.trans hdata
  · rw [FileDraft.Closed.keys_opened]
    exact hclosed.ascending
  · rw [FileDraft.Closed.keys_opened, hfeatures, OrderedMap.mem_keys_foldl_insert]
    simp [OrderedMap.keys]
  · rw [hclosed.featurePayload?_opened, hfeatures, OrderedMap.get?_foldl_insert]
    exact Option.or_none
  · rw [FileDraft.run_accepted]
    exact hclose
  · intro before c after _
    have hopened : (FileDraft.run {} before).attrs?.isSome = true ↔
        ∃ as, .attrs as ∈ FileDraft.accepted {} before := by
      rw [FileDraft.isSome_attrs?_run_iff]
      simp
    rw [FileDraft.Call.run_eq_error_iff, ← hopened]

/-- Data before the attrs, other attrs and a feature with too large a number
are rejected. The file has the rest, with the later of two payloads. -/
theorem RecordFile.ofBytes_close_some_rejected :
    let calls : List FileDraft.Call :=
      [.data [1], .attrs [⟨{}, [7]⟩], .attrs [⟨{}, []⟩], .data [2, 3], .feature 5 [4],
        .feature 256 [], .value .branchStack, .feature 5 [6, 7]]
    ∃ file f, (FileDraft.run {} calls).close = .ok file ∧ ofBytes "perf.data" file = .ok f ∧
      f.attrs = [⟨{}, [7]⟩] ∧ f.header.data.slice f.bytes = [2, 3] ∧
      f.featurePayload? 5 = some [6, 7] ∧ f.featurePayload? Feature.branchStack = some [] ∧
      f.featurePayload? 6 = none := by
  intro calls
  have haccepted : FileDraft.accepted {} calls =
      [.attrs [⟨{}, [7]⟩], .data [2, 3], .feature 5 [4], .value .branchStack, .feature 5 [6, 7]] := rfl
  let file := (FileDraft.run {} calls).close.toOption.getD []
  have hclose : (FileDraft.run {} calls).close = .ok file := rfl
  have hsize : file.length < UInt64.size := by decide +kernel
  obtain ⟨⟨f, hok, hattrs, hdata, -, -, hpayload⟩, -, -⟩ := ofBytes_close "perf.data"
    (by rw [haccepted]; exact List.mem_cons_self) hclose hsize (.inl rfl)
  rw [haccepted] at hdata hpayload
  exact ⟨file, f, hclose, hok, hattrs, hdata, hpayload 5, hpayload Feature.branchStack, hpayload 6⟩

end Profiler
