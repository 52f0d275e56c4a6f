/-
# The sections of an accepted file

Every range that an accepted file points to ends within the file. The ranges
read for the attrs (the header, the attr table and the id lists) share no byte
with each other and none with the data, and the data share none with the
features and the table of their places. What is read for the attrs is not
compared with what is read for the features: features are looked for behind
the data, and there the two sides are apart as long as nothing that is read for
the attrs ends later than the data do (`RecordFile.apart_of_ofBytes`), as in
every file that a draft was closed to (`RecordFile.stop_le_of_mem_attrSections`).
A file with its attr table behind its data can have a feature in the attr table
(`RecordFile.feature_in_attr_table`).

Key definitions: `RecordFile.attrSections`, `RecordFile.featureSections`,
`RecordFile.sections`.
Key theorems: `RecordFile.OpenedFrom.fits`, `RecordFile.OpenedFrom.apart_attrSections`,
`RecordFile.OpenedFrom.apart_featureSections`, `RecordFile.OpenedFrom.apart_across`,
`RecordFile.apart_of_ofBytes`.
-/
import Profiler.Proofs.File.Container

namespace Profiler
namespace RecordFile

/-- The ranges of the id lists that the attr table points to. -/
def idSections (f : RecordFile) : List Section :=
  match readEntries f.header f.bytes with
  | .ok entries => entries.map FileAttr.ids
  | .error _ => []

/-- What is read for the attrs: the header, the attr table and the id lists. -/
def attrSections (f : RecordFile) : List Section :=
  f.header.own :: f.header.attrs :: f.idSections

/-- What is read for the features: the table of their places and each of them. -/
def featureSections (f : RecordFile) : List Section :=
  f.header.featureTable :: f.features.values

def sections (f : RecordFile) : List Section :=
  f.attrSections ++ f.header.data :: f.featureSections

namespace OpenedFrom

variable {path : String} {file : Bytes} {f : RecordFile}

/-- The entries of the attr table, as far as they matter for the id lists. -/
theorem exists_idSections (h : f.OpenedFrom path file) :
    ∃ entries : List FileAttr, f.idSections = entries.map FileAttr.ids ∧
      (∀ e ∈ entries, e.Readable f.header file) ∧
      entries.Pairwise fun d e => d.ids.overlaps e.ids = false := by
  obtain ⟨entries, hentries, -, hreadable, hpairwise, -⟩ := readAttrs_eq_ok_iff.mp h.attrs_eq
  refine ⟨entries, ?_, hreadable, hpairwise⟩
  unfold idSections
  rw [h.bytes_eq, hentries]

theorem idSections_fit (h : f.OpenedFrom path file) :
    ∀ s ∈ f.idSections, s.fits file.length = true := by
  obtain ⟨entries, hids, hreadable, -⟩ := h.exists_idSections
  rw [hids, List.forall_mem_map]
  exact fun e he => (hreadable e he).fits

theorem attrSections_fit (h : f.OpenedFrom path file) :
    ∀ s ∈ f.attrSections, s.fits file.length = true := by
  obtain ⟨hown, hattrs, -⟩ := h.valid.fixed_fit
  exact List.forall_mem_cons.mpr ⟨hown, List.forall_mem_cons.mpr ⟨hattrs, h.idSections_fit⟩⟩

theorem features_placed (h : f.OpenedFrom path file) :
    (∀ s ∈ f.features.values, s.Placed file f.header.featureTable.stop) ∧
      f.features.values.Pairwise fun s t => s.overlaps t = false := by
  obtain ⟨-, places, hlen, -, hplaced, hpairwise, hfeatures⟩ :=
    readFeatures_eq_ok_iff.mp h.features_eq
  have hvalues : f.features.values = places := by
    rw [hfeatures]
    exact List.map_snd_zip (Nat.le_of_eq hlen)
  rw [hvalues]
  exact ⟨hplaced, hpairwise⟩

theorem featureTable_fits (h : f.OpenedFrom path file) :
    f.header.featureTable.fits file.length = true :=
  (readFeatures_eq_ok_iff.mp h.features_eq).1

theorem featureSections_fit (h : f.OpenedFrom path file) :
    ∀ s ∈ f.featureSections, s.fits file.length = true :=
  List.forall_mem_cons.mpr ⟨h.featureTable_fits, fun s hs => (h.features_placed.1 s hs).fits⟩

theorem fits (h : f.OpenedFrom path file) : ∀ s ∈ f.sections, s.fits file.length = true := by
  obtain ⟨-, -, hdata⟩ := h.valid.fixed_fit
  intro s hs
  rcases List.mem_append.mp hs with hs | hs
  · exact h.attrSections_fit s hs
  · rcases List.mem_cons.mp hs with rfl | hs
    · exact hdata
    · exact h.featureSections_fit s hs

theorem featureTable_offset (h : f.OpenedFrom path file) :
    f.header.featureTable.offset.toNat = f.header.data.stop := by
  have hstop := Section.stop_lt_of_fits h.valid.fixed_fit.2.2
  unfold Section.stop at hstop ⊢
  show (f.header.data.offset + f.header.data.size).toNat = _
  rw [UInt64.toNat_add, Nat.mod_eq_of_lt hstop]

theorem apart_idSections (h : f.OpenedFrom path file) : ∀ s ∈ f.idSections,
    f.header.own.Apart s ∧ f.header.attrs.Apart s ∧ f.header.data.Apart s := by
  obtain ⟨entries, hids, hreadable, -⟩ := h.exists_idSections
  obtain ⟨hown, hattrs, hdata⟩ := h.valid.fixed_fit
  rw [hids, List.forall_mem_map]
  intro e he
  have hfits := (hreadable e he).fits
  obtain ⟨hownIds, hattrsIds, hdataIds⟩ := (hreadable e he).fixed_disjoint
  exact ⟨(Section.overlaps_eq_false_iff_of_fits hown hfits).mp hownIds,
    (Section.overlaps_eq_false_iff_of_fits hattrs hfits).mp hattrsIds,
    (Section.overlaps_eq_false_iff_of_fits hdata hfits).mp hdataIds⟩

theorem pairwise_idSections (h : f.OpenedFrom path file) :
    f.idSections.Pairwise Section.Apart := by
  obtain ⟨entries, hids, hreadable, hpairwise⟩ := h.exists_idSections
  rw [hids, List.pairwise_map]
  exact hpairwise.imp_of_mem fun hd he hapart =>
    (Section.overlaps_eq_false_iff_of_fits (hreadable _ hd).fits (hreadable _ he).fits).mp hapart

/-- What is read for the attrs is apart, also from the data. -/
theorem apart_attrSections (h : f.OpenedFrom path file) :
    (f.header.data :: f.attrSections).Pairwise Section.Apart := by
  obtain ⟨hown, hattrs, hdata⟩ := h.valid.fixed_fit
  obtain ⟨hownAttrs, hownData, hattrsData⟩ := h.valid.fixed_disjoint
  have hapart : ∀ {s t : Section}, s.fits file.length = true → t.fits file.length = true →
      s.overlaps t = false → s.Apart t :=
    fun hs ht hst => (Section.overlaps_eq_false_iff_of_fits hs ht).mp hst
  have hids := h.apart_idSections
  refine List.pairwise_cons.mpr ⟨?_, List.pairwise_cons.mpr ⟨?_,
    List.pairwise_cons.mpr ⟨fun s hs => (hids s hs).2.1, h.pairwise_idSections⟩⟩⟩
  · exact List.forall_mem_cons.mpr ⟨(hapart hown hdata hownData).symm,
      List.forall_mem_cons.mpr ⟨(hapart hattrs hdata hattrsData).symm,
        fun s hs => (hids s hs).2.2⟩⟩
  · exact List.forall_mem_cons.mpr ⟨hapart hown hattrs hownAttrs, fun s hs => (hids s hs).1⟩

/-- A range that ends no later than the data is apart from all that is read
for the features. -/
theorem apart_across (h : f.OpenedFrom path file) {s : Section}
    (hs : s.size = 0 ∨ s.stop ≤ f.header.data.stop) : ∀ t ∈ f.featureSections, s.Apart t := by
  rcases hs with hs | hs
  · exact fun t _ => .inl hs
  · have htable := h.featureTable_offset
    refine List.forall_mem_cons.mpr ⟨?_, fun t ht => ?_⟩
    · exact .inr (.inr (.inl (by omega)))
    · rcases (h.features_placed.1 t ht).behind with hempty | hbehind
      · exact .inr (.inl hempty)
      · have hstop : f.header.featureTable.offset.toNat ≤ f.header.featureTable.stop :=
          Nat.le_add_right _ _
        exact .inr (.inr (.inl (by omega)))

/-- What is read for the features is apart, also from the data. -/
theorem apart_featureSections (h : f.OpenedFrom path file) :
    (f.header.data :: f.featureSections).Pairwise Section.Apart := by
  obtain ⟨hplaced, hpairwise⟩ := h.features_placed
  refine List.pairwise_cons.mpr ⟨h.apart_across (.inr (Nat.le_refl _)), List.pairwise_cons.mpr ⟨?_, ?_⟩⟩
  · intro t ht
    rcases (hplaced t ht).behind with hempty | hbehind
    · exact .inr (.inl hempty)
    · exact .inr (.inr (.inl hbehind))
  · exact hpairwise.imp_of_mem fun hs ht hst =>
      (Section.overlaps_eq_false_iff_of_fits (hplaced _ hs).fits (hplaced _ ht).fits).mp hst

end OpenedFrom

/-- **The ranges of an accepted file lie in the file, and two of them share no
byte** unless one is read for the attrs and ends later than the data, and the
other is read for the features. -/
theorem apart_of_ofBytes {path : String} {file : Bytes} {f : RecordFile}
    (h : ofBytes path file = .ok f) :
    (∀ s ∈ f.sections, s.fits file.length = true) ∧
      (f.header.data :: f.attrSections).Pairwise Section.Apart ∧
      (f.header.data :: f.featureSections).Pairwise Section.Apart ∧
      (∀ s ∈ f.attrSections, s.size = 0 ∨ s.stop ≤ f.header.data.stop →
        ∀ t ∈ f.featureSections, s.Apart t) ∧
      ((∀ s ∈ f.attrSections, s.size = 0 ∨ s.stop ≤ f.header.data.stop) →
        f.sections.Pairwise Section.Apart) := by
  have hopened := ofBytes_eq_ok_iff.mp h
  have hattrs := hopened.apart_attrSections
  have hfeatures := hopened.apart_featureSections
  refine ⟨hopened.fits, hattrs, hfeatures, fun s _ hs => hopened.apart_across hs, fun hends => ?_⟩
  obtain ⟨hdata, hattrs⟩ := List.pairwise_cons.mp hattrs
  refine List.pairwise_append.mpr ⟨hattrs, hfeatures, fun s hs => ?_⟩
  exact List.forall_mem_cons.mpr ⟨(hdata s hs).symm, hopened.apart_across (hends s hs)⟩

/-- A file with a single attr, which has no ids, is accepted if its header is
valid and its features can be read. -/
theorem ofBytes_of_single_attr {file : Bytes} {header : FileHeader} {a : Attr}
    {fs : OrderedMap Feature Section} (path : String) (hsize : fileHeaderSize ≤ file.length)
    (hheader : FileHeader.parse.value file = .ok header) (hvalid : header.Valid file.length)
    (hentrySize : header.attrSize.toNat = FileAttr.byteSize)
    (htable : header.attrs.slice file = FileAttr.encode ⟨a, {}⟩)
    (hfeatures : readFeatures header file = .ok fs) :
    ofBytes path file = .ok ⟨path, file, header, [⟨a, []⟩], fs, ⟨[]⟩, none⟩ := by
  obtain ⟨-, hfits, -⟩ := hvalid.fixed_fit
  have hentries : readEntries header file = .ok [⟨a, {}⟩] :=
    readEntries_eq_ok hfits hentrySize (by rw [htable, List.flatMap_singleton])
  have hreadable : FileAttr.Readable header file ⟨a, {}⟩ := by
    have hstop : (⟨0, 0⟩ : Section).stop = 0 := rfl
    refine ⟨rfl, fun x _ => ?_, Section.fits_iff.mpr ⟨?_, ?_⟩⟩
    · unfold Section.overlaps
      simp
    · rw [hstop]
      decide
    · rw [hstop]
      exact Nat.zero_le _
  have hnone : (⟨0, 0⟩ : Section).slice file = [] := List.take_zero
  have hattrs : readAttrs header file = .ok [⟨a, []⟩] := by
    refine readAttrs_eq_ok_iff.mpr ⟨_, hentries, nofun, List.forall_mem_singleton.mpr hreadable,
      List.pairwise_singleton _ _, ?_⟩
    rw [List.map_singleton, FileAttr.withIds, hnone]
    rfl
  exact ofBytes_eq_ok_iff.mpr ⟨rfl, rfl, hsize, hheader, hvalid, hattrs, rfl, hfeatures, rfl⟩

section Finished

variable {d : FileDraft} {attrs : List AttrWithIds} {file : Bytes}

theorem idSections_opened (h : d.Closed attrs file) (path : String)
    (positions? : Option IdPositions) :
    (FileDraft.Closed.opened path d attrs file positions?).idSections =
      (FileDraft.attrEntries fileHeaderSize attrs).map FileAttr.ids := by
  have hentries : readEntries (FileDraft.Closed.opened path d attrs file positions?).header
      (FileDraft.Closed.opened path d attrs file positions?).bytes = _ := h.readEntries_eq
  unfold idSections
  rw [hentries]

theorem featureSections_opened (path : String) (d : FileDraft) (attrs : List AttrWithIds)
    (file : Bytes) (positions? : Option IdPositions) :
    (FileDraft.Closed.opened path d attrs file positions?).featureSections =
      (d.header attrs).featureTable :: d.places attrs := by
  have hplaces : (d.places attrs).length = d.features.values.length :=
    FileDraft.length_featurePlaces _ _
  exact congrArg _ (List.map_snd_zip (Nat.le_of_eq
    (by rw [FileDraft.Closed.length_keys, hplaces])))

/-- Nothing that is read for the attrs of a finished file ends later than its
data: it lies in front of them. -/
theorem stop_le_of_mem_attrSections (h : d.Closed attrs file) (path : String)
    (positions? : Option IdPositions) :
    ∀ s ∈ (FileDraft.Closed.opened path d attrs file positions?).attrSections,
      s.stop ≤ (d.header attrs).data.stop := by
  obtain ⟨hown, hattrsOffset, hattrs, -, -⟩ := h.stops
  have hattrsFirst : (d.header attrs).attrs.offset.toNat ≤ (d.header attrs).attrs.stop :=
    Nat.le_add_right _ _
  have hdataFirst : (d.header attrs).data.offset.toNat ≤ (d.header attrs).data.stop :=
    Nat.le_add_right _ _
  refine List.forall_mem_cons.mpr ⟨?_, List.forall_mem_cons.mpr ⟨?_, ?_⟩⟩
  · show (d.header attrs).own.stop ≤ _
    omega
  · show (d.header attrs).attrs.stop ≤ _
    omega
  · rw [idSections_opened h, List.forall_mem_map]
    intro e he
    obtain ⟨-, hlast, -⟩ := h.of_mem_attrEntries he
    omega

end Finished

/-- A file that was written with an id, data and a feature is accepted, and all
its ranges are apart. -/
theorem apart_of_ofBytes_written :
    let calls : List FileDraft.Call := [.attrs [⟨{}, [7]⟩], .data [2, 3], .feature 5 [4]]
    ∃ file f, (FileDraft.run {} calls).close = .ok file ∧ ofBytes "perf.data" file = .ok f ∧
      f.idSections = [⟨104, 8⟩] ∧ f.header.attrs = ⟨112, 136⟩ ∧ f.header.data = ⟨248, 2⟩ ∧
      f.featureSections = [⟨250, 16⟩, ⟨266, 1⟩] ∧ f.sections.Pairwise Section.Apart := by
  intro calls
  let file := (FileDraft.run {} calls).close.toOption.getD []
  have hclose : (FileDraft.run {} calls).close = .ok file := rfl
  have haccepted : .attrs [⟨{}, [7]⟩] ∈ FileDraft.accepted {} calls := List.mem_cons_self
  have hclosed : (FileDraft.run {} calls).Closed [⟨{}, [7]⟩] file :=
    FileDraft.closed_run haccepted hclose (by decide +kernel)
  obtain ⟨positions?, hok⟩ := hclosed.ofBytes_eq "perf.data" (.inl rfl)
  obtain ⟨-, -, -, -, hall⟩ := apart_of_ofBytes hok
  have hends := stop_le_of_mem_attrSections hclosed "perf.data" positions?
  refine ⟨file, _, hclose, hok, ?_, rfl, rfl, ?_, hall fun s hs => .inr (hends s hs)⟩
  · rw [idSections_opened hclosed]
    rfl
  · rw [featureSections_opened]
    decide +kernel

/-- The header of a file without data, whose table of feature places comes
before the attr table. -/
def headerBeforeAttrs : FileHeader :=
  { attrs := ⟨120, 136⟩, data := ⟨104, 0⟩, features := BitVec.twoPow 256 1 }

/-- The file has one attr, and its one feature is the attr table. -/
theorem feature_in_attr_table :
    let file := headerBeforeAttrs.encode ++
      ((⟨120, 136⟩ : Section).encode ++ FileAttr.encode ⟨{}, {}⟩)
    ∃ f, ofBytes "perf.data" file = .ok f ∧ ¬ f.sections.Pairwise Section.Apart := by
  intro file
  have hlen : file.length = 256 := by decide +kernel
  have hids : headerBeforeAttrs.featureIds = [1] := by decide +kernel
  have htable : headerBeforeAttrs.featureTable = ⟨104, 16⟩ := by decide +kernel
  have hvalid : headerBeforeAttrs.Valid file.length := by
    rw [hlen]
    exact ⟨by decide, by decide, by decide, by decide, by decide⟩
  have hplaced : (⟨120, 136⟩ : Section).Placed file headerBeforeAttrs.featureTable.stop := by
    rw [htable]
    exact ⟨by rw [hlen]; decide, by decide⟩
  have hfeatures : readFeatures headerBeforeAttrs file = .ok ⟨[(1, ⟨120, 136⟩)]⟩ :=
    readFeatures_eq_ok_iff.mpr ⟨by rw [htable, hlen]; decide, [⟨120, 136⟩], by rw [hids]; rfl,
      by rw [htable]; decide +kernel, List.forall_mem_singleton.mpr hplaced,
      List.pairwise_singleton _ _, by rw [hids]; rfl⟩
  have hok := ofBytes_of_single_attr (a := {}) "perf.data" (by rw [hlen]; decide)
    (headerBeforeAttrs.parse_encode _) hvalid rfl (by decide +kernel) hfeatures
  refine ⟨_, hok, fun hapart => ?_⟩
  have hacross := (List.pairwise_append.mp hapart).2.2
  have hattrTable : (⟨120, 136⟩ : Section) ∈ attrSections ⟨"perf.data", file, headerBeforeAttrs,
      [⟨{}, []⟩], ⟨[(1, ⟨120, 136⟩)]⟩, ⟨[]⟩, none⟩ :=
    List.mem_cons_of_mem _ List.mem_cons_self
  exact absurd (hacross _ hattrTable ⟨120, 136⟩ (by simp [featureSections, OrderedMap.values]))
    (by decide)

end RecordFile
end Profiler
