/-
# What can go wrong with a record file

Every offset, size, count and index of a file is a claim of whoever wrote it.
Opening a file, reading its data in either order and asking for its features
fail only by corruption, and where a fault says that bytes were asked for, no
byte outside the file was: this is said of a single piece of the file by
`FailsInside`, and the pieces are cut so that none is longer than the file. What
an accepted file points to is in range (`RecordFile.InRange`), and stays so while
records that announce ids extend its table.

There is one other way to fail. A file with several attrs that keep the event id
at different places, or nowhere, is refused as if the caller had asked for
something wrong (`RecordFile.IdsUnplaced`,
`RecordFile.ofBytes_of_two_attrs_without_ids`).

Key definitions: `Frame.bytes`, `RecordFile.InRange`, `RecordFile.Request`,
`Error.CorruptUpTo`, `RecordFile.IdsUnplaced`.
Key theorems: `cutRecords_values`, `RecordFile.visit_sound`,
`RecordFile.InRange.learnIds`, `RecordFile.faults_of_ofBytes`.
-/
import Profiler.Proofs.File.Disjoint
import Profiler.Proofs.File.Payloads
import Profiler.Proofs.File.ReadAll

namespace Profiler

/-! ### Frames are no longer than the data -/

section Cutting

variable {misfit : RecordHeader → Nat → Corruption} {size : Nat}

theorem cutRecords_values (misfit : RecordHeader → Nat → Corruption) (position : Nat)
    (bs : Bytes) :
    ∃ rest, bs = (cutRecords misfit position bs).values.flatMap RawRecord.bytes ++ rest := by
  fun_induction cutRecords misfit position bs with
  | case1 position => exact ⟨[], rfl⟩
  | case2 position bs hne e hheader => exact ⟨bs, rfl⟩
  | case3 position bs hne h hheader n hsplit => exact ⟨bs, rfl⟩
  | case4 position bs hne h hheader n front rest hsplit hsize => exact ⟨bs, rfl⟩
  | case5 position bs hne h hheader n front rest hsplit hsize ih =>
    obtain ⟨tail, htail⟩ := ih
    have hfront : bs = front ++ rest := (Bytes.splitAt?_eq_some_iff.mp hsplit).1
    refine ⟨tail, ?_⟩
    rw [hfront, UpTo.cons, List.flatMap_cons, List.append_assoc, ← htail]

theorem cutRecords_fault (hmisfit : ∀ h position, (misfit h position).Refused 0) (position : Nat)
    (bs : Bytes) :
    ∀ e, (cutRecords misfit position bs).fault? = some e → e.RefusedUpTo bs.length := by
  fun_induction cutRecords misfit position bs with
  | case1 position => rintro e ⟨⟩
  | case2 position bs hne e hheader =>
    rintro _ ⟨⟩
    exact RecordHeader.failsInside_decode bs e hheader
  | case3 position bs hne h hheader n hsplit =>
    rintro _ ⟨⟩
    exact (hmisfit h position).upTo (Nat.zero_le _)
  | case4 position bs hne h hheader n front rest hsplit hsize =>
    rintro _ ⟨⟩
    exact (hmisfit h position).upTo (Nat.zero_le _)
  | case5 position bs hne h hheader n front rest hsplit hsize ih =>
    intro e he
    have hfront : bs = front ++ rest := (Bytes.splitAt?_eq_some_iff.mp hsplit).1
    exact (ih e he).mono (by simp [hfront])

def Frame.bytes : Frame → Bytes
  | .whole bs => bs
  | .joined bs => bs

/-- Joining makes no bytes: a frame has some of the run that has begun and of
the records that follow. -/
theorem length_le_of_mem_joinPieces (fault? : Option Corruption) (open? : Option Bytes)
    (raws : List RawRecord) : ∀ frame ∈ (joinPieces fault? open? raws).values,
      frame.bytes.length ≤ (open?.getD []).length + (raws.flatMap RawRecord.bytes).length := by
  fun_induction joinPieces fault? open? raws with
  | case1 => exact List.forall_mem_nil _
  | case2 => exact List.forall_mem_nil _
  | case3 r rest htype ih =>
    intro frame hframe
    have hle := ih frame hframe
    simp only [Option.getD_some, Option.getD_none, List.length_drop, List.flatMap_cons,
      List.length_append, List.length_nil] at hle ⊢
    omega
  | case4 r rest htype ih =>
    refine List.forall_mem_cons.mpr ⟨?_, fun frame hframe => ?_⟩
    · simp [Frame.bytes]
    · have hle := ih frame hframe
      simp only [Option.getD_none, List.flatMap_cons, List.length_append, List.length_nil] at hle ⊢
      omega
  | case5 run r rest htype ih =>
    intro frame hframe
    have hle := ih frame hframe
    simp only [Option.getD_some, List.length_drop, List.flatMap_cons, List.length_append] at hle ⊢
    omega
  | case6 run r rest htype hend ih =>
    refine List.forall_mem_cons.mpr ⟨?_, fun frame hframe => ?_⟩
    · simp [Frame.bytes]
    · have hle := ih frame hframe
      simp only [Option.getD_some, Option.getD_none, List.flatMap_cons, List.length_append,
        List.length_nil] at hle ⊢
      omega
  | case7 run r rest htype hend => exact List.forall_mem_nil _

theorem joinPieces_fault {fault? : Option Corruption}
    (hfault : ∀ e, fault? = some e → e.RefusedUpTo size) (open? : Option Bytes)
    (raws : List RawRecord) :
    ∀ e, (joinPieces fault? open? raws).fault? = some e → e.RefusedUpTo size := by
  fun_induction joinPieces fault? open? raws with
  | case1 => exact hfault
  | case2 run =>
    rintro e ⟨⟩
    cases fault? with
    | none => exact ⟨0, Nat.zero_le _, rfl, by decide⟩
    | some e => exact hfault e rfl
  | case3 r rest htype ih => exact ih
  | case4 r rest htype ih => exact ih
  | case5 run r rest htype ih => exact ih
  | case6 run r rest htype hend ih => exact ih
  | case7 run r rest htype hend =>
    rintro e ⟨⟩
    exact ⟨0, Nat.zero_le _, trivial⟩

/-- **No frame is longer than the data,** and cutting fails inside them. -/
theorem Frame.ofData_inside (data : Bytes) :
    (∀ frame ∈ (Frame.ofData data).values, frame.bytes.length ≤ data.length) ∧
      ∀ e, (Frame.ofData data).fault? = some e → e.RefusedUpTo data.length := by
  constructor
  · intro frame hframe
    obtain ⟨rest, hdata⟩ := cutRecords_values
      (fun h position => .recordOutside h.size.toNat position data.length) 0 data
    have hle := length_le_of_mem_joinPieces _ none _ frame hframe
    have hlen := congrArg List.length hdata
    rw [List.length_append] at hlen
    simp only [Option.getD_none, List.length_nil, Nat.zero_add] at hle
    omega
  · have hmisfit : ∀ (h : RecordHeader) (position : Nat),
        (Corruption.recordOutside h.size.toNat position data.length).Refused 0 :=
      fun _ _ => trivial
    exact joinPieces_fault (cutRecords_fault hmisfit 0 data) none _

end Cutting

namespace RecordFile

variable {f : RecordFile} {σ : Type} {size : Nat}

/-! ### What reading and asking can end with -/

theorem failsInside_decodeFrame (f : RecordFile) (frame : Frame) :
    FailsInside frame.bytes.length (f.decodeFrame frame) := by
  cases frame with
  | whole bs => exact Record.failsInside_decode _ bs
  | joined bs =>
    exact (RecordHeader.failsInside_decode bs).bind fun h _ =>
      Record.failsInside_decodeReassembled _ bs

/-- Reading a file does no more than learn ids, and ends by itself or with
corruption of no more than these bytes. -/
structure Visited.Sound (size : Nat) (f : RecordFile) (v : Visited σ) : Prop where
  learned : ∃ rs : List Record, v.file = rs.foldl RecordFile.learnIds f
  failsInside : FailsInside size v.outcome

theorem Visited.sound_of_ending {x : Except Corruption Unit} (h : FailsInside size x) (s : σ) :
    Visited.Sound size f ⟨f, s, x⟩ := ⟨⟨[], rfl⟩, h⟩

theorem Visited.Sound.after {v : Visited σ} (r : Record) (h : v.Sound size (f.learnIds r)) :
    v.Sound size f := by
  obtain ⟨⟨rs, hlearned⟩, hfails⟩ := h
  exact ⟨⟨r :: rs, hlearned⟩, hfails⟩

/-- Reading is sound if it is so after any record that a frame may hold. -/
theorem Visited.sound_of_frame {frame : Frame} (hframe : frame.bytes.length ≤ size) (s : σ)
    {next : Record → Visited σ} (hnext : ∀ r, (next r).Sound size (f.learnIds r)) :
    Visited.Sound size f (match f.decodeFrame frame with
      | .error e => ⟨f, s, .error e⟩
      | .ok r => next r) := by
  cases hdecode : f.decodeFrame frame with
  | error e =>
    have hinside := f.failsInside_decodeFrame frame e hdecode
    exact sound_of_ending (.error (hinside.mono hframe)) s
  | ok r => exact (hnext r).after r

section Visits

variable {take : σ → Record → σ × Bool} {fault? : Option Corruption} {frames : List Frame}

theorem visitInOrder_sound (hframes : ∀ frame ∈ frames, frame.bytes.length ≤ size)
    (hfault : ∀ e, fault? = some e → e.RefusedUpTo size) (f : RecordFile) (s : σ) :
    (visitInOrder take fault? f s frames).Sound size f := by
  induction frames generalizing f s with
  | nil =>
    cases fault? with
    | none => exact Visited.sound_of_ending (.ok ()) s
    | some e => exact Visited.sound_of_ending (.error (hfault e rfl)) s
  | cons frame rest ih =>
    obtain ⟨hframe, hrest⟩ := List.forall_mem_cons.mp hframes
    rw [visitInOrder]
    refine Visited.sound_of_frame hframe s fun r => ?_
    dsimp only
    split
    · exact ih hrest (f.learnIds r) _
    · exact Visited.sound_of_ending (.ok ()) _

theorem visitSorted_sound (hframes : ∀ frame ∈ frames, frame.bytes.length ≤ size)
    (hfault : ∀ e, fault? = some e → e.RefusedUpTo size) (f : RecordFile) (q : Reorder) (s : σ) :
    (visitSorted take fault? f q s frames).Sound size f := by
  induction frames generalizing f q s with
  | nil =>
    cases fault? with
    | none => exact Visited.sound_of_ending (.ok ()) _
    | some e => exact Visited.sound_of_ending (.error (hfault e rfl)) s
  | cons frame rest ih =>
    obtain ⟨hframe, hrest⟩ := List.forall_mem_cons.mp hframes
    rw [visitSorted]
    refine Visited.sound_of_frame hframe s fun r => ?_
    dsimp only
    split
    · exact ih hrest (f.learnIds r) _ _
    · exact Visited.sound_of_ending (.ok ()) _

/-- **Reading the data only learns ids and fails inside the file,** in either
order and whatever the visitor does. -/
theorem visit_sound (f : RecordFile) (sorted : Bool) (take : σ → Record → σ × Bool) (s : σ) :
    (f.visit sorted take s).Sound f.bytes.length f := by
  have hdata := f.header.data.length_slice_le f.bytes
  obtain ⟨hframes, hfault⟩ := Frame.ofData_inside (f.header.data.slice f.bytes)
  have hframes : ∀ frame ∈ f.frames.values, frame.bytes.length ≤ f.bytes.length :=
    fun frame hframe => Nat.le_trans (hframes frame hframe) hdata
  have hfault : ∀ e, f.frames.fault? = some e → e.RefusedUpTo f.bytes.length :=
    fun e he => (hfault e he).mono hdata
  unfold visit
  cases sorted with
  | true => exact visitSorted_sound hframes hfault f _ s
  | false => exact visitInOrder_sound hframes hfault f s

end Visits

theorem failsInside_optional {α : Type} {decode : Bytes → Except Corruption α}
    (hdecode : ∀ bs, FailsInside bs.length (decode bs)) (f : RecordFile) (feature : Feature) :
    FailsInside f.bytes.length (f.optional feature decode) := by
  unfold optional featurePayload?
  cases f.features.get? feature with
  | none => exact .ok none
  | some s => exact ((hdecode _).mono (s.length_slice_le f.bytes)).map some

/-! ### What an accepted file points to -/

theorem learnIds_bytes (f : RecordFile) (r : Record) : (f.learnIds r).bytes = f.bytes := by
  cases r <;> rfl

theorem foldl_learnIds_bytes (f : RecordFile) (rs : List Record) :
    (rs.foldl RecordFile.learnIds f).bytes = f.bytes := by
  induction rs generalizing f with
  | nil => rfl
  | cons r rest ih =>
    rw [List.foldl_cons, ih, learnIds_bytes]

/-- Nothing that the file points to is out of range: its sections end within
it, and where their ends are computed no word overflows; there is a first attr,
and an id belongs to no index beyond the last one. -/
structure InRange (f : RecordFile) : Prop where
  sections_fit : ∀ s ∈ f.sections, s.fits f.bytes.length = true
  featureTable_offset : f.header.featureTable.offset.toNat = f.header.data.stop
  attrs_ne_nil : f.attrs ≠ []
  index_lt : ∀ id i, f.idToAttr.get? id = some i → i < f.attrs.length

theorem inRange_of_ofBytes {path : String} {file : Bytes} (h : ofBytes path file = .ok f) :
    f.InRange := by
  have hopened := ofBytes_eq_ok_iff.mp h
  have hfresh := fresh_of_ofBytes h
  refine ⟨?_, hopened.featureTable_offset, hfresh.nonempty, fun id i hi => ?_⟩
  · rw [hopened.bytes_eq]
    exact hopened.fits
  · have htable : f.idToAttr = OrderedMap.ofList (listed f.attrs) := hfresh.idToAttr
    rw [htable, OrderedMap.get?_ofList, Option.map_eq_some_iff] at hi
    obtain ⟨e, he, rfl⟩ := hi
    obtain ⟨a, ha, -⟩ := mem_listed.mp (List.mem_reverse.mp (List.mem_of_find?_eq_some he))
    exact (List.getElem?_eq_some_iff.mp ha).1

/-- **A record that is read leaves everything in range,** whatever ids it
announces for whatever attrs. -/
theorem InRange.learnIds (h : f.InRange) (r : Record) : (f.learnIds r).InRange := by
  have hsections : (f.learnIds r).sections = f.sections := by cases r <;> rfl
  have hbytes := f.learnIds_bytes r
  have hheader : (f.learnIds r).header = f.header := by cases r <;> rfl
  refine ⟨?_, ?_, ?_, fun id i hi => ?_⟩
  · rw [hsections, hbytes]
    exact h.sections_fit
  · rw [hheader]
    exact h.featureTable_offset
  · rw [learnIds_attrs]
    exact h.attrs_ne_nil
  · rw [learnIds_attrs]
    rw [learnIds_idToAttr, OrderedMap.get?_foldl_insert, Option.or_eq_some_iff] at hi
    rcases hi with hi | ⟨-, hi⟩
    · obtain ⟨e, he, rfl⟩ := Option.map_eq_some_iff.mp hi
      exact Record.snd_lt_of_mem_announced (List.mem_reverse.mp (List.mem_of_find?_eq_some he))
    · exact h.index_lt id i hi

theorem InRange.foldl_learnIds (h : f.InRange) (rs : List Record) :
    (rs.foldl RecordFile.learnIds f).InRange := by
  induction rs generalizing f with
  | nil => exact h
  | cons r rest ih => exact ih (h.learnIds r)

/-! ### Opening -/

theorem failsInside_range (file : Bytes) (s : Section) : FailsInside size (range file s) := by
  unfold range
  split
  · exact .ok _
  · exact .fault trivial

theorem failsInside_readEntries (h : FileHeader) (file : Bytes) :
    FailsInside file.length (readEntries h file) := by
  refine (failsInside_range file h.attrs).bind fun table htable => ?_
  obtain ⟨-, rfl⟩ := range_eq_ok_iff.mp htable
  refine .mapM fun chunk hchunk => ?_
  have hlength : chunk.length ≤ file.length := by
    have hle := Bytes.length_le_length_of_mem_chunks (List.mem_filter.mp hchunk).1
    exact Nat.le_trans hle (h.attrs.length_slice_le file)
  exact (FileAttr.failsInside_decode chunk).mono hlength

theorem failsInside_readAttrs (h : FileHeader) (file : Bytes) :
    FailsInside file.length (readAttrs h file) := by
  have hids : ∀ earlier number entry,
      FailsInside file.length (readIds h file earlier number entry) := by
    intro earlier number entry
    unfold readIds
    refine .guarded trivial fun _ => ?_
    cases h.fixedSections.find? fun s => s.2.overlaps entry.ids with
    | some met => exact .fault trivial
    | none =>
      cases earlier.findIdx? fun f => f.ids.overlaps entry.ids with
      | some other => exact .fault trivial
      | none => exact (failsInside_range file entry.ids).bind fun _ _ => .ok _
  have hafter : ∀ entries doneRev,
      FailsInside file.length (readAttrsAfter h file doneRev entries) := by
    intro entries
    induction entries with
    | nil => exact fun _ => .ok []
    | cons entry rest ih =>
      exact fun doneRev => (hids _ _ entry).bind fun ids _ =>
        (ih (entry :: doneRev)).bind fun others _ => .ok _
  refine (failsInside_readEntries h file).bind fun entries _ => ?_
  exact .guarded trivial fun _ => hafter entries []

theorem failsInside_addFeature (file : Bytes) (tableEnd : Nat) (known : OrderedMap Feature Section)
    (feature : Feature) (s : Section) :
    FailsInside file.length (addFeature file tableEnd known feature s) := by
  unfold addFeature
  refine .guarded trivial fun _ => ?_
  refine (failsInside_range file s).bind fun _ _ => ?_
  cases known.entries.find? fun e => e.2.overlaps s with
  | some met => exact .fault trivial
  | none => exact .ok _

theorem failsInside_readFeatures (h : FileHeader) (file : Bytes) :
    FailsInside file.length (readFeatures h file) := by
  refine (failsInside_range file h.featureTable).bind fun table htable => ?_
  obtain ⟨-, rfl⟩ := range_eq_ok_iff.mp htable
  refine FailsInside.foldlM ?_ _
  intro place hplace known
  have hlength : place.2.length ≤ file.length := by
    have hle := Bytes.length_le_length_of_mem_chunks (List.of_mem_zip hplace).2
    exact Nat.le_trans hle (h.featureTable.length_slice_le file)
  refine ((Section.follows_parse.inside.value _).mono hlength).bind fun s _ => ?_
  exact failsInside_addFeature file _ known place.1 s

end RecordFile

namespace FileHeader

theorem failsInside_check {size : Nat} (h : FileHeader) (fileSize : Nat) :
    FailsInside size (h.check fileSize) := by
  have hranges : ∀ sections, FailsInside size (checkRanges fileSize sections) := by
    intro sections
    fun_induction checkRanges fileSize sections with
    | case1 => exact .ok ()
    | case2 name s rest hfits ih => exact ih
    | case3 name s rest hfits => exact .fault trivial
  have hdisjoint : ∀ sections, FailsInside size (checkDisjoint sections) := by
    intro sections
    fun_induction checkDisjoint sections with
    | case1 => exact .ok ()
    | case2 name s rest other met hmet => exact .fault trivial
    | case3 name s rest hnone ih => exact ih
  unfold check
  refine .guarded trivial fun _ => .guarded trivial fun _ => ?_
  refine (hranges _).bind fun _ _ => (hdisjoint _).bind fun _ _ => ?_
  split
  · exact .fault trivial
  · exact .ok ()

end FileHeader

/-- The error is corruption, and where its cause is that bytes were asked for, a
buffer of at most this size does not hold them. -/
def Error.CorruptUpTo (size : Nat) (e : Error) : Prop :=
  ∃ cause : Corruption, e = .corrupt cause ∧ cause.RefusedUpTo size

theorem FailsInside.corruptUpTo {α : Type} {size : Nat} {x : Except Corruption α} {e : Error}
    (hx : FailsInside size x) (h : (liftM x : Except Error α) = .error e) :
    e.CorruptUpTo size := by
  obtain ⟨cause, hcause, rfl⟩ := liftM_eq_error_iff.mp h
  exact ⟨cause, rfl, hx cause hcause⟩

namespace RecordFile

/-- The file has several attrs, but no places where all of them keep the event
id. -/
def IdsUnplaced (file : Bytes) : Prop :=
  ∃ header attrs, fileHeaderSize ≤ file.length ∧ FileHeader.parse.value file = .ok header ∧
    header.Valid file.length ∧ readAttrs header file = .ok attrs ∧ 1 < attrs.length ∧
    ¬ ∃ p, ∀ entry ∈ attrs, entry.attr.sampleType.idPositions? = some p

section Opening

variable {path : String} {file : Bytes} {header : FileHeader} {attrs : List AttrWithIds}

theorem ofBytes_of_commonIdPositions_error {cause : Misuse}
    (hsize : fileHeaderSize ≤ file.length) (hheader : FileHeader.parse.value file = .ok header)
    (hvalid : header.Valid file.length) (hattrs : readAttrs header file = .ok attrs)
    (hmany : 1 < attrs.length)
    (hcommon : commonIdPositions (attrs.map AttrWithIds.attr) = .error cause) :
    ofBytes path file = .error (.misuse cause) := by
  have hcheck := FileHeader.check_eq_ok_iff.mpr hvalid
  unfold ofBytes
  refine throwIf_bind_eq_error_iff.mpr (.inr ⟨Nat.not_lt.mpr hsize, ?_⟩)
  refine bind_eq_error_iff.mpr (.inr ⟨header, liftM_eq_ok_iff.mpr hheader, ?_⟩)
  refine bind_eq_error_iff.mpr (.inr ⟨(), liftM_eq_ok_iff.mpr hcheck, ?_⟩)
  refine bind_eq_error_iff.mpr (.inr ⟨attrs, liftM_eq_ok_iff.mpr hattrs, ?_⟩)
  rw [if_pos hmany]
  refine bind_eq_error_iff.mpr (.inl ?_)
  rw [hcommon]
  rfl

/-- **Where the ids are unplaced, opening blames the caller.** -/
theorem ofBytes_of_idsUnplaced (h : IdsUnplaced file) :
    ∃ cause, ofBytes path file = .error (.misuse cause) := by
  obtain ⟨header, attrs, hsize, hheader, hvalid, hattrs, hmany, hnone⟩ := h
  cases hcommon : commonIdPositions (attrs.map AttrWithIds.attr) with
  | ok p =>
    have hagree := idPositions_of_commonIdPositions hcommon
    exact absurd ⟨p, fun entry hentry => hagree _ (List.mem_map_of_mem hentry)⟩ hnone
  | error cause =>
    exact ⟨cause, ofBytes_of_commonIdPositions_error hsize hheader hvalid hattrs hmany hcommon⟩

theorem corruptUpTo_or_idsUnplaced {e : Error} (h : ofBytes path file = .error e) :
    e.CorruptUpTo file.length ∨ (∃ cause, e = .misuse cause) ∧ IdsUnplaced file := by
  unfold ofBytes at h
  rcases throwIf_bind_eq_error_iff.mp h with ⟨-, rfl⟩ | ⟨hsize, h⟩
  · exact .inl ⟨_, rfl, 0, Nat.zero_le _, trivial⟩
  rcases bind_eq_error_iff.mp h with h | ⟨header, hheader, h⟩
  · exact .inl ((FileHeader.inside_parse.value file).corruptUpTo h)
  rcases bind_eq_error_iff.mp h with h | ⟨_, hvalid, h⟩
  · exact .inl ((header.failsInside_check _).corruptUpTo h)
  rcases bind_eq_error_iff.mp h with h | ⟨attrs, hattrs, h⟩
  · exact .inl ((failsInside_readAttrs header file).corruptUpTo h)
  have hfeatures := failsInside_readFeatures header file
  have hheader := liftM_eq_ok_iff.mp hheader
  have hvalid := FileHeader.check_eq_ok_iff.mp (liftM_eq_ok_iff.mp hvalid)
  have hattrs := liftM_eq_ok_iff.mp hattrs
  by_cases hmany : 1 < attrs.length
  · rw [if_pos hmany] at h
    rcases bind_eq_error_iff.mp h with h | ⟨positions?, -, h⟩
    · -- the only step that judges what was read, and blames the caller
      cases hcommon : commonIdPositions (attrs.map AttrWithIds.attr) with
      | ok p =>
        rw [hcommon] at h
        cases h
      | error cause =>
        rw [hcommon] at h
        cases h
        refine .inr ⟨⟨cause, rfl⟩, header, attrs, Nat.not_lt.mp hsize, hheader, hvalid, hattrs,
          hmany, ?_⟩
        rintro ⟨p, hp⟩
        have hne : attrs.map AttrWithIds.attr ≠ [] := by
          intro hnil
          rw [List.map_eq_nil_iff.mp hnil] at hmany
          exact absurd hmany (Nat.not_lt_zero 1)
        have hagree := (commonIdPositions_eq_ok_iff hne).mpr (List.forall_mem_map.mpr hp)
        cases hcommon.symm.trans hagree
    · rcases bind_eq_error_iff.mp h with h | ⟨features, -, h⟩
      · exact .inl (hfeatures.corruptUpTo h)
      · cases h
  · rw [if_neg hmany] at h
    rcases bind_eq_error_iff.mp h with h | ⟨positions?, -, h⟩
    · cases h
    · rcases bind_eq_error_iff.mp h with h | ⟨features, -, h⟩
      · exact .inl (hfeatures.corruptUpTo h)
      · cases h

end Opening

/-! ### Any use of a file -/

/-- What can be asked of an accepted file: a feature, or its records in one of
the two orders. A visitor may decline after any record, so the file between two
records is also the file after a request. -/
inductive Request : Type 1 where
  | hostname
  | osRelease
  | arch
  | commandLine
  | buildIds
  | metaInfo
  | nrCpus
  | eventDescs
  | fileEntries
  | visit {σ : Type} (sorted : Bool) (take : σ → Record → σ × Bool) (start : σ)

namespace Request

/-- How an operation ends, whatever it gives. -/
def ending {α : Type} (x : Except Corruption α) : Except Error Unit :=
  (fun _ => ()) <$> (liftM x : Except Error α)

def outcome (f : RecordFile) : Request → Except Error Unit
  | hostname => ending f.hostname
  | osRelease => ending f.osRelease
  | arch => ending f.arch
  | commandLine => ending f.commandLine
  | buildIds => ending f.buildIds
  | metaInfo => ending f.metaInfo
  | nrCpus => ending f.nrCpus
  | eventDescs => ending f.eventDescs
  | fileEntries => ending f.fileEntries
  | visit sorted take start => ending (f.visit sorted take start).outcome

/-- The file as a request leaves it. -/
def next (f : RecordFile) : Request → RecordFile
  | visit sorted take start => (f.visit sorted take start).file
  | _ => f

theorem corruptUpTo_of_ending {α : Type} {x : Except Corruption α} (hx : FailsInside size x)
    {e : Error} (h : ending x = .error e) : e.CorruptUpTo size := by
  cases x with
  | error cause =>
    cases h
    exact ⟨cause, rfl, hx cause rfl⟩
  | ok v => cases h

theorem learned_next (f : RecordFile) (q : Request) :
    ∃ rs : List Record, q.next f = rs.foldl RecordFile.learnIds f := by
  cases q with
  | visit sorted take start => exact (f.visit_sound sorted take start).learned
  | _ => exact ⟨[], rfl⟩

/-- **Every request fails by corruption only,** of bytes that are in the file. -/
theorem corruptUpTo_of_outcome (f : RecordFile) (q : Request) {e : Error}
    (h : q.outcome f = .error e) : e.CorruptUpTo f.bytes.length := by
  cases q with
  | hostname | osRelease | arch =>
    exact corruptUpTo_of_ending (failsInside_optional LengthText.inside_parse.value f _) h
  | nrCpus => exact corruptUpTo_of_ending (failsInside_optional CpuCounts.inside_parse.value f _) h
  | commandLine =>
    have hinside := failsInside_optional CommandLineFeature.inside_parse.value f Feature.cmdline
    exact corruptUpTo_of_ending (hinside.map _) h
  | buildIds =>
    have hinside := failsInside_optional (BuildIdList.failsInside_decodeFrom 0) f Feature.buildId
    exact corruptUpTo_of_ending (hinside.map _) h
  | metaInfo =>
    have hinside := failsInside_optional (MetaInfo.failsInside_decodeInto ⟨[]⟩) f Feature.metaInfo
    exact corruptUpTo_of_ending (hinside.map _) h
  | eventDescs =>
    have hinside := failsInside_optional EventDesc.inside_parse.value f Feature.eventDesc
    exact corruptUpTo_of_ending (hinside.map _) h
  | fileEntries =>
    have hdecode : ∀ bs, FailsInside bs.length (FileEntry.decodeList bs) :=
      fun bs => (FileEntry.inside_parseAll bs.length).value bs
    exact corruptUpTo_of_ending ((failsInside_optional hdecode f Feature.file).map _) h
  | visit sorted take start =>
    exact corruptUpTo_of_ending (f.visit_sound sorted take start).failsInside h

end Request

/-- The file after some requests, whether they succeeded or not. -/
def after (f : RecordFile) (requests : List Request) : RecordFile := requests.foldl Request.next f

theorem learned_after (f : RecordFile) (requests : List Request) :
    ∃ rs : List Record, f.after requests = rs.foldl RecordFile.learnIds f := by
  induction requests generalizing f with
  | nil => exact ⟨[], rfl⟩
  | cons q rest ih =>
    obtain ⟨rs, hrs⟩ := q.learned_next f
    obtain ⟨others, hothers⟩ := ih (q.next f)
    refine ⟨rs ++ others, ?_⟩
    rw [List.foldl_append, ← hrs, ← hothers]
    rfl

/-- **A malformed file is reported as corruption**, and no use of it leaves the
file: opening fails so, except that it blames the caller for exactly the files
whose ids are unplaced; and after any requests to an accepted file everything
that it points to is in range, and the next request fails so. -/
theorem faults_of_ofBytes (path : String) (file : Bytes) :
    (∀ e, ofBytes path file = .error e →
      e.CorruptUpTo file.length ∨ ∃ cause, e = .misuse cause) ∧
    ((∃ cause, ofBytes path file = .error (.misuse cause)) ↔ IdsUnplaced file) ∧
    ∀ f, ofBytes path file = .ok f → ∀ requests : List Request,
      (f.after requests).InRange ∧
        ∀ (q : Request) (e : Error), q.outcome (f.after requests) = .error e →
          e.CorruptUpTo file.length := by
  refine ⟨fun e h => ?_, ⟨fun ⟨cause, h⟩ => ?_, ofBytes_of_idsUnplaced⟩, fun f h requests => ?_⟩
  · exact (corruptUpTo_or_idsUnplaced h).imp_right And.left
  · rcases corruptUpTo_or_idsUnplaced h with ⟨_, hcorrupt, -⟩ | ⟨-, hids⟩
    · cases hcorrupt
    · exact hids
  · obtain ⟨rs, hrs⟩ := f.learned_after requests
    have hbytes : (f.after requests).bytes = file := by
      rw [hrs, foldl_learnIds_bytes]
      exact (ofBytes_eq_ok_iff.mp h).bytes_eq
    rw [← hbytes]
    refine ⟨?_, fun q e => q.corruptUpTo_of_outcome _⟩
    rw [hrs]
    exact (inRange_of_ofBytes h).foldl_learnIds rs

/-- The header of a file with one attr, four bytes of data and a hostname of
one byte. -/
def headerOfCutFile : FileHeader :=
  { attrs := ⟨104, 136⟩, data := ⟨240, 4⟩, features := BitVec.twoPow 256 Feature.hostname }

/-- Half a record header, and one byte of the length of a text. -/
def cutFile : Bytes :=
  headerOfCutFile.encode ++ (FileAttr.encode ⟨{}, {}⟩ ++
    ([1, 0, 0, 0] ++ ((⟨260, 1⟩ : Section).encode ++ [7])))

def openedCutFile : RecordFile :=
  ⟨"perf.data", cutFile, headerOfCutFile, [⟨{}, []⟩], ⟨[(Feature.hostname, ⟨260, 1⟩)]⟩, ⟨[]⟩, none⟩

/-- The file is accepted, and both its data and its feature are then found to be
corrupt. -/
theorem faults_of_ofBytes_cut_file :
    let count : Request := .visit true (fun n _ => (n + 1, true)) 0
    ofBytes "perf.data" cutFile = .ok openedCutFile ∧
      (openedCutFile.after [count, .hostname]).InRange ∧
      count.outcome openedCutFile = .error (.corrupt (.shortRead 2 4 4)) ∧
      Request.hostname.outcome openedCutFile = .error (.corrupt (.shortRead 4 0 1)) ∧
      Error.CorruptUpTo cutFile.length (.corrupt (.shortRead 2 4 4)) ∧
      Error.CorruptUpTo cutFile.length (.corrupt (.shortRead 4 0 1)) := by
  intro count
  have hlen : cutFile.length = 261 := by decide +kernel
  have hids : headerOfCutFile.featureIds = [Feature.hostname] := by decide +kernel
  have htable : headerOfCutFile.featureTable = ⟨244, 16⟩ := by decide +kernel
  have hvalid : headerOfCutFile.Valid cutFile.length := by
    rw [hlen]
    exact ⟨by decide, by decide, by decide, by decide, by decide⟩
  have hplaced : (⟨260, 1⟩ : Section).Placed cutFile headerOfCutFile.featureTable.stop := by
    rw [htable]
    exact ⟨by rw [hlen]; decide, by decide⟩
  have hfeatures : readFeatures headerOfCutFile cutFile =
      .ok ⟨[(Feature.hostname, ⟨260, 1⟩)]⟩ :=
    readFeatures_eq_ok_iff.mpr ⟨by rw [htable, hlen]; decide, [⟨260, 1⟩], by rw [hids]; rfl,
      by rw [htable]; decide +kernel, List.forall_mem_singleton.mpr hplaced,
      List.pairwise_singleton _ _, by rw [hids]; rfl⟩
  have hok : ofBytes "perf.data" cutFile = .ok openedCutFile :=
    ofBytes_of_single_attr "perf.data" (by rw [hlen]; decide) (headerOfCutFile.parse_encode _)
      hvalid rfl (by decide +kernel) hfeatures
  have hcount : count.outcome openedCutFile = .error (.corrupt (.shortRead 2 4 4)) := by
    decide +kernel
  have hname : Request.hostname.outcome openedCutFile = .error (.corrupt (.shortRead 4 0 1)) := by
    decide +kernel
  obtain ⟨-, -, haccepted⟩ := faults_of_ofBytes "perf.data" cutFile
  exact ⟨hok, (haccepted _ hok _).1, hcount, hname, (haccepted _ hok []).2 _ _ hcount,
    (haccepted _ hok []).2 _ _ hname⟩

/-- The header of a file with two attrs and nothing else. -/
def headerOfTwoAttrs : FileHeader := { attrs := ⟨104, 272⟩, data := ⟨376, 0⟩ }

/-- Two attrs without ids are all that is wrong with the file, and opening it
does not call it corrupt. -/
theorem ofBytes_of_two_attrs_without_ids :
    let file := headerOfTwoAttrs.encode ++ (FileAttr.encode ⟨{}, {}⟩ ++ FileAttr.encode ⟨{}, {}⟩)
    ∃ e, ofBytes "perf.data" file = .error e ∧ ∀ cause, e ≠ .corrupt cause := by
  intro file
  have hlen : file.length = 376 := by decide +kernel
  have hvalid : headerOfTwoAttrs.Valid file.length := by
    rw [hlen]
    exact ⟨by decide, by decide, by decide, by decide, by decide⟩
  have hentries : readEntries headerOfTwoAttrs file = .ok [⟨{}, {}⟩, ⟨{}, {}⟩] :=
    readEntries_eq_ok hvalid.fixed_fit.2.1 rfl (by decide +kernel)
  have hreadable : FileAttr.Readable headerOfTwoAttrs file ⟨{}, {}⟩ :=
    ⟨rfl, by decide, by rw [hlen]; decide⟩
  have hattrs : readAttrs headerOfTwoAttrs file = .ok [⟨{}, []⟩, ⟨{}, []⟩] :=
    readAttrs_eq_ok_iff.mpr ⟨_, hentries, by decide, by simp [hreadable], by decide,
      by decide +kernel⟩
  have hopened : ofBytes "perf.data" file = .error (.misuse .idsMissing) :=
    ofBytes_of_commonIdPositions_error (by rw [hlen]; decide) (headerOfTwoAttrs.parse_encode _)
      hvalid hattrs (by decide) (by decide)
  refine ⟨_, hopened, ?_⟩
  rintro cause ⟨⟩

end RecordFile
end Profiler
