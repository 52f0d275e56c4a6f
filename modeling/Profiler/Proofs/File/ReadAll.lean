/-
# Records that were stored are read back

A file is read record by record, and each record is decoded by its own attr:
the only one, or the one that its event id belongs to by then. What is known of
the file while it is read (`RecordFile.Reading`) holds when it is opened, is
kept by every record, and is enough to find the attr; so all records come back,
in their order, whatever their lengths are.

Key definitions: `Record.AttrFree`, `Record.AttrOf`, `RecordFile.Fresh`,
`RecordFile.Reading`.
Key theorems: `RecordFile.fresh_of_ofBytes`, `RecordFile.Reading.learnIds`,
`RecordFile.Reading.attrFor`, `RecordFile.readAll_splitForFile`.
-/
import Profiler.Proofs.File.Frames
import Profiler.Proofs.File.Routing
import Profiler.Proofs.File.Sections
import Profiler.Proofs.Record.Counts
import Profiler.Proofs.Record.EventId

namespace Profiler

/-! ### The attr of a record -/

namespace Record

/-- Whether every attr decodes the record alike: it is not understood, or the
kernel did not make it. -/
def AttrFree (r : Record) : Prop := r.kind? = none ∨ firstUserDefinedType ≤ r.type

instance (r : Record) : Decidable r.AttrFree := inferInstanceAs (Decidable (_ ∨ _))

/-- The attrs that may decode a record which follows the records `before`. -/
inductive AttrOf (attrs : List AttrWithIds) (before : List Record) (r : Record) : Attr → Prop where
  | free (h : r.AttrFree) (a : Attr) : AttrOf attrs before r a
  | only (entry : AttrWithIds) (h : attrs = [entry]) : AttrOf attrs before r entry.attr
  | owner (entry : AttrWithIds) (id : UInt64) (i : Nat) (hid : r.eventId = some id)
      (howner : ownerOf attrs before id = some i) (hentry : attrs[i]? = some entry) :
      AttrOf attrs before r entry.attr

theorem AttrOf.mem {attrs : List AttrWithIds} {before : List Record} {r : Record} {a : Attr}
    (h : r.AttrOf attrs before a) (hfree : ¬ r.AttrFree) : ∃ entry ∈ attrs, entry.attr = a := by
  cases h with
  | free h => exact absurd h hfree
  | only entry h => exact ⟨entry, h ▸ List.mem_singleton_self entry, rfl⟩
  | owner entry id i hid howner hentry => exact ⟨entry, List.mem_of_getElem? hentry, rfl⟩

/-- A record that not every attr decodes alike has one attr. -/
theorem AttrOf.unique {attrs : List AttrWithIds} {before : List Record} {r : Record} {a b : Attr}
    (ha : r.AttrOf attrs before a) (hb : r.AttrOf attrs before b) (hfree : ¬ r.AttrFree) :
    a = b := by
  obtain ⟨x, hx, hxa⟩ := ha.mem hfree
  obtain ⟨y, hy, hyb⟩ := hb.mem hfree
  have hsingle : ∀ entry, attrs = [entry] → a = b := by
    rintro entry rfl
    rw [← hxa, ← hyb, List.mem_singleton.mp hx, List.mem_singleton.mp hy]
  cases ha with
  | free h => exact absurd h hfree
  | only entry h => exact hsingle entry h
  | owner entry id i hid howner hentry =>
    cases hb with
    | free h => exact absurd h hfree
    | only entry' h => exact hsingle entry' h
    | owner entry' id' i' hid' howner' hentry' =>
      cases hid.symm.trans hid'
      cases howner.symm.trans howner'
      cases hentry.symm.trans hentry'
      rfl

theorem wellFormed_of_attrFree {r : Record} {a : Attr} (hfree : r.AttrFree) (hr : r.WellFormed a)
    (b : Attr) : r.WellFormed b := by
  obtain ⟨hshaped, -⟩ := hr
  cases r with
  | mmap | mmap2 | comm | exit | fork | lost | throttle | unthrottle | read | sample =>
    have huser := hfree.resolve_left nofun
    rw [type_eq_code rfl] at huser
    exact absurd huser (by decide)
  | _ => exact ⟨hshaped, trivial⟩

/-- Only a piece has the number of pieces. -/
theorem type_ne_split {r : Record} {a : Attr} (hr : r.WellFormed a)
    (hkind : r.kind? ≠ some .split) : r.type ≠ RecordKind.split.code := by
  intro htype
  cases hk : r.kind? with
  | some k =>
    rw [type_eq_code hk] at htype
    rw [hk, RecordKind.code_injective htype] at hkind
    exact hkind rfl
  | none =>
    cases r with
    | unknown u =>
      have hunknown : RecordKind.ofCode? (unknown u).type = none := hr.shaped
      rw [htype, RecordKind.ofCode?_code] at hunknown
      cases hunknown
    | _ => cases hk

end Record

namespace RecordFile

/-! ### A file that is being read -/

/-- None of the records has been read: the tables are those of the attrs. -/
structure Fresh (f : RecordFile) : Prop where
  nonempty : f.attrs ≠ []
  idToAttr : f.idToAttr = tableOfIds f.attrs
  positions : if 1 < f.attrs.length
    then ∃ p, commonIdPositions (f.attrs.map AttrWithIds.attr) = .ok p ∧ f.idPositions? = some p
    else f.idPositions? = none

/-- Among several attrs the id of every record can be looked up before it is
decoded. -/
def Placed (f : RecordFile) : Prop :=
  if 1 < f.attrs.length
    then ∃ p, f.idPositions? = some p ∧ ∀ entry ∈ f.attrs, entry.attr.has .sampleIdAll ∧
      entry.attr.sampleType.idPositions? = some p
    else f.idPositions? = none

/-- The records `before` have been read. Among several attrs the id of every
record can be looked up before it is decoded. -/
structure Reading (f : RecordFile) (before : List Record) : Prop where
  owners : ∀ id, f.idToAttr.get? id = ownerOf f.attrs before id
  positions : if 1 < f.attrs.length
    then ∃ p, f.idPositions? = some p ∧ ∀ entry ∈ f.attrs, entry.attr.has .sampleIdAll ∧
      entry.attr.sampleType.idPositions? = some p
    else f.idPositions? = none

theorem readAttrs_ne_nil {h : FileHeader} {file : Bytes} {attrs : List AttrWithIds}
    (hok : readAttrs h file = .ok attrs) : attrs ≠ [] := by
  obtain ⟨entries, -, hne, -, -, rfl⟩ := readAttrs_eq_ok_iff.mp hok
  exact fun hnil => hne (List.map_eq_nil_iff.mp hnil)

/-- **A file that has just been opened is fresh.** -/
theorem fresh_of_ofBytes {path : String} {file : Bytes} {f : RecordFile}
    (h : ofBytes path file = .ok f) : f.Fresh := by
  have hopened := ofBytes_eq_ok_iff.mp h
  exact ⟨readAttrs_ne_nil hopened.attrs_eq, hopened.idToAttr_eq, hopened.positions⟩

theorem Fresh.placed {f : RecordFile} (hf : f.Fresh)
    (hall : 1 < f.attrs.length → ∀ entry ∈ f.attrs, entry.attr.has .sampleIdAll) :
    f.Placed := by
  have hpositions := hf.positions
  unfold Placed
  split at hpositions
  · next hmany =>
    obtain ⟨p, hcommon, hp⟩ := hpositions
    rw [if_pos hmany]
    exact ⟨p, hp, fun entry hentry => ⟨hall hmany entry hentry,
      idPositions_of_commonIdPositions hcommon _ (List.mem_map_of_mem hentry)⟩⟩
  · next hone => rwa [if_neg hone]

theorem Fresh.reading {f : RecordFile} (hf : f.Fresh) (hids : IdsDisjoint f.attrs)
    (hall : 1 < f.attrs.length → ∀ entry ∈ f.attrs, entry.attr.has .sampleIdAll) :
    f.Reading [] where
  owners id := by
    rw [hf.idToAttr, get?_tableOfIds hids]
    rfl
  positions := hf.placed hall

/-- **Reading a record keeps what is known of the file.** -/
theorem Reading.learnIds {f : RecordFile} {before : List Record} (h : f.Reading before)
    (r : Record) : (f.learnIds r).Reading (before ++ [r]) where
  owners id := by
    rw [learnIds_attrs]
    exact get?_learnIds r h.owners id
  positions := by
    rw [learnIds_attrs, learnIds_idPositions?]
    exact h.positions

section Decoding

variable {f : RecordFile} {before : List Record} {r : Record} {a : Attr}

theorem attrFor_of_no_positions (h : f.idPositions? = none) (bs : Bytes) :
    f.attrFor bs = f.firstAttr := by
  unfold attrFor
  rw [h]
  rfl

theorem attrFor_of_owner {p : IdPositions} {bs : Bytes} {id : UInt64} {i : Nat}
    {entry : AttrWithIds} (hp : f.idPositions? = some p) (hid : peekEventId p bs = some id)
    (howner : f.idToAttr.get? id = some i) (hentry : f.attrs[i]? = some entry) :
    f.attrFor bs = entry.attr := by
  unfold attrFor
  simp only [hp, hid, howner, hentry, bind, Option.bind]

theorem firstAttr_eq {entry : AttrWithIds} (h : f.attrs = [entry]) : f.firstAttr = entry.attr := by
  unfold firstAttr
  rw [h]

/-- **The attr of a record is found before the record is decoded.** -/
theorem Reading.attrFor_encode (h : f.Reading before) (hattr : r.AttrOf f.attrs before a)
    (hr : r.WellFormed a) (hfree : ¬ r.AttrFree) : f.attrFor r.encode = a := by
  have hpositions := h.positions
  cases hattr with
  | free hr => exact absurd hr hfree
  | only entry hone =>
    rw [hone, List.length_singleton, if_neg (Nat.lt_irrefl 1)] at hpositions
    rw [attrFor_of_no_positions hpositions, firstAttr_eq hone]
  | owner entry id i hid howner hentry =>
    have hmem : entry ∈ f.attrs := List.mem_of_getElem? hentry
    -- a single attr has no id positions and is the one that is found without an id
    by_cases hmany : 1 < f.attrs.length
    · rw [if_pos hmany] at hpositions
      obtain ⟨p, hp, hentries⟩ := hpositions
      obtain ⟨hall, hsame⟩ := hentries entry hmem
      obtain ⟨k, hkind⟩ : ∃ k, r.kind? = some k :=
        Option.ne_none_iff_exists'.mp fun hnone => hfree (.inl hnone)
      have hkernel : r.type < firstUserDefinedType :=
        UInt32.not_le.mp fun huser => hfree (.inr huser)
      have hpeek := Record.peekEventId_encode hkind hkernel hr hall hsame
      exact attrFor_of_owner hp (hpeek.trans hid) ((h.owners id).trans howner) hentry
    · rw [if_neg hmany] at hpositions
      have hpos := List.length_pos_of_mem hmem
      obtain ⟨only, hone⟩ := List.length_eq_one_iff.mp (show f.attrs.length = 1 by omega)
      rw [hone, List.mem_singleton] at hmem
      rw [attrFor_of_no_positions hpositions, firstAttr_eq hone, hmem]

theorem decodeFrame_joined {bs : Bytes} {h : RecordHeader}
    (hheader : RecordHeader.decode bs = .ok h) :
    f.decodeFrame (.joined bs) = Record.decodeReassembled
      (if h.type < firstUserDefinedType then f.attrFor bs else f.firstAttr) bs := by
  simp only [decodeFrame, hheader]
  rfl

/-- **A stored record is decoded from its frame** if it agrees with the attr
that is found for it. -/
theorem decodeFrame_frame (hr : r.WellFormed (f.attrFor r.encode)) (hcounts : r.CountsFit) :
    f.decodeFrame r.frame = .ok r := by
  unfold Record.frame
  split
  · next hfits => exact Record.decode_encode hr hcounts hfits
  · have hheader : RecordHeader.decode r.encode = .ok r.header :=
      RecordHeader.decode_eq_ok_iff.mpr ⟨r.body, Record.encode_eq r⟩
    rw [decodeFrame_joined hheader]
    refine Record.decodeReassembled_encode ?_ hcounts
    split
    · exact hr
    · next huser => exact Record.wellFormed_of_attrFree (.inr (UInt32.not_lt.mp huser)) hr _

/-- What is found is the attr of the record, or another where every attr does. -/
theorem Reading.wellFormed_attrFor (h : f.Reading before) (hattr : r.AttrOf f.attrs before a)
    (hr : r.WellFormed a) : r.WellFormed (f.attrFor r.encode) := by
  by_cases hfree : r.AttrFree
  · exact Record.wellFormed_of_attrFree hfree hr _
  · rwa [h.attrFor_encode hattr hr hfree]

end Decoding

/-! ### All records of a file -/

/-- Every record agrees with its attr at its place, and none is a piece. -/
def Routed (attrs : List AttrWithIds) (before : List Record) : List Record → Prop
  | [] => True
  | r :: rest => (r.kind? ≠ some .split ∧ ∃ a, r.AttrOf attrs before a ∧ r.WellFormed a) ∧
      Routed attrs (before ++ [r]) rest

section Run

variable {f : RecordFile} {before rs : List Record}

/-- What is known of the file holds at every place of a run. -/
theorem Reading.foldl (h : f.Reading before) (rs : List Record) :
    (rs.foldl RecordFile.learnIds f).Reading (before ++ rs) := by
  induction rs generalizing f before with
  | nil => rwa [List.append_nil]
  | cons r rs ih =>
    have hnext := ih (h.learnIds r)
    rwa [List.append_assoc] at hnext

theorem foldl_learnIds_attrs (f : RecordFile) (rs : List Record) :
    (rs.foldl learnIds f).attrs = f.attrs := by
  induction rs generalizing f with
  | nil => rfl
  | cons r rs ih => rw [List.foldl_cons, ih, learnIds_attrs]

theorem Routed.at {attrs : List AttrWithIds} {mid after : List Record} {r : Record}
    (h : Routed attrs before (mid ++ r :: after)) :
    r.kind? ≠ some .split ∧ ∃ a, r.AttrOf attrs (before ++ mid) a ∧ r.WellFormed a := by
  induction mid generalizing before with
  | nil =>
    rw [List.append_nil]
    exact h.1
  | cons m mid ih =>
    have hrest := ih h.2
    rwa [List.append_assoc] at hrest

theorem Routed.of_mem {attrs : List AttrWithIds} {r : Record} (h : Routed attrs before rs)
    (hr : r ∈ rs) : r.kind? ≠ some .split ∧ ∃ a, r.WellFormed a := by
  obtain ⟨mid, after, rfl⟩ := List.append_of_mem hr
  obtain ⟨hkind, a, -, hwell⟩ := h.at
  exact ⟨hkind, a, hwell⟩

/-- Every record agrees with the attr that is found for it where it stands. -/
def Readable (f : RecordFile) : List Record → Prop
  | [] => True
  | r :: rest => r.WellFormed (f.attrFor r.encode) ∧ Readable (f.learnIds r) rest

theorem readable_concat (f : RecordFile) (rs : List Record) (r : Record) :
    f.Readable (rs ++ [r]) ↔
      f.Readable rs ∧ r.WellFormed ((rs.foldl learnIds f).attrFor r.encode) := by
  induction rs generalizing f with
  | nil => simp [Readable]
  | cons s rs ih =>
    rw [List.cons_append, Readable, ih, Readable, List.foldl_cons, and_assoc]

theorem Readable.wellFormed (h : f.Readable rs) : ∀ r ∈ rs, ∃ a, r.WellFormed a := by
  induction rs generalizing f with
  | nil => exact nofun
  | cons s rs ih =>
    intro r hr
    rcases List.mem_cons.mp hr with rfl | hr
    · exact ⟨_, h.1⟩
    · exact ih h.2 r hr

theorem Reading.readable (h : f.Reading before) (hrs : Routed f.attrs before rs) :
    f.Readable rs := by
  induction rs generalizing f before with
  | nil => trivial
  | cons r rs ih =>
    obtain ⟨⟨-, a, hattr, hr⟩, hrest⟩ := hrs
    rw [← learnIds_attrs f r] at hrest
    exact ⟨h.wellFormed_attrFor hattr hr, ih (h.learnIds r) hrest⟩

theorem visitInOrder_of_readable (h : f.Readable rs) (hcounts : ∀ r ∈ rs, r.CountsFit)
    (done : List Record) :
    visitInOrder (fun rs r => (r :: rs, true)) none f done (rs.map Record.frame) =
      ⟨rs.foldl RecordFile.learnIds f, rs.reverse ++ done, .ok ()⟩ := by
  induction rs generalizing f done with
  | nil => rfl
  | cons r rs ih =>
    rw [List.map_cons, visitInOrder, decodeFrame_frame h.1 (hcounts r List.mem_cons_self)]
    dsimp only
    rw [ih h.2 fun s hs => hcounts s (List.mem_cons_of_mem r hs), List.foldl_cons,
      List.reverse_cons, List.append_assoc]
    rfl

theorem visitInOrder_frames (h : f.Reading before) (hrs : Routed f.attrs before rs)
    (hcounts : ∀ r ∈ rs, r.CountsFit) (done : List Record) :
    visitInOrder (fun rs r => (r :: rs, true)) none f done (rs.map Record.frame) =
      ⟨rs.foldl RecordFile.learnIds f, rs.reverse ++ done, .ok ()⟩ :=
  visitInOrder_of_readable (h.readable hrs) hcounts done

theorem length_slice_lt (s : Section) (file : Bytes) : (s.slice file).length < UInt64.size := by
  have hle : (s.slice file).length ≤ s.size.toNat := List.length_take_le _ _
  exact Nat.lt_of_le_of_lt hle s.size.toNat_lt

theorem countsFit_of_wellFormed {s : Section} {file : Bytes}
    (hrs : ∀ r ∈ rs, ∃ a, r.WellFormed a)
    (hdata : s.slice file = rs.flatMap fun r => r.splitForFile.flatten) :
    ∀ r ∈ rs, r.CountsFit := by
  intro r hr
  obtain ⟨a, hwell⟩ := hrs r hr
  have hmem : r.splitForFile.flatten ∈ rs.map fun r => r.splitForFile.flatten :=
    List.mem_map.mpr ⟨r, hr, rfl⟩
  have hstored := (List.sublist_flatten_of_mem hmem).length_le
  rw [← List.flatMap_def, ← hdata] at hstored
  have hlen := length_slice_lt s file
  have hencode := r.length_encode_le_splitForFile
  exact Record.countsFit_of_length hwell (by omega)

theorem countsFit_of_stored {attrs : List AttrWithIds} {s : Section} {file : Bytes}
    (hrs : Routed attrs [] rs)
    (hdata : s.slice file = rs.flatMap fun r => r.splitForFile.flatten) :
    ∀ r ∈ rs, r.CountsFit := by
  refine countsFit_of_wellFormed (fun r hr => ?_) hdata
  exact (hrs.of_mem hr).2

/-- **Records that find their attrs are read back** from a data section. -/
theorem readAll_of_readable (h : f.Readable rs)
    (htypes : ∀ r ∈ rs, r.type ≠ RecordKind.split.code)
    (hdata : f.header.data.slice f.bytes = rs.flatMap fun r => r.splitForFile.flatten) :
    f.readAll = (.ok rs, rs.foldl learnIds f) := by
  have hframes : f.frames = ⟨rs.map Record.frame, none⟩ := by
    rw [frames, hdata, Frame.ofData_splitForFile htypes]
  have hvisit := visitInOrder_of_readable h (countsFit_of_wellFormed h.wellFormed hdata) []
  rw [List.append_nil] at hvisit
  unfold readAll visit
  simp only [hframes, Bool.false_eq_true, if_false, hvisit, Except.map, List.reverse_reverse]

/-- **Stored records are read back.** They come in their order, whatever their
lengths are: a record that is too long for its header is stored in pieces that
fit theirs. Each is decoded by its own attr, also where a record before it gave
the id to that attr. -/
theorem readAll_splitForFile (hf : f.Fresh) (hids : IdsDisjoint f.attrs)
    (hall : 1 < f.attrs.length → ∀ entry ∈ f.attrs, entry.attr.has .sampleIdAll)
    (hrs : Routed f.attrs [] rs)
    (hdata : f.header.data.slice f.bytes = rs.flatMap fun r => r.splitForFile.flatten) :
    f.readAll = (.ok rs, rs.foldl learnIds f) ∧
      (∀ r ∈ rs, ∀ piece ∈ r.splitForFile, piece.length ≤ maxRecordSize) ∧
      ∀ before r after a, rs = before ++ r :: after → r.AttrOf f.attrs before a →
        r.AttrFree ∨ (before.foldl learnIds f).attrFor r.encode = a := by
  have hreading := hf.reading hids hall
  have htypes : ∀ r ∈ rs, r.type ≠ RecordKind.split.code := by
    intro r hr
    obtain ⟨hkind, a, hwell⟩ := hrs.of_mem hr
    exact Record.type_ne_split hwell hkind
  refine ⟨?_, fun r _ piece => Record.length_le_of_mem_splitForFile, ?_⟩
  · have hframes : f.frames = ⟨rs.map Record.frame, none⟩ := by
      rw [frames, hdata, Frame.ofData_splitForFile htypes]
    have hvisit := visitInOrder_frames hreading hrs (countsFit_of_stored hrs hdata) []
    rw [List.append_nil] at hvisit
    unfold readAll visit
    simp only [hframes, Bool.false_eq_true, if_false, hvisit, Except.map, List.reverse_reverse]
  · rintro before r after a rfl hattr
    by_cases hfree : r.AttrFree
    · exact .inl hfree
    · obtain ⟨-, b, hattr', hwell⟩ := hrs.at
      rw [List.nil_append] at hattr'
      have hplace := hreading.foldl before
      rw [List.nil_append] at hplace
      rw [← foldl_learnIds_attrs f before] at hattr'
      rw [hattr.unique (foldl_learnIds_attrs f before ▸ hattr') hfree]
      exact .inr (hplace.attrFor_encode hattr' hwell hfree)

end Run

/-- Two attrs, a sample of the first, and a sample of the second under an id
that is announced between them. -/
theorem readAll_announced :
    let stamped : Attr := Attr.set {} .sampleIdAll true
    let first : Attr := { stamped with sampleType := SampleMask.of [.identifier, .ip] }
    let second : Attr := { stamped with sampleType := SampleMask.of [.identifier, .tid] }
    let rs : List Record := [
      .sample { Sample.ofAttr first with identifier := 1, ip := 4096 },
      .eventIds [(1, 3)],
      .sample { Sample.ofAttr second with identifier := 3, pid := 7, tid := 8 }]
    let data := rs.flatMap fun r => r.splitForFile.flatten
    let attrs : List AttrWithIds := [⟨first, [1]⟩, ⟨second, [2]⟩]
    let f : RecordFile := {
      path := "", bytes := data, header := { data := { size := UInt64.ofNat data.length } }, attrs
      features := ⟨[]⟩, idToAttr := tableOfIds attrs
      idPositions? := some { inSample := 8, fromEnd := 8 } }
    f.Fresh ∧ IdsDisjoint f.attrs ∧ (∀ entry ∈ f.attrs, entry.attr.has .sampleIdAll) ∧
      Routed f.attrs [] rs ∧ f.header.data.slice f.bytes = data ∧ f.readAll.1 = .ok rs := by
  intro stamped first second rs data attrs f
  have hfresh : f.Fresh := {
    nonempty := nofun
    idToAttr := rfl
    positions := ⟨{ inSample := 8, fromEnd := 8 }, by decide, rfl⟩ }
  have hids : IdsDisjoint f.attrs := List.pairwise_pair.mpr (by simp)
  have hall : ∀ entry ∈ f.attrs, entry.attr.has .sampleIdAll := by decide
  have hrs : Routed f.attrs [] rs :=
    ⟨⟨nofun, first, .owner ⟨first, [1]⟩ 1 0 (by decide) (by decide) rfl, by decide⟩,
      ⟨nofun, {}, .free (by decide) _, by decide⟩,
      ⟨nofun, second, .owner ⟨second, [2]⟩ 3 1 (by decide) (by decide) rfl, by decide⟩, trivial⟩
  have hdata : f.header.data.slice f.bytes = data := by decide
  have hread := readAll_splitForFile hfresh hids (fun _ => hall) hrs hdata
  exact ⟨hfresh, hids, hall, hrs, hdata, congrArg Prod.fst hread.1⟩

/-- A reading that is laid out otherwise than its attr asks is stored but not
read back, and with it the whole file. -/
theorem readAll_read_shaped :
    let r : Record := .read { readFormat := ReadField.id.mask, values := { values := [(5, 0)] } }
    let f : RecordFile := {
      path := "", bytes := r.encode, header := { data := { size := 32 } }, attrs := [⟨{}, []⟩]
      features := ⟨[]⟩, idToAttr := ⟨[]⟩, idPositions? := none }
    f.Fresh ∧ IdsDisjoint f.attrs ∧ r.kind? ≠ some .split ∧ r.AttrOf f.attrs [] {} ∧ r.Shaped {} ∧
      f.header.data.slice f.bytes = r.splitForFile.flatten ∧
      f.readAll.1 = .error (.recordTail 8 8) := by
  intro r f
  have hfresh : f.Fresh := { nonempty := nofun, idToAttr := rfl, positions := rfl }
  have hids : IdsDisjoint f.attrs := List.pairwise_singleton _ _
  have hdata : f.header.data.slice f.bytes = r.splitForFile.flatten := by decide
  have hframes : f.frames = ⟨[r.frame], none⟩ := by
    have hone : f.header.data.slice f.bytes = [r].flatMap fun r => r.splitForFile.flatten := by
      rw [List.flatMap_singleton, hdata]
    rw [frames, hone, Frame.ofData_splitForFile (by decide)]
    rfl
  refine ⟨hfresh, hids, nofun, .only ⟨{}, []⟩ rfl, by decide, hdata, ?_⟩
  have hfault : f.decodeFrame r.frame = .error (.recordTail 8 8) := by decide
  unfold readAll visit
  simp only [hframes, Bool.false_eq_true, if_false, visitInOrder, hfault]
  rfl

end RecordFile
end Profiler
